import Fcore.Calculus.PathPattern
import Fcore.Runs.OpenRequests

/-!
The order of the routes of the API (`src/bin/api/http/routes.rs`).

* `RoutePattern`: a method and a pattern of the path; `Takes`: the requests that a filter lets
  through have it;
* `routePatterns`: what the routes of the chain take;
* `exclusive_routes`: no request is taken by two of them;
* `route_order_irrelevant`: the service does the same for a request whatever the order of the
  routes.
-/

namespace Fcore

open Calculus

/-! ### Patterns of requests -/

/-- A method, or any, and a pattern of the path. -/
structure RoutePattern where
  method : Option Method
  path : PathPattern String

/-- The request has the method, and these parts of its path the pattern. -/
structure RoutePattern.Fits (p : RoutePattern) (rq : HttpRequest) (segments : List String) :
    Prop where
  method : ∀ m, p.method = some m → rq.method = m
  path : p.path.Fits segments

/-- No request has both. -/
def RoutePattern.clash (p q : RoutePattern) : Bool :=
  (match p.method, q.method with
    | some m, some m' => m != m'
    | _, _ => false) || p.path.clash q.path

lemma RoutePattern.not_fits_of_clash {p q : RoutePattern} {rq : HttpRequest}
    {segments : List String} (h : p.clash q = true) (hp : p.Fits rq segments) :
    ¬ q.Fits rq segments := by
  intro hq
  rcases Bool.or_eq_true_iff.mp h with hmethod | hpath
  · obtain ⟨mp, pp⟩ := p
    obtain ⟨mq, pq⟩ := q
    cases mp with
    | none => cases hmethod
    | some m =>
        cases mq with
        | none => cases hmethod
        | some m' =>
            refine bne_iff_ne.mp hmethod ?_
            exact (hp.method m rfl).symm.trans (hq.method m' rfl)
  · exact PathPattern.not_fits_of_clash hpath hp.path hq.path

/-- What a filter lets through has the method and the parts. -/
def Takes {α : Type} (f : RouteFilter α) (method : Option Method) (parts : List (Option String))
    (ends : Bool) : Prop :=
  ∀ {rq segments r}, f rq segments = some r → RoutePattern.Fits ⟨method, parts, ends⟩ rq segments

namespace Takes

open RouteFilter

variable {α : Type} {m : Option Method} {parts : List (Option String)} {ends : Bool}

lemma pure {x : α} : Takes (Pure.pure x : RouteFilter α) none [] false :=
  fun _ => ⟨fun _ hm => (by cases hm), fun h => (by cases h)⟩

lemma method {m' : Method} {g : Unit → RouteFilter α} (h : Takes (g ()) none parts ends) :
    Takes (RouteFilter.method m' >>= g) (some m') parts ends := by
  rintro rq segments ⟨y, rest⟩ hrun
  obtain ⟨x, left, hmethod, hg⟩ := run_bind hrun
  rw [RouteFilter.method] at hmethod
  split_ifs at hmethod with hm
  obtain ⟨rfl, rfl⟩ := Prod.mk.inj (Option.some.inj hmethod)
  exact ⟨fun m'' hm'' => hm.trans (Option.some.inj hm''), (h hg).path⟩

lemma path {name : String} {g : Unit → RouteFilter α} (h : Takes (g ()) m parts ends) :
    Takes (RouteFilter.path name >>= g) m (some name :: parts) ends := by
  rintro rq segments ⟨y, rest⟩ hrun
  obtain ⟨x, left, hpath, hg⟩ := run_bind hrun
  cases segments with
  | nil => cases hpath
  | cons segment segments =>
      rw [RouteFilter.path] at hpath
      split_ifs at hpath with hname
      obtain ⟨rfl, rfl⟩ := Prod.mk.inj (Option.some.inj hpath)
      exact ⟨(h hg).method, hname, (h hg).path⟩

lemma param {β : Type} {decode : String → Option β} {g : β → RouteFilter α}
    (h : ∀ x, Takes (g x) m parts ends) :
    Takes (RouteFilter.param decode >>= g) m (none :: parts) ends := by
  rintro rq segments ⟨y, rest⟩ hrun
  obtain ⟨x, left, hparam, hg⟩ := run_bind hrun
  cases segments with
  | nil => cases hparam
  | cons segment segments =>
      obtain ⟨y, -, hy⟩ := Option.map_eq_some_iff.mp hparam
      obtain ⟨rfl, rfl⟩ := Prod.mk.inj hy
      exact ⟨(h y hg).method, (h y hg).path⟩

lemma pathEnd {g : Unit → RouteFilter α} (h : Takes (g ()) m [] false) :
    Takes (RouteFilter.pathEnd >>= g) m [] true := by
  rintro rq segments ⟨y, rest⟩ hrun
  obtain ⟨x, left, hend, hg⟩ := run_bind hrun
  rw [RouteFilter.pathEnd] at hend
  split_ifs at hend with hnil
  obtain ⟨rfl, rfl⟩ := Prod.mk.inj (Option.some.inj hend)
  exact ⟨(h hg).method, fun _ => hnil⟩

/-- The filters that leave the path alone. -/
lemma through {β : Type} {f : RouteFilter β} {g : β → RouteFilter α}
    (hf : ∀ {rq segments x left}, f rq segments = some (x, left) → left = segments)
    (h : ∀ x, Takes (g x) m parts ends) : Takes (f >>= g) m parts ends := by
  rintro rq segments ⟨y, rest⟩ hrun
  obtain ⟨x, left, hleft, hg⟩ := run_bind hrun
  obtain rfl := hf hleft
  exact h x hg

lemma auth {token : String} {g : Unit → RouteFilter α} (h : Takes (g ()) m parts ends) :
    Takes (RouteFilter.auth token >>= g) m parts ends := by
  refine through (fun hrun => ?_) fun _ => h
  rw [RouteFilter.auth] at hrun
  split_ifs at hrun
  exact (Prod.mk.inj (Option.some.inj hrun)).2.symm

lemma query {β : Type} {decode : String → Option β} {g : β → RouteFilter α}
    (h : ∀ x, Takes (g x) m parts ends) : Takes (RouteFilter.query decode >>= g) m parts ends := by
  refine through (fun hrun => ?_) h
  obtain ⟨y, -, hy⟩ := Option.map_eq_some_iff.mp hrun
  exact (Prod.mk.inj hy).2.symm

lemma json {β : Type} {decode : String → Option β} {g : β → RouteFilter α}
    (h : ∀ x, Takes (g x) m parts ends) : Takes (RouteFilter.json decode >>= g) m parts ends := by
  refine through (fun hrun => ?_) h
  obtain ⟨y, -, hy⟩ := Option.map_eq_some_iff.mp hrun
  exact (Prod.mk.inj hy).2.symm

lemma ws {g : Unit → RouteFilter α} (h : Takes (g ()) m parts ends) :
    Takes (RouteFilter.ws >>= g) m parts ends := by
  refine through (fun hrun => ?_) fun _ => h
  rw [RouteFilter.ws] at hrun
  split_ifs at hrun
  exact (Prod.mk.inj (Option.some.inj hrun)).2.symm

end Takes

/-! ### The patterns of the chain -/

/-- What the routes of the chain take, in their order. -/
def routePatterns : List RoutePattern :=
  [⟨some .get, [some "healthcheck"], true⟩,
    ⟨some .get, [some "sub"], true⟩,
    ⟨some .get, [some "subscription", none], true⟩,
    ⟨some .post, [some "subscription"], true⟩,
    ⟨some .put, [some "subscription"], true⟩,
    ⟨some .get, [some "nodes"], true⟩,
    ⟨some .get, [some "node"], true⟩,
    ⟨some .post, [some "node"], true⟩,
    ⟨some .post, [some "connection"], true⟩,
    ⟨some .post, [some "connections", some "sync"], false⟩,
    ⟨some .delete, [some "connection"], true⟩,
    ⟨some .get, [some "info", some "connections", some "mtproto"], true⟩,
    ⟨some .get, [some "info", some "connections", some "wireguard"], true⟩,
    ⟨some .get, [some "connection"], true⟩,
    ⟨some .get, [some "key", some "validate"], true⟩,
    ⟨some .post, [some "key"], true⟩,
    ⟨some .post, [some "key", some "activate"], true⟩,
    ⟨some .post, [some "trial"], true⟩,
    ⟨none, [some "metrics", some "all", none, none, some "ws"], true⟩,
    ⟨none, [some "metrics", some "aggregate", none, none, none, some "ws"], true⟩]

/-- No request has two of them. -/
lemma clash_routePatterns : routePatterns.Pairwise fun p q => p.clash q = true := by
  decide +kernel

lemma takes_routes (d : Decoding) (token : String) :
    List.Forall₂ (fun route p => Takes route p.method p.path.parts p.path.ends) (routes d token)
      routePatterns := by
  repeat' first
    | exact List.Forall₂.nil
    | refine List.Forall₂.cons ?_ ?_
  all_goals repeat' first
    | exact Takes.pure
    | refine Takes.method ?_
    | refine Takes.path ?_
    | refine Takes.pathEnd ?_
    | refine Takes.auth ?_
    | refine Takes.ws ?_
    | refine Takes.param fun _ => ?_
    | refine Takes.query fun _ => ?_
    | refine Takes.json fun _ => ?_

/-- The requests that a route takes, with their endpoints. -/
def accepts (route : RouteFilter Endpoint) (rq : HttpRequest) : Option Endpoint :=
  (route rq rq.segments).map Prod.fst

/-- Two routes whose patterns clash. -/
lemma accepts_apart {f g : RouteFilter Endpoint} {p q : RoutePattern}
    (hf : Takes f p.method p.path.parts p.path.ends)
    (hg : Takes g q.method q.path.parts q.path.ends) (h : p.clash q = true) (rq : HttpRequest) :
    accepts f rq = none ∨ accepts g rq = none := by
  rw [accepts, accepts, Option.map_eq_none_iff, Option.map_eq_none_iff]
  cases hrun : f rq rq.segments with
  | none => exact .inl rfl
  | some r =>
      refine .inr (Option.eq_none_iff_forall_ne_some.mpr fun r' hrun' => ?_)
      exact RoutePattern.not_fits_of_clash h (hf hrun) (hg hrun')

/-- **No request is taken by two routes.** -/
lemma exclusive_routes (d : Decoding) (token : String) :
    Exclusive ((routes d token).map accepts) := by
  have htakes := takes_routes d token
  rw [Exclusive, List.pairwise_map, List.pairwise_iff_getElem]
  intro i j hi hj hij rq
  have hclash := List.pairwise_iff_getElem.mp clash_routePatterns i j
    (htakes.length_eq ▸ hi) (htakes.length_eq ▸ hj) hij
  exact accepts_apart (htakes.get hi _) (htakes.get hj _) hclash rq

/-- **The order of the routes does not matter**: a request is taken by one route at most, and the
service does the same for it whatever the order of the chain. -/
theorem route_order_irrelevant (cfg : RouteConfig) (d : Decoding) (random : Vector UInt8 6)
    (rq : HttpRequest) {chain : List (RouteFilter Endpoint)}
    (hperm : chain.Perm (routes d cfg.token)) :
    (taken d cfg.token rq).length ≤ 1 ∧
      serve cfg random (chain.filterMap fun route => accepts route rq) = rq.prog cfg d random := by
  have hexclusive := exclusive_routes d cfg.token
  have hone := hexclusive.length_le_one rq
  have hsame := hexclusive.eq_of_perm (hperm.map accepts) rq
  rw [List.filterMap_map] at hone hsame
  rw [List.filterMap_map] at hsame
  exact ⟨hone, congrArg (serve cfg random) hsame⟩

/-- A trial, whose route comes third in the reversed chain. -/
theorem route_order_irrelevant_reversed :
    (taken openDecoding "secret" (openRequest ["trial"]).1).length ≤ 1 ∧
      serve openConfig (.replicate 6 0) ((routes openDecoding "secret").reverse.filterMap
        fun route => accepts route (openRequest ["trial"]).1) =
      (openRequest ["trial"]).1.prog openConfig openDecoding (.replicate 6 0) :=
  route_order_irrelevant openConfig openDecoding (.replicate 6 0) (openRequest ["trial"]).1
    (List.reverse_perm _)

end Fcore
