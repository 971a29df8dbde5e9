import Fcore.Calculus.Once
import Fcore.Api.Handlers

/-!
Trials of one identity under overlapping requests (`post_trial_handler`).

`POST /trial` looks an identity up at its start and records it at its end.
Requests that all look it up before one of them has recorded it each create a
trial subscription.  A request whose address allocation is refused has created
its subscription already and leaves without recording the identity.

* `trialProtocol`: a ticket follows a request from its identity check to the
  record;
* `TrialInv`: at most one ticket is out, and as long as the identity is not
  recorded no subscription has been created;
* `trials_created_twice`: the run of two overlapping requests;
* `trials_created_once`: at most one subscription is created when no identity
  check is answered in the negative while another request is between its check
  and its end, no address is refused and drawn identifiers are new.
-/

namespace Fcore

open Calculus
open Machine (exec)

/-! ### The condition on steps -/

/-- The next call of a program is an identity check. -/
def isIdentityCheck : (β : Type) → Call β → Bool
  | _, .mail (.has _) => true
  | _, _ => false

/-- An identity is found unknown only while no other request is between its
identity check and its end, no WireGuard address is refused, and the identifier
of a new subscription is new to the memory. -/
def checksApart : Rule Call Input World
  | _, others, .mail (.has _), _, _, b =>
      b || others.all fun p => p.done || p.nextIs isIdentityCheck
  | _, _, .look (.wgProto _), _, _, .error _ => false
  | _, _, .edit (.subAdd sub), _, s, _ => (s.memory.subscriptions.get sub.id).isNone
  | _, _, _, _, _, _ => true

/-! ### The protocol of a request -/

/-- The protocol of requests for the identity with the hash `h`. -/
def trialProtocol (h : String) : Protocol Call (Multiset (Ticket Unit)) where
  admits
    | _, .look (.wgProto _), .error _ => False
    | _, .edit (.subAdd _), b => ∃ id, b = .ok id
    | _, _, _ => True
  may
    | _, .mail (.has h'), a => a = 0 ∧ h' = h
    | _, .look (.referrer _), a => a = {.opened ()}
    | _, .sql (.subAddDays _ _), a => a = {.opened ()}
    | _, .sql (.subCreate _), a => a = {.opened ()}
    | _, .mail (.save h' _), a => a = {.spent ()} ∧ h' = h
    | _, _, _ => True
  moves
    | _, .mail (.has _), false, _, a' => a' = {.opened ()}
    | _, .look (.referrer _), none, _, a' => a' = 0
    | _, .sql (.subAddDays _ _), .error _, _, a' => a' = 0
    | _, .sql (.subCreate _), .error _, _, a' => a' = 0
    | _, .sql (.subCreate _), .ok _, _, a' => a' = {.spent ()}
    | _, .mail (.save _ _), _, _, a' => a' = 0
    | _, _, _, a, a' => a' = a

section Programs

variable {h : String}

lemma trialProtocol_restore {a : Multiset (Ticket Unit)} {β : Type} {c : Call β}
    (hc : RestoreCall β c) :
    (trialProtocol h).may β c a ∧ ∀ b, (trialProtocol h).moves β c b a a := by
  cases hc <;> exact ⟨trivial, fun _ => rfl⟩

lemma trialProtocol_trial {a : Multiset (Ticket Unit)} {β : Type} {c : Call β}
    (hc : TrialCall β c) :
    (trialProtocol h).may β c a ∧ ∀ b, (trialProtocol h).moves β c b a a := by
  cases hc with
  | quiet hc => cases hc <;> exact ⟨trivial, fun _ => rfl⟩
  | _ => exact ⟨trivial, fun _ => rfl⟩

/-- A referral credit that fails gives the ticket back. -/
lemma trialProtocol_addDays (id : Uuid) (n : ℤ) :
    Obeys (trialProtocol h)
      (fun r a => match r with
        | .error _ => a = 0
        | .ok _ => a = {.opened ()})
      (addDays id n) {.opened ()} := by
  refine ⟨trivial, fun wasInactive _ => ⟨_, rfl, trivial, fun found _ => ⟨_, rfl, ?_⟩⟩⟩
  cases found with
  | false => exact rfl
  | true =>
      refine ⟨rfl, fun r _ => ?_⟩
      cases r with
      | error e => exact ⟨0, rfl, rfl⟩
      | ok row =>
          refine ⟨{Ticket.opened ()}, rfl, ?_⟩
          cases wasInactive with
          | false => exact rfl
          | true =>
              refine Obeys.bind (p := restoreConnectionsBySubscription id)
                (Obeys.of_uses (uses_restoreConnectionsBySubscription id)
                  fun _ _ => trialProtocol_restore) ?_
              rintro _ _ rfl
              exact rfl

/-- Recording an identity. -/
lemma trialProtocol_save {cfg : TrialConfig} {x : String} (hx : cfg.hmac x = h) (subId : Uuid)
    (time : DateTime) (refBy : String) :
    Obeys (trialProtocol h) (fun _ a => a = 0) (saveTrialHmac cfg (some x) subId time refBy)
      {.spent ()} :=
  ⟨⟨rfl, hx⟩, fun _ _ => ⟨0, rfl, trivial, fun _ _ => ⟨0, rfl, rfl⟩⟩⟩

/-- The two records at the end of a request with one identity. -/
lemma trialProtocol_saves {cfg : TrialConfig} {req : Trial} {x : String} (hx : cfg.hmac x = h)
    (hid : (req.user = some x ∧ req.email = none) ∨ (req.user = none ∧ req.email = some x))
    (subId : Uuid) (time : DateTime) (refBy : String) :
    Obeys (trialProtocol h) (fun _ a => a = 0)
      (saveTrialHmac cfg req.user subId time refBy >>= fun _ =>
        saveTrialHmac cfg req.email subId time refBy) {.spent ()} := by
  rcases hid with ⟨hu, he⟩ | ⟨hu, he⟩
  · rw [hu, he]
    exact (trialProtocol_save hx subId time refBy).bind fun _ _ h => h
  · rw [hu, he]
    exact trialProtocol_save hx subId time refBy

lemma trialProtocol_createTrial {cfg : TrialConfig} {req : Trial} {x : String}
    (hx : cfg.hmac x = h)
    (hid : (req.user = some x ∧ req.email = none) ∨ (req.user = none ∧ req.email = some x))
    (subId : Uuid) :
    Obeys (trialProtocol h) (fun _ a => a = 0) (createTrial cfg req subId) {.opened ()} := by
  refine ⟨trivial, fun now _ => ⟨_, rfl, trivial, fun created _ => ⟨_, rfl, ?_⟩⟩⟩
  refine ⟨rfl, fun r _ => ?_⟩
  cases r with
  | error e => exact ⟨0, rfl, rfl⟩
  | ok row =>
      refine ⟨{Ticket.spent ()}, rfl, trivial, fun st hst => ⟨_, rfl, ?_⟩⟩
      obtain ⟨newSubId, rfl⟩ := hst
      refine (obeys_trialConns_of_calls cfg.net newSubId cfg.pairs
        (fun _ _ => trialProtocol_trial) fun _ _ hadm => hadm).bind ?_
      rintro r a ⟨rfl, rfl⟩
      have hsaves := trialProtocol_saves hx hid subId now (req.referredBy.getD "WEB")
      rw [obeys_bind] at hsaves
      refine hsaves.bind fun _ a ha => ?_
      exact ha.bind fun _ _ h => h

/-- An unknown referral code gives the ticket back too. -/
lemma trialProtocol_referral (referredBy : Option String) (codes : List String) (bonus : ℤ)
    (missing : String) :
    Obeys (trialProtocol h)
      (fun r a => match r with
        | .error _ => a = 0
        | .ok _ => a = {.opened ()})
      (referral referredBy codes bonus missing) {.opened ()} := by
  cases referredBy with
  | none => exact rfl
  | some code =>
      refine ⟨rfl, fun r _ => ?_⟩
      cases r with
      | none => exact ⟨0, rfl, rfl⟩
      | some id => exact ⟨_, rfl, rfl⟩

lemma trialProtocol_grantTrial {cfg : TrialConfig} {req : Trial} {x : String}
    (hx : cfg.hmac x = h)
    (hid : (req.user = some x ∧ req.email = none) ∨ (req.user = none ∧ req.email = some x)) :
    Obeys (trialProtocol h) (fun _ a => a = 0) (grantTrial cfg req) {.opened ()} := by
  refine ⟨trivial, fun subId _ => ⟨_, rfl, ?_⟩⟩
  refine (trialProtocol_referral _ _ _ _).bind fun r a ha => ?_
  rcases r with r | _ | ⟨id, bonusDays⟩
  · exact ha
  · rw [show a = {.opened ()} from ha]
    exact trialProtocol_createTrial hx hid subId
  · rw [show a = {.opened ()} from ha]
    refine (trialProtocol_addDays id bonusDays).bind fun r a ha => ?_
    cases r with
    | error e => exact ha
    | ok st =>
        rw [show a = {.opened ()} from ha]
        exact trialProtocol_createTrial hx hid subId

/-- A request for the identity starts and ends without a ticket. -/
lemma trialProtocol_postTrialHandler {cfg : TrialConfig} {req : Trial} {x : String}
    (hx : cfg.hmac x = h) (hreq : req.user = some x ∨ req.email = some x) :
    Obeys (trialProtocol h) (fun _ a => a = 0) (postTrialHandler cfg req) 0 := by
  have hgrant : ∀ hid : (req.user = some x ∧ req.email = none) ∨
      (req.user = none ∧ req.email = some x), Obeys (trialProtocol h) (fun _ a => a = 0)
      (grantTrial cfg req >>= fun r => (pure (.ok r) : Api (Except Error Reply)))
      {.opened ()} :=
    fun hid => (trialProtocol_grantTrial hx hid).bind fun _ _ h => h
  rw [postTrialHandler, Trial.validate]
  cases hu : req.user with
  | some u =>
      cases he : req.email with
      | some e => exact rfl
      | none =>
          obtain rfl : u = x := by simpa [hu, he] using hreq
          refine ⟨⟨rfl, hx⟩, fun known _ => ?_⟩
          cases known with
          | true => exact ⟨0, rfl, rfl⟩
          | false => exact ⟨_, rfl, hgrant (Or.inl ⟨hu, he⟩)⟩
  | none =>
      obtain he : req.email = some x := by simpa [hu] using hreq
      rw [he]
      refine ⟨⟨rfl, hx⟩, fun known _ => ?_⟩
      cases known with
      | true => exact ⟨0, rfl, rfl⟩
      | false => exact ⟨_, rfl, hgrant (Or.inr ⟨hu, he⟩)⟩

end Programs

/-! ### The invariant -/

/-- The invariant of the number of subscription rows, of the record of the
identity and of the tickets. -/
def TrialInv (h : String) (n₀ : ℕ) (s : World) (t : Multiset (Ticket Unit)) : Prop :=
  Once n₀ s.db.subscriptions.size ((s.store.get h).isSome = true) t

/-- A request that has not checked its identity yet, or has ended, has no
ticket. -/
lemma no_ticket {h : String} {p : Prog Call Unit} {g : Multiset (Ticket Unit)}
    (hp : (p.done || p.nextIs isIdentityCheck) = true)
    (hobeys : Obeys (trialProtocol h) (fun _ a => a = 0) p g) : g = 0 := by
  cases p with
  | pure x => exact hobeys
  | call c k =>
      have hc : isIdentityCheck _ c = true := by simpa [Prog.done, Prog.nextIs] using hp
      cases c with
      | mail m =>
          cases m with
          | has h' => exact hobeys.1.1
          | _ => exact absurd hc (by simp [isIdentityCheck])
      | _ => exact absurd hc (by simp [isIdentityCheck])

/-- One step of any request keeps the invariant. -/
lemma keeps_trialInv (h : String) (n₀ : ℕ) :
    Keeps checksApart (trialProtocol h) (fun _ a => a = 0) (TrialInv h n₀) := by
  intro β c i s s' b a others gs hothers hexec hrule hmay hinv
  -- a step that touches neither the rows nor the store, with the account as it was
  have hsame : s'.db = s.db → s'.store = s.store → TrialInv h n₀ s' (a + gs.sum) := by
    intro hdb hstore
    rw [TrialInv, hdb, hstore]
    exact hinv
  cases c with
  | mail m =>
      obtain ⟨hs', hb⟩ := exec_mail.mp hexec
      cases m with
      | has h' =>
          obtain ⟨rfl, rfl⟩ := hmay
          obtain rfl : s' = s := hs'
          refine ⟨trivial, fun a' hm => ?_⟩
          cases b with
          | true => rwa [show a' = 0 from hm]
          | false =>
              -- the identity is unknown, so every other request is without a ticket
              have hall : (false || others.all fun p => p.done || p.nextIs isIdentityCheck)
                  = true := hrule
              rw [Bool.false_or, List.all_eq_true] at hall
              have hsum : gs.sum = 0 :=
                hothers.sum_eq_zero fun p hp g hg => no_ticket (hall p hp) hg
              have hunknown : ¬ (s'.store.get h').isSome = true := by
                rw [show (s'.store.get h').isSome = false from hb.symm]
                simp
              rw [show a' = {Ticket.opened ()} from hm, hsum, add_zero]
              rw [hsum, add_zero] at hinv
              exact Once.issue hinv hunknown ()
      | save h' time =>
          obtain ⟨rfl, rfl⟩ := hmay
          refine ⟨trivial, fun a' hm => ?_⟩
          rw [show a' = 0 from hm, hs']
          refine Once.mark hinv ?_
          show ((s.store.put h' time).get h').isSome = true
          rw [Table.get_put_self]
          rfl
      | append line =>
          refine ⟨trivial, fun a' hm => ?_⟩
          rw [show a' = a from hm]
          have heq : s'.db = s.db ∧ s'.store = s.store := by
            rw [hs', Call.execMail]
            split <;> exact ⟨rfl, rfl⟩
          exact hsame heq.1 heq.2
  | look r =>
      obtain ⟨-, rfl, hb⟩ := exec_look.mp hexec
      cases r with
      | referrer code =>
          obtain rfl : a = {Ticket.opened ()} := hmay
          refine ⟨trivial, fun a' hm => ?_⟩
          cases b with
          | none =>
              rw [show a' = 0 from hm]
              exact Once.withdraw hinv
          | some id => rwa [show a' = {Ticket.opened ()} from hm]
      | wgProto net =>
          cases b with
          | error r => cases hrule
          | ok proto => exact ⟨trivial, fun a' hm => by rwa [show a' = a from hm]⟩
      | _ => exact ⟨trivial, fun a' hm => by rwa [show a' = a from hm]⟩
  | edit w =>
      have hdb := db_of_exec hexec (by simp)
      have hstore := store_of_exec hexec (by simp)
      cases w with
      | subAdd sub =>
          obtain ⟨-, -, rfl⟩ := exec_edit.mp hexec
          have hnew : (s.memory.subscriptions.get sub.id).isNone = true := hrule
          rw [Option.isNone_iff_eq_none] at hnew
          refine ⟨⟨sub.id, ?_⟩, fun a' hm => by rw [show a' = a from hm]; exact hsame hdb hstore⟩
          simp only [Edit.run, Subscriptions.add, hnew]
      | _ => exact ⟨trivial, fun a' hm => by rw [show a' = a from hm]; exact hsame hdb hstore⟩
  | sql q =>
      have hstore := store_of_exec hexec (by simp)
      obtain ⟨rfl, rfl⟩ := exec_sql.mp hexec
      cases q with
      | subAddDays id n =>
          obtain rfl : a = {Ticket.opened ()} := hmay
          refine ⟨trivial, fun a' hm => ?_⟩
          have hsize := subscriptions_size_run (q := .subAddDays id n) rfl i s.db
          rcases subAddDays_cases id n i s.db with ⟨-, e, hr⟩ | ⟨-, row, hr⟩
          · rw [hr] at hm
            rw [show a' = 0 from hm]
            exact (Once.withdraw hinv).mono hsize.le fun hx => hx
          · rw [hr] at hm
            rw [show a' = {Ticket.opened ()} from hm]
            exact hinv.mono hsize.le (fun hx => hx)
      | subCreate sub =>
          obtain rfl : a = {Ticket.opened ()} := hmay
          refine ⟨trivial, fun a' hm => ?_⟩
          rcases subCreate_cases sub i s.db with ⟨hdb, e, hr⟩ | ⟨hnone, row, hdb, hr⟩
          · rw [hr] at hm
            rw [show a' = 0 from hm, TrialInv, hdb]
            exact Once.withdraw hinv
          · rw [hr] at hm
            rw [show a' = {Ticket.spent ()} from hm, TrialInv, hdb]
            exact Once.act hinv (Table.size_put_of_none row hnone).le
      | _ =>
          refine ⟨trivial, fun a' hm => ?_⟩
          rw [show a' = a from hm]
          exact hinv.mono (subscriptions_size_run rfl i s.db).le (fun hx => hx)
  | _ =>
      have hdb := db_of_exec hexec (by simp)
      have hstore := store_of_exec hexec (by simp)
      exact ⟨trivial, fun a' hm => by rw [show a' = a from hm]; exact hsame hdb hstore⟩

/-! ### Runs -/

/-- **One trial per identity** in every interleaving of requests that carry it in
which no identity check is answered in the negative while another request is
between its check and its end, no address is refused and drawn identifiers are
new. -/
theorem trials_created_once {cfg : TrialConfig} {x : String} {reqs : List Trial} {s₀ : World}
    {p : Pool Call World} (hreqs : ∀ req ∈ reqs, req.user = some x ∨ req.email = some x)
    (h : Reach checksApart ⟨s₀, reqs.map fun req => (postTrialHandler cfg req).forget⟩ p) :
    p.state.db.subscriptions.size ≤ s₀.db.subscriptions.size + 1 := by
  have hobey : AllObey (trialProtocol (cfg.hmac x)) (fun _ a => a = 0) (reqs.map fun _ => 0)
      (reqs.map fun req => (postTrialHandler cfg req).forget) := by
    rw [AllObey, List.forall₂_map_right_iff, List.forall₂_map_left_iff]
    refine List.forall₂_same.mpr fun req hreq => ?_
    exact obeys_forget.mpr (trialProtocol_postTrialHandler rfl (hreqs req hreq))
  have hinit : TrialInv (cfg.hmac x) s₀.db.subscriptions.size s₀ (reqs.map fun _ => 0).sum := by
    have hzero : (reqs.map fun _ => (0 : Multiset (Ticket Unit))).sum = 0 := by simp
    rw [hzero]
    exact Once.init
  obtain ⟨gs, -, hinv⟩ := Reach.sound (keeps_trialInv _ _) h hobey hinit
  exact Once.le hinv

/-- A configuration with one environment, one protocol and identities hashed to
themselves. -/
def sampleTrialConfig : TrialConfig where
  net := ⟨.v4 0x0A000000, 8⟩
  systemReferCodes := []
  envs := [.dev]
  protos := [.vmess]
  trialDays := 3
  bonus := 5
  limitBytes := 0
  hmac := fun x => x
  rfc3339 := fun _ => ""

/-- A trial for the user `ann`. -/
def annTrial : Trial := ⟨some "ann", none, none⟩

/-- The input that goes through and draws the identifier `u`. -/
def trialInput (u : Uuid) : Input := { Input.at 0 with uuid := u }

/-- Two requests one after the other meet the condition; the second one is turned
away. -/
theorem trials_created_once_serially :
    ∃ p, Reach checksApart ⟨World.empty, [annTrial, annTrial].map fun req =>
        (postTrialHandler sampleTrialConfig req).forget⟩ p ∧ p.finished = true ∧
      p.state.db.subscriptions.size ≤ World.empty.db.subscriptions.size + 1 := by
  have hrun : (runWith checksApart
      (List.replicate 13 (0, trialInput 1) ++ [(1, trialInput 2)])
      ⟨World.empty, [annTrial, annTrial].map fun req =>
        (postTrialHandler sampleTrialConfig req).forget⟩).map Pool.finished = some true := by
    decide +kernel
  obtain ⟨p, hp, hfin⟩ := exists_reach_of_runWith hrun
  refine ⟨p, hp, hfin, trials_created_once (x := "ann") ?_ hp⟩
  intro req hreq
  obtain rfl : req = annTrial := by simpa using hreq
  exact Or.inl rfl

/-- Two overlapping requests: both find the identity unknown and both create a
subscription. -/
theorem trials_created_twice :
    (∀ req ∈ [annTrial, annTrial], req.user = some "ann" ∨ req.email = some "ann") ∧
      ∃ p, Reach Rule.any ⟨World.empty, [annTrial, annTrial].map fun req =>
          (postTrialHandler sampleTrialConfig req).forget⟩ p ∧
        ¬ p.state.db.subscriptions.size ≤ World.empty.db.subscriptions.size + 1 := by
  constructor
  · intro req hreq
    obtain rfl : req = annTrial := by simpa using hreq
    exact Or.inl rfl
  · have hrun : (runWith Rule.any
        ([(0, trialInput 1), (1, trialInput 2)] ++ List.replicate 5 (0, trialInput 1) ++
          List.replicate 5 (1, trialInput 2))
        ⟨World.empty, [annTrial, annTrial].map fun req =>
          (postTrialHandler sampleTrialConfig req).forget⟩).map
        (fun p => p.state.db.subscriptions.size) = some 2 := by
      decide +kernel
    obtain ⟨p, hp, hsize⟩ := exists_reach_of_runWith hrun
    exact ⟨p, hp, by rw [hsize]; decide⟩

end Fcore
