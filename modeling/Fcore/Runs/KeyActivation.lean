import Fcore.Calculus.Once
import Fcore.Api.Handlers

/-!
How often an activation key is spent (`src/bin/api/http/handlers/key.rs`).

`POST /key/activate` reads the key, credits its days to a subscription and marks
the key afterwards, in separate steps.  Two requests that both read the key
before one of them marks it both credit its days, and so do two requests one
after another when the mark fails.

* `keyProtocol`: a ticket follows a request from its key read to the mark;
* `KeyInv`: at most one ticket is out, and as long as the key is not marked
  nothing has been credited;
* `activations_credited_twice`: the run of two overlapping requests;
* `activations_credited_once`: no run credits twice when no request reads an
  unmarked key while another one is in between and no mark fails.
-/

namespace Fcore

open Calculus
open Calculus.Prog (perform)
open Machine (exec)

/-! ### The condition on steps -/

/-- The next call of a program is a key read. -/
def isKeyGet : (β : Type) → Call β → Bool
  | _, .sql (.keyGet _) => true
  | _, _ => false

/-- A request reads a key that is not marked only while no other request is
between its own key read and its end, and marking the key does not fail. -/
def readsApart : Rule Call Input World
  | _, others, .sql (.keyGet _), _, _, some k =>
      k.activated || others.all fun p => p.done || p.nextIs isKeyGet
  | _, _, .sql (.keyActivate _), i, _, _ => i.ok
  | _, _, _, _, _, _ => true

/-- The code of a key is unique (`code TEXT NOT NULL UNIQUE`). -/
def CodesUnique (keys : Table Uuid Key) : Prop :=
  ∀ ⦃id id' : Uuid⦄ ⦃k k' : Key⦄, keys.get id = some k → keys.get id' = some k' →
    k.code = k'.code → id = id'

/-! ### The protocol of a request -/

/-- The protocol of requests for the key `code`. -/
def keyProtocol (code : String) : Protocol Call (Multiset (Ticket Uuid)) where
  admits
    | _, .sql (.keyActivate _), .error _ => False
    | _, _, _ => True
  may
    | _, .sql (.keyGet c), a => a = 0 ∧ c = code
    | _, .edit (.credit _ _), a => ∃ id, a = {.opened id}
    | _, .sql (.subAddDays _ _), a => ∃ id, a = {.opened id}
    | _, .sql (.keyActivate k), a => a = {.spent k.id}
    | _, .sql (.keyInsert _), _ => False
    | _, _, _ => True
  moves
    | _, .sql (.keyGet _), some k, a, a' =>
        if k.activated then a' = a else a' = {.opened k.id}
    | _, .edit (.credit _ _), false, _, a' => a' = 0
    | _, .sql (.subAddDays _ _), .error _, _, a' => a' = 0
    | _, .sql (.subAddDays _ _), .ok _, a, a' => ∀ id, a = {.opened id} → a' = {.spent id}
    | _, .sql (.keyActivate _), _, _, a' => a' = 0
    | _, _, _, a, a' => a' = a

/-- A credit by key ends with the mark still owed exactly if it was executed. -/
lemma obeys_addDays {code : String} {sub id : Uuid} {n : ℤ} :
    Obeys (keyProtocol code)
      (fun r a => match r with
        | .ok (.updated _) => a = {.spent id}
        | _ => a = 0)
      (addDays sub n) {.opened id} := by
  refine ⟨trivial, fun wasInactive _ => ⟨_, rfl, ?_⟩⟩
  refine ⟨⟨id, rfl⟩, fun found _ => ?_⟩
  cases found with
  | false => exact ⟨0, rfl, rfl⟩
  | true =>
      refine ⟨{Ticket.opened id}, rfl, ⟨id, rfl⟩, fun r _ => ?_⟩
      cases r with
      | error e => exact ⟨0, rfl, rfl⟩
      | ok row =>
          refine ⟨{Ticket.spent id}, ?_, ?_⟩
          · rintro id' h
            rw [Multiset.singleton_inj] at h
            cases h
            rfl
          · cases wasInactive with
            | false => exact rfl
            | true =>
                refine Obeys.bind (p := restoreConnectionsBySubscription sub)
                  (Obeys.of_uses (uses_restoreConnectionsBySubscription sub) ?_) ?_
                · intro β c hc
                  cases hc <;> exact ⟨trivial, fun _ => rfl⟩
                · rintro x a rfl
                  exact rfl

/-- A request starts and ends with an empty account. -/
lemma obeys_postActivateKeyHandler (code : String) (sub : Uuid) :
    Obeys (keyProtocol code) (fun _ a => a = 0) (postActivateKeyHandler ⟨code, sub⟩) 0 := by
  simp only [postActivateKeyHandler, Prog.perform_bind]
  refine ⟨⟨rfl, rfl⟩, fun k _ => ?_⟩
  cases k with
  | none => exact ⟨0, rfl, rfl⟩
  | some k =>
      show ∃ a', (if k.activated then a' = 0 else a' = {Ticket.opened k.id}) ∧ _
      cases hk : k.activated with
      | true =>
          refine ⟨0, rfl, ?_⟩
          simp only [hk, if_true]
          exact rfl
      | false =>
          refine ⟨{Ticket.opened k.id}, rfl, ?_⟩
          simp only [hk, Bool.false_eq_true, if_false]
          refine Obeys.bind obeys_addDays fun r a ha => ?_
          rcases r with e | r
          · exact ha
          · cases r with
            | updated id =>
                refine ⟨trivial, fun now _ => ⟨a, rfl, ?_⟩⟩
                refine ⟨ha, fun r hr => ⟨0, rfl, ?_⟩⟩
                cases r with
                | error e => exact hr.elim
                | ok u => exact rfl
            | _ => exact ha

/-! ### The invariant -/

/-- Every key of the code is marked. -/
def AllMarked (code : String) (keys : Table Uuid Key) : Prop :=
  ∀ id k, keys.get id = some k → k.code = code → k.activated = true

/-- A ticket is for a key of the code. -/
def TicketFor (code : String) (keys : Table Uuid Key) : Ticket Uuid → Prop
  | .opened id => ∃ k, keys.get id = some k ∧ k.code = code
  | .spent id => ∃ k, keys.get id = some k ∧ k.code = code

/-- The invariant of the table of keys, of the number of credits since the
start and of the sum of all accounts. -/
structure KeyInv (code : String) (n₀ : ℕ) (db : Db) (t : Multiset (Ticket Uuid)) : Prop where
  unique : CodesUnique db.keys
  owner : ∀ x ∈ t, TicketFor code db.keys x
  once : Once n₀ db.credits.length (AllMarked code db.keys) t

section KeyInv

variable {code : String} {n₀ : ℕ} {db db' : Db} {t g : Multiset (Ticket Uuid)} {id : Uuid}

/-- The invariant looks at the keys and the credits only. -/
lemma KeyInv.congr (h : KeyInv code n₀ db t) (hkeys : db'.keys = db.keys)
    (hcredits : db'.credits = db.credits) : KeyInv code n₀ db' t := by
  obtain ⟨unique, owner, once⟩ := h
  refine ⟨by rw [hkeys]; exact unique, by rw [hkeys]; exact owner, ?_⟩
  rw [hkeys, hcredits]
  exact once

/-- Reading an unmarked key while no request is in between. -/
lemma KeyInv.get {k : Key} {order : List Uuid} (h : KeyInv code n₀ db 0)
    (hget : db.keyGet order code = some k) (hact : k.activated = false) :
    KeyInv code n₀ db {.opened k.id} := by
  obtain ⟨k', hk', hcode, hact'⟩ := Db.keyGet_some hget
  refine ⟨h.unique, ?_, h.once.issue ?_ k.id⟩
  · intro x hx
    rw [Multiset.mem_singleton.mp hx]
    exact ⟨k', hk', hcode⟩
  · intro hmarked
    have hfound := hmarked k.id k' hk' hcode
    rw [← hact', hact] at hfound
    cases hfound

/-- Dropping the key without a credit. -/
lemma KeyInv.close (h : KeyInv code n₀ db ({.opened id} + g)) : KeyInv code n₀ db (0 + g) := by
  refine ⟨h.unique, fun x hx => h.owner x ?_, h.once.withdraw⟩
  rw [zero_add] at hx
  exact Multiset.mem_add.mpr (Or.inr hx)

/-- Crediting the days. -/
lemma KeyInv.credit (h : KeyInv code n₀ db ({.opened id} + g)) (hkeys : db'.keys = db.keys)
    {e : Uuid × ℤ} (hcredits : db'.credits = db.credits ++ [e]) :
    KeyInv code n₀ db' ({.spent id} + g) := by
  refine ⟨by rw [hkeys]; exact h.unique, ?_, h.once.act (by rw [hcredits, List.length_append]; rfl)⟩
  intro x hx
  rw [hkeys]
  rcases Multiset.mem_add.mp hx with hx | hx
  · rw [Multiset.mem_singleton.mp hx]
    exact h.owner (.opened id) (Multiset.mem_add.mpr (Or.inl (Multiset.mem_singleton_self _)))
  · exact h.owner x (Multiset.mem_add.mpr (Or.inr hx))

/-- A row of the table after marking a key is a row from before it, up to the
mark. -/
lemma get_keyActivate {key k : Key} {now : DateTime}
    (h : (db.keyActivate key now).keys.get id = some k) :
    ∃ k₀, db.keys.get id = some k₀ ∧ k.code = k₀.code ∧ (id = key.id → k.activated = true) := by
  simp only [Db.keyActivate, Table.get_change] at h
  split_ifs at h with hid
  · obtain ⟨k₀, hk₀, rfl⟩ := Option.map_eq_some_iff.mp h
    exact ⟨k₀, by rw [hid]; exact hk₀, rfl, fun _ => rfl⟩
  · exact ⟨k, h, rfl, fun h => absurd h hid⟩

/-- Marking the key. -/
lemma KeyInv.activate {key : Key} (h : KeyInv code n₀ db ({.spent key.id} + g)) (now : DateTime) :
    KeyInv code n₀ (db.keyActivate key now) (0 + g) := by
  obtain ⟨k, hk, hcode⟩ := h.owner (.spent key.id)
    (Multiset.mem_add.mpr (Or.inl (Multiset.mem_singleton_self _)))
  have hg : g = 0 := h.once.of_spent
  refine ⟨?_, by simp [hg], h.once.mark ?_⟩
  · intro id id' k₁ k₂ h₁ h₂ hcodes
    obtain ⟨k₁', h₁', hc₁, -⟩ := get_keyActivate h₁
    obtain ⟨k₂', h₂', hc₂, -⟩ := get_keyActivate h₂
    exact h.unique h₁' h₂' (by rw [← hc₁, ← hc₂, hcodes])
  · intro id k' hget hcode'
    obtain ⟨k₀, hk₀, hc₀, hmark⟩ := get_keyActivate hget
    exact hmark (h.unique hk₀ hk (by rw [← hc₀, hcode', hcode]))

end KeyInv

/-! ### Runs -/

/-- A request that has not read its key yet, or has ended, has an empty
account. -/
lemma account_eq_zero {code : String} {p : Prog Call Unit} {g : Multiset (Ticket Uuid)}
    (hp : (p.done || p.nextIs isKeyGet) = true)
    (h : Obeys (keyProtocol code) (fun _ a => a = 0) p g) : g = 0 := by
  cases p with
  | pure x => exact h
  | call c k =>
      have hc : isKeyGet _ c = true := by simpa [Prog.done, Prog.nextIs] using hp
      cases c with
      | sql q =>
          cases q with
          | keyGet c => exact h.1.1
          | _ => exact absurd hc (by simp [isKeyGet])
      | _ => exact absurd hc (by simp [isKeyGet])

/-- One step of any request keeps the invariant. -/
lemma keeps_keyInv (code : String) (n₀ : ℕ) :
    Keeps readsApart (keyProtocol code) (fun _ a => a = 0) (fun s t => KeyInv code n₀ s.db t) := by
  intro β c i s s' b a others gs hothers hexec hrule hmay hinv
  cases c with
  | sql q =>
      obtain ⟨rfl, rfl⟩ := exec_sql.mp hexec
      cases q with
      | keyGet c =>
          obtain ⟨rfl, rfl⟩ := hmay
          refine ⟨trivial, fun a' hm => ?_⟩
          show KeyInv c n₀ (Sql.run (.keyGet c) i s.db).1 (a' + gs.sum)
          have hkeys := Sql.run_keys (q := .keyGet c) rfl i s.db
          refine KeyInv.congr ?_ hkeys (Sql.run_credits rfl i s.db)
          cases hk : (Sql.run (.keyGet c) i s.db).2 with
          | none =>
              rw [hk] at hm
              rwa [show a' = 0 from hm]
          | some k =>
              rw [hk] at hm hrule
              change (if k.activated then a' = 0 else a' = {Ticket.opened k.id}) at hm
              cases hact : k.activated with
              | true =>
                  rw [if_pos hact] at hm
                  rwa [hm]
              | false =>
                  rw [if_neg (by simp [hact])] at hm
                  -- the key is not marked, so every other request has an empty account
                  have hall : (k.activated || others.all fun p => p.done || p.nextIs isKeyGet)
                      = true := hrule
                  rw [hact, Bool.false_or, List.all_eq_true] at hall
                  have hsum : gs.sum = 0 :=
                    hothers.sum_eq_zero fun p hp g hg => account_eq_zero (hall p hp) hg
                  rw [hsum, add_zero] at hinv ⊢
                  have hfound : s.db.keyGet i.order c = some k := by
                    simp only [Sql.run] at hk
                    split at hk
                    · exact hk
                    · cases hk
                  rw [hm]
                  exact hinv.get hfound hact
      | subAddDays id n =>
          obtain ⟨kid, rfl⟩ := hmay
          refine ⟨trivial, fun a' hm => ?_⟩
          show KeyInv code n₀ (Sql.run (.subAddDays id n) i s.db).1 (a' + gs.sum)
          have hkeys := Sql.run_keys (q := .subAddDays id n) rfl i s.db
          rcases subAddDays_cases id n i s.db with ⟨hdb, e, hr⟩ | ⟨hcredits, row, hr⟩
          · rw [hr] at hm
            rw [hdb, show a' = 0 from hm]
            exact hinv.close
          · rw [hr] at hm
            rw [show a' = {Ticket.spent kid} from hm kid rfl]
            exact hinv.credit hkeys hcredits
      | keyActivate key =>
          obtain rfl : a = {Ticket.spent key.id} := hmay
          have hok : i.ok = true := hrule
          have hrun : Sql.run (.keyActivate key) i s.db = (s.db.keyActivate key i.now, .ok ()) := by
            simp only [Sql.run, hok, if_true]
          rw [hrun]
          refine ⟨trivial, fun a' hm => ?_⟩
          rw [show a' = 0 from hm]
          exact hinv.activate i.now
      | keyInsert key => exact hmay.elim
      | _ =>
          refine ⟨trivial, fun a' hm => ?_⟩
          rw [show a' = a from hm]
          exact hinv.congr (Sql.run_keys rfl i s.db) (Sql.run_credits rfl i s.db)
  | edit w =>
      have hdb := db_of_exec hexec (by simp)
      simp only [hdb]
      cases w with
      | credit id n =>
          obtain ⟨kid, rfl⟩ := hmay
          refine ⟨trivial, fun a' hm => ?_⟩
          cases b with
          | true => rwa [show a' = {Ticket.opened kid} from hm]
          | false =>
              rw [show a' = 0 from hm]
              exact hinv.close
      | _ =>
          refine ⟨trivial, fun a' hm => ?_⟩
          rwa [show a' = a from hm]
  | _ =>
      simp only [db_of_exec hexec (by simp)]
      refine ⟨trivial, fun a' hm => ?_⟩
      rwa [show a' = a from hm]

/-- The requests for one key, one for each subscription of a list. -/
def activations (code : String) (subs : List Uuid) : List (Prog Call Unit) :=
  subs.map fun sub => (postActivateKeyHandler ⟨code, sub⟩).forget

/-- Requests start with empty accounts. -/
lemma activations_obey (code : String) (subs : List Uuid) :
    AllObey (keyProtocol code) (fun _ a => a = 0) (subs.map fun _ => 0)
      (activations code subs) := by
  rw [activations, AllObey, List.forall₂_map_right_iff, List.forall₂_map_left_iff]
  refine List.forall₂_same.mpr fun sub _ => ?_
  exact obeys_forget.mpr (obeys_postActivateKeyHandler code sub)

/-- **A key is spent at most once** in every interleaving of requests for it in
which no request reads the unmarked key while another one is between its key
read and its end, and marking the key does not fail. -/
theorem activations_credited_once {code : String} {subs : List Uuid} {s₀ : World}
    {p : Pool Call World} (hkeys : CodesUnique s₀.db.keys)
    (h : Reach readsApart ⟨s₀, activations code subs⟩ p) :
    p.state.db.credits.length ≤ s₀.db.credits.length + 1 := by
  have hinit : KeyInv code s₀.db.credits.length s₀.db (subs.map fun _ => 0).sum := by
    have hzero : (subs.map fun _ => (0 : Multiset (Ticket Uuid))).sum = 0 := by simp
    rw [hzero]
    exact ⟨hkeys, by simp, Once.init⟩
  obtain ⟨gs, -, hinv⟩ :=
    Reach.sound (keeps_keyInv code s₀.db.credits.length) h (activations_obey code subs) hinit
  exact hinv.once.le

/-! ### A run that spends a key twice -/

/-- A subscription that expires at the hundredth nanosecond. -/
def sampleSub : Subscription := Subscription.new 7 none "code7" (some 100) none 0

/-- A key of thirty days. -/
def sampleKey : Key := ⟨3, "KEY", 30, false, none, 0, 0, "FRKN"⟩

/-- A service with one active subscription and one key. -/
def keyWorld : World :=
  { World.empty with
    memory := ⟨∅, (∅ : Subscriptions).put 7 sampleSub⟩
    db := ⟨∅, (∅ : Subscriptions).put 7 sampleSub, (∅ : Table Uuid Key).put 3 sampleKey, []⟩ }

lemma codesUnique_keyWorld : CodesUnique keyWorld.db.keys := by
  have hget : ∀ {id : Uuid} {k : Key}, keyWorld.db.keys.get id = some k → id = 3 := by
    intro id k h
    change Table.get (Table.put ∅ 3 sampleKey) id = some k at h
    rw [Table.get_put] at h
    split_ifs at h with hid
    · exact hid
    · cases h
  intro id id' k k' h h' _
  rw [hget h, hget h']

/-- Two requests one after the other meet the condition; the second one finds the
key marked. -/
theorem activations_credited_once_serially :
    ∃ p, Reach readsApart ⟨keyWorld, activations "KEY" [7, 7]⟩ p ∧ p.finished = true ∧
      p.state.db.credits.length ≤ keyWorld.db.credits.length + 1 := by
  have hrun : (runWith readsApart (List.replicate 6 (0, Input.at 0) ++ [(1, Input.at 0)])
      ⟨keyWorld, activations "KEY" [7, 7]⟩).map Pool.finished = some true := by
    decide +kernel
  obtain ⟨p, hp, hfin⟩ := exists_reach_of_runWith hrun
  exact ⟨p, hp, hfin, activations_credited_once codesUnique_keyWorld hp⟩

/-- Two overlapping requests: both read the key, then each credits its days and
marks it. -/
theorem activations_credited_twice :
    CodesUnique keyWorld.db.keys ∧
      ∃ p, Reach Rule.any ⟨keyWorld, activations "KEY" [7, 7]⟩ p ∧
        ¬ p.state.db.credits.length ≤ keyWorld.db.credits.length + 1 := by
  refine ⟨codesUnique_keyWorld, ?_⟩
  have hrun : (runWith Rule.any
      ((0, Input.at 0) :: (1, Input.at 0) :: List.replicate 5 (0, Input.at 0) ++
        List.replicate 5 (1, Input.at 0)) ⟨keyWorld, activations "KEY" [7, 7]⟩).map
      (fun p => p.state.db.credits.length) = some 2 := by
    decide +kernel
  obtain ⟨p, hp, hlen⟩ := exists_reach_of_runWith hrun
  exact ⟨p, hp, by rw [hlen]; decide⟩

end Fcore
