import Fcore.Api.Tasks
import Fcore.Runs.DayCredits

/-!
A day credit among reloads (`add_days`, `get_state_from_db`).

`add_days` writes the memory first and the database later, and holds no lock in
between.  `get_state_from_db` reads the database and replaces the memory under the
write guard.  A reload that reads between the two writes of a credit puts the old
expiry back into the memory, and the credit then reaches the database only.

* `memDate`, `dbDate`: the subscription in memory and its row, each with its
  expiry;
* `creditBase`: the date from which a credit counts;
* `reloadProtocol`: the account of a run says whether a credit is to be done or
  owed to the database, and what a reload has read under its guard;
* `ReloadInv`: memory and database agree, except for a credit that is owed;
* `credit_kept`: both expiries are equal at the end when no reload reads while the
  credit is between its two writes;
* `credit_swallowed`: the overlap after which the memory lacks the credit.
-/

namespace Fcore

open Calculus
open Machine (exec)

/-! ### Expiries -/

/-- The expiry of a subscription in memory, if the subscription is there. -/
def memDate (sid : Uuid) (s : World) : Option (Option DateTime) :=
  (s.memory.subscriptions.get sid).map Subscription.expiresAt

/-- The expiry of a subscription in the database, if its row is there. -/
def dbDate (sid : Uuid) (s : World) : Option (Option DateTime) :=
  (s.db.subscriptions.get sid).map Subscription.expiresAt

/-- The expiry of a subscription among those that have been read. -/
def rowDate (sid : Uuid) (subs : List Subscription) : Option (Option DateTime) :=
  (subs.find? fun sub => sub.id = sid).map Subscription.expiresAt

lemma memExpiry_eq (sid : Uuid) (s : World) : memExpiry sid s = (memDate sid s).join := by
  rw [memExpiry, memDate]
  cases s.memory.subscriptions.get sid <;> rfl

lemma dbExpiry_eq (sid : Uuid) (s : World) : dbExpiry sid s = (dbDate sid s).join := by
  rw [dbExpiry, dbDate]
  cases s.db.subscriptions.get sid <;> rfl

/-- The row of the subscription is not marked as deleted. -/
def RowLive (sid : Uuid) (s : World) : Prop :=
  ∀ row, s.db.subscriptions.get sid = some row → row.isDeleted = false

/-- The date from which a credit at the time `t` counts: the expiry if it is still
to come, else `t`. -/
def creditBase (t : DateTime) (e : Option DateTime) : DateTime :=
  match e with
  | some e => if t < e then e else t
  | none => t

/-- The time of a credit is not after the date from which it counts. -/
lemma le_creditBase (t : DateTime) (e : Option DateTime) : t ≤ creditBase t e := by
  cases e with
  | none => exact le_rfl
  | some e =>
      simp only [creditBase]
      split_ifs with h
      · exact h.le
      · exact le_rfl

/-! ### What the steps do -/

section Steps

variable {sid : Uuid} {t : DateTime} {n : ℤ}

lemma rowDate_eq_some {subs : List Subscription} (hsubs : (subs.map Subscription.id).Nodup)
    {e : Option DateTime} :
    rowDate sid subs = some e ↔ ∃ sub ∈ subs, sub.id = sid ∧ sub.expiresAt = e := by
  rw [rowDate, Option.map_eq_some_iff]
  simp only [Table.find?_key_eq_some hsubs, and_assoc]

/-- A reload reads the expiry of the database. -/
lemma rowDate_subAll {s : World} (hlive : RowLive sid s) (order : List Uuid) :
    rowDate sid (s.db.subAll order) = dbDate sid s := by
  ext e
  rw [rowDate_eq_some (s.db.subAll_nodup order), dbDate, Option.map_eq_some_iff]
  constructor
  · rintro ⟨sub, hsub, rfl, rfl⟩
    obtain ⟨row, hget, -, heq⟩ := Db.mem_subAll.mp hsub
    exact ⟨row, hget, by rw [heq]⟩
  · rintro ⟨row, hget, rfl⟩
    have hsub : ({ row with id := sid } : Subscription) ∈ s.db.subAll order :=
      Db.mem_subAll.mpr ⟨row, hget, hlive row hget, rfl⟩
    exact ⟨_, hsub, rfl, rfl⟩

/-- A rebuilt memory has the expiries that have been read. -/
lemma buildCache_date {lower : String → String} {rows : List ConnRow} {subs : List Subscription}
    {cache : Cache} (h : buildCache lower rows subs = .ok cache)
    (hsubs : (subs.map Subscription.id).Nodup) :
    (cache.subscriptions.get sid).map Subscription.expiresAt = rowDate sid subs := by
  ext e
  rw [rowDate_eq_some hsubs, Option.map_eq_some_iff]
  constructor
  · rintro ⟨sub, hget, rfl⟩
    obtain ⟨hsub, hid⟩ := (buildCache_subscriptions h hsubs).mp hget
    exact ⟨sub, hsub, hid, rfl⟩
  · rintro ⟨sub, hsub, hid, rfl⟩
    exact ⟨sub, (buildCache_subscriptions h hsubs).mpr ⟨hsub, hid⟩, rfl⟩

/-- A credit of positive days is never refused in memory. -/
lemma Subscription.credit_expiresAt (sub : Subscription) (hn : 0 < n) :
    (sub.credit n t).expiresAt = some (creditBase t sub.expiresAt + days n) := by
  have hlater : ¬ creditBase t sub.expiresAt + days n ≤ t := by
    have hbase := le_creditBase t sub.expiresAt
    exact not_le.mpr (hbase.trans_lt (lt_add_of_pos_right _ (days_pos hn)))
  cases he : sub.expiresAt with
  | none =>
      rw [he] at hlater
      simp only [Subscription.credit, he, Subscription.setExpiresAt, creditBase] at hlater ⊢
      rw [if_neg hlater]
  | some e =>
      rw [he] at hlater
      by_cases htime : t < e
      · simp only [creditBase, if_pos htime] at hlater
        simp only [Subscription.credit, he, if_pos htime, Subscription.setExpiresAt,
          if_neg hlater, creditBase]
      · simp only [creditBase, if_neg htime] at hlater
        simp only [Subscription.credit, he, if_neg htime, Subscription.setExpiresAt,
          if_neg hlater, creditBase]

lemma memDate_credit (hn : 0 < n) (i : Input) (s : World) :
    memDate sid { s with memory := (Edit.run (.credit sid n) i s.memory).1 } =
      (memDate sid s).map fun e => some (creditBase i.now e + days n) := by
  rw [memDate, memDate, Option.map_map]
  show Option.map _ ((s.memory.subscriptions.change sid _).get sid) = _
  rw [Table.get_change_self, Option.map_map]
  refine Option.map_congr fun sub _ => ?_
  exact Subscription.credit_expiresAt sub hn

lemma Db.subRowCredit_expiresAt (row : Subscription) (n : ℤ) (now : DateTime) :
    (Db.subRowCredit row n now).expiresAt =
      some (pgRound (creditBase now row.expiresAt + days n)) :=
  rfl

/-- A credit that the database takes counts from the expiry of the row. -/
lemma dbDate_subAddDays {i : Input} {s : World} {row : Subscription}
    (hok : (Sql.run (.subAddDays sid n) i s.db).2 = .ok row) :
    (∃ e, dbDate sid s = some e ∧
      dbDate sid { s with db := (Sql.run (.subAddDays sid n) i s.db).1 } =
        some (some (pgRound (creditBase i.now e + days n)))) ∧
      (RowLive sid s → RowLive sid { s with db := (Sql.run (.subAddDays sid n) i s.db).1 }) := by
  simp only [Sql.run] at hok ⊢
  split at hok
  · next hi =>
      simp only [if_pos hi, Db.subAddDays] at hok ⊢
      cases hget : s.db.subscriptions.get sid with
      | none =>
          rw [hget] at hok
          cases hok
      | some old =>
          refine ⟨⟨old.expiresAt, by rw [dbDate, hget]; rfl, ?_⟩, fun hlive row' hrow' => ?_⟩
          · rw [dbDate]
            simp only [Table.get_put_self]
            exact congrArg some (Db.subRowCredit_expiresAt old n i.now)
          · simp only [Table.get_put_self, Option.some.injEq] at hrow'
            rw [← hrow']
            exact hlive old hget
  · cases hok

end Steps

/-! ### The protocol of a credit among reloads -/

/-- Nothing fails, the credit reads one time `t`, and the subscriptions are read
only while no credit is between its two writes. -/
def reloadsApart (t : DateTime) : Rule Call Input World
  | _, _, .edit (.credit _ _), i, _, _ => i.ok && decide (i.now = t)
  | _, _, .sql (.subAddDays _ _), _, _, .error _ => false
  | _, _, .sql (.subAddDays _ _), i, _, .ok _ => i.ok && decide (i.now = t)
  | _, others, .sql .subAll, i, _, _ => i.ok && others.all fun p => !p.nextIs isAddDays
  | _, _, _, i, _, _ => i.ok

/-- Whether a credit is to be done, whether one is owed to the database, and what
the holder of the write guard has read: nothing yet, or the expiry of the
subscription. -/
abbrev ReloadAccount := ℕ × ℕ × Multiset (Option (Option (Option DateTime)))

/-- The account of a credit that has not begun. -/
def creditDue : ReloadAccount := (1, 0, 0)

/-- The account of a credit between its two writes. -/
def creditOwed : ReloadAccount := (0, 1, 0)

/-- The account of a reload that holds the write guard. -/
def reloading (f : Option (Option (Option DateTime))) : ReloadAccount := (0, 0, {f})

/-- The protocol of a credit of `n` days to `sid` among reloads. -/
def reloadProtocol (sid : Uuid) (n : ℤ) : Protocol Call ReloadAccount where
  admits
    | _, .sql (.subAddDays _ _), b => ∃ row, b = .ok row
    | _, .sql .subAll, .ok subs => (subs.map Subscription.id).Nodup
    | _, _, _ => True
  may
    | _, .edit (.credit id m), a => id = sid ∧ m = n ∧ a = creditDue
    | _, .edit (.subAdd _), _ => False
    | _, .edit (.update _ _), _ => False
    | _, .edit (.install _), _ => False
    | _, .within (.install cache), a =>
        a = reloading (some ((cache.subscriptions.get sid).map Subscription.expiresAt))
    | _, .within _, _ => False
    | _, .sql (.subCreate _), _ => False
    | _, .sql (.subUpdate _ _ _ _), _ => False
    | _, .sql (.subAddDays id m), a => id = sid ∧ m = n ∧ a = creditOwed
    | _, .sql .subAll, a => a = reloading none
    | _, .guard .lockWrite, a => a = 0
    | _, .guard .unlockWrite, a => ∃ f, a = reloading f
    | _, _, a => a.2.1 = 0
  moves
    | _, .edit (.credit _ _), found, _, a' => a' = if found = true then creditOwed else 0
    | _, .sql (.subAddDays _ _), _, _, a' => a' = 0
    | _, .sql .subAll, .ok subs, _, a' => a' = reloading (some (rowDate sid subs))
    | _, .guard .lockWrite, _, _, a' => a' = reloading none
    | _, .guard .unlockWrite, _, _, a' => a' = 0
    | _, _, _, a, a' => a' = a

section Programs

variable {sid : Uuid} {n : ℤ}

lemma reloadProtocol_restore {β : Type} {c : Call β} (hc : RestoreCall β c) :
    (reloadProtocol sid n).may β c 0 ∧ ∀ b, (reloadProtocol sid n).moves β c b 0 0 := by
  cases hc <;> exact ⟨rfl, fun _ => rfl⟩

lemma reloadProtocol_addDays :
    Obeys (reloadProtocol sid n) (fun _ a => a = 0) (addDays sid n) creditDue := by
  refine ⟨rfl, fun wasInactive _ => ⟨creditDue, rfl, ⟨rfl, rfl, rfl⟩, fun found _ => ?_⟩⟩
  cases found with
  | false => exact ⟨0, rfl, rfl⟩
  | true =>
      refine ⟨creditOwed, rfl, ⟨rfl, rfl, rfl⟩, fun r hr => ⟨0, rfl, ?_⟩⟩
      obtain ⟨row, rfl⟩ := hr
      cases wasInactive with
      | false => exact rfl
      | true =>
          have hrestore : Obeys (reloadProtocol sid n) (fun _ a => a = 0)
              (restoreConnectionsBySubscription sid) 0 :=
            Obeys.of_uses (uses_restoreConnectionsBySubscription sid)
              fun _ _ => reloadProtocol_restore
          exact hrestore.bind fun _ _ h => h

lemma reloadProtocol_unlock {α : Type} {Q : α → ReloadAccount → Prop}
    {f : Option (Option (Option DateTime))} {k : Unit → Api α}
    (hk : Obeys (reloadProtocol sid n) Q (k ()) 0) :
    Obeys (reloadProtocol sid n) Q (.call (.guard .unlockWrite) k) (reloading f) :=
  ⟨⟨f, rfl⟩, fun _ _ => ⟨0, rfl, hk⟩⟩

lemma reloadProtocol_getStateFromDb (lower : String → String) :
    Obeys (reloadProtocol sid n) (fun _ a => a = 0) (getStateFromDb lower) 0 := by
  simp only [getStateFromDb, Prog.perform_bind]
  refine ⟨rfl, fun _ _ => ⟨reloading none, rfl, rfl, fun r _ => ⟨reloading none, rfl, ?_⟩⟩⟩
  cases r with
  | error e => exact reloadProtocol_unlock rfl
  | ok rows =>
      refine ⟨rfl, fun r hsubs => ?_⟩
      cases r with
      | error e => exact ⟨reloading none, rfl, reloadProtocol_unlock rfl⟩
      | ok subs =>
          refine ⟨reloading (some (rowDate sid subs)), rfl, ?_⟩
          dsimp only
          cases hcache : buildCache lower rows subs with
          | error e => exact reloadProtocol_unlock rfl
          | ok cache =>
              refine ⟨?_, fun _ _ => ⟨_, rfl, reloadProtocol_unlock rfl⟩⟩
              exact congrArg (fun e => reloading (some e)) (buildCache_date hcache hsubs).symm

/-- Only a credit that is about to add its days in the database owes any. -/
lemma reloadProtocol_owed {p : Prog Call Unit} (hp : p.nextIs isAddDays = false)
    {a : ReloadAccount} (h : Obeys (reloadProtocol sid n) (fun _ a => a = 0) p a) :
    a.2.1 = 0 := by
  cases p with
  | pure x => rw [show a = 0 from h]; rfl
  | call c k =>
      have hmay := h.1
      cases c with
      | edit w =>
          cases w with
          | credit id m => rw [hmay.2.2]; rfl
          | subAdd | update | install => exact hmay.elim
          | _ => exact hmay
      | within w =>
          cases w with
          | install cache => rw [show a = reloading _ from hmay]; rfl
          | _ => exact hmay.elim
      | sql q =>
          cases q with
          | subCreate | subUpdate => exact hmay.elim
          | subAddDays id m => cases hp
          | subAll => rw [show a = reloading none from hmay]; rfl
          | _ => exact hmay
      | guard g =>
          cases g with
          | lockWrite => rw [show a = 0 from hmay]; rfl
          | unlockWrite =>
              obtain ⟨f, rfl⟩ := hmay
              rfl
          | _ => exact hmay
      | _ => exact hmay

/-- Runs of which none is between the two writes of a credit owe nothing
together. -/
lemma reloadProtocol_sum_owed {ps : List (Prog Call Unit)} {gs : List ReloadAccount}
    (h : AllObey (reloadProtocol sid n) (fun _ a => a = 0) gs ps)
    (hps : ∀ p ∈ ps, p.nextIs isAddDays = false) : gs.sum.2.1 = 0 := by
  induction h with
  | nil => rfl
  | @cons a p gs ps hp hrest ih =>
      have hhead := reloadProtocol_owed (hps p List.mem_cons_self) hp
      have htail := ih fun q hq => hps q (List.mem_cons_of_mem p hq)
      rw [List.sum_cons]
      show a.2.1 + gs.sum.2.1 = 0
      omega

end Programs

/-! ### The invariant -/

/-- Memory and database agree, except that a credit may be owed to the database.
A reload that has read the subscriptions has read what the database has, and no
credit is owed then. -/
structure ReloadInv (sid : Uuid) (t : DateTime) (n : ℤ) (d : Option (Option DateTime))
    (s : World) (a : ReloadAccount) : Prop where
  held : Held s.lock.writer a.2.2
  live : RowLive sid s
  read : ∀ e, some e ∈ a.2.2 → a.2.1 = 0 ∧ e = dbDate sid s
  settled : (a.1 = 1 ∧ a.2.1 = 0 ∧ memDate sid s = d ∧ dbDate sid s = d) ∨
    (a.1 = 0 ∧ a.2.1 = 1 ∧ dbDate sid s = d ∧
      memDate sid s = d.map fun e => some (creditBase t e + days n)) ∨
    (a.1 = 0 ∧ a.2.1 = 0 ∧ memDate sid s = dbDate sid s)

section ReloadInv

variable {sid : Uuid} {t : DateTime} {n : ℤ} {d : Option (Option DateTime)} {s s' : World}
  {a g : ReloadAccount}

lemma RowLive.congr (h : RowLive sid s) (hdb : s'.db.subscriptions = s.db.subscriptions) :
    RowLive sid s' := by
  rw [RowLive, hdb]
  exact h

lemma ReloadInv.frame (h : ReloadInv sid t n d s a) (hlock : s'.lock.writer = s.lock.writer)
    (hmem : s'.memory.subscriptions = s.memory.subscriptions)
    (hdb : s'.db.subscriptions = s.db.subscriptions) : ReloadInv sid t n d s' a := by
  have hmemDate : memDate sid s' = memDate sid s := by rw [memDate, hmem, memDate]
  have hdbDate : dbDate sid s' = dbDate sid s := by rw [dbDate, hdb, dbDate]
  refine ⟨?_, h.live.congr hdb, ?_, ?_⟩
  · rw [hlock]
    exact h.held
  · rw [hdbDate]
    exact h.read
  · rw [hmemDate, hdbDate]
    exact h.settled

/-- The first write of the credit: it is owed from here on if the subscription is
there. -/
lemma ReloadInv.credit (h : ReloadInv sid t n d s (creditDue + g))
    (hfree : s.lock.writer = false) (hlock : s'.lock = s.lock) (hdb : s'.db = s.db)
    (hmem : memDate sid s' = (memDate sid s).map fun e => some (creditBase t e + days n)) :
    ReloadInv sid t n d s' ((if (memDate sid s).isSome = true then creditOwed else 0) + g) := by
  have hheld : Held s.lock.writer (0 + g.2.2) := h.held
  rw [hfree, zero_add] at hheld
  have hnone : g.2.2 = 0 := hheld.eq_zero
  have hdbDate : dbDate sid s' = dbDate sid s := by rw [dbDate, hdb, dbDate]
  have hzero : ∀ x : ReloadAccount, x.2.2 = 0 → (x + g).2.2 = 0 := by
    intro x hx
    show x.2.2 + g.2.2 = 0
    rw [hx, hnone, add_zero]
  -- a credit that is still due is the only thing on the account
  obtain ⟨hdue, howed, hmem₀, hdb₀⟩ :
      g.1 = 0 ∧ g.2.1 = 0 ∧ memDate sid s = d ∧ dbDate sid s = d := by
    rcases h.settled with ⟨hdue, howed, hmem₀, hdb₀⟩ | ⟨hdue, -, -, -⟩ | ⟨hdue, -, -⟩
    · change 1 + g.1 = 1 at hdue
      change 0 + g.2.1 = 0 at howed
      exact ⟨by omega, by omega, hmem₀, hdb₀⟩
    · change 1 + g.1 = 0 at hdue
      omega
    · change 1 + g.1 = 0 at hdue
      omega
  have hguards : ((if (memDate sid s).isSome = true then creditOwed else 0) + g).2.2 = 0 := by
    refine hzero _ ?_
    split_ifs <;> rfl
  refine ⟨?_, h.live.congr (by rw [hdb]), ?_, ?_⟩
  · rw [hlock, hfree, hguards]
    exact Held.init
  · intro e he
    rw [hguards] at he
    exact absurd he (Multiset.notMem_zero _)
  · rw [hmem, hdbDate, hdb₀, hmem₀]
    cases d with
    | none =>
        refine Or.inr (Or.inr ⟨?_, ?_, rfl⟩)
        · show 0 + g.1 = 0
          omega
        · show 0 + g.2.1 = 0
          omega
    | some e =>
        refine Or.inr (Or.inl ⟨?_, ?_, rfl, rfl⟩)
        · show 0 + g.1 = 0
          omega
        · show 1 + g.2.1 = 1
          omega

/-- The second write of the credit. -/
lemma ReloadInv.pay (h : ReloadInv sid t n d s (creditOwed + g))
    (hround : ∀ e, d = some e → pgRound (creditBase t e) = creditBase t e)
    (hlock : s'.lock = s.lock) (hmem : s'.memory = s.memory)
    (hdb : ∃ e, dbDate sid s = some e ∧
      dbDate sid s' = some (some (pgRound (creditBase t e + days n))))
    (hlive : RowLive sid s') : ReloadInv sid t n d s' (0 + g) := by
  have hmemDate : memDate sid s' = memDate sid s := by rw [memDate, hmem, memDate]
  obtain ⟨hdue, howed, hdb₀, hmem₀⟩ : g.1 = 0 ∧ g.2.1 = 0 ∧ dbDate sid s = d ∧
      memDate sid s = d.map fun e => some (creditBase t e + days n) := by
    rcases h.settled with ⟨-, howed, -, -⟩ | ⟨hdue, howed, hdb₀, hmem₀⟩ | ⟨-, howed, -⟩
    · change 1 + g.2.1 = 0 at howed
      omega
    · change 0 + g.1 = 0 at hdue
      change 1 + g.2.1 = 1 at howed
      exact ⟨by omega, by omega, hdb₀, hmem₀⟩
    · change 1 + g.2.1 = 0 at howed
      omega
  rw [zero_add]
  refine ⟨?_, hlive, ?_, Or.inr (Or.inr ⟨hdue, howed, ?_⟩)⟩
  · have hheld : Held s.lock.writer (0 + g.2.2) := h.held
    rw [hlock]
    rwa [zero_add] at hheld
  · -- a reload that has read would have read while the credit was owed
    intro e he
    have hread : 1 + g.2.1 = 0 := (h.read e (Multiset.mem_add.mpr (Or.inr he))).1
    omega
  · obtain ⟨e, he, he'⟩ := hdb
    have hd : d = some e := hdb₀.symm.trans he
    rw [hmemDate, hmem₀, he', hd, pgRound_add_days (hround e hd)]
    rfl

/-- A reload takes the write guard. -/
lemma ReloadInv.lock (h : ReloadInv sid t n d s (0 + g)) (hfree : s.lock.writer = false)
    (hlock : s'.lock.writer = true) (hmem : s'.memory = s.memory) (hdb : s'.db = s.db) :
    ReloadInv sid t n d s' (reloading none + g) := by
  rw [zero_add] at h
  have hheld := h.held
  rw [hfree] at hheld
  have hmemDate : memDate sid s' = memDate sid s := by rw [memDate, hmem, memDate]
  have hdbDate : dbDate sid s' = dbDate sid s := by rw [dbDate, hdb, dbDate]
  have hguards : (reloading none + g).2.2 = {none} := by
    show {none} + g.2.2 = {none}
    rw [hheld.eq_zero, add_zero]
  have hsame : (reloading none + g).1 = g.1 ∧ (reloading none + g).2.1 = g.2.1 :=
    ⟨zero_add _, zero_add _⟩
  refine ⟨?_, h.live.congr (by rw [hdb]), ?_, ?_⟩
  · rw [hguards, hlock]
    exact Multiset.card_singleton none
  · intro e he
    rw [hguards, Multiset.mem_singleton] at he
    cases he
  · rw [hsame.1, hsame.2, hmemDate, hdbDate]
    exact h.settled

/-- The holder of the write guard has it alone. -/
lemma ReloadInv.alone {f : Option (Option (Option DateTime))}
    (h : ReloadInv sid t n d s (reloading f + g)) : s.lock.writer = true ∧ g.2.2 = 0 := by
  have hheld : Held s.lock.writer ({f} + g.2.2) := h.held
  rw [add_comm] at hheld
  exact hheld.alone

/-- A change of what the holder of the write guard has read. -/
lemma ReloadInv.exchange {f f' : Option (Option (Option DateTime))}
    (h : ReloadInv sid t n d s (reloading f + g))
    (hread : ∀ e, f' = some e → g.2.1 = 0 ∧ e = dbDate sid s) :
    ReloadInv sid t n d s (reloading f' + g) := by
  obtain ⟨hwriter, hnone⟩ := h.alone
  have hguards : (reloading f' + g).2.2 = {f'} := by
    show {f'} + g.2.2 = {f'}
    rw [hnone, add_zero]
  refine ⟨?_, h.live, ?_, h.settled⟩
  · rw [hguards, hwriter]
    exact Multiset.card_singleton f'
  · intro e he
    rw [hguards, Multiset.mem_singleton] at he
    obtain ⟨howed, heq⟩ := hread e he.symm
    refine ⟨?_, heq⟩
    show 0 + g.2.1 = 0
    omega

/-- The installation of a memory with the expiry that has been read. -/
lemma ReloadInv.install (h : ReloadInv sid t n d s (reloading (some (memDate sid s')) + g))
    (hlock : s'.lock = s.lock) (hdb : s'.db = s.db) :
    ReloadInv sid t n d s' (reloading (some (memDate sid s')) + g) := by
  have hdbDate : dbDate sid s' = dbDate sid s := by rw [dbDate, hdb, dbDate]
  have hmem : some (memDate sid s') ∈ (reloading (some (memDate sid s')) + g).2.2 :=
    Multiset.mem_add.mpr (Or.inl (Multiset.mem_singleton_self _))
  obtain ⟨howed, hread⟩ := h.read _ hmem
  refine ⟨?_, h.live.congr (by rw [hdb]), ?_, ?_⟩
  · rw [hlock]
    exact h.held
  · rw [hdbDate]
    exact h.read
  · rw [hdbDate, hread]
    rcases h.settled with ⟨hdue, -, -, hdb₀⟩ | ⟨-, howed', -, -⟩ | ⟨hdue, -, -⟩
    · exact Or.inl ⟨hdue, howed, hdb₀, hdb₀⟩
    · omega
    · exact Or.inr (Or.inr ⟨hdue, howed, rfl⟩)

/-- The write guard is released. -/
lemma ReloadInv.unlock {f : Option (Option (Option DateTime))}
    (h : ReloadInv sid t n d s (reloading f + g)) (hlock : s'.lock.writer = false)
    (hmem : s'.memory = s.memory) (hdb : s'.db = s.db) : ReloadInv sid t n d s' (0 + g) := by
  obtain ⟨-, hnone⟩ := h.alone
  have hmemDate : memDate sid s' = memDate sid s := by rw [memDate, hmem, memDate]
  have hdbDate : dbDate sid s' = dbDate sid s := by rw [dbDate, hdb, dbDate]
  have hzero : (0 + g).2.2 = 0 := by rw [zero_add, hnone]
  refine ⟨?_, h.live.congr (by rw [hdb]), ?_, ?_⟩
  · rw [hlock, hzero]
    exact Held.init
  · intro e he
    rw [hzero] at he
    exact absurd he (Multiset.notMem_zero _)
  · rw [hmemDate, hdbDate]
    exact h.settled

end ReloadInv

/-- One step of one run keeps the invariant. -/
lemma keeps_reloadInv (sid : Uuid) {t : DateTime} {n : ℤ} (hn : 0 < n)
    {d : Option (Option DateTime)}
    (hround : ∀ e, d = some e → pgRound (creditBase t e) = creditBase t e) :
    Keeps (reloadsApart t) (reloadProtocol sid n) (fun _ a => a = 0)
      (ReloadInv sid t n d) := by
  intro β c i s s' b a others gs hothers hexec hrule hmay hinv
  -- a step that touches no subscription
  have hsame : s'.lock.writer = s.lock.writer →
      s'.memory.subscriptions = s.memory.subscriptions →
      s'.db.subscriptions = s.db.subscriptions → ReloadInv sid t n d s' (a + gs.sum) :=
    hinv.frame
  cases c with
  | edit w =>
      have hdb := db_of_exec hexec (by simp)
      have hlock := lock_of_exec hexec (by simp)
      cases w with
      | credit id m =>
          obtain ⟨rfl, rfl, rfl⟩ := hmay
          obtain ⟨hfree, rfl, rfl⟩ := exec_edit.mp hexec
          have htime : i.now = t := by
            have hand : i.ok = true ∧ i.now = t := by simpa [reloadsApart] using hrule
            exact hand.2
          refine ⟨trivial, fun a' hm => ?_⟩
          have hfound : (Edit.run (.credit id m) i s.memory).2 = (memDate id s).isSome := by
            show (s.memory.subscriptions.get id).isSome = _
            rw [memDate, Option.isSome_map]
          change a' = if (Edit.run (.credit id m) i s.memory).2 = true then _ else _ at hm
          rw [hfound] at hm
          rw [hm]
          refine hinv.credit (Lock.writer_of_free hfree) rfl rfl ?_
          rw [memDate_credit hn, htime]
      | subAdd | update | install => exact hmay.elim
      | _ =>
          refine ⟨trivial, fun a' hm => ?_⟩
          rw [show a' = a from hm]
          exact hsame (by rw [hlock]) (subscriptions_of_exec hexec rfl) (by rw [hdb])
  | within w =>
      cases w with
      | install cache =>
          obtain ⟨-, rfl, rfl⟩ := exec_within.mp hexec
          obtain rfl : a = _ := hmay
          refine ⟨trivial, fun a' hm => ?_⟩
          rw [show a' = _ from hm]
          exact ReloadInv.install hinv rfl rfl
      | _ => exact hmay.elim
  | guard gd =>
      have hdb := db_of_exec hexec (by simp)
      have hmem := subscriptions_of_exec hexec rfl
      cases gd with
      | lockWrite =>
          obtain rfl : a = 0 := hmay
          obtain ⟨hfree, rfl⟩ := exec_lockWrite.mp hexec
          refine ⟨trivial, fun a' hm => ?_⟩
          rw [show a' = reloading none from hm]
          exact hinv.lock (Lock.writer_of_free hfree) rfl rfl rfl
      | unlockWrite =>
          obtain ⟨f, rfl⟩ := hmay
          obtain ⟨-, rfl⟩ := exec_unlockWrite.mp hexec
          refine ⟨trivial, fun a' hm => ?_⟩
          rw [show a' = 0 from hm]
          exact hinv.unlock rfl rfl rfl
      | lockRead =>
          refine ⟨trivial, fun a' hm => ?_⟩
          rw [show a' = a from hm]
          exact hsame (writer_of_exec_lockRead hexec) hmem (by rw [hdb])
      | unlockRead =>
          refine ⟨trivial, fun a' hm => ?_⟩
          rw [show a' = a from hm]
          exact hsame (writer_of_exec_unlockRead hexec) hmem (by rw [hdb])
  | sql q =>
      obtain ⟨rfl, rfl⟩ := exec_sql.mp hexec
      cases q with
      | subCreate | subUpdate => exact hmay.elim
      | subAddDays id m =>
          obtain ⟨rfl, rfl, rfl⟩ := hmay
          cases hok : (Sql.run (.subAddDays id m) i s.db).2 with
          | error e => rw [hok] at hrule; cases hrule
          | ok row =>
              have htime : i.now = t := by
                rw [hok] at hrule
                have hand : i.ok = true ∧ i.now = t := by simpa [reloadsApart] using hrule
                exact hand.2
              obtain ⟨hdate, hlive⟩ := dbDate_subAddDays hok
              rw [htime] at hdate
              refine ⟨⟨row, rfl⟩, fun a' hm => ?_⟩
              rw [show a' = 0 from hm]
              exact hinv.pay hround rfl rfl hdate (hlive hinv.live)
      | subAll =>
          obtain rfl : a = reloading none := hmay
          obtain ⟨hi, hapart⟩ : i.ok = true ∧ _ := by
            simpa only [reloadsApart, Bool.and_eq_true] using hrule
          rw [List.all_eq_true] at hapart
          have howed : gs.sum.2.1 = 0 :=
            reloadProtocol_sum_owed hothers fun p hp => by simpa using hapart p hp
          have hread : Sql.run .subAll i s.db = (s.db, .ok (s.db.subAll i.order)) := by
            simp only [Sql.run, if_pos hi]
          rw [hread]
          refine ⟨s.db.subAll_nodup i.order, fun a' hm => ?_⟩
          rw [show a' = reloading (some (rowDate sid (s.db.subAll i.order))) from hm]
          refine hinv.exchange fun e he => ⟨howed, ?_⟩
          rw [← Option.some.inj he]
          exact rowDate_subAll hinv.live i.order
      | _ =>
          refine ⟨trivial, fun a' hm => ?_⟩
          rw [show a' = a from hm]
          exact hsame rfl rfl (Sql.run_subscriptions rfl i s.db)
  | _ =>
      have hdb := db_of_exec hexec (by simp)
      have hmem := subscriptions_of_exec hexec rfl
      have hlock := lock_of_exec hexec (by simp)
      refine ⟨trivial, fun a' hm => ?_⟩
      rw [show a' = a from hm]
      exact hsame (by rw [hlock]) hmem (by rw [hdb])

/-! ### Runs -/

/-- One credit and a number of reloads. -/
def creditAndReloads (lower : String → String) (sid : Uuid) (n : ℤ) (k : ℕ) :
    List (Prog Call Unit) :=
  (addDays sid n).forget :: List.replicate k (getStateFromDb lower).forget

lemma reloads_obey {lower : String → String} {sid : Uuid} {n : ℤ} (k : ℕ) :
    AllObey (reloadProtocol sid n) (fun _ a => a = 0) (List.replicate k 0)
      (List.replicate k (getStateFromDb lower).forget) := by
  induction k with
  | zero => exact List.Forall₂.nil
  | succ k ih =>
      exact List.Forall₂.cons (obeys_forget.mpr (reloadProtocol_getStateFromDb lower)) ih

/-- **The credit is kept**: when a credit of positive days and any number of reloads
have returned, memory and database have the same expiry, provided that they had
it before, that the credit counts from a date of whole microseconds, and that no
reload read the subscriptions between the two writes of the credit. -/
theorem credit_kept {lower : String → String} {sid : Uuid} {t : DateTime} {n : ℤ} {k : ℕ}
    {s₀ : World} {p : Pool Call World} (hn : 0 < n) (hlock : s₀.lock.writer = false)
    (hagree : memDate sid s₀ = dbDate sid s₀) (hlive : RowLive sid s₀)
    (hround : pgRound (creditBase t (memExpiry sid s₀)) = creditBase t (memExpiry sid s₀))
    (h : Reach (reloadsApart t) ⟨s₀, creditAndReloads lower sid n k⟩ p)
    (hfin : p.finished = true) : memExpiry sid p.state = dbExpiry sid p.state := by
  have hobey : AllObey (reloadProtocol sid n) (fun _ a => a = 0)
      (creditDue :: List.replicate k 0) (creditAndReloads lower sid n k) :=
    List.Forall₂.cons (obeys_forget.mpr reloadProtocol_addDays) (reloads_obey k)
  have hbase : ∀ e, memDate sid s₀ = some e → pgRound (creditBase t e) = creditBase t e := by
    intro e he
    rwa [memExpiry_eq, he] at hround
  have hinit : ReloadInv sid t n (memDate sid s₀) s₀ (creditDue :: List.replicate k 0).sum := by
    rw [List.sum_cons, List.sum_replicate, nsmul_zero, add_zero]
    refine ⟨by rw [hlock]; exact Held.init, hlive, ?_, Or.inl ⟨rfl, rfl, rfl, hagree.symm⟩⟩
    exact fun e he => absurd he (Multiset.notMem_zero _)
  obtain ⟨gs, hgs, hinv⟩ := Reach.sound (keeps_reloadInv sid hn hbase) h hobey hinit
  rw [hgs.sum_eq_zero_of_finished hfin] at hinv
  rw [memExpiry_eq, dbExpiry_eq]
  rcases hinv.settled with ⟨hdue, -⟩ | ⟨-, howed, -⟩ | ⟨-, -, heq⟩
  · cases hdue
  · cases howed
  · rw [heq]

/-- A reload after the credit, and one that begins before it. -/
theorem credit_kept_between_reloads :
    ∃ p, Reach (reloadsApart 5) ⟨tenDayWorld, creditAndReloads id 7 5 2⟩ p ∧
      p.finished = true ∧ memExpiry 7 p.state = some (days 10 + days 5) ∧
      memExpiry 7 p.state = dbExpiry 7 p.state := by
  have hrun : (runWith (reloadsApart 5)
      (List.replicate 5 (1, Input.at 4) ++ List.replicate 3 (0, Input.at 5) ++
        List.replicate 5 (2, Input.at 6))
      ⟨tenDayWorld, creditAndReloads id 7 5 2⟩).map
      (fun p => (p.finished, memExpiry 7 p.state)) = some (true, some (days 10 + days 5)) := by
    decide +kernel
  obtain ⟨p, hp, hexp⟩ := exists_reach_of_runWith hrun
  obtain ⟨hfin, hmem⟩ : _ ∧ _ := by simpa only [Prod.mk.injEq] using hexp
  have hlive : RowLive 7 tenDayWorld := by
    intro row hrow
    obtain rfl : tenDaySub = row := Option.some.inj hrow
    rfl
  exact ⟨p, hp, hfin, hmem,
    credit_kept (by decide) rfl rfl hlive (by decide) hp hfin⟩

/-- A reload between the two writes of a credit: the database has the five days, the
memory does not. -/
theorem credit_swallowed :
    memExpiry 7 tenDayWorld = some (days 10) ∧ dbExpiry 7 tenDayWorld = some (days 10) ∧
      ∃ p, Reach nothingFails ⟨tenDayWorld, creditAndReloads id 7 5 1⟩ p ∧
        p.finished = true ∧ ¬ memExpiry 7 p.state = dbExpiry 7 p.state := by
  refine ⟨rfl, rfl, ?_⟩
  have hrun : (runWith nothingFails
      (List.replicate 2 (0, Input.at 5) ++ List.replicate 5 (1, Input.at 5) ++ [(0, Input.at 5)])
      ⟨tenDayWorld, creditAndReloads id 7 5 1⟩).map
      (fun p => (p.finished, memExpiry 7 p.state, dbExpiry 7 p.state)) =
        some (true, some (days 10), some (days 10 + days 5)) := by
    decide +kernel
  obtain ⟨p, hp, hexp⟩ := exists_reach_of_runWith hrun
  obtain ⟨hfin, hmem, hdb⟩ : _ ∧ _ ∧ _ := by simpa only [Prod.mk.injEq] using hexp
  exact ⟨p, hp, hfin, by rw [hmem, hdb]; decide⟩

end Fcore
