import Fcore.Api.SubRows
import Fcore.Runs.FlagReports
import Fcore.Runs.Reconciliation
import Fcore.Runs.ReloadCredits
import Fcore.Runs.ReloadSubscriptions

/-!
Failed updates and refused credits of one subscription (`update_sub`, `add_days`).

Both operations change the memory before they know whether the database follows, and the memory
refuses an expiry that is not in the future while the database takes any.

* `Subscription.Restates`, `Subscription.Declines`: the updates and credits that change nothing
  in memory;
* `failed_update_harmless_iff`: an error leaves the memory as it was exactly in these cases;
* `Subscription.creditExpiry`: the expiry that a credit asks for on both sides;
* `Followable`: the credits that both sides follow, and that may restore connections;
* `credit_coherent_iff`: exactly after these the expiries are the same and connections are
  restored only for an active subscription.
-/

namespace Fcore

open Calculus

/-! ### Updates and credits that change nothing -/

/-- The request has nothing but what the subscription has. -/
def Subscription.Restates (sub : Subscription) (req : SubReq) (now : DateTime) : Prop :=
  (∀ n ∈ req.days, sub.updatedAt = now ∧ (n = 0 ∨ sub.expiresAt = none)) ∧
    (∀ code ∈ req.referredBy, sub.referredBy = some code) ∧
      (∀ code ∈ req.referCode, sub.referCode = code) ∧
        ∀ n ∈ req.limitBytes, sub.limitBytes = some n

/-- The expiry that a credit asks for. -/
def Subscription.creditExpiry (sub : Subscription) (n : ℤ) (now : DateTime) : DateTime :=
  creditBase now sub.expiresAt + days n

/-- The memory refuses the credit, or it is one of no days at the instant of the last change. -/
def Subscription.Declines (sub : Subscription) (n : ℤ) (now : DateTime) : Prop :=
  sub.creditExpiry n now ≤ now ∨ n = 0 ∧ sub.updatedAt = now ∧ ∃ e, sub.expiresAt = some e ∧ now < e

lemma days_eq_zero_iff {n : ℤ} : days n = 0 ↔ n = 0 := by
  rw [days]
  constructor
  · intro h
    omega
  · rintro rfl
    rfl

/-- The fields that an update writes. -/
lemma Subscription.update_eq (sub : Subscription) (req : SubReq) (now : DateTime) :
    sub.update req now = { sub with
      expiresAt := req.days.elim sub.expiresAt fun n => sub.expiresAt.map (· + days n)
      updatedAt := req.days.elim sub.updatedAt fun _ => now
      referredBy := req.referredBy.or sub.referredBy
      referCode := req.referCode.getD sub.referCode
      limitBytes := req.limitBytes.or sub.limitBytes } := by
  obtain ⟨referredBy, referCode, n, limitBytes⟩ := req
  cases referredBy <;> cases referCode <;> cases n <;> cases limitBytes <;> rfl

lemma Subscription.update_eq_self_iff (sub : Subscription) (req : SubReq) (now : DateTime) :
    sub.update req now = sub ↔ sub.Restates req now := by
  have hor : ∀ {α : Type} (new old : Option α), new.or old = old ↔ ∀ x ∈ new, old = some x := by
    intro α new old
    cases new <;> simp [eq_comm]
  have hgetD :
      ∀ {α : Type} (new : Option α) (old : α), new.getD old = old ↔ ∀ x ∈ new, old = x := by
    intro α new old
    cases new <;> simp [eq_comm]
  have hdays :
      (req.days.elim sub.expiresAt fun n => sub.expiresAt.map (· + days n)) = sub.expiresAt ∧
      (req.days.elim sub.updatedAt fun _ => now) = sub.updatedAt ↔
        ∀ n ∈ req.days, sub.updatedAt = now ∧ (n = 0 ∨ sub.expiresAt = none) := by
    cases req.days with
    | none => simp
    | some n =>
        cases sub.expiresAt with
        | none => simp [eq_comm]
        | some e => simp [days_eq_zero_iff, eq_comm, and_comm]
  rw [update_eq, Restates, ← hor, ← hor, ← hgetD, ← hdays]
  obtain ⟨id, expiresAt, referredBy, referCode, createdAt, updatedAt, isDeleted,
    limitBytes, _⟩ := sub
  simp only [Subscription.mk.injEq, true_and, and_true]
  tauto

lemma Subscription.credit_eq_ite (sub : Subscription) (n : ℤ) (now : DateTime) :
    sub.credit n now = if sub.creditExpiry n now ≤ now then sub else
      { sub with expiresAt := some (sub.creditExpiry n now), updatedAt := now } := by
  rw [credit, creditExpiry]
  cases sub.expiresAt with
  | none =>
      rw [show creditBase now none = now from rfl]
      simp only [setExpiresAt]
      split_ifs <;> rfl
  | some e =>
      simp only [creditBase, setExpiresAt]
      split_ifs <;> rfl

lemma Subscription.credit_eq_self_iff (sub : Subscription) (n : ℤ) (now : DateTime) :
    sub.credit n now = sub ↔ sub.Declines n now := by
  rw [credit_eq_ite, Declines]
  split_ifs with hlate
  · exact iff_of_true rfl (.inl hlate)
  · rw [or_iff_right hlate]
    have hfields : ({ sub with expiresAt := some (sub.creditExpiry n now), updatedAt := now } :
        Subscription) = sub ↔
          sub.expiresAt = some (sub.creditExpiry n now) ∧ sub.updatedAt = now := by
      obtain ⟨id, expiresAt, referredBy, referCode, createdAt, updatedAt, isDeleted,
        limitBytes, _⟩ := sub
      simp only [Subscription.mk.injEq, true_and, and_true]
      rw [eq_comm, eq_comm (a := now)]
    rw [hfields]
    cases hexp : sub.expiresAt with
    | none => simp
    | some e =>
        have hbase : creditBase now (some e) = if now < e then e else now := rfl
        rw [creditExpiry, hexp, hbase] at hlate ⊢
        by_cases hnow : now < e
        · have hsame : e = e + days n ↔ n = 0 := by
            rw [eq_comm, add_eq_left, days_eq_zero_iff]
          rw [if_pos hnow, Option.some.injEq, hsame]
          simp [hnow]
        · -- an expiry in the past is not the new one
          rw [if_neg hnow] at hlate ⊢
          have hne : e ≠ now + days n := by
            intro heq
            exact hlate (heq ▸ not_lt.mp hnow)
          simp [hne, hnow]

/-! ### Errors -/

/-- The write sections of the memory read the clock at the given instant. -/
def sectionAt (t : DateTime) : Rule Call Input World
  | _, _, .edit _, i, _, _ => i.now == t
  | _, _, .within _, i, _, _ => i.now == t
  | _, _, _, _, _, _ => true

/-- The subscriptions of the memory are the same. -/
def SameSubscriptions (s s' : World) : Prop :=
  ∀ id, s'.memory.subscriptions.get id = s.memory.subscriptions.get id

/-- A change of one subscription leaves them all as they are exactly if it changes nothing. -/
lemma sameSubscriptions_change_iff {s s' : World} {subId : Uuid} {f : Subscription → Subscription}
    (h : s'.memory.subscriptions = s.memory.subscriptions.change subId f) :
    SameSubscriptions s s' ↔ ∀ sub ∈ s.memory.subscriptions.get subId, f sub = sub := by
  have hsame := Table.map_get_change_iff (t := s.memory.subscriptions) (k := subId)
    (f := f) (g := id)
  simp only [Option.map_id, id] at hsame
  rw [SameSubscriptions, h]
  exact hsame

/-- **An error leaves the subscriptions in memory as they were exactly if the update asks for what
is there, or the credit is refused.** -/
theorem failed_update_harmless_iff (t : DateTime) (subId : Uuid) (s s' : World) (e : SyncError) :
    (∀ req, Exec (sectionAt t) (updateSub subId req) s (.error e) s' →
      (SameSubscriptions s s' ↔
        ∀ sub ∈ s.memory.subscriptions.get subId, sub.Restates req t)) ∧
    (∀ n, Exec (sectionAt t) (addDays subId n) s (.error e) s' →
      (SameSubscriptions s s' ↔
        ∀ sub ∈ s.memory.subscriptions.get subId, sub.Declines n t)) := by
  constructor
  · intro req h
    obtain ⟨i, hrule, hend⟩ := exec_updateSub h
    obtain rfl : i.now = t := by simpa [sectionAt] using hrule
    have hmemory : s'.memory.subscriptions =
        s.memory.subscriptions.change subId (fun sub => sub.update req i.now) := by
      rcases hend with ⟨-, -, rfl⟩ | ⟨sub, -, ⟨-, -, rfl⟩ | ⟨v, j, q, -, -, rfl, -⟩⟩
      · rfl
      · rfl
      · rfl
    rw [sameSubscriptions_change_iff hmemory]
    simp only [Subscription.update_eq_self_iff]
  · intro n h
    rcases exec_addDays h with ⟨-, -, hr⟩ | ⟨sub, k, i, j, s₁, -, -, hrule, -, -, hend⟩
    · cases hr
    · rcases hend with ⟨e', -, -, rfl⟩ | ⟨row, -, hr, -⟩
      · obtain rfl : i.now = t := by simpa [sectionAt] using hrule
        rw [sameSubscriptions_change_iff (f := fun sub => sub.credit n i.now) rfl]
        simp only [Subscription.credit_eq_self_iff]
      · cases hr

/-- The database fails behind an update that gives the present refer code and behind a credit that
takes twenty of ten days: both leave the memory as it was. -/
theorem failed_update_keeps :
    (∃ e s', Exec (sectionAt 5) (updateSub 7 ⟨none, some tenDaySub.referCode, none, none⟩) tenDayWorld
      (.error e) s' ∧ SameSubscriptions tenDayWorld s') ∧
    ∃ e s', Exec (sectionAt 5) (addDays 7 (-20)) tenDayWorld (.error e) s' ∧
      SameSubscriptions tenDayWorld s' := by
  have hupdate : (execWith (sectionAt 5) [Input.at 5, Input.at 5,
      { Input.at 5 with ok := false }, Input.at 5]
      (updateSub 7 ⟨none, some tenDaySub.referCode, none, none⟩) tenDayWorld).map (fun r => r.2) =
      some (.error (.database (.database ""))) := by
    decide +kernel
  have hcredit : (execWith (sectionAt 5) [Input.at 5, Input.at 5, { Input.at 5 with ok := false }]
      (addDays 7 (-20)) tenDayWorld).map (fun r => r.2) =
      some (.error (.database (.database ""))) := by
    decide +kernel
  obtain ⟨⟨s₁, r₁⟩, hexec₁, rfl⟩ := Option.map_eq_some_iff.mp hupdate
  obtain ⟨⟨s₂, r₂⟩, hexec₂, rfl⟩ := Option.map_eq_some_iff.mp hcredit
  have hget : tenDayWorld.memory.subscriptions.get 7 = some tenDaySub := rfl
  refine ⟨⟨_, s₁, exec_of_execWith hexec₁, ?_⟩, _, s₂, exec_of_execWith hexec₂, ?_⟩
  · refine ((failed_update_harmless_iff 5 7 tenDayWorld s₁ _).1 _ (exec_of_execWith hexec₁)).mpr ?_
    rw [hget]
    rintro sub ⟨⟩
    exact ⟨by simp, by simp, by simp, by simp⟩
  · refine ((failed_update_harmless_iff 5 7 tenDayWorld s₂ _).2 _ (exec_of_execWith hexec₂)).mpr ?_
    rw [hget]
    rintro sub ⟨⟩
    exact .inl (by decide)

/-- The database fails behind an update and behind a credit. -/
theorem failed_update_extends :
    (∃ e s', Exec Rule.any (updateSub 7 ⟨none, none, some 3, none⟩) tenDayWorld (.error e) s' ∧
      ¬SameSubscriptions tenDayWorld s') ∧
    ∃ e s', Exec Rule.any (addDays 7 5) tenDayWorld (.error e) s' ∧
      ¬SameSubscriptions tenDayWorld s' := by
  have hupdate : (execWith Rule.any [Input.at 5, Input.at 5, { Input.at 5 with ok := false },
      Input.at 5] (updateSub 7 ⟨none, none, some 3, none⟩) tenDayWorld).map
        (fun r => (r.2, memExpiry 7 r.1)) =
      some (.error (.database (.database "")), some (days 13)) := by
    decide +kernel
  have hcredit : (execWith Rule.any [Input.at 5, Input.at 5, { Input.at 5 with ok := false }]
      (addDays 7 5) tenDayWorld).map (fun r => (r.2, memExpiry 7 r.1)) =
      some (.error (.database (.database "")), some (days 15)) := by
    decide +kernel
  have hchanged : ∀ {s' : World} {n : ℤ}, memExpiry 7 s' = some (days n) → n ≠ 10 →
      ¬SameSubscriptions tenDayWorld s' := by
    intro s' n hexpiry hn hsame
    have hold : memExpiry 7 s' = some (days 10) := by
      rw [memExpiry, hsame 7]
      rfl
    rw [hold, Option.some.injEq, days, days] at hexpiry
    omega
  obtain ⟨⟨s₁, r₁⟩, hexec₁, heq₁⟩ := Option.map_eq_some_iff.mp hupdate
  obtain ⟨rfl, hexpiry₁⟩ := Prod.mk.inj heq₁
  obtain ⟨⟨s₂, r₂⟩, hexec₂, heq₂⟩ := Option.map_eq_some_iff.mp hcredit
  obtain ⟨rfl, hexpiry₂⟩ := Prod.mk.inj heq₂
  exact ⟨⟨_, s₁, exec_of_execWith hexec₁, hchanged hexpiry₁ (by norm_num)⟩,
    _, s₂, exec_of_execWith hexec₂, hchanged hexpiry₂ (by norm_num)⟩

/-! ### Credits on both sides -/

/-- The clock stands. -/
def clockAt (t : DateTime) : Rule Call Input World := fun _ _ _ i _ _ => i.now == t

/-- The expiries are the same on both sides, and connections have been restored only if the
subscription is active. -/
structure CreditFollowed (t : DateTime) (subId : Uuid) (s s' : World) : Prop where
  expiry : memExpiry subId s' = dbExpiry subId s'
  restored : ∀ id, memSub id s = some subId → memFlag id s = some true →
    memFlag id s' = some false →
    ∃ sub, s'.memory.subscriptions.get subId = some sub ∧ sub.isActive t = true

/-- The new expiry lies in the future and is one that a column holds, or it is the old one; and if
the subscription is inactive and has deleted connections, it becomes active. -/
def Followable (t : DateTime) (subId : Uuid) (n : ℤ) (s : World) (sub : Subscription) : Prop :=
  (t < sub.creditExpiry n t ∧ pgRound (sub.creditExpiry n t) = sub.creditExpiry n t ∨
    sub.creditExpiry n t ≤ t ∧ sub.expiresAt = some (pgRound (sub.creditExpiry n t))) ∧
  (sub.isActive t = false → (∃ id, memSub id s = some subId ∧ memFlag id s = some true) →
    sub.isDeleted = false ∧ t < sub.creditExpiry n t)

/-- The memory takes an expiry in the future. -/
lemma Subscription.credit_expiresAt_ite (sub : Subscription) (n : ℤ) (t : DateTime) :
    (sub.credit n t).expiresAt =
      if sub.creditExpiry n t ≤ t then sub.expiresAt else some (sub.creditExpiry n t) := by
  rw [credit_eq_ite]
  split <;> rfl

/-- A credit makes an inactive subscription active exactly if it is taken and the subscription is
not deleted. -/
lemma Subscription.isActive_credit {sub : Subscription} {n : ℤ} {t : DateTime}
    (h : sub.isActive t = false) :
    (sub.credit n t).isActive t = true ↔ sub.isDeleted = false ∧ t < sub.creditExpiry n t := by
  rw [credit_eq_ite]
  split_ifs with hlate
  · rw [h]
    exact iff_of_false (by simp) fun hboth => absurd hlate (not_le.mpr hboth.2)
  · simp [isActive]

/-- A restoration leaves the subscriptions alone. -/
lemma keepsSubs_of_restore {rule : Rule Call Input World} {subId : Uuid} {ids : List Uuid}
    {s s' : World} (h : Exec rule (restoreConnectionsBySubscription subId) s ids s') :
    KeepsSubs s s' :=
  keepsSubs_of_uses h ((uses_restoreConnectionsBySubscription subId).mono fun _ _ =>
    subsQuiet_restore)

section Follow

variable {rule : Rule Call Input World} {t : DateTime} {subId id : Uuid} {n : ℤ} {s s' : World}
  {sub row : Subscription}

/-- The expiries after a successful credit, and what it does to the connections. -/
lemma expiries_of_addDays (hclock : ∀ β c i s b, rule β [] c i s b = true → i.now = t)
    (hmem : s.memory.subscriptions.get subId = some sub)
    (hdb : s.db.subscriptions.get subId = some row) (hsame : sub.expiresAt = row.expiresAt)
    (h : Exec rule (addDays subId n) s (.ok (.updated id)) s') :
    s'.memory.subscriptions.get subId = some (sub.credit n t) ∧
      dbExpiry subId s' = some (pgRound (sub.creditExpiry n t)) ∧
      (sub.isActive t = true ∧ s'.memory.connections = s.memory.connections ∨
        sub.isActive t = false ∧ ∃ s₁ ids, s₁.memory.connections = s.memory.connections ∧
          Exec rule (restoreConnectionsBySubscription subId) s₁ ids s') := by
  rcases exec_addDays h with ⟨-, hnone, -⟩ | ⟨sub', k, i, j, s₀, hget, hlook, hedit, -, hsql, hend⟩
  · rw [hmem] at hnone
    cases hnone
  obtain rfl : sub = sub' := Option.some.inj (hmem.symm.trans hget)
  rcases hend with ⟨e, -, hr, -⟩ | ⟨row', hreply, -, hend⟩
  · cases hr
  obtain ⟨old, hold, hput⟩ := subAddDays_ok hreply
  obtain rfl : row = old := Option.some.inj (hdb.symm.trans hold)
  -- what the two writes leave, with or without a restoration behind them
  have hcredited : (credited subId n i j s).memory.subscriptions.get subId = some (sub.credit n t) ∧
      dbExpiry subId (credited subId n i j s) = some (pgRound (sub.creditExpiry n t)) := by
    constructor
    · show (s.memory.subscriptions.change subId _).get subId = _
      rw [Table.get_change_self, hmem, Option.map_some, hclock _ _ _ _ _ hedit]
    · show ((Sql.run (.subAddDays subId n) j s.db).1.subscriptions.get subId).bind _ = _
      rw [hput, Table.get_put_self, Option.bind_some, Db.subRowCredit_expiresAt,
        hclock _ _ _ _ _ hsql, ← hsame, Subscription.creditExpiry]
  rw [hclock _ _ _ _ _ hlook] at hend
  rcases hend with ⟨hactive, rfl⟩ | ⟨hinactive, ids, hrestore⟩
  · exact ⟨hcredited.1, hcredited.2, .inl ⟨hactive, rfl⟩⟩
  · obtain ⟨hmemory, hrows⟩ := keepsSubs_of_restore hrestore
    refine ⟨?_, ?_, .inr ⟨hinactive, credited subId n i j s, ids, rfl, hrestore⟩⟩
    · rw [hmemory, hcredited.1]
    · rw [dbExpiry, hrows, ← dbExpiry, hcredited.2]

/-- The expiries agree after a credit. -/
lemma expiry_followed_iff (hmem : s'.memory.subscriptions.get subId = some (sub.credit n t))
    (hdb : dbExpiry subId s' = some (pgRound (sub.creditExpiry n t))) :
    memExpiry subId s' = dbExpiry subId s' ↔
      t < sub.creditExpiry n t ∧ pgRound (sub.creditExpiry n t) = sub.creditExpiry n t ∨
        sub.creditExpiry n t ≤ t ∧ sub.expiresAt = some (pgRound (sub.creditExpiry n t)) := by
  rw [memExpiry, hmem, Option.bind_some, hdb, Subscription.credit_expiresAt_ite]
  split_ifs with hlate
  · simp [hlate, not_lt.mpr hlate]
  · simp [hlate, not_le.mp hlate, eq_comm]

/-- A credit that is to be followed is, whatever fails in the restoration. -/
lemma creditFollowed_of_followable (hclock : ∀ β c i s b, rule β [] c i s b = true → i.now = t)
    (hmem : s.memory.subscriptions.get subId = some sub)
    (hdb : s.db.subscriptions.get subId = some row) (hsame : sub.expiresAt = row.expiresAt)
    (h : Exec rule (addDays subId n) s (.ok (.updated id)) s')
    (hfollow : Followable t subId n s sub) : CreditFollowed t subId s s' := by
  obtain ⟨hmem', hdb', hend⟩ := expiries_of_addDays hclock hmem hdb hsame h
  refine ⟨(expiry_followed_iff hmem' hdb').mpr hfollow.1, fun id hsub hbefore hafter => ?_⟩
  rcases hend with ⟨-, hconns⟩ | ⟨hinactive, -⟩
  · rw [memFlag, hconns, ← memFlag, hbefore] at hafter
    cases hafter
  · exact ⟨_, hmem', (Subscription.isActive_credit hinactive).mpr
      (hfollow.2 hinactive ⟨id, hsub, hbefore⟩)⟩

/-- Without failures every deleted connection is restored, so nothing else is followed. -/
lemma followable_of_creditFollowed (hmem : s.memory.subscriptions.get subId = some sub)
    (hdb : s.db.subscriptions.get subId = some row) (hsame : sub.expiresAt = row.expiresAt)
    (h : Exec (atInstant t) (addDays subId n) s (.ok (.updated id)) s')
    (hfollowed : CreditFollowed t subId s s') : Followable t subId n s sub := by
  have hclock : ∀ β c i s b, atInstant t β [] c i s b = true → i.now = t := by
    intro β c i s b hrule
    rw [atInstant, Bool.and_eq_true, beq_iff_eq] at hrule
    exact hrule.2
  obtain ⟨hmem', hdb', hend⟩ := expiries_of_addDays hclock hmem hdb hsame h
  refine ⟨(expiry_followed_iff hmem' hdb').mp hfollowed.expiry, ?_⟩
  rintro hinactive ⟨id, hsub, hbefore⟩
  rcases hend with ⟨hactive, -⟩ | ⟨-, s₁, ids, hconns, hrestore⟩
  · rw [hinactive] at hactive
    cases hactive
  · have hafter : memFlag id s' = some false := by
      have hmark := (passed_restoreConnectionsBySubscription hrestore).marks id
      rw [markOf, markOf, memSub, hconns, ← memSub, hsub] at hmark
      rw [memFlag] at hbefore ⊢
      obtain ⟨c, hget, -⟩ := Option.map_eq_some_iff.mp hbefore
      rw [hget, Option.map_some, Option.map_some, if_pos (by simp), Option.map_eq_some_iff] at hmark
      obtain ⟨c', hget', hmark⟩ := hmark
      rw [hget', Option.map_some, Option.some.injEq]
      exact congrArg Mark.isDeleted hmark
    obtain ⟨sub', hget, hactive⟩ := hfollowed.restored id hsub hbefore hafter
    rw [hmem', Option.some.injEq] at hget
    rw [← hget] at hactive
    exact (Subscription.isActive_credit hinactive).mp hactive

end Follow

/-- **A successful credit is followed exactly if it is followable**, and if it is, then also
with failures in the restoration. -/
theorem credit_coherent_iff (t : DateTime) (subId : Uuid) (n : ℤ) (s : World)
    (sub row : Subscription) (hmem : s.memory.subscriptions.get subId = some sub)
    (hdb : s.db.subscriptions.get subId = some row) (hsame : sub.expiresAt = row.expiresAt) :
    (∀ id s', Exec (atInstant t) (addDays subId n) s (.ok (.updated id)) s' →
      (CreditFollowed t subId s s' ↔ Followable t subId n s sub)) ∧
    (Followable t subId n s sub → ∀ id s',
      Exec (clockAt t) (addDays subId n) s (.ok (.updated id)) s' → CreditFollowed t subId s s') := by
  constructor
  · intro id s' h
    refine ⟨followable_of_creditFollowed hmem hdb hsame h, ?_⟩
    refine creditFollowed_of_followable ?_ hmem hdb hsame h
    intro β c i s b hrule
    rw [atInstant, Bool.and_eq_true, beq_iff_eq] at hrule
    exact hrule.2
  · intro hfollow id s' h
    refine creditFollowed_of_followable ?_ hmem hdb hsame h hfollow
    intro β c i s b hrule
    exact beq_iff_eq.mp hrule

/-- Five days for a subscription with ten left. -/
theorem credit_coherent_fifteen :
    ∃ s', Exec (atInstant 5) (addDays 7 5) tenDayWorld (.ok (.updated 7)) s' ∧
      CreditFollowed 5 7 tenDayWorld s' := by
  have hrun : (execWith (atInstant 5) (List.replicate 3 (Input.at 5)) (addDays 7 5) tenDayWorld).map
      Prod.snd = some (.ok (.updated 7)) := by
    decide +kernel
  obtain ⟨⟨s', r⟩, hexec, rfl⟩ := Option.map_eq_some_iff.mp hrun
  have hfollow : Followable 5 7 5 tenDayWorld tenDaySub := by
    refine ⟨.inl ⟨by decide, by decide⟩, fun hinactive => ?_⟩
    cases hinactive
  have hcoherent := credit_coherent_iff 5 7 5 tenDayWorld tenDaySub tenDaySub rfl rfl rfl
  exact ⟨s', exec_of_execWith hexec, (hcoherent.1 7 s' (exec_of_execWith hexec)).mpr hfollow⟩

/-- The state of a service whose subscription 7 has expired and has a deleted connection. -/
def expiredWorld : World :=
  { World.empty with
    memory := ⟨(∅ : Connections Conn).put 1 (sampleConn.setDeleted true 0),
      (∅ : Table Uuid Subscription).put 7 { tenDaySub with expiresAt := some 0 }⟩
    db := ⟨(∅ : Table Uuid ConnRow).put 1 (ConnRow.ofConn 1 (sampleConn.setDeleted true 0)),
      (∅ : Table Uuid Subscription).put 7 { tenDaySub with expiresAt := some 0 }, ∅, []⟩ }

/-- No days for an expired subscription: the expiries differ, and its connection is restored
although it is inactive. -/
theorem empty_credit_restores :
    memExpiry 7 expiredWorld = dbExpiry 7 expiredWorld ∧
      ∃ s', Exec (atInstant (days 1)) (addDays 7 0) expiredWorld (.ok (.updated 7)) s' ∧
        memExpiry 7 s' ≠ dbExpiry 7 s' ∧
        memSub 1 expiredWorld = some 7 ∧ memFlag 1 expiredWorld = some true ∧
        memFlag 1 s' = some false ∧
        ∀ sub, s'.memory.subscriptions.get 7 = some sub → sub.isActive (days 1) = false := by
  have hrun : (execWith (atInstant (days 1)) (List.replicate 8 (Input.at (days 1))) (addDays 7 0)
      expiredWorld).map (fun r => (r.2, memExpiry 7 r.1, dbExpiry 7 r.1, memFlag 1 r.1,
        (r.1.memory.subscriptions.get 7).all fun sub => !sub.isActive (days 1))) =
      some (.ok (.updated 7), some 0, some (days 1), some false, true) := by
    decide +kernel
  obtain ⟨⟨s', r⟩, hexec, heq⟩ := Option.map_eq_some_iff.mp hrun
  simp only [Prod.mk.injEq] at heq
  obtain ⟨rfl, hmem, hdb, hflag, hinactive⟩ := heq
  refine ⟨rfl, s', exec_of_execWith hexec, ?_, rfl, rfl, hflag, fun sub hsub => ?_⟩
  · rw [hmem, hdb]
    decide
  · rw [hsub] at hinactive
    simpa using hinactive

end Fcore
