import Fcore.Calculus.Once
import Fcore.Api.Sync

/-!
Day credits of one subscription under interleaving (`add_days`, `update_sub`,
`PgSubscription::add_days`, `PgSubscription::update_subscription`).

`add_days` adds its days to the memory and to the database in two steps.
`update_sub` adds its days to the memory and writes the expiry of the memory to
the database, both under the write guard.  An `update_sub` between the two steps
of an `add_days` writes days to the database that are then added once more.

* `memExpiry`, `dbExpiry`: the expiry in memory and in the database;
* `dayProtocol`: the account of a call says which of its days are not counted
  yet, or counted in memory only;
* `DayInv`: the memory has all days that are not to be done, the database those
  that are not owed either;
* `days_counted_twice`: the overlap that counts days twice;
* `days_counted_once`: both expiries are right at the end when no expiry is
  written to the database while an `add_days` is between its two steps.
-/

namespace Fcore

open Calculus
open Machine (exec)

/-! ### Expiries and calls -/

/-- The expiry of a subscription in memory. -/
def memExpiry (sid : Uuid) (s : World) : Option DateTime :=
  (s.memory.subscriptions.get sid).bind Subscription.expiresAt

/-- The expiry of a subscription in the database. -/
def dbExpiry (sid : Uuid) (s : World) : Option DateTime :=
  (s.db.subscriptions.get sid).bind Subscription.expiresAt

/-- The calls that credit days. -/
inductive DayOp where
  | addDays (n : ℤ)
  | updateSub (req : SubReq)

/-- The days that a call credits. -/
def DayOp.days : DayOp → ℤ
  | addDays n => n
  | updateSub req => req.days.getD 0

/-- The program of a call. -/
def DayOp.prog (sid : Uuid) : DayOp → Prog Call Unit
  | addDays n => (Fcore.addDays sid n).forget
  | updateSub req => (Fcore.updateSub sid req).forget

/-- The step that adds days in the database. -/
def isAddDays : (β : Type) → Call β → Bool
  | _, .sql (.subAddDays _ _) => true
  | _, _ => false

/-- No query fails, clocks are read before the expiry `e`, and `update_sub` writes
an expiry to the database only while no `add_days` is between its two steps. -/
def creditsApart (e : DateTime) : Rule Call Input World
  | _, _, .sql (.subAddDays _ _), _, _, .error _ => false
  | _, _, .sql (.subUpdate _ _ _ _), _, _, .error _ => false
  | _, others, .sql (.subUpdate _ _ _ _), i, _, .ok _ =>
      decide (i.now < e) && others.all fun p => !p.nextIs isAddDays
  | _, _, _, i, _, _ => decide (i.now < e)

/-- Nothing fails, and clocks are read before the expiry `e`. -/
def beforeExpiry (e : DateTime) : Rule Call Input World := fun _ _ _ i _ _ =>
  i.ok && decide (i.now < e)

/-! ### The protocol of credits -/

/-- The days that are to be done, those that are counted in memory and owed to the
database, and what the holder of the write guard has written to the memory: the
days and the new expiry. -/
abbrev DayAccount := ℕ × ℕ × Multiset (Option (ℕ × DateTime))

/-- The account of a call that has not begun. -/
def due (n : ℕ) : DayAccount := (n, 0, 0)

/-- The account of a call between its two steps. -/
def owing (n : ℕ) : DayAccount := (0, n, 0)

/-- The account of a call that holds the write guard. -/
def writing (n : ℕ) (x : Option (ℕ × DateTime)) : DayAccount := (n, 0, {x})

/-- The protocol of credits to the subscription `sid`. -/
def dayProtocol (sid : Uuid) : Protocol Call DayAccount where
  admits
    | _, .edit (.credit _ _), b => b = true
    | _, .within (.update _ _), b => ∃ sub v, b = some sub ∧ sub.expiresAt = some v
    | _, .sql (.subAddDays _ _), b => ∃ row, b = .ok row
    | _, .sql (.subUpdate _ _ _ _), b => ∃ row, b = .ok row
    | _, _, _ => True
  may
    | _, .edit (.credit id n), a => id = sid ∧ 0 < n ∧ a = due n.toNat
    | _, .edit (.subAdd _), _ => False
    | _, .edit (.update _ _), _ => False
    | _, .edit (.install _), _ => False
    | _, .within (.update id req), a =>
        id = sid ∧ ∃ n, req.days = some n ∧ 0 < n ∧ a = writing n.toNat none
    | _, .within _, _ => False
    | _, .sql (.subCreate _), _ => False
    | _, .sql (.subAddDays id n), a => id = sid ∧ 0 < n ∧ a = owing n.toNat
    | _, .sql (.subUpdate id v _ _), a => id = sid ∧ ∃ n, a = writing 0 (some (n, v))
    | _, .guard .lockWrite, a => ∃ n, a = due n
    | _, .guard .unlockWrite, a => a = writing 0 none
    | _, _, a => a.2.1 = 0
  moves
    | _, .edit (.credit _ n), _, _, a' => a' = owing n.toNat
    | _, .within (.update _ _), some sub, a, a' =>
        ∀ v, sub.expiresAt = some v → a' = writing 0 (some (a.1, v))
    | _, .sql (.subAddDays _ _), _, _, a' => a' = 0
    | _, .sql (.subUpdate _ _ _ _), _, _, a' => a' = writing 0 none
    | _, .guard .lockWrite, _, a, a' => a' = writing a.1 none
    | _, .guard .unlockWrite, _, _, a' => a' = 0
    | _, _, _, a, a' => a' = a

section Programs

variable {sid : Uuid}

lemma dayProtocol_restore {β : Type} {c : Call β} (hc : RestoreCall β c) :
    (dayProtocol sid).may β c 0 ∧ ∀ b, (dayProtocol sid).moves β c b 0 0 := by
  cases hc <;> exact ⟨rfl, fun _ => rfl⟩

lemma dayProtocol_addDays {n : ℤ} (hn : 0 < n) :
    Obeys (dayProtocol sid) (fun _ a => a = 0) (addDays sid n) (due n.toNat) := by
  refine ⟨rfl, fun wasInactive _ => ⟨_, rfl, ⟨rfl, hn, rfl⟩, fun found hfound => ?_⟩⟩
  obtain rfl : found = true := hfound
  refine ⟨owing n.toNat, rfl, ⟨rfl, hn, rfl⟩, fun r hr => ⟨0, rfl, ?_⟩⟩
  obtain ⟨row, rfl⟩ := hr
  cases wasInactive with
  | false => exact rfl
  | true =>
      refine Obeys.bind (p := restoreConnectionsBySubscription sid)
        (Obeys.of_uses (uses_restoreConnectionsBySubscription sid)
          fun _ _ => dayProtocol_restore) ?_
      rintro _ _ rfl
      exact rfl

lemma dayProtocol_updateSub {req : SubReq} {n : ℤ} (hreq : req.days = some n) (hn : 0 < n) :
    Obeys (dayProtocol sid) (fun _ a => a = 0) (updateSub sid req) (due n.toNat) := by
  simp only [updateSub, Prog.perform_bind]
  refine ⟨⟨_, rfl⟩, fun _ _ => ⟨writing n.toNat none, rfl, ⟨rfl, n, hreq, hn, rfl⟩, fun r hr => ?_⟩⟩
  obtain ⟨sub, v, rfl, hv⟩ := hr
  refine ⟨writing 0 (some (n.toNat, v)), ?_, ?_⟩
  · intro v' hv'
    rw [hv] at hv'
    rw [Option.some.inj hv']
    rfl
  · dsimp only
    rw [hv]
    refine ⟨⟨rfl, _, rfl⟩, fun r hr => ⟨writing 0 none, rfl, ?_⟩⟩
    obtain ⟨row, rfl⟩ := hr
    exact ⟨rfl, fun _ _ => ⟨0, rfl, rfl⟩⟩

lemma dayProtocol_prog {op : DayOp} (hop : 0 < op.days) :
    Obeys (dayProtocol sid) (fun _ a => a = 0) (op.prog sid) (due op.days.toNat) := by
  cases op with
  | addDays n => exact obeys_forget.mpr (dayProtocol_addDays hop)
  | updateSub req =>
      cases hreq : req.days with
      | none => simp [DayOp.days, hreq] at hop
      | some n =>
          have hdays : (DayOp.updateSub req).days = n := by simp [DayOp.days, hreq]
          rw [hdays] at hop ⊢
          exact obeys_forget.mpr (dayProtocol_updateSub hreq hop)

/-- Only a call that is about to add its days in the database owes any. -/
lemma owed_eq_zero {p : Prog Call Unit} (hp : p.nextIs isAddDays = false) {a : DayAccount}
    (h : Obeys (dayProtocol sid) (fun _ a => a = 0) p a) : a.2.1 = 0 := by
  cases p with
  | pure x => rw [show a = 0 from h]; rfl
  | call c k =>
      have hmay := h.1
      cases c with
      | edit w =>
          cases w with
          | credit id n => rw [hmay.2.2]; rfl
          | subAdd | update | install => exact hmay.elim
          | _ => exact hmay
      | within w =>
          cases w with
          | update id req =>
              obtain ⟨-, n, -, -, rfl⟩ := hmay
              rfl
          | _ => exact hmay.elim
      | sql q =>
          cases q with
          | subCreate sub => exact hmay.elim
          | subAddDays id n => cases hp
          | subUpdate id v r c =>
              obtain ⟨-, n, rfl⟩ := hmay
              rfl
          | _ => exact hmay
      | guard g =>
          cases g with
          | lockWrite =>
              obtain ⟨n, rfl⟩ := hmay
              rfl
          | unlockWrite => rw [show a = writing 0 none from hmay]; rfl
          | _ => exact hmay
      | _ => exact hmay

/-- Calls of which none is between its two steps owe nothing together. -/
lemma sum_owed {ps : List (Prog Call Unit)} {gs : List DayAccount}
    (h : AllObey (dayProtocol sid) (fun _ a => a = 0) gs ps)
    (hps : ∀ p ∈ ps, p.nextIs isAddDays = false) : gs.sum.2.1 = 0 := by
  induction h with
  | nil => rfl
  | @cons a p gs ps hp hrest ih =>
      have hhead := owed_eq_zero (hps p List.mem_cons_self) hp
      have htail := ih fun q hq => hps q (List.mem_cons_of_mem p hq)
      rw [List.sum_cons]
      show a.2.1 + gs.sum.2.1 = 0
      omega

end Programs

/-! ### The invariant -/

/-- The days that holders of the write guard have written to the memory only. -/
def heldDays (t : Multiset (Option (ℕ × DateTime))) : ℕ :=
  (t.map fun x => (x.map Prod.fst).getD 0).sum

@[simp] lemma heldDays_zero : heldDays 0 = 0 := rfl

@[simp] lemma heldDays_singleton (x : Option (ℕ × DateTime)) :
    heldDays {x} = (x.map Prod.fst).getD 0 := by
  rw [heldDays, Multiset.map_singleton, Multiset.sum_singleton]

/-- Of `T` days in all, `paid` are in the database; the memory has those that are
owed to the database as well. -/
structure DayInv (sid : Uuid) (e : DateTime) (T : ℕ) (s : World) (t : DayAccount) : Prop where
  held : Held s.lock.writer t.2.2
  fresh : ∀ n v, some (n, v) ∈ t.2.2 → memExpiry sid s = some v
  counted : ∃ paid : ℕ, paid + t.1 + t.2.1 + heldDays t.2.2 = T ∧
    memExpiry sid s = some (e + days (paid + t.2.1 + heldDays t.2.2 : ℕ)) ∧
    dbExpiry sid s = some (e + days paid)

section DayInv

variable {sid : Uuid} {e : DateTime} {T n : ℕ} {s s' : World} {t g : DayAccount}

lemma DayInv.frame (h : DayInv sid e T s t) (hlock : s'.lock.writer = s.lock.writer)
    (hmem : memExpiry sid s' = memExpiry sid s) (hdb : dbExpiry sid s' = dbExpiry sid s) :
    DayInv sid e T s' t := by
  refine ⟨?_, ?_, ?_⟩
  · rw [hlock]
    exact h.held
  · rw [hmem]
    exact h.fresh
  · rw [hmem, hdb]
    exact h.counted

/-- Days added to the memory outside the write guard. -/
lemma DayInv.credit (h : DayInv sid e T s (due n + g)) (hlock : s'.lock = s.lock)
    (hfree : s.lock.writer = false)
    (hmem : ∀ m : ℕ, memExpiry sid s = some (e + days m) →
      memExpiry sid s' = some (e + days m + days n))
    (hdb : dbExpiry sid s' = dbExpiry sid s) : DayInv sid e T s' (owing n + g) := by
  obtain ⟨paid, hT, hmem₀, hdb₀⟩ := h.counted
  have hheld : Held s.lock.writer (0 + g.2.2) := h.held
  rw [hfree, zero_add] at hheld
  have hnone : (owing n + g).2.2 = 0 := by
    show 0 + g.2.2 = 0
    rw [zero_add, hheld.eq_zero]
  refine ⟨?_, ?_, paid, ?_, ?_, by rw [hdb, hdb₀]⟩
  · rw [hlock, hfree, hnone]
    exact Held.init
  · intro m v hv
    rw [hnone] at hv
    exact absurd hv (Multiset.notMem_zero _)
  · change paid + (n + g.1) + (0 + g.2.1) + heldDays (0 + g.2.2) = T at hT
    show paid + (0 + g.1) + (n + g.2.1) + heldDays (0 + g.2.2) = T
    omega
  · rw [hmem _ hmem₀, hnone]
    have hg : (due n + g).2.2 = 0 := hnone
    rw [hg, heldDays_zero, add_assoc, ← days_add, ← Nat.cast_add]
    show some (e + days (paid + (0 + g.2.1) + 0 + n : ℕ)) =
        some (e + days (paid + (n + g.2.1) + 0 : ℕ))
    rw [show paid + (0 + g.2.1) + 0 + n = paid + (n + g.2.1) + 0 by omega]

/-- Owed days added to the database. -/
lemma DayInv.pay (h : DayInv sid e T s (owing n + g)) (hlock : s'.lock = s.lock)
    (hmem : memExpiry sid s' = memExpiry sid s)
    (hdb : ∀ m : ℕ, dbExpiry sid s = some (e + days m) →
      dbExpiry sid s' = some (e + days m + days n)) : DayInv sid e T s' (0 + g) := by
  obtain ⟨paid, hT, hmem₀, hdb₀⟩ := h.counted
  change paid + (0 + g.1) + (n + g.2.1) + heldDays (0 + g.2.2) = T at hT
  refine ⟨?_, ?_, paid + n, ?_, ?_, ?_⟩
  · rw [hlock]
    exact h.held
  · rw [hmem]
    exact h.fresh
  · show paid + n + (0 + g.1) + (0 + g.2.1) + heldDays (0 + g.2.2) = T
    omega
  · rw [hmem, hmem₀]
    show some (e + days (paid + (n + g.2.1) + heldDays (0 + g.2.2) : ℕ)) =
      some (e + days (paid + n + (0 + g.2.1) + heldDays (0 + g.2.2) : ℕ))
    rw [show paid + (n + g.2.1) = paid + n + (0 + g.2.1) by omega]
  · rw [hdb paid hdb₀, add_assoc, ← days_add, ← Nat.cast_add]

/-- The write guard is taken. -/
lemma DayInv.lock (h : DayInv sid e T s (due n + g)) (hfree : s.lock.writer = false)
    (hlock : s'.lock.writer = true) (hmem : memExpiry sid s' = memExpiry sid s)
    (hdb : dbExpiry sid s' = dbExpiry sid s) : DayInv sid e T s' (writing n none + g) := by
  obtain ⟨paid, hT, hmem₀, hdb₀⟩ := h.counted
  have hheld : Held s.lock.writer (0 + g.2.2) := h.held
  rw [hfree, zero_add] at hheld
  have hnone : g.2.2 = 0 := hheld.eq_zero
  have hguards : (writing n none + g).2.2 = {none} := by
    show {none} + g.2.2 = {none}
    rw [hnone, add_zero]
  have hsame : heldDays (writing n none + g).2.2 = heldDays (due n + g).2.2 := by
    rw [hguards, heldDays_singleton]
    show 0 = heldDays (0 + g.2.2)
    rw [hnone]
    rfl
  refine ⟨?_, ?_, paid, ?_, ?_, by rw [hdb, hdb₀]⟩
  · rw [hguards, hlock]
    exact Multiset.card_singleton none
  · intro m v hv
    rw [hguards, Multiset.mem_singleton] at hv
    cases hv
  · rw [hsame]
    exact hT
  · rw [hmem, hsame]
    exact hmem₀

/-- The holder of the write guard has it alone. -/
lemma DayInv.alone {x : Option (ℕ × DateTime)} (h : DayInv sid e T s (writing n x + g)) :
    s.lock.writer = true ∧ g.2.2 = 0 := by
  have hheld : Held s.lock.writer ({x} + g.2.2) := h.held
  rw [add_comm] at hheld
  exact hheld.alone

lemma writing_guards {x : Option (ℕ × DateTime)} (hg : g.2.2 = 0) :
    (writing n x + g).2.2 = {x} := by
  show {x} + g.2.2 = {x}
  rw [hg, add_zero]

/-- Days added to the memory under the write guard. -/
lemma DayInv.update (h : DayInv sid e T s (writing n none + g)) (hlock : s'.lock = s.lock)
    {v : DateTime} (hv : memExpiry sid s' = some v)
    (hmem : ∀ m : ℕ, memExpiry sid s = some (e + days m) →
      memExpiry sid s' = some (e + days m + days n))
    (hdb : dbExpiry sid s' = dbExpiry sid s) :
    DayInv sid e T s' (writing 0 (some (n, v)) + g) := by
  obtain ⟨hwriter, hnone⟩ := h.alone
  obtain ⟨paid, hT, hmem₀, hdb₀⟩ := h.counted
  rw [writing_guards hnone, heldDays_singleton] at hT hmem₀
  change paid + (n + g.1) + (0 + g.2.1) + 0 = T at hT
  refine ⟨?_, ?_, paid, ?_, ?_, by rw [hdb, hdb₀]⟩
  · rw [hlock, hwriter, writing_guards hnone]
    exact Multiset.card_singleton _
  · intro m u hu
    rw [writing_guards hnone, Multiset.mem_singleton, Option.some.injEq, Prod.mk.injEq] at hu
    rw [hv, hu.2]
  · rw [writing_guards hnone, heldDays_singleton]
    show paid + (0 + g.1) + (0 + g.2.1) + n = T
    omega
  · rw [hmem _ hmem₀, writing_guards hnone, heldDays_singleton, add_assoc, ← days_add,
      ← Nat.cast_add]
    rfl

/-- The expiry of the memory written to the database. -/
lemma DayInv.store {v : DateTime} (h : DayInv sid e T s (writing 0 (some (n, v)) + g))
    (howed : g.2.1 = 0) (hlock : s'.lock = s.lock) (hmem : memExpiry sid s' = memExpiry sid s)
    (hdb : ∀ m : ℕ, v = e + days m → dbExpiry sid s' = some v) :
    DayInv sid e T s' (writing 0 none + g) := by
  obtain ⟨hwriter, hnone⟩ := h.alone
  obtain ⟨paid, hT, hmem₀, -⟩ := h.counted
  rw [writing_guards hnone, heldDays_singleton] at hT hmem₀
  change paid + (0 + g.1) + (0 + g.2.1) + n = T at hT
  change memExpiry sid s = some (e + days (paid + (0 + g.2.1) + n : ℕ)) at hmem₀
  rw [howed] at hmem₀
  -- the written expiry is the one of the memory, with nothing owed by others
  have hv : v = e + days (paid + n : ℕ) := by
    have hfresh := h.fresh n v (by rw [writing_guards hnone]; simp)
    rw [hmem₀] at hfresh
    exact (Option.some.inj hfresh).symm
  refine ⟨?_, ?_, paid + n, ?_, ?_, by rw [hdb _ hv, hv]⟩
  · rw [hlock, hwriter, writing_guards hnone]
    exact Multiset.card_singleton _
  · intro m u hu
    rw [writing_guards hnone, Multiset.mem_singleton] at hu
    cases hu
  · rw [writing_guards hnone, heldDays_singleton]
    show paid + n + (0 + g.1) + (0 + g.2.1) + 0 = T
    omega
  · rw [hmem, hmem₀, writing_guards hnone, heldDays_singleton]
    show some (e + days (paid + (0 + 0) + n : ℕ)) = some (e + days (paid + n + (0 + g.2.1) + 0 : ℕ))
    rw [howed]
    rfl

/-- The write guard is released. -/
lemma DayInv.unlock (h : DayInv sid e T s (writing 0 none + g)) (hlock : s'.lock.writer = false)
    (hmem : memExpiry sid s' = memExpiry sid s) (hdb : dbExpiry sid s' = dbExpiry sid s) :
    DayInv sid e T s' (0 + g) := by
  obtain ⟨-, hnone⟩ := h.alone
  obtain ⟨paid, hT, hmem₀, hdb₀⟩ := h.counted
  rw [writing_guards hnone, heldDays_singleton] at hT hmem₀
  have hzero : (0 + g).2.2 = 0 := by rw [zero_add, hnone]
  refine ⟨?_, ?_, paid, ?_, ?_, by rw [hdb, hdb₀]⟩
  · rw [hzero, hlock]
    exact Held.init
  · intro m v hv
    rw [hzero] at hv
    exact absurd hv (Multiset.notMem_zero _)
  · rw [hzero]
    exact hT
  · rw [hmem, hmem₀, hzero]
    rfl

end DayInv

/-! ### Steps -/

section Steps

variable {sid : Uuid} {i : Input} {s : World} {x : DateTime} {n : ℤ}

/-- Days that are added in memory before the expiry extend it. -/
lemma memExpiry_credit (hn : 0 < n) (h : memExpiry sid s = some x) (hnow : i.now < x) :
    memExpiry sid { s with memory := (Edit.run (.credit sid n) i s.memory).1 } =
      some (x + days n) := by
  obtain ⟨sub, hsub, hx⟩ := Option.bind_eq_some_iff.mp h
  rw [memExpiry]
  show Option.bind ((s.memory.subscriptions.change sid _).get sid) _ = _
  rw [Table.get_change_self, hsub]
  show (sub.credit n i.now).expiresAt = _
  have hlater : ¬ x + days n ≤ i.now :=
    not_le.mpr (hnow.trans (lt_add_of_pos_right x (days_pos hn)))
  simp only [Subscription.credit, hx, if_pos hnow, Subscription.setExpiresAt, if_neg hlater]

lemma Subscription.update_expiresAt {sub : Subscription} {req : SubReq} (hreq : req.days = some n)
    (now : DateTime) : (sub.update req now).expiresAt = sub.expiresAt.map (· + Fcore.days n) := by
  simp only [Subscription.update, hreq]
  cases req.referredBy <;> cases req.referCode <;> cases req.limitBytes <;> rfl

/-- So do days that are added under the write guard. -/
lemma memExpiry_update {req : SubReq} (hreq : req.days = some n) (h : memExpiry sid s = some x) :
    memExpiry sid { s with memory := (Edit.run (.update sid req) i s.memory).1 } =
      some (x + days n) := by
  obtain ⟨sub, hsub, hx⟩ := Option.bind_eq_some_iff.mp h
  rw [memExpiry]
  show Option.bind ((s.memory.subscriptions.change sid _).get sid) _ = _
  rw [Table.get_change_self, hsub]
  show (sub.update req i.now).expiresAt = _
  rw [Subscription.update_expiresAt hreq, hx]
  rfl

/-- The same in the database, where expiries are whole microseconds. -/
lemma dbExpiry_addDays (h : dbExpiry sid s = some x) (hnow : i.now < x) (hx : pgRound x = x)
    {row : Subscription} (hok : (Sql.run (.subAddDays sid n) i s.db).2 = .ok row) :
    dbExpiry sid { s with db := (Sql.run (.subAddDays sid n) i s.db).1 } = some (x + days n) := by
  obtain ⟨sub, hsub, hexp⟩ := Option.bind_eq_some_iff.mp h
  simp only [Sql.run] at hok ⊢
  split at hok
  · next hi =>
      rw [dbExpiry]
      simp only [if_pos hi, Db.subAddDays, hsub, Table.get_put_self]
      show (Db.subRowCredit sub n i.now).expiresAt = _
      simp only [Db.subRowCredit, hexp, if_pos hnow]
      rw [pgRound_add_days hx]
  · cases hok

/-- `update_subscription` stores the expiry that it is given. -/
lemma dbExpiry_update {v : DateTime} {r : Option String} {c : String} {row : Subscription}
    (hv : pgRound v = v) (hok : (Sql.run (.subUpdate sid v r c) i s.db).2 = .ok row) :
    dbExpiry sid { s with db := (Sql.run (.subUpdate sid v r c) i s.db).1 } = some v := by
  simp only [Sql.run] at hok ⊢
  split at hok
  · next hi =>
      rw [dbExpiry]
      simp only [if_pos hi, Db.subUpdate] at hok ⊢
      cases hsub : s.db.subscriptions.get sid with
      | none =>
          rw [hsub] at hok
          cases hok
      | some sub =>
          simp only [hsub] at hok ⊢
          cases hrow : Db.subRowUpdate sub v r c i.now with
          | error text =>
              rw [hrow] at hok
              cases hok
          | ok row' =>
              simp only [Table.get_put_self]
              show row'.expiresAt = some v
              rw [expiresAt_of_subRowUpdate hrow, hv]
  · cases hok

end Steps

/-- The first expiry is not after a later one. -/
lemma le_add_days (e : DateTime) (m : ℕ) : e ≤ e + days m := by
  have hnonneg : 0 ≤ days (m : ℤ) := mul_nonneg (Int.natCast_nonneg m) (by norm_num)
  exact le_add_of_nonneg_right hnonneg

/-- One step of one call keeps the invariant. -/
lemma keeps_dayInv (sid : Uuid) {e : DateTime} (he : pgRound e = e) (T : ℕ) :
    Keeps (creditsApart e) (dayProtocol sid) (fun _ a => a = 0) (DayInv sid e T) := by
  intro β c i s s' b a others gs hothers hexec hrule hmay hinv
  -- a step that touches no subscription
  have hsame : s'.lock.writer = s.lock.writer →
      s'.memory.subscriptions = s.memory.subscriptions →
      s'.db.subscriptions = s.db.subscriptions → DayInv sid e T s' (a + gs.sum) := by
    intro hlock hmem hdb
    exact hinv.frame hlock (by rw [memExpiry, hmem, memExpiry]) (by rw [dbExpiry, hdb, dbExpiry])
  cases c with
  | edit w =>
      have hdb := db_of_exec hexec (by simp)
      have hlock := lock_of_exec hexec (by simp)
      cases w with
      | credit id n =>
          obtain ⟨rfl, hn, rfl⟩ := hmay
          obtain ⟨hfree, rfl, rfl⟩ := exec_edit.mp hexec
          have hnow : i.now < e := by simpa [creditsApart] using hrule
          obtain ⟨paid, -, hmem, -⟩ := hinv.counted
          refine ⟨?_, fun a' hm => ?_⟩
          · obtain ⟨sub, hsub, -⟩ := Option.bind_eq_some_iff.mp hmem
            show (s.memory.subscriptions.get id).isSome = true
            rw [hsub]
            rfl
          · rw [show a' = owing n.toNat from hm]
            refine hinv.credit rfl (Lock.writer_of_free hfree) (fun m hm => ?_) rfl
            rw [Int.toNat_of_nonneg hn.le]
            exact memExpiry_credit hn hm (hnow.trans_le (le_add_days e m))
      | subAdd sub => exact hmay.elim
      | update id req => exact hmay.elim
      | install cache => exact hmay.elim
      | _ =>
          refine ⟨trivial, fun a' hm => ?_⟩
          rw [show a' = a from hm]
          exact hsame (by rw [hlock]) (subscriptions_of_exec hexec rfl) (by rw [hdb])
  | within w =>
      cases w with
      | update id req =>
          obtain ⟨rfl, n, hreq, hn, rfl⟩ := hmay
          obtain ⟨-, rfl, rfl⟩ := exec_within.mp hexec
          obtain ⟨paid, -, hmem, -⟩ := hinv.counted
          obtain ⟨sub, hsub, hexp⟩ := Option.bind_eq_some_iff.mp hmem
          have hreply : (Edit.run (.update id req) i s.memory).2 = some (sub.update req i.now) := by
            show (s.memory.subscriptions.get id).map _ = _
            rw [hsub]
            rfl
          have hexp' : (sub.update req i.now).expiresAt = sub.expiresAt.map (· + days n) :=
            Subscription.update_expiresAt hreq i.now
          rw [hexp, Option.map_some] at hexp'
          rw [hreply]
          refine ⟨⟨_, _, rfl, hexp'⟩, fun a' hm => ?_⟩
          rw [hm _ hexp']
          show DayInv id e T _ (writing 0 (some (n.toNat, _)) + gs.sum)
          refine hinv.update ?_ (memExpiry_update hreq hmem) (fun m hm => ?_) ?_
          · rfl
          · rw [Int.toNat_of_nonneg hn.le]
            exact memExpiry_update hreq hm
          · rfl
      | _ => exact hmay.elim
  | guard gd =>
      have hdb := db_of_exec hexec (by simp)
      have hmem := subscriptions_of_exec hexec rfl
      cases gd with
      | lockWrite =>
          obtain ⟨n, rfl⟩ := hmay
          obtain ⟨hfree, rfl⟩ := exec_lockWrite.mp hexec
          refine ⟨trivial, fun a' hm => ?_⟩
          rw [show a' = writing n none from hm]
          exact hinv.lock (Lock.writer_of_free hfree) rfl rfl rfl
      | unlockWrite =>
          obtain rfl : a = writing 0 none := hmay
          obtain ⟨-, rfl⟩ := exec_unlockWrite.mp hexec
          refine ⟨trivial, fun a' hm => ?_⟩
          rw [show a' = 0 from hm]
          exact hinv.unlock rfl rfl rfl
      | lockRead =>
          refine ⟨trivial, fun a' hm => ?_⟩
          rw [show a' = a from hm]
          exact hsame (writer_of_exec_lockRead hexec) hmem (by rw [hdb])
      | unlockRead =>
          refine ⟨trivial, fun a' hm => ?_⟩
          rw [show a' = a from hm]
          exact hsame (writer_of_exec_unlockRead hexec) hmem (by rw [hdb])
  | sql q =>
      obtain ⟨rfl, rfl⟩ := exec_sql.mp hexec
      cases q with
      | subCreate sub => exact hmay.elim
      | subAddDays id n =>
          obtain ⟨rfl, hn, rfl⟩ := hmay
          cases hok : (Sql.run (.subAddDays id n) i s.db).2 with
          | error e => rw [hok] at hrule; cases hrule
          | ok row =>
              have hnow : i.now < e := by
                rw [hok] at hrule
                simpa [creditsApart] using hrule
              refine ⟨⟨row, rfl⟩, fun a' hm => ?_⟩
              rw [show a' = 0 from hm]
              refine hinv.pay rfl rfl fun m hm => ?_
              rw [Int.toNat_of_nonneg hn.le]
              exact dbExpiry_addDays hm (hnow.trans_le (le_add_days e m))
                (pgRound_add_days he m) hok
      | subUpdate id v r c =>
          obtain ⟨rfl, n, rfl⟩ := hmay
          cases hok : (Sql.run (.subUpdate id v r c) i s.db).2 with
          | error e => rw [hok] at hrule; cases hrule
          | ok row =>
              rw [hok] at hrule
              obtain ⟨-, hapart⟩ : _ ∧ _ := Bool.and_eq_true_iff.mp hrule
              rw [List.all_eq_true] at hapart
              have howed : gs.sum.2.1 = 0 :=
                sum_owed hothers fun p hp => by simpa using hapart p hp
              refine ⟨⟨row, rfl⟩, fun a' hm => ?_⟩
              rw [show a' = writing 0 none from hm]
              refine hinv.store howed rfl rfl fun m hv => dbExpiry_update ?_ hok
              rw [hv]
              exact pgRound_add_days he m
      | _ =>
          refine ⟨trivial, fun a' hm => ?_⟩
          rw [show a' = a from hm]
          exact hsame rfl rfl (Sql.run_subscriptions rfl i s.db)
  | _ =>
      have hdb := db_of_exec hexec (by simp)
      have hmem := subscriptions_of_exec hexec rfl
      have hlock := lock_of_exec hexec (by simp)
      refine ⟨trivial, fun a' hm => ?_⟩
      rw [show a' = a from hm]
      exact hsame (by rw [hlock]) hmem (by rw [hdb])

/-! ### Runs -/

/-- The days of all calls. -/
def totalDays (ops : List DayOp) : ℕ := (ops.map fun op => op.days.toNat).sum

lemma totalDays_cons (op : DayOp) (ops : List DayOp) :
    totalDays (op :: ops) = op.days.toNat + totalDays ops := by
  rw [totalDays, List.map_cons, List.sum_cons, totalDays]

lemma sum_due (ops : List DayOp) :
    (ops.map fun op => due op.days.toNat).sum = due (totalDays ops) := by
  induction ops with
  | nil => rfl
  | cons op ops ih =>
      rw [List.map_cons, List.sum_cons, ih, totalDays_cons]
      rfl

lemma totalDays_eq_sum {ops : List DayOp} (hops : ∀ op ∈ ops, 0 < op.days) :
    (totalDays ops : ℤ) = (ops.map DayOp.days).sum := by
  induction ops with
  | nil => rfl
  | cons op ops ih =>
      have hhead := (hops op List.mem_cons_self).le
      have htail := ih fun op' hop' => hops op' (List.mem_cons_of_mem op hop')
      rw [totalDays_cons, List.map_cons, List.sum_cons, Nat.cast_add, htail,
        Int.toNat_of_nonneg hhead]

/-- **Days are counted once**: when all calls of an interleaving have returned, the
memory and the database both have the first expiry plus the days of all calls,
provided that no query failed, clocks were read before the first expiry, and no
expiry was written to the database between the two steps of an `add_days`. -/
theorem days_counted_once {sid : Uuid} {e : DateTime} {ops : List DayOp} {s₀ : World}
    {p : Pool Call World} (hlock : s₀.lock.writer = false) (hmem : memExpiry sid s₀ = some e)
    (hdb : dbExpiry sid s₀ = some e) (he : pgRound e = e) (hops : ∀ op ∈ ops, 0 < op.days)
    (h : Reach (creditsApart e) ⟨s₀, ops.map (DayOp.prog sid)⟩ p) (hfin : p.finished = true) :
    memExpiry sid p.state = some (e + days (ops.map DayOp.days).sum) ∧
      dbExpiry sid p.state = some (e + days (ops.map DayOp.days).sum) := by
  have hobey : AllObey (dayProtocol sid) (fun _ a => a = 0)
      (ops.map fun op => due op.days.toNat) (ops.map (DayOp.prog sid)) := by
    rw [AllObey, List.forall₂_map_right_iff, List.forall₂_map_left_iff]
    exact List.forall₂_same.mpr fun op hop => dayProtocol_prog (hops op hop)
  have hinit : DayInv sid e (totalDays ops) s₀
      (ops.map fun op => due op.days.toNat).sum := by
    rw [sum_due]
    refine ⟨by rw [hlock]; exact Held.init, ?_, 0, ?_, ?_, ?_⟩
    · exact fun n v hv => absurd hv (Multiset.notMem_zero _)
    · show 0 + totalDays ops + 0 + 0 = totalDays ops
      omega
    · rw [hmem]
      show some e = some (e + days 0)
      rw [days, zero_mul, add_zero]
    · rw [hdb]
      show some e = some (e + days 0)
      rw [days, zero_mul, add_zero]
  obtain ⟨gs, hgs, hinv⟩ := Reach.sound (keeps_dayInv sid he _) h hobey hinit
  rw [hgs.sum_eq_zero_of_finished hfin] at hinv
  obtain ⟨paid, hT, hmem', hdb'⟩ := hinv.counted
  change paid + 0 + 0 + 0 = _ at hT
  rw [← totalDays_eq_sum hops, ← hT]
  exact ⟨hmem', hdb'⟩

/-- A subscription that expires after ten days. -/
def tenDaySub : Subscription :=
  { (default : Subscription) with id := 7, expiresAt := some (days 10) }

/-- The state of a service with that subscription in memory and database. -/
def tenDayWorld : World :=
  { World.empty with
    memory := ⟨∅, (∅ : Table Uuid Subscription).put 7 tenDaySub⟩
    db := ⟨∅, (∅ : Table Uuid Subscription).put 7 tenDaySub, ∅, []⟩ }

/-- Five days from `add_days` and three from `update_sub`. -/
def twoCredits : List DayOp := [.addDays 5, .updateSub ⟨none, none, some 3, none⟩]

/-- The two calls one after the other meet the condition. -/
theorem days_counted_once_serially :
    ∃ p, Reach (creditsApart (days 10)) ⟨tenDayWorld, twoCredits.map (DayOp.prog 7)⟩ p ∧
      p.finished = true ∧ memExpiry 7 p.state = some (days 10 + days 8) ∧
      dbExpiry 7 p.state = some (days 10 + days 8) := by
  have hrun : (runWith (creditsApart (days 10))
      (List.replicate 3 (0, Input.at 5) ++ List.replicate 4 (1, Input.at 6))
      ⟨tenDayWorld, twoCredits.map (DayOp.prog 7)⟩).map Pool.finished = some true := by
    decide +kernel
  obtain ⟨p, hp, hfin⟩ := exists_reach_of_runWith hrun
  refine ⟨p, hp, hfin, days_counted_once rfl rfl rfl (by decide) ?_ hp hfin⟩
  decide

/-- `update_sub` between the two steps of `add_days`: the database has five days
too many. -/
theorem days_counted_twice :
    (tenDayWorld.memory.subscriptions.get 7).any (fun sub => sub.isActive 0) = true ∧
      memExpiry 7 tenDayWorld = some (days 10) ∧ dbExpiry 7 tenDayWorld = some (days 10) ∧
      (∀ op ∈ twoCredits, 0 < op.days) ∧
      ∃ p, Reach (beforeExpiry (days 10)) ⟨tenDayWorld, twoCredits.map (DayOp.prog 7)⟩ p ∧
        p.finished = true ∧
        ¬ dbExpiry 7 p.state = some (days 10 + days (twoCredits.map DayOp.days).sum) := by
  refine ⟨by decide, rfl, rfl, by decide, ?_⟩
  have hrun : (runWith (beforeExpiry (days 10))
      (List.replicate 2 (0, Input.at 5) ++ List.replicate 4 (1, Input.at 6) ++ [(0, Input.at 7)])
      ⟨tenDayWorld, twoCredits.map (DayOp.prog 7)⟩).map
      (fun p => (p.finished, dbExpiry 7 p.state)) = some (true, some (days 10 + days 13)) := by
    decide +kernel
  obtain ⟨p, hp, hexp⟩ := exists_reach_of_runWith hrun
  obtain ⟨hfin, hdb⟩ : _ ∧ _ := by simpa only [Prod.mk.injEq] using hexp
  exact ⟨p, hp, hfin, by rw [hdb]; decide⟩

end Fcore
