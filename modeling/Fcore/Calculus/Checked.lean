import Mathlib.Tactic
import Mathlib.Data.Nat.Bitwise

/-!
Checked machine arithmetic: operations on words and on bounded integers that give no
result where the machine operation overflows.

* `checkedAdd`, `checkedSub`, `checkedShl`, `checkedShr`: on words of any width;
  `checkedAdd_eq_some` and its siblings say when each of them has a result;
* `within`: an integer, if it lies between two bounds;
* `isSome_foldlM_iff`, `foldlM_sound`: a run of steps that may have no result;
* `toNat_and_not_ones`, `toNat_or_ones`: a word with its lowest bits cleared, and with
  them set;
* `and_not_ones_eq_iff`: words that agree above their lowest bits, as an interval;
* `toNat_allOnes_ushiftRight`, `allOnes_shiftLeft_sub`: masks as shifted words of ones.
-/

namespace Calculus

variable {w : ℕ}

/-- Addition without a carry out of the word. -/
def checkedAdd (a b : BitVec w) : Option (BitVec w) :=
  if a.toNat + b.toNat < 2 ^ w then some (a + b) else none

/-- Subtraction without a borrow. -/
def checkedSub (a b : BitVec w) : Option (BitVec w) :=
  if b.toNat ≤ a.toNat then some (a - b) else none

/-- A shift to the left by less than the width. -/
def checkedShl (a : BitVec w) (n : ℕ) : Option (BitVec w) :=
  if n < w then some (a <<< n) else none

/-- A shift to the right by less than the width. -/
def checkedShr (a : BitVec w) (n : ℕ) : Option (BitVec w) :=
  if n < w then some (a >>> n) else none

/-- An integer between two bounds. -/
def within (lo hi z : ℤ) : Option ℤ :=
  if lo ≤ z ∧ z ≤ hi then some z else none

lemma checkedAdd_eq_some {a b c : BitVec w} :
    checkedAdd a b = some c ↔ a.toNat + b.toNat < 2 ^ w ∧ c.toNat = a.toNat + b.toNat := by
  rw [checkedAdd]
  split_ifs with h
  · rw [Option.some.injEq, ← BitVec.toNat_inj, BitVec.toNat_add, Nat.mod_eq_of_lt h]
    exact ⟨fun heq => ⟨h, heq.symm⟩, fun heq => heq.2.symm⟩
  · simp [h]

lemma checkedSub_eq_some {a b c : BitVec w} :
    checkedSub a b = some c ↔ b.toNat ≤ a.toNat ∧ c.toNat = a.toNat - b.toNat := by
  rw [checkedSub]
  split_ifs with h
  · rw [Option.some.injEq, ← BitVec.toNat_inj, BitVec.toNat_sub_of_le (BitVec.le_def.mpr h)]
    exact ⟨fun heq => ⟨h, heq.symm⟩, fun heq => heq.2.symm⟩
  · simp [h]

lemma checkedShl_eq_some {a c : BitVec w} {n : ℕ} :
    checkedShl a n = some c ↔ n < w ∧ c = a <<< n := by
  rw [checkedShl]
  split_ifs with h
  · simp [h, eq_comm]
  · simp [h]

lemma checkedShr_eq_some {a c : BitVec w} {n : ℕ} :
    checkedShr a n = some c ↔ n < w ∧ c = a >>> n := by
  rw [checkedShr]
  split_ifs with h
  · simp [h, eq_comm]
  · simp [h]

lemma within_eq_some {lo hi z y : ℤ} : within lo hi z = some y ↔ lo ≤ z ∧ z ≤ hi ∧ y = z := by
  rw [within]
  split_ifs with h
  · rw [Option.some.injEq, eq_comm]
    exact ⟨fun heq => ⟨h.1, h.2, heq⟩, fun heq => heq.2.2⟩
  · simp only [false_iff, not_and]
    intro hlo hhi
    exact absurd ⟨hlo, hhi⟩ h

/-! ### Runs -/

section

variable {σ α : Type} {f : σ → α → Option σ}

/-- A run has a result exactly if each of its steps has one in the state that it meets. -/
lemma isSome_foldlM_iff {l : List α} {s : σ} :
    (l.foldlM f s).isSome ↔ ∀ before x after, l = before ++ x :: after →
      ∀ s', before.foldlM f s = some s' → (f s' x).isSome := by
  induction l generalizing s with
  | nil => simp
  | cons y l ih =>
      rw [List.foldlM_cons]
      constructor
      · intro h before x after heq s' hs'
        obtain ⟨s₁, hs₁, hrest⟩ : ∃ s₁, f s y = some s₁ ∧ (l.foldlM f s₁).isSome := by
          obtain ⟨z, hz⟩ := Option.isSome_iff_exists.mp h
          obtain ⟨s₁, hs₁, hrest⟩ := Option.bind_eq_some_iff.mp hz
          exact ⟨s₁, hs₁, Option.isSome_of_eq_some hrest⟩
        cases before with
        | nil =>
            obtain ⟨rfl, rfl⟩ := List.cons.inj heq
            obtain rfl : s = s' := Option.some.inj hs'
            exact Option.isSome_of_eq_some hs₁
        | cons z before =>
            obtain ⟨rfl, hl⟩ := List.cons.inj heq
            rw [List.foldlM_cons, hs₁] at hs'
            exact ih.mp hrest before x after hl s' hs'
      · intro h
        obtain ⟨s₁, hs₁⟩ := Option.isSome_iff_exists.mp (h [] y l rfl s rfl)
        rw [hs₁]
        refine ih.mpr fun before x after heq s' hs' => h (y :: before) x after ?_ s' ?_
        · rw [heq, List.cons_append]
        · rw [List.foldlM_cons, hs₁]
          exact hs'

/-- What every step keeps is kept by a run. -/
lemma foldlM_sound {Inv : σ → Prop} {l : List α}
    (hstep : ∀ x ∈ l, ∀ {s s' : σ}, f s x = some s' → Inv s → Inv s') {s s' : σ}
    (h : l.foldlM f s = some s') (hs : Inv s) : Inv s' := by
  induction l generalizing s with
  | nil =>
      obtain rfl : s = s' := Option.some.inj h
      exact hs
  | cons x l ih =>
      rw [List.foldlM_cons] at h
      obtain ⟨s₁, hs₁, hrest⟩ := Option.bind_eq_some_iff.mp h
      exact ih (fun y hy => hstep y (List.mem_cons_of_mem x hy)) hrest
        (hstep x List.mem_cons_self hs₁ hs)

end

/-! ### Masks -/

/-- A word whose lowest `k` bits are set. -/
lemma getLsbD_of_toNat_eq {ones : BitVec w} {k : ℕ} (h : ones.toNat = 2 ^ k - 1) (i : ℕ) :
    ones.getLsbD i = decide (i < k) := by
  rw [BitVec.getLsbD, h, Nat.testBit_two_pow_sub_one]

/-- The lowest bits of a word cleared. -/
lemma toNat_and_not_ones {a ones : BitVec w} {k : ℕ} (h : ones.toNat = 2 ^ k - 1) :
    (a &&& ~~~ones).toNat = a.toNat / 2 ^ k * 2 ^ k := by
  refine Nat.eq_of_testBit_eq fun i => ?_
  rw [Nat.testBit_mul_two_pow, Nat.testBit_div_two_pow]
  change (a &&& ~~~ones).getLsbD i = _
  rw [BitVec.getLsbD_and, BitVec.getLsbD_not, getLsbD_of_toNat_eq h]
  by_cases hki : k ≤ i
  · rw [Nat.sub_add_cancel hki]
    by_cases hiw : i < w
    · simp [hki, hiw, Nat.not_lt.mpr hki]
      rfl
    · simp [hiw, BitVec.getLsbD_of_ge a i (by omega), BitVec.testBit_toNat]
  · simp [hki, Nat.not_le.mp hki]

/-- The lowest bits of a word set, if they were clear. -/
lemma toNat_or_ones {a ones : BitVec w} {k n : ℕ} (h : ones.toNat = 2 ^ k - 1)
    (ha : a.toNat = n * 2 ^ k) : (a ||| ones).toNat = a.toNat + (2 ^ k - 1) := by
  have hpos : 0 < 2 ^ k := Nat.two_pow_pos k
  rw [BitVec.toNat_or, h, ha, Nat.mul_comm, Nat.two_pow_add_eq_or_of_lt (by omega)]

/-- Setting the lowest bits of a word does not depend on what they were. -/
lemma or_ones_eq (a ones : BitVec w) : a ||| ones = (a &&& ~~~ones) ||| ones := by
  refine BitVec.eq_of_getLsbD_eq fun i hi => ?_
  rw [BitVec.getLsbD_or, BitVec.getLsbD_or, BitVec.getLsbD_and, BitVec.getLsbD_not]
  cases ones.getLsbD i <;> simp [hi]

/-- Two words agree above their lowest bits exactly if the second lies between the least and
the greatest word that agree there with the first. -/
lemma and_not_ones_eq_iff {a b ones : BitVec w} {k : ℕ} (h : ones.toNat = 2 ^ k - 1) :
    a &&& ~~~ones = b &&& ~~~ones ↔
      (a &&& ~~~ones).toNat ≤ b.toNat ∧ b.toNat ≤ (a ||| ones).toNat := by
  have hpos : 0 < 2 ^ k := Nat.two_pow_pos k
  have ha := toNat_and_not_ones (a := a) h
  have hb := toNat_and_not_ones (a := b) h
  have hdiv : b.toNat / 2 ^ k * 2 ^ k + b.toNat % 2 ^ k = b.toNat := Nat.div_add_mod' _ _
  have hmod := Nat.mod_lt b.toNat hpos
  rw [or_ones_eq, toNat_or_ones h ha, ← BitVec.toNat_inj]
  constructor
  · intro heq
    omega
  · rintro ⟨hle, hge⟩
    rw [ha] at hle hge
    have hquot : b.toNat / 2 ^ k = a.toNat / 2 ^ k :=
      Nat.div_eq_of_lt_le hle (by rw [Nat.succ_mul]; omega)
    rw [ha, hb, hquot]

/-- The ones that a shift to the right leaves are the lowest. -/
lemma toNat_allOnes_ushiftRight (n : ℕ) : (BitVec.allOnes w >>> n).toNat = 2 ^ (w - n) - 1 := by
  refine Nat.eq_of_testBit_eq fun i => ?_
  rw [BitVec.toNat_ushiftRight, BitVec.toNat_allOnes, Nat.testBit_shiftRight,
    Nat.testBit_two_pow_sub_one, Nat.testBit_two_pow_sub_one]
  congr 1
  rw [eq_iff_iff]
  omega

/-- The two shifts of a word of ones by complementary amounts are complements. -/
lemma allOnes_shiftLeft_sub (n : ℕ) :
    BitVec.allOnes w <<< (w - n) = ~~~(BitVec.allOnes w >>> n) := by
  refine BitVec.eq_of_getLsbD_eq fun i hi => ?_
  rw [BitVec.getLsbD_shiftLeft, BitVec.getLsbD_not, BitVec.getLsbD_allOnes,
    getLsbD_of_toNat_eq (toNat_allOnes_ushiftRight n)]
  have hsub : i - (w - n) < w := by omega
  simp [hi, hsub]

end Calculus
