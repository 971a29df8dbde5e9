import Mathlib.Tactic
import Mathlib.Data.List.DropRight

/-!
Windows over queues: lists that grow at the back and are trimmed at the front.

A queue is trimmed to a number of elements (`List.rtake`), or from its front as
long as the elements fail a test (`List.dropWhile`).  Along a list on which the test,
once passed, is passed from there on, the second trim is a filter and the two
commute.

* `filter_rtake`: the last elements of a filtered list;
* `dropWhile_eq_filter`: a trim from the front as a filter;
* `rtake_rtake_concat`: an element pushed on a list that was trimmed before;
* `forall_mem_dropWhile_iff`: what a trim from the front leaves of any list.
-/

namespace Calculus

variable {α : Type} {l : List α} {n : ℕ} {p : α → Bool}

lemma rtake_of_length_le (h : l.length ≤ n) : l.rtake n = l := by
  rw [List.rtake, Nat.sub_eq_zero_of_le h, List.drop_zero]

lemma rtake_cons {a : α} (h : n ≤ l.length) : (a :: l).rtake n = l.rtake n := by
  rw [List.rtake, List.rtake, List.length_cons, Nat.succ_sub h, List.drop_succ_cons]

/-- The last elements of a list and the elements that pass a test can be taken in either
order, if the test is passed from some element on. -/
lemma filter_rtake (hl : l.Pairwise fun a b => p a → p b) :
    (l.rtake n).filter p = (l.filter p).rtake n := by
  induction l with
  | nil => simp
  | cons a l ih =>
      obtain ⟨hall, htail⟩ := List.pairwise_cons.mp hl
      rcases Nat.lt_or_ge l.length n with hlt | hge
      · have hlen : (List.filter p (a :: l)).length ≤ n :=
          (List.length_filter_le p (a :: l)).trans hlt
        rw [rtake_of_length_le hlen, rtake_of_length_le (by rwa [List.length_cons])]
      · rw [rtake_cons hge, ih htail]
        by_cases ha : p a
        · have hfilter : l.filter p = l := List.filter_eq_self.mpr fun b hb => hall b hb ha
          rw [List.filter_cons_of_pos ha, hfilter, rtake_cons hge]
        · rw [List.filter_cons_of_neg ha]

/-- The trim from the front, if the test is passed from some element on. -/
lemma dropWhile_eq_filter (hl : l.Pairwise fun a b => p a → p b) :
    (l.dropWhile fun a => !p a) = l.filter p := by
  induction l with
  | nil => rfl
  | cons a l ih =>
      obtain ⟨hall, htail⟩ := List.pairwise_cons.mp hl
      by_cases ha : p a
      · have hfilter : l.filter p = l := List.filter_eq_self.mpr fun b hb => hall b hb ha
        rw [List.dropWhile_cons_of_neg (by simp [ha]), List.filter_cons_of_pos ha, hfilter]
      · rw [List.dropWhile_cons_of_pos (by simp [ha]), List.filter_cons_of_neg ha, ih htail]

/-- A trim before the push of an element does not show after it. -/
lemma rtake_rtake_concat (l : List α) (x : α) (n : ℕ) :
    (l.rtake n ++ [x]).rtake n = (l ++ [x]).rtake n := by
  cases n with
  | zero => simp
  | succ n =>
      rw [List.rtake_concat_succ, List.rtake_concat_succ]
      simp only [List.rtake, List.drop_drop, List.length_drop]
      congr 2
      omega

/-- What a trim from the front leaves, of any list: everything from the first element
that passes the test on. -/
lemma forall_mem_dropWhile_iff {P : α → Prop} :
    (∀ x ∈ l.dropWhile p, P x) ↔
      ∀ (i j : ℕ) (x y : α), l[i]? = some x → l[j]? = some y → i ≤ j → p x = false → P y := by
  induction l with
  | nil => simp
  | cons a l ih =>
      cases ha : p a with
      | true =>
          rw [List.dropWhile_cons_of_pos ha, ih]
          constructor
          · intro h i j x y hx hy hij hpx
            cases i with
            | zero =>
                rw [List.getElem?_cons_zero, Option.some.injEq] at hx
                rw [← hx, ha] at hpx
                cases hpx
            | succ i =>
                obtain ⟨j, rfl⟩ : ∃ k, j = k + 1 := ⟨j - 1, by omega⟩
                rw [List.getElem?_cons_succ] at hx hy
                exact h i j x y hx hy (by omega) hpx
          · intro h i j x y hx hy hij hpx
            exact h (i + 1) (j + 1) x y (by simpa using hx) (by simpa using hy) (by omega) hpx
      | false =>
          rw [List.dropWhile_cons_of_neg (by simp [ha])]
          constructor
          · intro h i j x y _ hy _ _
            exact h y (List.mem_of_getElem? hy)
          · intro h y hy
            obtain ⟨j, hj⟩ := List.mem_iff_getElem?.mp hy
            exact h 0 j a y rfl hj (Nat.zero_le j) ha

end Calculus
