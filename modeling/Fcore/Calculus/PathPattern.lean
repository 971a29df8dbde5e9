import Mathlib.Tactic

/-!
Patterns of paths, and choices between them.

A pattern has parts that are fixed and parts that are open, and tells whether a path may go on
after them.

* `PathPattern.Fits`: a path has a pattern;
* `PathPattern.clash`: two patterns that no path has both, as a test;
* `not_fits_of_clash`: the test is right;
* `Exclusive`: a list of partial functions of which no two are defined at one argument;
* `Exclusive.length_le_one`, `Exclusive.eq_of_perm`: at most one of them has a value, and their
  order does not matter.
-/

namespace Calculus

/-- The parts of a path, `none` for an open one, and whether it ends with them. -/
structure PathPattern (α : Type) where
  parts : List (Option α)
  ends : Bool

namespace PathPattern

variable {α : Type}

/-- The parts from the left on. -/
def FitsParts (ends : Bool) : List (Option α) → List α → Prop
  | [], path => ends = true → path = []
  | _ :: _, [] => False
  | none :: parts, _ :: path => FitsParts ends parts path
  | some part :: parts, segment :: path => segment = part ∧ FitsParts ends parts path

/-- A path has a pattern. -/
def Fits (p : PathPattern α) (path : List α) : Prop := FitsParts p.ends p.parts path

variable [DecidableEq α]

/-- No path has the parts of both. -/
def clashParts (ends ends' : Bool) : List (Option α) → List (Option α) → Bool
  | [], [] => false
  | [], _ :: _ => ends
  | _ :: _, [] => ends'
  | some part :: parts, some part' :: parts' => part != part' || clashParts ends ends' parts parts'
  | none :: parts, _ :: parts' | _ :: parts, none :: parts' => clashParts ends ends' parts parts'

def clash (p q : PathPattern α) : Bool := clashParts p.ends q.ends p.parts q.parts

lemma not_fitsParts_of_clash {ends ends' : Bool} {parts parts' : List (Option α)} {path : List α}
    (h : clashParts ends ends' parts parts' = true) (hfits : FitsParts ends parts path)
    (hfits' : FitsParts ends' parts' path) : False := by
  induction parts generalizing parts' path with
  | nil =>
      cases parts' with
      | nil => cases h
      | cons part' parts' =>
          rw [hfits h] at hfits'
          exact hfits'
  | cons part parts ih =>
      cases parts' with
      | nil =>
          rw [hfits' h] at hfits
          exact hfits
      | cons part' parts' =>
          cases path with
          | nil => exact hfits
          | cons segment path =>
              rcases part with _ | part
              · rcases part' with _ | part'
                · exact ih h hfits hfits'
                · exact ih h hfits hfits'.2
              · rcases part' with _ | part'
                · exact ih h hfits.2 hfits'
                · obtain ⟨rfl, hrest⟩ := hfits
                  obtain ⟨rfl, hrest'⟩ := hfits'
                  rw [clashParts, bne_self_eq_false, Bool.false_or] at h
                  exact ih h hrest hrest'

/-- **Two patterns that clash have no path in common.** -/
lemma not_fits_of_clash {p q : PathPattern α} {path : List α} (h : p.clash q = true)
    (hp : p.Fits path) : ¬ q.Fits path :=
  fun hq => not_fitsParts_of_clash h hp hq

end PathPattern

/-! ### Choices -/

section Choices

variable {α β : Type}

/-- No two functions of the list are defined at one argument. -/
def Exclusive (fs : List (α → Option β)) : Prop :=
  fs.Pairwise fun f g => ∀ x, f x = none ∨ g x = none

/-- At most one of them has a value. -/
lemma Exclusive.length_le_one {fs : List (α → Option β)} (h : Exclusive fs) (x : α) :
    (fs.filterMap fun f => f x).length ≤ 1 := by
  induction fs with
  | nil => exact Nat.zero_le 1
  | cons f fs ih =>
      obtain ⟨hf, hfs⟩ := List.pairwise_cons.mp h
      cases hx : f x with
      | none =>
          have hrest : ((f :: fs).filterMap fun f => f x) = fs.filterMap fun f => f x :=
            List.filterMap_cons_none hx
          rw [hrest]
          exact ih hfs
      | some y =>
          have hnone : ∀ g ∈ fs, g x = none := fun g hg =>
            (hf g hg x).resolve_left (by rw [hx]; exact Option.some_ne_none y)
          have hfirst : ((f :: fs).filterMap fun f => f x) = y :: fs.filterMap fun f => f x :=
            List.filterMap_cons_some hx
          rw [hfirst, List.filterMap_eq_nil_iff.mpr hnone]
          exact le_rfl

/-- **Their order does not matter.** -/
lemma Exclusive.eq_of_perm {fs gs : List (α → Option β)} (h : Exclusive fs) (hperm : gs.Perm fs)
    (x : α) : (gs.filterMap fun f => f x) = fs.filterMap fun f => f x := by
  have hvalues := hperm.filterMap fun f => f x
  have hone := h.length_le_one x
  rcases hfs : fs.filterMap (fun f => f x) with _ | ⟨y, _ | ⟨z, ys⟩⟩
  · rw [hfs] at hvalues
    exact (List.perm_nil.mp hvalues).trans hfs.symm
  · rw [hfs] at hvalues
    exact (List.perm_singleton.mp hvalues).trans hfs.symm
  · rw [hfs, List.length_cons, List.length_cons] at hone
    omega

end Choices

end Calculus
