import Fcore.Calculus.Protocol

/-!
Acts that may be done at most once.

A request that is cleared to do the act holds an `opened` ticket, and a `spent`
one from the act until it has left its mark.  `Once` is the invariant of the
number of acts, of the mark and of the tickets in circulation: at most one
ticket is out, and as long as there is no mark and no ticket nothing has been
done.

* `Once.le`: the act has been done at most once;
* `Once.of_opened`, `Once.of_spent`: what a ticket tells about the others;
* `Once.issue`, `Once.act`, `Once.mark`, `Once.withdraw`: the steps;
* `Held`: the accounts of those who hold a lock, of which there is one exactly
  while the lock is taken; `Held.acquire`, `Held.exchange`, `Held.release`.
-/

namespace Calculus

/-- Where a request for the act stands; `k` names the object of the act. -/
inductive Ticket (κ : Type) where
  | opened (k : κ)
  | spent (k : κ)
  deriving DecidableEq

/-- At most one act since the count was `n₀`: the invariant of the count `n`, the
mark and the tickets in circulation. -/
def Once {κ : Type} (n₀ n : ℕ) (marked : Prop) (t : Multiset (Ticket κ)) : Prop :=
  (t = 0 ∧ (n ≤ n₀ ∨ n ≤ n₀ + 1 ∧ marked)) ∨
    (∃ k, t = {.opened k} ∧ n ≤ n₀) ∨ (∃ k, t = {.spent k} ∧ n ≤ n₀ + 1)

variable {κ : Type} {n₀ n n' : ℕ} {marked marked' : Prop} {t g : Multiset (Ticket κ)} {k : κ}

lemma Once.init : Once (κ := κ) n₀ n₀ marked 0 := Or.inl ⟨rfl, Or.inl le_rfl⟩

/-- The act has been done at most once. -/
lemma Once.le (h : Once n₀ n marked t) : n ≤ n₀ + 1 := by
  rcases h with ⟨-, h | h⟩ | ⟨k, -, h⟩ | ⟨k, -, h⟩
  · omega
  · exact h.1
  · omega
  · exact h

/-- The invariant depends on the count and the mark only from above. -/
lemma Once.mono (h : Once n₀ n marked t) (hn : n' ≤ n) (hmark : marked → marked') :
    Once n₀ n' marked' t := by
  rcases h with ⟨rfl, h | h⟩ | ⟨k, rfl, h⟩ | ⟨k, rfl, h⟩
  · exact Or.inl ⟨rfl, Or.inl (hn.trans h)⟩
  · exact Or.inl ⟨rfl, Or.inr ⟨hn.trans h.1, hmark h.2⟩⟩
  · exact Or.inr (Or.inl ⟨k, rfl, hn.trans h⟩)
  · exact Or.inr (Or.inr ⟨k, rfl, hn.trans h⟩)

lemma Ticket.singleton_add_eq {x y : Ticket κ} (h : {x} + g = ({y} : Multiset (Ticket κ))) :
    x = y ∧ g = 0 := by
  have hcard := congrArg Multiset.card h
  rw [Multiset.card_add, Multiset.card_singleton, Multiset.card_singleton] at hcard
  have hg : g = 0 := Multiset.card_eq_zero.mp (by omega)
  rw [hg, add_zero, Multiset.singleton_inj] at h
  exact ⟨h, hg⟩

/-- With an open ticket out, nothing has been done and no other ticket is out. -/
lemma Once.of_opened (h : Once n₀ n marked ({.opened k} + g)) : g = 0 ∧ n ≤ n₀ := by
  rcases h with ⟨h0, -⟩ | ⟨k', h1, hn⟩ | ⟨k', h1, -⟩
  · simp at h0
  · exact ⟨(Ticket.singleton_add_eq h1).2, hn⟩
  · exact absurd (Ticket.singleton_add_eq h1).1 (by simp)

/-- With a spent ticket out, no other ticket is out. -/
lemma Once.of_spent (h : Once n₀ n marked ({.spent k} + g)) : g = 0 := by
  rcases h with ⟨h0, -⟩ | ⟨k', h1, -⟩ | ⟨k', h1, -⟩
  · simp at h0
  · exact absurd (Ticket.singleton_add_eq h1).1 (by simp)
  · exact (Ticket.singleton_add_eq h1).2

/-- Without a mark and with no ticket out, a ticket may be issued. -/
lemma Once.issue (h : Once n₀ n marked (0 : Multiset (Ticket κ))) (hmark : ¬ marked) (k : κ) :
    Once n₀ n marked {.opened k} := by
  rcases h with ⟨-, h | h⟩ | ⟨k', h, -⟩ | ⟨k', h, -⟩
  · exact Or.inr (Or.inl ⟨k, rfl, h⟩)
  · exact absurd h.2 hmark
  · simp at h
  · simp at h

/-- An open ticket may be given back. -/
lemma Once.withdraw (h : Once n₀ n marked ({.opened k} + g)) : Once n₀ n marked (0 + g) := by
  obtain ⟨rfl, hn⟩ := h.of_opened
  exact Or.inl ⟨rfl, Or.inl hn⟩

/-- The act turns an open ticket into a spent one. -/
lemma Once.act (h : Once n₀ n marked ({.opened k} + g)) (hn : n' ≤ n + 1) :
    Once n₀ n' marked' ({.spent k} + g) := by
  obtain ⟨rfl, hle⟩ := h.of_opened
  exact Or.inr (Or.inr ⟨k, rfl, by omega⟩)

/-- The mark retires a spent ticket. -/
lemma Once.mark (h : Once n₀ n marked ({.spent k} + g)) (hmark : marked') :
    Once n₀ n marked' (0 + g) := by
  have hle := h.le
  obtain rfl := h.of_spent
  exact Or.inl ⟨rfl, Or.inr ⟨hle, hmark⟩⟩

/-! ### Holders of a lock -/

/-- One holder while the lock is taken, none while it is not. -/
def Held {τ : Type} (taken : Bool) (t : Multiset τ) : Prop := t.card = taken.toNat

section Held

variable {τ : Type} {taken : Bool} {x y : τ} {t : Multiset τ}

lemma Held.init : Held false (0 : Multiset τ) := rfl

/-- Nobody holds a free lock. -/
lemma Held.eq_zero (h : Held false t) : t = 0 := Multiset.card_eq_zero.mp h

/-- A holder has the lock, and has it alone. -/
lemma Held.alone (h : Held taken (t + {x})) : taken = true ∧ t = 0 := by
  have hcard : t.card + 1 = taken.toNat := by
    rw [← Multiset.card_singleton x, ← Multiset.card_add]
    exact h
  cases taken with
  | false => simp at hcard
  | true => exact ⟨rfl, Multiset.card_eq_zero.mp (by simpa using hcard)⟩

lemma Held.acquire (h : Held false t) (x : τ) : Held true (t + {x}) := by
  rw [h.eq_zero, zero_add]
  exact Multiset.card_singleton x

/-- A holder may change its account. -/
lemma Held.exchange (h : Held taken (t + {x})) (y : τ) : Held taken (t + {y}) := by
  obtain ⟨rfl, rfl⟩ := h.alone
  rw [zero_add]
  exact Multiset.card_singleton y

lemma Held.release (h : Held taken (t + {x})) : Held false t := by
  obtain ⟨-, rfl⟩ := h.alone
  exact Held.init

end Held

end Calculus
