import Fcore.Calculus.Protocol

/-!
Calls that every run of a program makes.

`Uses` bounds the calls of a program from above; `Makes` is the bound from below.  The
replies that are not considered are left out, since after an error a program may return
early.

* `Makes`: whatever the replies, as far as they are considered, the program makes a call in
  `S`;
* `Makes.bind`, `Makes.par_left`, `Makes.par_right`, `Makes.joinAll`: so does a program
  around it, also one that interleaves it with others;
* `Exec.of_makes`: what the calls in `S` bring about and all calls of the program keep holds
  when it returns.
-/

namespace Calculus

open Machine (exec)

variable {C : Type → Type} {ι σ : Type} {α β : Type}

/-- Every run of the program with replies in `A` makes a call in `S`. -/
def Makes (A : (β : Type) → C β → β → Prop) (S : (β : Type) → C β → Prop) : Prog C α → Prop
  | .pure _ => False
  | @Prog.call _ _ β c k => S β c ∨ ∀ b, A β c b → Makes A S (k b)

variable {A : (β : Type) → C β → β → Prop} {S U : (β : Type) → C β → Prop}

lemma Makes.bind {p : Prog C α} (h : Makes A S p) (f : α → Prog C β) : Makes A S (p >>= f) := by
  induction p with
  | pure x => exact h.elim
  | call c k ih =>
      rcases h with h | h
      · exact .inl h
      · exact .inr fun b hb => ih b (h b hb)

lemma Makes.par_left {pick : C Bool} {p : Prog C α} (h : Makes A S p) (q : Prog C β) :
    Makes A S (p.par pick q) := by
  induction p generalizing q with
  | pure x => exact h.elim
  | @call γ c k ih =>
      show Makes A S (Prog.parInner pick c (fun b => Prog.par pick (k b)) q)
      -- the call of the left program, the right one waiting
      have hcall : ∀ q : Prog C β, Makes A S (.call c fun b => Prog.par pick (k b) q) := by
        intro q
        rcases h with h | h
        · exact .inl h
        · exact .inr fun b hb => ih b (h b hb) q
      induction q with
      | pure y => exact hcall (.pure y)
      | call c' k' ih' =>
          rw [Prog.parInner]
          refine .inr fun left _ => ?_
          cases left with
          | true => exact hcall (.call c' k')
          | false => exact .inr fun b' _ => ih' b'

lemma Makes.par_right {pick : C Bool} (p : Prog C α) {q : Prog C β} (h : Makes A S q) :
    Makes A S (p.par pick q) := by
  induction p generalizing q with
  | pure x => exact h.bind _
  | call c k ih =>
      show Makes A S (Prog.parInner pick c (fun b => Prog.par pick (k b)) q)
      induction q with
      | pure y => exact h.elim
      | call c' k' ih' =>
          rw [Prog.parInner]
          refine .inr fun left _ => ?_
          cases left with
          | true => exact .inr fun b _ => ih b h
          | false =>
              rcases h with h | h
              · exact .inl h
              · exact .inr fun b' hb' => ih' b' (h b' hb')

lemma Makes.joinAll {pick : C Bool} {ps : List (Prog C α)} {p : Prog C α} (hp : p ∈ ps)
    (h : Makes A S p) : Makes A S (Prog.joinAll pick ps) := by
  induction ps with
  | nil => exact absurd hp List.not_mem_nil
  | cons q ps ih =>
      refine Makes.bind (p := Prog.par pick q (Prog.joinAll pick ps)) ?_ _
      rcases List.mem_cons.mp hp with rfl | hp
      · exact h.par_left _
      · exact (ih hp).par_right _

variable [Machine C ι σ] {rule : Rule C ι σ}

/-- **What a call in `S` brings about**: a program that makes a call in `S` and only makes
calls in `U` returns with `P`, if every call in `U` keeps `I` and `P` and is answered as
considered, and a call in `S` brings about `P`. -/
lemma Exec.of_makes {I P : σ → Prop} {p : Prog C α} {s s' : σ} {x : α}
    (h : Exec rule p s x s') (hm : Makes A S p) (hu : Uses U p)
    (hstep : ∀ {β : Type} {c : C β} {i : ι} {s s' : σ} {b : β}, U β c →
      exec c i s = some (s', b) → rule β [] c i s b = true → I s →
      I s' ∧ A β c b ∧ (P s → P s') ∧ (S β c → P s')) (hs : I s) : P s' := by
  -- once it has been brought about it stays
  have hstays : ∀ {p : Prog C α} {s s' : σ} {x : α}, Exec rule p s x s' → Uses U p → I s →
      P s → P s' := by
    intro p s s' x h
    induction h with
    | pure x s => exact fun _ _ hp => hp
    | call hexec hrule hrest ih =>
        intro hu hs hp
        obtain ⟨hs', -, hkeep, -⟩ := hstep hu.1 hexec hrule hs
        exact ih (hu.2 _) hs' (hkeep hp)
  induction h with
  | pure x s => exact hm.elim
  | call hexec hrule hrest ih =>
      obtain ⟨hs', hreply, -, hbring⟩ := hstep hu.1 hexec hrule hs
      rcases hm with hm | hm
      · exact hstays hrest (hu.2 _) hs' (hbring hm)
      · exact ih (hm _ hreply) (hu.2 _) hs'

end Calculus
