import Fcore.Calculus.Protocol

/-!
Triples of programs run alone.

`Triple rule P p Q` says that `p`, started in a state with `P` and run alone with
the steps that `rule` allows, returns a result and a state with `Q`, if it
returns.

* `Triple.pure`, `Triple.perform`, `Triple.bind`: the rules that follow the text
  of a program; `Triple.conseq` weakens, `Triple.lift` takes a fact out of the
  precondition;
* `Triple.of_uses`: a program all of whose calls keep an assertion;
* `Triple.of_obeys`: a program that obeys a protocol;
* `Serial.of_triple`, `Serial.of_triple_mem`: programs run one after another.
-/

namespace Calculus

open Machine (exec)

variable {C : Type → Type} {ι σ : Type} {α β γ : Type} [Machine C ι σ]

/-- Whatever `p` returns from a state with `P`, it returns with `Q`. -/
def Triple (rule : Rule C ι σ) (P : σ → Prop) (p : Prog C α) (Q : α → σ → Prop) : Prop :=
  ∀ ⦃s s' : σ⦄ ⦃x : α⦄, Exec rule p s x s' → P s → Q x s'

namespace Triple

variable {rule : Rule C ι σ} {P P' : σ → Prop} {Q Q' : α → σ → Prop} {p : Prog C α}

lemma pure {x : α} (h : ∀ s, P s → Q x s) : Triple rule P (.pure x) Q := by
  intro s s' y hexec hs
  obtain ⟨rfl, rfl⟩ := hexec.of_pure
  exact h s' hs

/-- One call. -/
lemma perform {c : C α} (h : ∀ i s s' b, exec c i s = some (s', b) → rule α [] c i s b = true →
    P s → Q b s') : Triple rule P (Prog.perform c) Q := by
  intro s s' x hexec hs
  obtain ⟨i, s₁, b, hcall, hrule, hrest⟩ := Exec.of_call hexec
  obtain ⟨rfl, rfl⟩ := hrest.of_pure
  exact h i s s' x hcall hrule hs

lemma bind {f : α → Prog C β} {R : β → σ → Prop} (hp : Triple rule P p Q)
    (hf : ∀ x, Triple rule (Q x) (f x) R) : Triple rule P (p >>= f) R := by
  intro s s'' y hexec hs
  obtain ⟨x, s', hfirst, hrest⟩ := hexec.of_bind
  exact hf x hrest (hp hfirst hs)

lemma conseq (h : Triple rule P p Q) (hpre : ∀ s, P' s → P s) (hpost : ∀ x s, Q x s → Q' x s) :
    Triple rule P' p Q' :=
  fun _ _ _ hexec hs => hpost _ _ (h hexec (hpre _ hs))

/-- A part of the precondition that is not about the state. -/
lemma lift {φ : Prop} (h : φ → Triple rule P p Q) : Triple rule (fun s => P s ∧ φ) p Q :=
  fun _ _ _ hexec hs => h hs.2 hexec hs.1

lemma forget {R : σ → Prop} (h : Triple rule P p fun _ => R) :
    Triple rule P p.forget fun _ => R := by
  refine Triple.bind h fun _ => ?_
  exact Triple.pure fun _ hs => hs

/-- A program all of whose calls keep the assertion. -/
lemma of_uses {S : (β : Type) → C β → Prop} (hp : Uses S p)
    (hS : ∀ {β : Type} {c : C β} {i : ι} {s s' : σ} {b : β}, S β c → exec c i s = some (s', b) →
      P s → P s') : Triple rule P p fun _ => P :=
  fun _ _ _ hexec hs => hexec.inv_of_uses hp hS hs

/-- A program that obeys a protocol, for an invariant of state and account that every
step keeps. -/
lemma of_obeys {A : Type} {T : Protocol C A} {R : α → A → Prop} {J : σ → A → Prop} {a : A}
    (hkeeps : KeepsAlone rule T J) (hp : Obeys T R p a) :
    Triple rule (fun s => J s a) p fun x s => ∃ a', R x a' ∧ J s a' :=
  fun _ _ _ hexec hs => hexec.sound hkeeps hp hs

end Triple

/-- What every program keeps, programs run one after another keep. -/
lemma Serial.of_triple {rule : Rule C ι σ} {P : σ → Prop} {f : γ → Prog C α} {s₀ s : σ}
    {xs : List γ} (h : Serial rule f s₀ xs s) (hf : ∀ x, Triple rule P (f x) fun _ => P)
    (h₀ : P s₀) : P s := by
  refine h.sound ?_ h₀
  intro x s s' r hexec hs
  exact hf x hexec hs

/-- The programs of the list are all that has to keep it. -/
lemma Serial.of_triple_mem {rule : Rule C ι σ} {P : σ → Prop} {f : γ → Prog C α} {s₀ s : σ}
    {xs : List γ} (h : Serial rule f s₀ xs s) (hf : ∀ x ∈ xs, Triple rule P (f x) fun _ => P)
    (h₀ : P s₀) : P s := by
  induction h with
  | nil => exact h₀
  | snoc hrun hexec ih =>
      have hbefore := ih fun x hx => hf x (List.mem_append_left _ hx)
      exact hf _ (List.mem_append_right _ (List.mem_singleton_self _)) hexec hbefore

end Calculus
