import Fcore.Calculus.Protocol

/-!
Executions with notes.

What a program does along the way is lost in its last state.  Here every step may be noted,
and an execution carries its notes, oldest first.

* `Watch`: what is noted of a step;
* `Traced`, `traceWith`: a program run alone, with its notes; `Traced.exec` forgets them,
  and `Traced.notes_of_uses` says when there are none;
* `SerialTraced`, `serialTraceWith`: programs run one after another;
* `TraceTriple`: an assertion about the notes so far and the state, before and after a
  program; `TraceTriple.perform`, `TraceTriple.bind`, `TraceTriple.of_uses`: the rules that
  follow the text of a program;
* `SerialTraced.of_triple`: what every program keeps holds after all of them.
-/

namespace Calculus

open Machine (exec)

variable {C : Type → Type} {ι σ : Type} {α β γ δ : Type}

/-- What is noted of a step: the call, its input, the state before it and its reply. -/
abbrev Watch (C : Type → Type) (ι σ γ : Type) : Type 1 :=
  (β : Type) → C β → ι → σ → β → List γ

variable [Machine C ι σ]

/-- `Traced rule obs p s w x s'`: run alone from the state `s`, the program `p` returns `x` in
the state `s'`, and `w` has been noted. -/
inductive Traced (rule : Rule C ι σ) (obs : Watch C ι σ γ) :
    Prog C α → σ → List γ → α → σ → Prop where
  | pure (x : α) (s : σ) : Traced rule obs (.pure x) s [] x s
  | call {β : Type} {c : C β} {k : β → Prog C α} {i : ι} {s s' s'' : σ} {b : β} {w : List γ} {x : α}
      (hexec : exec c i s = some (s', b)) (hrule : rule β [] c i s b = true)
      (hrest : Traced rule obs (k b) s' w x s'') :
      Traced rule obs (.call c k) s (obs β c i s b ++ w) x s''

/-- Programs run one after another from the state `s₀`, with their notes. -/
inductive SerialTraced (rule : Rule C ι σ) (obs : Watch C ι σ γ) (f : δ → Prog C α) (s₀ : σ) :
    List δ → List γ → σ → Prop where
  | nil : SerialTraced rule obs f s₀ [] [] s₀
  | snoc {xs : List δ} {x : δ} {v w : List γ} {s s' : σ} {r : α}
      (hrun : SerialTraced rule obs f s₀ xs v s) (hexec : Traced rule obs (f x) s w r s') :
      SerialTraced rule obs f s₀ (xs ++ [x]) (v ++ w) s'

section Traced

variable {rule : Rule C ι σ} {obs : Watch C ι σ γ}

lemma Traced.of_pure {x y : α} {s s' : σ} {w : List γ} (h : Traced rule obs (.pure x) s w y s') :
    w = [] ∧ y = x ∧ s' = s := by
  cases h
  exact ⟨rfl, rfl, rfl⟩

/-- The first step of an execution and its notes. -/
lemma Traced.of_call {c : C β} {k : β → Prog C α} {s s'' : σ} {w : List γ} {x : α}
    (h : Traced rule obs (.call c k) s w x s'') : ∃ i s' b w', exec c i s = some (s', b) ∧
      rule β [] c i s b = true ∧ w = obs β c i s b ++ w' ∧ Traced rule obs (k b) s' w' x s'' := by
  cases h with
  | call hexec hrule hrest => exact ⟨_, _, _, _, hexec, hrule, rfl, hrest⟩

/-- An execution without its notes. -/
lemma Traced.exec {p : Prog C α} {s s' : σ} {w : List γ} {x : α}
    (h : Traced rule obs p s w x s') : Exec rule p s x s' := by
  induction h with
  | pure x s => exact .pure x s
  | call hexec hrule hrest ih => exact .call hexec hrule ih

/-- A program none of whose calls is noted. -/
lemma Traced.notes_of_uses {S : (β : Type) → C β → Prop} {p : Prog C α} {s s' : σ} {w : List γ}
    {x : α} (h : Traced rule obs p s w x s') (hp : Uses S p)
    (hS : ∀ {β : Type} {c : C β}, S β c → ∀ (i : ι) (s : σ) (b : β), obs β c i s b = []) :
    w = [] := by
  induction h with
  | pure x s => rfl
  | call hexec hrule hrest ih => rw [hS hp.1, ih (hp.2 _), List.append_nil]

end Traced

/-! ### Evaluation -/

/-- The execution of `Traced` on a given list of inputs. -/
def traceWith (rule : Rule C ι σ) (obs : Watch C ι σ γ) :
    List ι → Prog C α → σ → Option (List γ × α × σ)
  | _, .pure x, s => some ([], x, s)
  | [], .call _ _, _ => none
  | i :: is, @Prog.call _ _ β c k, s =>
      match exec c i s with
      | none => none
      | some (s', b) =>
          if rule β [] c i s b then
            (traceWith rule obs is (k b) s').map fun r => (obs β c i s b ++ r.1, r.2)
          else none

lemma traced_of_traceWith {rule : Rule C ι σ} {obs : Watch C ι σ γ} {is : List ι} {p : Prog C α}
    {s s' : σ} {w : List γ} {x : α} (h : traceWith rule obs is p s = some (w, x, s')) :
    Traced rule obs p s w x s' := by
  induction p generalizing is s w with
  | pure y =>
      simp only [traceWith, Option.some.injEq, Prod.mk.injEq] at h
      obtain ⟨rfl, rfl, rfl⟩ := h
      exact .pure y s
  | call c k ih =>
      cases is with
      | nil => cases h
      | cons i is =>
          rw [traceWith] at h
          split at h
          · cases h
          · next s₁ b hb =>
              split at h
              · next hr =>
                  obtain ⟨⟨w', x', s''⟩, hrest, heq⟩ := Option.map_eq_some_iff.mp h
                  simp only [Prod.mk.injEq] at heq
                  obtain ⟨rfl, rfl, rfl⟩ := heq
                  exact .call hb hr (ih b hrest)
              · cases h

/-- The executions of `SerialTraced` on given lists of inputs. -/
def serialTraceWith (rule : Rule C ι σ) (obs : Watch C ι σ γ) (f : δ → Prog C α) :
    List (δ × List ι) → σ → Option (List γ × σ)
  | [], s => some ([], s)
  | (x, is) :: rest, s => (traceWith rule obs is (f x) s).bind fun r =>
      (serialTraceWith rule obs f rest r.2.2).map fun r' => (r.1 ++ r'.1, r'.2)

lemma serialTraced_of_serialTraceWith {rule : Rule C ι σ} {obs : Watch C ι σ γ} {f : δ → Prog C α}
    {s₀ s s' : σ} {xs : List δ} {v w : List γ} {ys : List (δ × List ι)}
    (h : SerialTraced rule obs f s₀ xs v s)
    (hrun : serialTraceWith rule obs f ys s = some (w, s')) :
    SerialTraced rule obs f s₀ (xs ++ ys.map Prod.fst) (v ++ w) s' := by
  induction ys generalizing xs v w s with
  | nil =>
      obtain ⟨rfl, rfl⟩ := Prod.mk.inj (Option.some.inj hrun)
      rwa [List.map_nil, List.append_nil, List.append_nil]
  | cons y ys ih =>
      obtain ⟨x, is⟩ := y
      obtain ⟨⟨u, r, s₁⟩, hexec, hmap⟩ := Option.bind_eq_some_iff.mp hrun
      obtain ⟨⟨u', s₂⟩, hrest, heq⟩ := Option.map_eq_some_iff.mp hmap
      obtain ⟨rfl, rfl⟩ := Prod.mk.inj heq
      have hone := ih (h.snoc (traced_of_traceWith hexec)) hrest
      rwa [List.append_assoc, List.append_assoc, List.singleton_append] at hone

/-! ### Assertions about notes -/

/-- Whatever `p` returns after notes and from a state with `P`, it returns with `Q`. -/
def TraceTriple (rule : Rule C ι σ) (obs : Watch C ι σ γ) (P : List γ → σ → Prop) (p : Prog C α)
    (Q : α → List γ → σ → Prop) : Prop :=
  ∀ ⦃v w : List γ⦄ ⦃s s' : σ⦄ ⦃x : α⦄, Traced rule obs p s w x s' → P v s → Q x (v ++ w) s'

namespace TraceTriple

variable {rule : Rule C ι σ} {obs : Watch C ι σ γ} {P P' : List γ → σ → Prop}
  {Q Q' : α → List γ → σ → Prop} {p : Prog C α}

lemma pure {x : α} (h : ∀ v s, P v s → Q x v s) : TraceTriple rule obs P (.pure x) Q := by
  intro v w s s' y htrace hs
  cases htrace
  rw [List.append_nil]
  exact h v s hs

/-- One call and what comes after it. -/
lemma call {c : C β} {k : β → Prog C α} {R : β → List γ → σ → Prop}
    (hc : ∀ v i s s' b, exec c i s = some (s', b) → rule β [] c i s b = true → P v s →
      R b (v ++ obs β c i s b) s')
    (hk : ∀ b, TraceTriple rule obs (R b) (k b) Q) : TraceTriple rule obs P (.call c k) Q := by
  intro v w s s' x htrace hs
  cases htrace with
  | call hexec hrule hrest =>
      rw [← List.append_assoc]
      exact hk _ hrest (hc v _ s _ _ hexec hrule hs)

/-- One call. -/
lemma perform {c : C α} (h : ∀ v i s s' b, exec c i s = some (s', b) → rule α [] c i s b = true →
    P v s → Q b (v ++ obs α c i s b) s') : TraceTriple rule obs P (Prog.perform c) Q :=
  TraceTriple.call h fun _ => TraceTriple.pure fun _ _ hs => hs

lemma bind {f : α → Prog C β} {R : β → List γ → σ → Prop} (hp : TraceTriple rule obs P p Q)
    (hf : ∀ x, TraceTriple rule obs (Q x) (f x) R) : TraceTriple rule obs P (p >>= f) R := by
  induction p generalizing P with
  | pure x =>
      intro v w s s' y htrace hs
      have hx := hp (.pure x s) hs
      rw [List.append_nil] at hx
      exact hf x htrace hx
  | call c k ih =>
      intro v w s s'' y htrace hs
      cases htrace with
      | @call _ _ _ i _ s' _ b w y hexec hrule hrest =>
          -- the notes up to the reply and the state after it
          have hk : TraceTriple rule obs
              (fun v' s₁ => v' = v ++ obs _ c i s b ∧ s₁ = s') (k b) Q := by
            rintro _ w' _ s₁ x hrest' ⟨rfl, rfl⟩
            have hall := hp (.call hexec hrule hrest') hs
            rwa [← List.append_assoc] at hall
          rw [← List.append_assoc]
          exact ih b hk hrest ⟨rfl, rfl⟩

lemma conseq (h : TraceTriple rule obs P p Q) (hpre : ∀ v s, P' v s → P v s)
    (hpost : ∀ x v s, Q x v s → Q' x v s) : TraceTriple rule obs P' p Q' :=
  fun _ _ _ _ _ htrace hs => hpost _ _ _ (h htrace (hpre _ _ hs))

lemma forget {R : List γ → σ → Prop} (h : TraceTriple rule obs P p fun _ => R) :
    TraceTriple rule obs P p.forget fun _ => R :=
  h.bind fun _ => TraceTriple.pure fun _ _ hs => hs

/-- A program all of whose calls leave no notes and keep the assertion. -/
lemma of_uses {S : (β : Type) → C β → Prop} (hp : Uses S p)
    (hS : ∀ {β : Type} {c : C β} {i : ι} {v : List γ} {s s' : σ} {b : β}, S β c →
      exec c i s = some (s', b) → P v s → obs β c i s b = [] ∧ P v s') :
    TraceTriple rule obs P p fun _ => P := by
  intro v w s s' x htrace hs
  induction htrace with
  | pure x s =>
      rw [List.append_nil]
      exact hs
  | call hexec hrule hrest ih =>
      obtain ⟨hnote, hs'⟩ := hS hp.1 hexec hs
      rw [hnote, List.nil_append]
      exact ih (hp.2 _) hs'

end TraceTriple

/-- What every program keeps, programs run one after another keep. -/
lemma SerialTraced.of_triple {rule : Rule C ι σ} {obs : Watch C ι σ γ} {P : List γ → σ → Prop}
    {f : δ → Prog C α} {s₀ s : σ} {xs : List δ} {w : List γ} (h : SerialTraced rule obs f s₀ xs w s)
    (hf : ∀ x ∈ xs, TraceTriple rule obs P (f x) fun _ => P) (h₀ : P [] s₀) : P w s := by
  induction h with
  | nil => exact h₀
  | snoc hrun hexec ih =>
      have hbefore := ih fun x hx => hf x (List.mem_append.mpr (.inl hx))
      exact hf _ (List.mem_append.mpr (.inr (List.mem_singleton_self _))) hexec hbefore

end Calculus
