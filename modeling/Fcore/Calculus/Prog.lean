import Mathlib.Tactic

/-!
Programs of atomic calls and their executions.

A program is a tree of calls: a call is one indivisible step on a shared state,
and the rest of the program waits for its reply.  The same program is read in
two ways.

* `Prog`, `Prog.bind`, `Prog.perform`: the free monad over a signature `C` of
  calls.
* `Machine.exec`: what one call does to the shared state under one input from
  outside (an outcome, a clock reading, a random draw); `none` means that the
  call is blocked in this state.
* `Exec`, `execWith`: a program run alone, from its first call to its result;
  `Serial`, `serialWith`: programs run alone one after another.
* `Pool`, `Reach`, `runWith`: a list of programs interleaved call by call, in
  any order; `Rule` filters the steps that a run may take, and sees the other
  threads at the moment of the step.
* `Prog.par`, `Prog.joinAll`: several programs interleaved inside one program,
  the order being drawn by a call of its own.
-/

namespace Calculus

/-- A program over the signature `C` of atomic calls. -/
inductive Prog (C : Type → Type) (α : Type) : Type 1 where
  | pure (x : α) : Prog C α
  | call {β : Type} (c : C β) (k : β → Prog C α) : Prog C α

variable {C : Type → Type} {ι σ : Type} {α β γ : Type}

namespace Prog

/-- Sequencing: the second program starts from the result of the first. -/
def bind : Prog C α → (α → Prog C β) → Prog C β
  | pure x, f => f x
  | call c k, f => call c fun b => (k b).bind f

instance : Monad (Prog C) where
  pure := Prog.pure
  bind := Prog.bind

/-- The program that makes one call and returns its reply. -/
def perform (c : C β) : Prog C β := call c pure

@[simp] lemma pure_bind' (x : α) (f : α → Prog C β) : (Prog.pure x >>= f) = f x := rfl

@[simp] lemma pure_eq (x : α) : (Pure.pure x : Prog C α) = Prog.pure x := rfl

@[simp] lemma call_bind (c : C γ) (k : γ → Prog C α) (f : α → Prog C β) :
    (call c k >>= f) = call c fun b => k b >>= f := rfl

@[simp] lemma perform_bind (c : C γ) (f : γ → Prog C β) : (perform c >>= f) = call c f := rfl

/-- The program with its result forgotten, as a thread of a pool. -/
def forget (p : Prog C α) : Prog C Unit := p >>= fun _ => .pure ()

/-- A program that has returned. -/
def done : Prog C α → Bool
  | pure _ => true
  | call _ _ => false

/-- A test on the call that the program makes next; `false` once it has
returned. -/
def nextIs (t : (β : Type) → C β → Bool) : Prog C α → Bool
  | pure _ => false
  | @call _ _ β c _ => t β c

/-- The inner recursion of `par`: the left program waits with the call `c`, the
right one advances. -/
def parInner (pick : C Bool) (c : C γ) (kk : γ → Prog C β → Prog C (α × β)) :
    Prog C β → Prog C (α × β)
  | pure y => call c fun b => kk b (pure y)
  | call c' k' => call pick fun left =>
      match left with
      | true => call c fun b => kk b (call c' k')
      | false => call c' fun b' => parInner pick c kk (k' b')

/-- Two programs interleaved call by call.  While both are running the call
`pick` draws the one that advances. -/
def par (pick : C Bool) : Prog C α → Prog C β → Prog C (α × β)
  | pure x, q => q >>= fun y => .pure (x, y)
  | call c k, q => parInner pick c (fun b => par pick (k b)) q

/-- All programs of a list interleaved, the results in the order of the
list. -/
def joinAll (pick : C Bool) : List (Prog C α) → Prog C (List α)
  | [] => pure []
  | p :: ps => par pick p (joinAll pick ps) >>= fun x => .pure (x.1 :: x.2)

end Prog

/-- The effect of a call on the shared state `σ` under one input `ι` from
outside; `none` is a blocked call. -/
class Machine (C : Type → Type) (ι σ : outParam Type) where
  exec {β : Type} : C β → ι → σ → Option (σ × β)

open Machine (exec)

/-- A filter on steps: the other threads, the call, its input, the state before
it and its reply. -/
abbrev Rule (C : Type → Type) (ι σ : Type) : Type 1 :=
  (β : Type) → List (Prog C Unit) → C β → ι → σ → β → Bool

/-- The rule that allows every step. -/
def Rule.any : Rule C ι σ := fun _ _ _ _ _ _ => true

variable [Machine C ι σ]

/-! ### A program run alone -/

/-- `Exec rule p s x s'`: run alone from the state `s`, the program `p` returns
`x` in the state `s'`, every step being allowed by `rule`. -/
inductive Exec (rule : Rule C ι σ) : Prog C α → σ → α → σ → Prop where
  | pure (x : α) (s : σ) : Exec rule (.pure x) s x s
  | call {β : Type} {c : C β} {k : β → Prog C α} {i : ι} {s s' s'' : σ} {b : β} {x : α}
      (hexec : exec c i s = some (s', b)) (hrule : rule β [] c i s b = true)
      (hrest : Exec rule (k b) s' x s'') : Exec rule (.call c k) s x s''

/-- The execution of `Exec` on a given list of inputs. -/
def execWith (rule : Rule C ι σ) : List ι → Prog C α → σ → Option (σ × α)
  | _, .pure x, s => some (s, x)
  | [], .call _ _, _ => none
  | i :: is, @Prog.call _ _ β c k, s =>
      match exec c i s with
      | none => none
      | some (s', b) => if rule β [] c i s b then execWith rule is (k b) s' else none

/-- A successful evaluation is an execution. -/
lemma exec_of_execWith {rule : Rule C ι σ} :
    ∀ {is : List ι} {p : Prog C α} {s s' : σ} {x : α},
      execWith rule is p s = some (s', x) → Exec rule p s x s' := by
  intro is p
  induction p generalizing is with
  | pure x =>
      intro s s' y h
      simp only [execWith, Option.some.injEq, Prod.mk.injEq] at h
      obtain ⟨rfl, rfl⟩ := h
      exact Exec.pure x s
  | call c k ih =>
      intro s s' y h
      cases is with
      | nil => simp [execWith] at h
      | cons i is =>
          rw [execWith] at h
          split at h
          · exact absurd h (by simp)
          · next s₁ b hb =>
              split at h
              · next hr => exact Exec.call hb hr (ih b h)
              · exact absurd h (by simp)

section Exec

variable {rule : Rule C ι σ}

lemma Exec.of_pure {x y : α} {s s' : σ} (h : Exec rule (.pure x) s y s') : y = x ∧ s' = s := by
  cases h
  exact ⟨rfl, rfl⟩

/-- The first step of an execution. -/
lemma Exec.of_call {c : C β} {k : β → Prog C α} {s s'' : σ} {x : α}
    (h : Exec rule (.call c k) s x s'') : ∃ i s' b, exec c i s = some (s', b) ∧
      rule β [] c i s b = true ∧ Exec rule (k b) s' x s'' := by
  cases h with
  | call hexec hrule hrest => exact ⟨_, _, _, hexec, hrule, hrest⟩

/-- The two parts of an execution. -/
lemma Exec.of_bind {p : Prog C α} {f : α → Prog C β} {s s'' : σ} {y : β}
    (h : Exec rule (p >>= f) s y s'') :
    ∃ x s', Exec rule p s x s' ∧ Exec rule (f x) s' y s'' := by
  induction p generalizing s with
  | pure x => exact ⟨x, s, Exec.pure x s, h⟩
  | call c k ih =>
      obtain ⟨i, s', b, hexec, hrule, hrest⟩ := Exec.of_call h
      obtain ⟨x, s₁, hk, hf⟩ := ih b hrest
      exact ⟨x, s₁, Exec.call hexec hrule hk, hf⟩

lemma Exec.of_forget {p : Prog C α} {s s' : σ} {u : Unit} (h : Exec rule p.forget s u s') :
    ∃ x, Exec rule p s x s' := by
  obtain ⟨x, s₁, hp, hrest⟩ := Exec.of_bind h
  obtain ⟨-, rfl⟩ := hrest.of_pure
  exact ⟨x, hp⟩

/-- A rule that allows more allows the execution. -/
lemma Exec.weaken {rule' : Rule C ι σ} {p : Prog C α} {s s' : σ} {x : α} (h : Exec rule p s x s')
    (hrule : ∀ {β : Type} {c : C β} {i : ι} {s : σ} {b : β}, rule β [] c i s b = true →
      rule' β [] c i s b = true) : Exec rule' p s x s' := by
  induction h with
  | pure x s => exact .pure x s
  | call hexec hallow _ ih => exact .call hexec (hrule hallow) ih

end Exec

/-- Programs run one after another from the state `s₀`. -/
inductive Serial (rule : Rule C ι σ) (f : γ → Prog C α) (s₀ : σ) : List γ → σ → Prop where
  | nil : Serial rule f s₀ [] s₀
  | snoc {xs : List γ} {x : γ} {s s' : σ} {r : α} (hrun : Serial rule f s₀ xs s)
      (hexec : Exec rule (f x) s r s') : Serial rule f s₀ (xs ++ [x]) s'

/-- What every program keeps is kept by running them one after another. -/
lemma Serial.sound {rule : Rule C ι σ} {f : γ → Prog C α} {Inv : σ → Prop}
    (hstep : ∀ {x : γ} {s s' : σ} {r : α}, Exec rule (f x) s r s' → Inv s → Inv s')
    {s₀ s : σ} {xs : List γ} (h : Serial rule f s₀ xs s) (h₀ : Inv s₀) : Inv s := by
  induction h with
  | nil => exact h₀
  | snoc hrun hexec ih => exact hstep hexec ih

/-- The same programs under other names, and a rule that allows more. -/
lemma Serial.rename {rule rule' : Rule C ι σ} {f : γ → Prog C α} {δ : Type} {f' : δ → Prog C α}
    {g : γ → δ} {s₀ s : σ} {xs : List γ} (h : Serial rule f s₀ xs s) (hf : ∀ x, f' (g x) = f x)
    (hrule : ∀ {β : Type} {c : C β} {i : ι} {s : σ} {b : β}, rule β [] c i s b = true →
      rule' β [] c i s b = true) : Serial rule' f' s₀ (xs.map g) s := by
  induction h with
  | nil => exact .nil
  | @snoc xs x s s' r hrun hexec ih =>
      rw [List.map_append]
      rw [← hf x] at hexec
      exact ih.snoc (hexec.weaken hrule)

lemma Serial.append {rule : Rule C ι σ} {f : γ → Prog C α} {s₀ s s' : σ} {xs ys : List γ}
    (h : Serial rule f s₀ xs s) (h' : Serial rule f s ys s') : Serial rule f s₀ (xs ++ ys) s' := by
  induction h' with
  | nil => rwa [List.append_nil]
  | snoc _ hexec ih =>
      rw [← List.append_assoc]
      exact ih.snoc hexec

/-- The executions of `Serial` on given lists of inputs. -/
def serialWith (rule : Rule C ι σ) (f : γ → Prog C α) : List (γ × List ι) → σ → Option σ
  | [], s => some s
  | (x, is) :: rest, s => (execWith rule is (f x) s).bind fun r => serialWith rule f rest r.1

/-- A successful evaluation continues a run. -/
lemma serial_of_serialWith {rule : Rule C ι σ} {f : γ → Prog C α} {s₀ s s' : σ} {xs : List γ}
    {ys : List (γ × List ι)} (h : Serial rule f s₀ xs s) (hrun : serialWith rule f ys s = some s') :
    Serial rule f s₀ (xs ++ ys.map Prod.fst) s' := by
  induction ys generalizing xs s with
  | nil =>
      obtain rfl : s = s' := Option.some.inj hrun
      rwa [List.map_nil, List.append_nil]
  | cons y ys ih =>
      obtain ⟨x, is⟩ := y
      obtain ⟨⟨s₁, r⟩, hexec, hrest⟩ := Option.bind_eq_some_iff.mp hrun
      have hone := ih (h.snoc (exec_of_execWith hexec)) hrest
      rwa [List.append_assoc, List.singleton_append] at hone

/-- What is observed at the end of an evaluation is observed in a run. -/
lemma exists_serial_of_serialWith {rule : Rule C ι σ} {f : γ → Prog C α} {s₀ : σ}
    {ys : List (γ × List ι)} {g : σ → β} {v : β} (h : (serialWith rule f ys s₀).map g = some v) :
    ∃ s, Serial rule f s₀ (ys.map Prod.fst) s ∧ g s = v := by
  obtain ⟨s, hs, hv⟩ := Option.map_eq_some_iff.mp h
  exact ⟨s, serial_of_serialWith .nil hs, hv⟩

/-! ### Interleaved programs -/

/-- A shared state and the programs that run on it. -/
structure Pool (C : Type → Type) (σ : Type) : Type 1 where
  state : σ
  threads : List (Prog C Unit)

/-- Every thread has returned. -/
def Pool.finished (p : Pool C σ) : Bool := p.threads.all Prog.done

/-- The pools that interleaved runs reach: at each step one thread makes its
next call. -/
inductive Reach (rule : Rule C ι σ) (p₀ : Pool C σ) : Pool C σ → Prop where
  | refl : Reach rule p₀ p₀
  | step {β : Type} {c : C β} {k : β → Prog C Unit} {l r : List (Prog C Unit)} {i : ι}
      {s s' : σ} {b : β} (hreach : Reach rule p₀ ⟨s, l ++ .call c k :: r⟩)
      (hexec : exec c i s = some (s', b)) (hrule : rule β (l ++ r) c i s b = true) :
      Reach rule p₀ ⟨s', l ++ k b :: r⟩

/-- One step of the thread number `n` under the input `i`. -/
def stepAt (rule : Rule C ι σ) (n : ℕ) (i : ι) (p : Pool C σ) : Option (Pool C σ) :=
  match p.threads[n]? with
  | some (@Prog.call _ _ β c k) =>
      match exec c i p.state with
      | none => none
      | some (s', b) =>
          if rule β (p.threads.take n ++ p.threads.drop (n + 1)) c i p.state b then
            some ⟨s', p.threads.take n ++ k b :: p.threads.drop (n + 1)⟩
          else none
  | _ => none

/-- A run along a schedule: which thread steps, and under which input. -/
def runWith (rule : Rule C ι σ) : List (ℕ × ι) → Pool C σ → Option (Pool C σ)
  | [], p => some p
  | (n, i) :: sched, p => (stepAt rule n i p).bind (runWith rule sched)

lemma reach_stepAt {rule : Rule C ι σ} {n : ℕ} {i : ι} {p₀ p q : Pool C σ}
    (hp : Reach rule p₀ p) (h : stepAt rule n i p = some q) : Reach rule p₀ q := by
  obtain ⟨s, ts⟩ := p
  rw [stepAt] at h
  split at h
  · next β c k hn =>
      split at h
      · exact absurd h (by simp)
      · next s' b hb =>
          split at h
          · next hr =>
              obtain ⟨hlt, hget⟩ := List.getElem?_eq_some_iff.mp hn
              have hsplit : ts = ts.take n ++ .call c k :: ts.drop (n + 1) := by
                conv_lhs => rw [← List.take_append_drop n ts, List.drop_eq_getElem_cons hlt]
                exact congrArg (fun p => ts.take n ++ p :: ts.drop (n + 1)) hget
              rw [hsplit] at hp
              have := Reach.step hp hb hr
              rwa [Option.some.inj h] at this
          · exact absurd h (by simp)
  · exact absurd h (by simp)

/-- A run along a schedule reaches the pool it ends in. -/
lemma reach_runWith {rule : Rule C ι σ} :
    ∀ {sched : List (ℕ × ι)} {p₀ p q : Pool C σ},
      Reach rule p₀ p → runWith rule sched p = some q → Reach rule p₀ q := by
  intro sched
  induction sched with
  | nil =>
      intro p₀ p q hp h
      rw [runWith, Option.some.injEq] at h
      exact h ▸ hp
  | cons e sched ih =>
      intro p₀ p q hp h
      obtain ⟨p', hp', hq⟩ := Option.bind_eq_some_iff.mp h
      exact ih (reach_stepAt hp hp') hq

/-- What is observed at the end of a run along a schedule is observed in a
reachable pool. -/
lemma exists_reach_of_runWith {rule : Rule C ι σ} {sched : List (ℕ × ι)} {p₀ : Pool C σ}
    {f : Pool C σ → γ} {y : γ} (h : (runWith rule sched p₀).map f = some y) :
    ∃ p, Reach rule p₀ p ∧ f p = y := by
  obtain ⟨p, hp, hy⟩ := Option.map_eq_some_iff.mp h
  exact ⟨p, reach_runWith Reach.refl hp, hy⟩

end Calculus
