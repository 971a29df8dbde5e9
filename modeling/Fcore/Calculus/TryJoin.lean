import Mathlib.Tactic

/-!
Tasks that are joined and cancelled at the first failure.

A task is described by what it does when it is run alone: a function from the
state to the state after it and to whether it succeeded.  Some tasks suspend at
their first poll, before they have touched the state.  A join polls its tasks in
order, so those that do not suspend are run at once and in order, and a failing one
ends the join.

* `runAll`: tasks run in order, failures ignored;
* `runAll_steps_iff`: two descriptions of a good step that agree as long as the
  steps before were good agree on whole runs;
* `Pass`, `pass`: the first poll of all tasks, with the tasks that it has finished,
  suspended and not reached;
* `AllOk`, `FirstFailure`: tasks that succeed one after the other, and the one that
  ends a pass; `allOk_or_firstFailure`: a pass meets one of the two;
* `SeesOnly.runAll_eq`: two orders leave the same part of the state when the tasks that
  touch it stand in the same order in both.
-/

namespace Calculus

variable {τ σ : Type} (run : τ → σ → σ × Bool)

/-- Tasks run in order, failures ignored. -/
def runAll (ts : List τ) (s : σ) : σ := ts.foldl (fun s t => (run t s).1) s

@[simp] lemma runAll_nil (s : σ) : runAll run [] s = s := rfl

@[simp] lemma runAll_cons (t : τ) (ts : List τ) (s : σ) :
    runAll run (t :: ts) s = runAll run ts (run t s).1 := rfl

lemma runAll_append (ts us : List τ) (s : σ) :
    runAll run (ts ++ us) s = runAll run us (runAll run ts s) := by
  rw [runAll, List.foldl_append]
  rfl

/-- A condition that says of a state with the invariant whether the next step is good,
and a good step that keeps the invariant: then all steps of a run are good exactly when
they all meet the condition. -/
lemma runAll_steps_iff {Inv : σ → Prop} {Good Cond : τ → σ → Prop} {ts : List τ}
    (hiff : ∀ t ∈ ts, ∀ s, Inv s → (Good t s ↔ Cond t s))
    (hkeeps : ∀ t ∈ ts, ∀ s, Inv s → Good t s → Inv (run t s).1) {s : σ} (hs : Inv s) :
    (∀ pre t post, ts = pre ++ t :: post → Good t (runAll run pre s)) ↔
      ∀ pre t post, ts = pre ++ t :: post → Cond t (runAll run pre s) := by
  induction ts generalizing s with
  | nil => simp
  | cons t ts ih =>
      -- the steps of a run are the first one and those of the rest
      have split : ∀ P : τ → σ → Prop,
          (∀ pre t' post, t :: ts = pre ++ t' :: post → P t' (runAll run pre s)) ↔
            P t s ∧ ∀ pre t' post, ts = pre ++ t' :: post →
              P t' (runAll run pre (run t s).1) := by
        intro P
        constructor
        · intro h
          refine ⟨h [] t ts rfl, fun pre t' post heq => ?_⟩
          exact h (t :: pre) t' post (by rw [heq, List.cons_append])
        · rintro ⟨hfirst, hrest⟩ pre t' post heq
          cases pre with
          | nil =>
              obtain ⟨rfl, rfl⟩ := List.cons.inj heq
              exact hfirst
          | cons t₀ pre =>
              obtain ⟨rfl, htail⟩ := List.cons.inj heq
              exact hrest pre t' post htail
      have hfirst := hiff t (by simp) s hs
      have hnext := fun hgood : Good t s =>
        ih (fun t' ht' => hiff t' (by simp [ht'])) (fun t' ht' => hkeeps t' (by simp [ht']))
          (hkeeps t (by simp) s hs hgood)
      rw [split, split]
      constructor
      · rintro ⟨hgood, hrest⟩
        exact ⟨hfirst.mp hgood, (hnext hgood).mp hrest⟩
      · rintro ⟨hcond, hrest⟩
        have hgood := hfirst.mpr hcond
        exact ⟨hgood, (hnext hgood).mpr hrest⟩

/-- The steps of a run of two tasks. -/
lemma steps_of_pair {P : List τ → τ → Prop} {t t' : τ} (h : P [] t) (h' : P [t] t') :
    ∀ pre u post, [t, t'] = pre ++ u :: post → P pre u := by
  intro pre u post heq
  rcases pre with _ | ⟨v, _ | ⟨w, pre⟩⟩
  · obtain ⟨rfl, -⟩ := List.cons.inj heq
    exact h
  · simp only [List.cons_append, List.nil_append, List.cons.injEq] at heq
    obtain ⟨rfl, rfl, -⟩ := heq
    exact h'
  · simp at heq

/-- The same for an invariant of the states between the steps. -/
lemma runAll_prefixes_iff {Inv : σ → Prop} {Cond : τ → σ → Prop} {ts : List τ}
    (hiff : ∀ t ∈ ts, ∀ s, Inv s → (Inv (run t s).1 ↔ Cond t s)) {s : σ} (hs : Inv s) :
    (∀ pre post, ts = pre ++ post → Inv (runAll run pre s)) ↔
      ∀ pre t post, ts = pre ++ t :: post → Cond t (runAll run pre s) := by
  rw [← runAll_steps_iff run hiff (fun _ _ _ _ hgood => hgood) hs]
  constructor
  · intro h pre t post heq
    have hnext := h (pre ++ [t]) post (by rw [heq, List.append_assoc, List.singleton_append])
    rwa [runAll_append] at hnext
  · intro h pre post heq
    rcases List.eq_nil_or_concat pre with rfl | ⟨pre, t, rfl⟩
    · exact hs
    · rw [List.concat_eq_append] at heq ⊢
      rw [runAll_append]
      exact h pre t post (by rw [heq, List.append_assoc, List.singleton_append])

/-- The outcome of one poll of all tasks. -/
structure Pass (τ σ : Type) where
  state : σ
  /-- Finished, in order; the last one has failed if any has. -/
  done : List τ
  /-- Suspended, in order. -/
  waiting : List τ
  /-- Not polled, because an earlier one has failed. -/
  rest : List τ
  failed : Bool

/-- The tasks are polled in order; a suspended one has not touched the state, and a
failing one ends the pass. -/
def pass (slow : τ → Bool) : List τ → σ → Pass τ σ
  | [], s => ⟨s, [], [], [], false⟩
  | t :: ts, s =>
      if slow t then
        let p := pass slow ts s
        { p with waiting := t :: p.waiting }
      else if (run t s).2 then
        let p := pass slow ts (run t s).1
        { p with done := t :: p.done }
      else ⟨(run t s).1, [t], [], ts, true⟩

variable {run} {slow : τ → Bool}

/-! ### The first failure -/

/-- The tasks succeed one after the other. -/
def AllOk (run : τ → σ → σ × Bool) : List τ → σ → Prop
  | [], _ => True
  | t :: ts, s => (run t s).2 = true ∧ AllOk run ts (run t s).1

lemma allOk_append {ts us : List τ} {s : σ} :
    AllOk run (ts ++ us) s ↔ AllOk run ts s ∧ AllOk run us (runAll run ts s) := by
  induction ts generalizing s with
  | nil => exact ⟨fun h => ⟨trivial, h⟩, fun h => h.2⟩
  | cons t ts ih =>
      rw [List.cons_append, AllOk, AllOk, ih, and_assoc]
      rfl

/-- Of the tasks that do not suspend `t` is the first one that fails. -/
structure FirstFailure (run : τ → σ → σ × Bool) (slow : τ → Bool) (ts : List τ) (s : σ)
    (pre : List τ) (t : τ) (post : List τ) : Prop where
  split : ts = pre ++ t :: post
  fast : slow t = false
  before : AllOk run (pre.filter fun u => !slow u) s
  fails : (run t (runAll run (pre.filter fun u => !slow u) s)).2 = false

lemma allOk_or_firstFailure (run : τ → σ → σ × Bool) (slow : τ → Bool) (ts : List τ) (s : σ) :
    AllOk run (ts.filter fun u => !slow u) s ∨
      ∃ pre t post, FirstFailure run slow ts s pre t post := by
  induction ts generalizing s with
  | nil => exact .inl trivial
  | cons t ts ih =>
      by_cases hslow : slow t = true
      · rcases ih s with hok | ⟨pre, u, post, hfail⟩
        · rw [List.filter_cons_of_neg (by simp [hslow])]
          exact .inl hok
        · have hpre : (t :: pre).filter (fun u => !slow u) = pre.filter fun u => !slow u :=
            List.filter_cons_of_neg (by simp [hslow])
          exact .inr ⟨t :: pre, u, post, by rw [hfail.split, List.cons_append], hfail.fast,
            by rw [hpre]; exact hfail.before, by rw [hpre]; exact hfail.fails⟩
      · have hfast : slow t = false := by simpa using hslow
        by_cases hok : (run t s).2 = true
        · rcases ih (run t s).1 with hoks | ⟨pre, u, post, hfail⟩
          · rw [List.filter_cons_of_pos (by simp [hfast])]
            exact .inl ⟨hok, hoks⟩
          · have hpre : (t :: pre).filter (fun u => !slow u) = t :: pre.filter fun u => !slow u :=
              List.filter_cons_of_pos (by simp [hfast])
            exact .inr ⟨t :: pre, u, post, by rw [hfail.split, List.cons_append], hfail.fast,
              by rw [hpre]; exact ⟨hok, hfail.before⟩, by rw [hpre]; exact hfail.fails⟩
        · exact .inr ⟨[], t, ts, rfl, hfast, trivial, by simpa using hok⟩

/-- A pass without failure finishes all tasks that do not suspend. -/
lemma pass_of_allOk {ts : List τ} {s : σ} (h : AllOk run (ts.filter fun u => !slow u) s) :
    pass run slow ts s =
      ⟨runAll run (ts.filter fun u => !slow u) s, ts.filter fun u => !slow u, ts.filter slow, [],
        false⟩ := by
  induction ts generalizing s with
  | nil => rfl
  | cons t ts ih =>
      rw [pass]
      by_cases hslow : slow t = true
      · rw [List.filter_cons_of_neg (by simp [hslow])] at h ⊢
        rw [if_pos hslow, ih h, List.filter_cons_of_pos hslow]
      · rw [List.filter_cons_of_pos (by simpa using hslow)] at h ⊢
        obtain ⟨hok, hoks⟩ := h
        rw [if_neg hslow, if_pos hok, ih hoks, List.filter_cons_of_neg hslow]
        rfl

/-- A pass with a failure ends there. -/
lemma FirstFailure.pass_eq {ts pre post : List τ} {t : τ} {s : σ}
    (h : FirstFailure run slow ts s pre t post) :
    pass run slow ts s =
      ⟨runAll run (pre.filter (fun u => !slow u) ++ [t]) s, pre.filter (fun u => !slow u) ++ [t],
        pre.filter slow, post, true⟩ := by
  obtain ⟨rfl, hfast, hbefore, hfails⟩ := h
  induction pre generalizing s with
  | nil =>
      rw [List.nil_append, pass, if_neg (by simp [hfast])]
      exact if_neg (by simpa using hfails)
  | cons u pre ih =>
      rw [List.cons_append, pass]
      by_cases hslow : slow u = true
      · rw [List.filter_cons_of_neg (by simp [hslow])] at hbefore hfails ⊢
        rw [if_pos hslow, ih hbefore hfails, List.filter_cons_of_pos hslow]
      · rw [List.filter_cons_of_pos (by simpa using hslow)] at hbefore hfails ⊢
        obtain ⟨hok, hoks⟩ := hbefore
        rw [if_neg hslow, if_pos hok, ih hoks hfails, List.filter_cons_of_neg hslow]
        rfl

lemma FirstFailure.not_allOk {ts pre post : List τ} {t : τ} {s : σ}
    (h : FirstFailure run slow ts s pre t post) (hok : AllOk run (ts.filter fun u => !slow u) s) :
    False := by
  have hfailed := congrArg Pass.failed (h.pass_eq.symm.trans (pass_of_allOk hok))
  exact absurd hfailed.symm Bool.false_ne_true

/-! ### Parts of the state -/

/-- A part of the state of which a task only sees the part. -/
def SeesOnly (run : τ → σ → σ × Bool) {ρ : Type} (part : σ → ρ) : Prop :=
  ∀ t s s', part s = part s' → part (run t s).1 = part (run t s').1

variable {ρ : Type} {part : σ → ρ}

lemma SeesOnly.runAll_congr (h : SeesOnly run part) (ts : List τ) {s s' : σ}
    (hs : part s = part s') : part (runAll run ts s) = part (runAll run ts s') := by
  induction ts generalizing s s' with
  | nil => exact hs
  | cons t ts ih =>
      rw [runAll_cons, runAll_cons]
      exact ih (h t s s' hs)

/-- The tasks that leave the part alone may be left out. -/
lemma SeesOnly.runAll_filter (h : SeesOnly run part) {touches : τ → Bool}
    (hskip : ∀ t s, touches t = false → part (run t s).1 = part s) (ts : List τ) (s : σ) :
    part (runAll run ts s) = part (runAll run (ts.filter touches) s) := by
  induction ts generalizing s with
  | nil => rfl
  | cons t ts ih =>
      rw [runAll_cons]
      by_cases htouches : touches t = true
      · rw [List.filter_cons_of_pos htouches, runAll_cons]
        exact ih (run t s).1
      · rw [List.filter_cons_of_neg htouches]
        calc part (runAll run ts (run t s).1)
          _ = part (runAll run ts s) := h.runAll_congr ts (hskip t s (by simpa using htouches))
          _ = part (runAll run (ts.filter touches) s) := ih s

/-- **Two orders agree on a part** when they agree on the tasks that touch it. -/
lemma SeesOnly.runAll_eq (h : SeesOnly run part) {touches : τ → Bool}
    (hskip : ∀ t s, touches t = false → part (run t s).1 = part s) {ts us : List τ}
    (hsame : ts.filter touches = us.filter touches) (s : σ) :
    part (runAll run ts s) = part (runAll run us s) := by
  rw [h.runAll_filter hskip, hsame, ← h.runAll_filter hskip]

end Calculus
