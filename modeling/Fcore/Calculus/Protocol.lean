import Fcore.Calculus.Prog

/-!
Protocols: what a program may do next, tracked by a ghost account.

A thread carries an account in an additive monoid.  A protocol `P` says which
replies are considered (`admits`), which calls an account entitles to (`may`)
and how a reply changes the account (`moves`).  `Obeys P Q p a` says that the
program `p`, started with the account `a`, keeps to the protocol whatever the
replies are, and that its result and its last account satisfy `Q`.

* `obeys_bind`, `obeys_call`, `obeys_pure`: the rules that follow the text of a
  program; `Obeys.mono` weakens the postcondition.
* `Uses`, `Obeys.of_uses`: a program all of whose calls leave the account alone;
  `Exec.inv_of_uses`: what all its calls keep, it keeps.
* `Framed`, `Obeys.par`, `Obeys.joinAll_each`, `Obeys.joinAll_sum`: interleaving inside one
  program adds the accounts.
* `history`: the account is what has been noted so far.
* `Exec.sound`: an invariant of state and account that every step keeps holds at
  the end of a program run alone.
* `Reach.sound`: the same for pools, the invariant being about the state and the
  sum of the accounts of all threads.
-/

namespace Calculus

open Machine (exec)

variable {C : Type → Type} {ι σ : Type} {α β γ : Type} {A : Type}

/-- A protocol with accounts in `A`. -/
structure Protocol (C : Type → Type) (A : Type) where
  /-- The replies that are considered at all. -/
  admits : (β : Type) → C β → β → Prop
  /-- The calls that an account entitles to. -/
  may : (β : Type) → C β → A → Prop
  /-- How the account changes when a call is answered. -/
  moves : (β : Type) → C β → β → A → A → Prop

/-- The program keeps to the protocol from the account `a` on and ends with
`Q`. -/
def Obeys (P : Protocol C A) (Q : α → A → Prop) : Prog C α → A → Prop
  | .pure x, a => Q x a
  | .call c k, a => P.may _ c a ∧
      ∀ b, P.admits _ c b → ∃ a', P.moves _ c b a a' ∧ Obeys P Q (k b) a'

variable {P : Protocol C A} {Q : α → A → Prop} {R : β → A → Prop}

@[simp] lemma obeys_pure {x : α} {a : A} : Obeys P Q (.pure x) a ↔ Q x a := Iff.rfl

lemma obeys_call {c : C γ} {k : γ → Prog C α} {a : A} :
    Obeys P Q (.call c k) a ↔
      P.may _ c a ∧ ∀ b, P.admits _ c b → ∃ a', P.moves _ c b a a' ∧ Obeys P Q (k b) a' := Iff.rfl

/-- A program and its continuation obey the protocol exactly when the first
part ends in an account from which the second does. -/
lemma obeys_bind {p : Prog C α} {f : α → Prog C β} {a : A} :
    Obeys P R (p >>= f) a ↔ Obeys P (fun x a' => Obeys P R (f x) a') p a := by
  induction p generalizing a with
  | pure x => rfl
  | call c k ih =>
      rw [Prog.call_bind, obeys_call, obeys_call]
      refine and_congr_right fun _ => forall_congr' fun b => imp_congr_right fun _ => ?_
      exact exists_congr fun a' => and_congr_right fun _ => ih b

lemma obeys_forget {p : Prog C α} {Q : Unit → A → Prop} {a : A} :
    Obeys P Q p.forget a ↔ Obeys P (fun _ a' => Q () a') p a := obeys_bind

/-- The postcondition can be weakened. -/
lemma Obeys.mono {Q' : α → A → Prop} {p : Prog C α} {a : A} (h : Obeys P Q p a)
    (hQ : ∀ x a', Q x a' → Q' x a') : Obeys P Q' p a := by
  induction p generalizing a with
  | pure x => exact hQ x a h
  | call c k ih =>
      refine ⟨h.1, fun b hb => ?_⟩
      obtain ⟨a', hm, hk⟩ := h.2 b hb
      exact ⟨a', hm, ih b hk⟩

/-- Sequencing with the postcondition of the first part at hand. -/
lemma Obeys.bind {p : Prog C α} {f : α → Prog C β} {a : A} (h : Obeys P Q p a)
    (hf : ∀ x a', Q x a' → Obeys P R (f x) a') : Obeys P R (p >>= f) a :=
  obeys_bind.mpr (h.mono hf)

/-! ### Calls that leave the account alone -/

/-- Every call that the program can make satisfies `S`. -/
def Uses (S : (β : Type) → C β → Prop) : Prog C α → Prop
  | .pure _ => True
  | @Prog.call _ _ β c k => S β c ∧ ∀ b, Uses S (k b)

variable {S : (β : Type) → C β → Prop}

@[simp] lemma uses_pure {x : α} : Uses S (.pure x : Prog C α) := trivial

@[simp] lemma uses_call {c : C γ} {k : γ → Prog C α} :
    Uses S (.call c k) ↔ S γ c ∧ ∀ b, Uses S (k b) := Iff.rfl

lemma Uses.bind {p : Prog C α} {f : α → Prog C β} (hp : Uses S p) (hf : ∀ x, Uses S (f x)) :
    Uses S (p >>= f) := by
  induction p with
  | pure x => exact hf x
  | call c k ih => exact ⟨hp.1, fun b => ih b (hp.2 b)⟩

lemma Uses.mono {S' : (β : Type) → C β → Prop} {p : Prog C α} (hp : Uses S p)
    (h : ∀ β (c : C β), S β c → S' β c) : Uses S' p := by
  induction p with
  | pure x => trivial
  | call c k ih => exact ⟨h _ c hp.1, fun b => ih b (hp.2 b)⟩

lemma Uses.par {pick : C Bool} (hpick : S Bool pick) :
    ∀ {p : Prog C α} {q : Prog C β}, Uses S p → Uses S q → Uses S (p.par pick q) := by
  intro p
  induction p with
  | pure x => exact fun _ hq => hq.bind fun _ => trivial
  | call c k ih =>
      intro q hp hq
      show Uses S (Prog.parInner pick c (fun b => Prog.par pick (k b)) q)
      induction q with
      | pure y => exact ⟨hp.1, fun b => ih b (hp.2 b) trivial⟩
      | call c' k' ih' =>
          rw [Prog.parInner]
          refine ⟨hpick, fun left => ?_⟩
          cases left with
          | true => exact ⟨hp.1, fun b => ih b (hp.2 b) hq⟩
          | false => exact ⟨hq.1, fun b' => ih' b' (hq.2 b')⟩

lemma Uses.joinAll {pick : C Bool} (hpick : S Bool pick) :
    ∀ {ps : List (Prog C α)}, (∀ p ∈ ps, Uses S p) → Uses S (Prog.joinAll pick ps) := by
  intro ps
  induction ps with
  | nil => exact fun _ => trivial
  | cons p ps ih =>
      intro h
      refine Uses.bind (Uses.par hpick (h p (by simp)) (ih fun q hq => h q (by simp [hq]))) ?_
      exact fun _ => trivial

/-- A program whose calls do not touch the account returns it unchanged. -/
lemma Obeys.of_uses {p : Prog C α} {a : A} (hp : Uses S p)
    (h : ∀ β (c : C β), S β c → P.may _ c a ∧ ∀ b, P.moves _ c b a a) :
    Obeys P (fun _ a' => a' = a) p a := by
  induction p with
  | pure x => rfl
  | call c k ih =>
      obtain ⟨hmay, hmoves⟩ := h _ c hp.1
      exact ⟨hmay, fun b _ => ⟨a, hmoves b, ih b (hp.2 b)⟩⟩

/-! ### Interleaving inside one program -/

/-- A protocol whose rules do not look at the accounts of others. -/
structure Framed [AddCommMonoid A] (P : Protocol C A) : Prop where
  may : ∀ {β : Type} {c : C β} {a : A} (f : A), P.may _ c a → P.may _ c (a + f)
  moves : ∀ {β : Type} {c : C β} {b : β} {a a' : A} (f : A),
    P.moves _ c b a a' → P.moves _ c b (a + f) (a' + f)

section Framed

variable [AddCommMonoid A]

/-- What is given to an account or taken from it is the same beside another one. -/
lemma add_frame {x y z : A} (f : A) (h : x = y + z) : x + f = y + f + z := by
  rw [h]
  exact add_right_comm y z f

/-- The call that draws the next thread is free. -/
def Free (P : Protocol C A) (pick : C Bool) : Prop :=
  ∀ a, P.may _ pick a ∧ ∀ b, P.moves _ pick b a a

/-- The postcondition of a pair: the account splits into the accounts of the
two parts. -/
def Both (Q : α → A → Prop) (R : β → A → Prop) (x : α × β) (t : A) : Prop :=
  ∃ a b, t = a + b ∧ Q x.1 a ∧ R x.2 b

lemma Obeys.frame (hP : Framed P) {p : Prog C α} {a : A} (f : A) (h : Obeys P Q p a) :
    Obeys P (fun x t => ∃ a', t = a' + f ∧ Q x a') p (a + f) := by
  induction p generalizing a with
  | pure x => exact ⟨a, rfl, h⟩
  | call c k ih =>
      refine ⟨hP.may f h.1, fun b hb => ?_⟩
      obtain ⟨a', hm, hk⟩ := h.2 b hb
      exact ⟨a' + f, hP.moves f hm, ih b hk⟩

/-- **Interleaving adds the accounts.** -/
lemma Obeys.par (hP : Framed P) {pick : C Bool} (hpick : Free P pick) :
    ∀ {p : Prog C α} {q : Prog C β} {a b : A}, Obeys P Q p a → Obeys P R q b →
      Obeys P (Both Q R) (p.par pick q) (a + b) := by
  intro p
  induction p with
  | pure x =>
      intro q a b hp hq
      refine Obeys.bind (Q := fun y t => ∃ b', t = b' + a ∧ R y b') ?_ ?_
      · rw [add_comm]
        exact hq.frame hP a
      · rintro y t ⟨b', rfl, hb'⟩
        exact ⟨a, b', add_comm _ _, hp, hb'⟩
  | call c k ih =>
      intro q a b hp hq
      show Obeys P _ (Prog.parInner pick c (fun b => Prog.par pick (k b)) q) _
      -- one call of the left program, the right one waiting
      have left : ∀ {q : Prog C β} {b : A}, Obeys P R q b →
          Obeys P (Both Q R) (.call c fun x => Prog.par pick (k x) q) (a + b) := by
        intro q b hq
        refine ⟨hP.may b hp.1, fun x hx => ?_⟩
        obtain ⟨a', hm, hk⟩ := hp.2 x hx
        exact ⟨a' + b, hP.moves b hm, ih x hk hq⟩
      induction q generalizing b with
      | pure y => exact left hq
      | call c' k' ih' =>
          rw [Prog.parInner]
          refine ⟨(hpick _).1, fun d _ => ⟨a + b, (hpick _).2 d, ?_⟩⟩
          cases d with
          | true => exact left hq
          | false =>
              refine ⟨by rw [add_comm]; exact hP.may a hq.1, fun y hy => ?_⟩
              obtain ⟨b', hm, hk⟩ := hq.2 y hy
              refine ⟨a + b', ?_, ih' y hk⟩
              rw [add_comm a b, add_comm a b']
              exact hP.moves a hm

/-- Several programs run together on the sum of their accounts end with the sum of the
accounts that they end with, each result satisfying its own postcondition. -/
lemma Obeys.joinAll_each (hP : Framed P) {pick : C Bool} (hpick : Free P pick) {γ : Type}
    {G : γ → α → A → Prop} {f : γ → Prog C α} {w : γ → A} :
    ∀ {xs : List γ}, (∀ x ∈ xs, Obeys P (G x) (f x) (w x)) →
      Obeys P (fun ys a => ∃ zs : List (α × A), List.Forall₂ (fun x z => G x z.1 z.2) xs zs ∧
          ys = zs.map Prod.fst ∧ a = (zs.map Prod.snd).sum)
        (Prog.joinAll pick (xs.map f)) (xs.map w).sum := by
  intro xs
  induction xs with
  | nil => exact fun _ => ⟨[], List.Forall₂.nil, rfl, rfl⟩
  | cons x xs ih =>
      intro h
      have hx := h x (by simp)
      have hxs := ih fun y hy => h y (by simp [hy])
      have hsum : ((x :: xs).map w).sum = w x + (xs.map w).sum := by
        rw [List.map_cons, List.sum_cons]
      rw [hsum]
      refine (Obeys.par hP hpick hx hxs).bind ?_
      rintro ⟨y, ys⟩ t ⟨a, b, rfl, hy, zs, hzs, hys, rfl⟩
      refine ⟨(y, a) :: zs, List.Forall₂.cons hy hzs, ?_, ?_⟩
      · rw [List.map_cons, ← hys]
      · rw [List.map_cons, List.sum_cons]

/-- Several programs that each end with an empty account, run together on the sum of
their accounts, end with an empty account; each result satisfies its own
postcondition. -/
lemma Obeys.joinAll_sum (hP : Framed P) {pick : C Bool} (hpick : Free P pick) {γ : Type}
    {G : γ → α → Prop} {f : γ → Prog C α} {w : γ → A} {xs : List γ}
    (h : ∀ x ∈ xs, Obeys P (fun y a => G x y ∧ a = 0) (f x) (w x)) :
    Obeys P (fun ys a => List.Forall₂ G xs ys ∧ a = 0) (Prog.joinAll pick (xs.map f))
      (xs.map w).sum := by
  refine (Obeys.joinAll_each hP hpick h).mono ?_
  rintro _ _ ⟨zs, hzs, rfl, rfl⟩
  induction hzs with
  | nil => exact ⟨List.Forall₂.nil, rfl⟩
  | @cons x z xs zs hz hzs ih =>
      obtain ⟨hrest, hzero⟩ := ih fun y hy => h y (List.mem_cons_of_mem x hy)
      refine ⟨List.Forall₂.cons hz.1 hrest, ?_⟩
      rw [List.map_cons, List.sum_cons, hz.2, hzero, add_zero]

/-- The same for programs that start with empty accounts. -/
lemma Obeys.joinAll (hP : Framed P) {pick : C Bool} (hpick : Free P pick) {γ : Type}
    {G : γ → α → Prop} {f : γ → Prog C α} {xs : List γ}
    (h : ∀ x ∈ xs, Obeys P (fun y a => G x y ∧ a = 0) (f x) 0) :
    Obeys P (fun ys a => List.Forall₂ G xs ys ∧ a = 0) (Prog.joinAll pick (xs.map f)) 0 := by
  have hall := Obeys.joinAll_sum hP hpick h
  have hzero : (xs.map fun _ => (0 : A)).sum = 0 := by simp
  rwa [hzero] at hall

end Framed

/-! ### Histories -/

/-- The protocol of programs that make calls in `S`: the account is what has been noted of the
replies so far. -/
def history {N : Type} (adm : (β : Type) → C β → β → Prop) (S : (β : Type) → C β → Prop)
    (note : (β : Type) → C β → β → Multiset N) : Protocol C (Multiset N) where
  admits := adm
  may β c _ := S β c
  moves β c b a a' := a' = a + note β c b

lemma framed_history {N : Type} (adm : (β : Type) → C β → β → Prop) (S : (β : Type) → C β → Prop)
    (note : (β : Type) → C β → β → Multiset N) : Framed (history adm S note) where
  may _ h := h
  moves := by
    rintro β c b a _ f rfl
    exact add_right_comm a (note β c b) f

/-! ### Soundness -/

variable [Machine C ι σ] {rule : Rule C ι σ}

/-- What a step of a program run alone has to keep. -/
def KeepsAlone (rule : Rule C ι σ) (P : Protocol C A) (Inv : σ → A → Prop) : Prop :=
  ∀ {β : Type} (c : C β) (i : ι) (s s' : σ) (b : β) (a : A),
    exec c i s = some (s', b) → rule β [] c i s b = true → P.may _ c a → Inv s a →
      P.admits _ c b ∧ ∀ a', P.moves _ c b a a' → Inv s' a'

/-- **A program run alone** that obeys a protocol keeps the invariant of state
and account. -/
theorem Exec.sound {Inv : σ → A → Prop} (hkeeps : KeepsAlone rule P Inv) {p : Prog C α}
    {s s' : σ} {x : α} (h : Exec rule p s x s') :
    ∀ {a : A}, Obeys P Q p a → Inv s a → ∃ a', Q x a' ∧ Inv s' a' := by
  induction h with
  | pure x s => exact fun {a} hp hi => ⟨a, hp, hi⟩
  | call hexec hrule hrest ih =>
      intro a hp hi
      obtain ⟨hadm, hmv⟩ := hkeeps _ _ _ _ _ _ hexec hrule hp.1 hi
      obtain ⟨a', hm, hk⟩ := hp.2 _ hadm
      exact ih hk (hmv a' hm)

/-- What every call of a program keeps is kept by the program run alone. -/
lemma Exec.inv_of_uses {Inv : σ → Prop} {p : Prog C α} {s s' : σ} {x : α}
    (h : Exec rule p s x s') (hp : Uses S p)
    (hS : ∀ {β : Type} {c : C β} {i : ι} {s s' : σ} {b : β}, S β c → exec c i s = some (s', b) →
      Inv s → Inv s') (hs : Inv s) : Inv s' := by
  induction h with
  | pure x s => exact hs
  | call hexec hrule hrest ih => exact ih (hp.2 _) (hS hp.1 hexec hs)

/-- Every thread obeys the protocol with its own account. -/
def AllObey (P : Protocol C A) (Q : Unit → A → Prop) (gs : List A) (ts : List (Prog C Unit)) :
    Prop :=
  List.Forall₂ (fun g p => Obeys P Q p g) gs ts

/-- The account of a thread is a part of the sum. -/
lemma AllObey.exists_account [AddCommMonoid A] {Q : Unit → A → Prop} {gs : List A}
    {ts : List (Prog C Unit)} (h : AllObey P Q gs ts) {p : Prog C Unit} (hp : p ∈ ts) :
    ∃ g r, gs.sum = g + r ∧ Obeys P Q p g := by
  induction h with
  | nil => exact absurd hp List.not_mem_nil
  | @cons g q gs ts hq hrest ih =>
      rw [List.sum_cons]
      rcases List.mem_cons.mp hp with rfl | hp
      · exact ⟨g, gs.sum, rfl, hq⟩
      · obtain ⟨g', r, hsum, hobeys⟩ := ih hp
        refine ⟨g', g + r, ?_, hobeys⟩
        rw [hsum]
        exact add_left_comm g g' r

/-- Threads that can only have empty accounts add nothing. -/
lemma AllObey.sum_eq_zero [AddCommMonoid A] {Q : Unit → A → Prop} {gs : List A}
    {ts : List (Prog C Unit)} (h : AllObey P Q gs ts)
    (hzero : ∀ p ∈ ts, ∀ g, Obeys P Q p g → g = 0) : gs.sum = 0 := by
  induction h with
  | nil => rfl
  | @cons g p gs ts hp hrest ih =>
      rw [List.sum_cons, hzero p (by simp) g hp, ih fun q hq => hzero q (by simp [hq]), add_zero]

/-- Threads that have returned with empty accounts add nothing. -/
lemma AllObey.sum_eq_zero_of_finished [AddCommMonoid A] {p : Pool C σ} {gs : List A}
    (h : AllObey P (fun _ a => a = 0) gs p.threads) (hfin : p.finished = true) : gs.sum = 0 := by
  refine h.sum_eq_zero fun q hq g hg => ?_
  have hdone := List.all_eq_true.mp hfin q hq
  cases q with
  | pure x => exact hg
  | call c k => cases hdone

/-- What a step of one thread of a pool has to keep: the other threads obey
the protocol too, and the invariant sees the sum of all accounts. -/
def Keeps [AddCommMonoid A] (rule : Rule C ι σ) (P : Protocol C A) (Q : Unit → A → Prop)
    (Inv : σ → A → Prop) : Prop :=
  ∀ {β : Type} (c : C β) (i : ι) (s s' : σ) (b : β) (a : A) (others : List (Prog C Unit))
    (gs : List A), AllObey P Q gs others → exec c i s = some (s', b) →
    rule β others c i s b = true → P.may _ c a → Inv s (a + gs.sum) →
      P.admits _ c b ∧ ∀ a', P.moves _ c b a a' → Inv s' (a' + gs.sum)

/-- **Interleaved programs** that each obey a protocol keep the invariant of the
state and the sum of their accounts, in every reachable pool. -/
theorem Reach.sound [AddCommMonoid A] {Q : Unit → A → Prop} {Inv : σ → A → Prop}
    (hkeeps : Keeps rule P Q Inv) {p₀ p : Pool C σ} (h : Reach rule p₀ p) {gs₀ : List A}
    (h₀ : AllObey P Q gs₀ p₀.threads) (hinv : Inv p₀.state gs₀.sum) :
    ∃ gs, AllObey P Q gs p.threads ∧ Inv p.state gs.sum := by
  induction h with
  | refl => exact ⟨gs₀, h₀, hinv⟩
  | @step β c k l r i s s' b hreach hexec hrule ih =>
      obtain ⟨gs, hgs, hi⟩ := ih
      -- the accounts split at the thread that moves
      have hl := List.forall₂_take_append gs l (.call c k :: r) hgs
      have hcr := List.forall₂_drop_append gs l (.call c k :: r) hgs
      rw [← List.take_append_drop l.length gs] at hi
      obtain ⟨a, gr, ha, hr, heq⟩ := List.forall₂_cons_right_iff.mp hcr
      rw [heq] at hi
      set gl := gs.take l.length
      have hothers : AllObey P Q (gl ++ gr) (l ++ r) := List.rel_append hl hr
      have hsum : ∀ x : A, (gl ++ x :: gr).sum = x + (gl ++ gr).sum := by
        intro x
        simp only [List.sum_append, List.sum_cons]
        exact add_left_comm _ _ _
      rw [hsum] at hi
      obtain ⟨hadm, hmv⟩ := hkeeps c i s s' b a _ _ hothers hexec hrule ha.1 hi
      obtain ⟨a', hm, hk⟩ := ha.2 b hadm
      refine ⟨gl ++ a' :: gr, List.rel_append hl (List.Forall₂.cons hk hr), ?_⟩
      rw [hsum]
      exact hmv a' hm

end Calculus
