import Mathlib.Tactic

/-!
A relay: several senders collect items and send them on in batches to one worker.

A sender appends items to its buffer.  From time to time it takes the whole buffer as a
batch and sends it; items that come in meanwhile wait for the next batch.  Sent batches of
one sender arrive in their order.  A batch can fail to be sent, or be dropped on its way.
The worker handles the items of a batch one by one.

* `Relay.step`: the steps; `Relay.Reached`: the relays that sequences of steps lead to;
* `Relay.pending`: the items of a sender on their way, in their order;
* `Reached.sublist`: items are handled in the order in which they came in, none of them twice;
* `Reached.conserved`: every item is handled, lost, or on its way;
* `Reached.complete`: if nothing is lost, what has been handled and what is on its way is all
  that came in, in the order in which it came in.
-/

namespace Calculus

/-- The buffers, the batches that are being sent, the batches on their way, and the items that
the worker has still to handle. -/
structure Relay (ι α : Type) where
  buffer : ι → List α
  taken : ι → Option (List α)
  queue : ι → List (List α)
  working : List (ι × α)

/-- The steps of a relay, with the items that they are about. -/
inductive RelayEvent (ι α : Type) where
  | push (i : ι) (a : α)
  | take (i : ι)
  | send (i : ι)
  | fail (i : ι) (b : List α)
  | drop (i : ι) (n : ℕ) (b : List α)
  | receive (i : ι)
  | handle (i : ι) (a : α)
  deriving DecidableEq

namespace Relay

variable {ι α : Type} [DecidableEq ι] [DecidableEq α]

/-- Nothing has come in. -/
def empty : Relay ι α := ⟨fun _ => [], fun _ => none, fun _ => [], []⟩

/-- One step, where it is possible. -/
def step (r : Relay ι α) : RelayEvent ι α → Option (Relay ι α)
  | .push i a => some { r with buffer := Function.update r.buffer i (r.buffer i ++ [a]) }
  | .take i =>
      if r.taken i = none ∧ r.buffer i ≠ [] then
        some { r with
          buffer := Function.update r.buffer i []
          taken := Function.update r.taken i (some (r.buffer i)) }
      else none
  | .send i => match r.taken i with
      | none => none
      | some b => some { r with
          taken := Function.update r.taken i none
          queue := Function.update r.queue i (r.queue i ++ [b]) }
  | .fail i b =>
      if r.taken i = some b then some { r with taken := Function.update r.taken i none } else none
  | .drop i n b =>
      if (r.queue i)[n]? = some b then
        some { r with queue := Function.update r.queue i ((r.queue i).eraseIdx n) }
      else none
  | .receive i =>
      if r.working = [] then match r.queue i with
        | [] => none
        | b :: bs => some { r with
            queue := Function.update r.queue i bs
            working := b.map fun a => (i, a) }
      else none
  | .handle i a => match r.working with
      | [] => none
      | x :: rest => if x = (i, a) then some { r with working := rest } else none

/-- The relays that sequences of steps lead to. -/
inductive Reached : List (RelayEvent ι α) → Relay ι α → Prop where
  | start : Reached [] empty
  | snoc {es : List (RelayEvent ι α)} {e : RelayEvent ι α} {r r' : Relay ι α} (hrun : Reached es r)
      (hstep : r.step e = some r') : Reached (es ++ [e]) r'

/-! ### What becomes of the items of a sender -/

/-- The items of a sender that come in with a step. -/
def pushedBy (i : ι) : RelayEvent ι α → List α
  | .push j a => if j = i then [a] else []
  | .take _ | .send _ | .fail _ _ | .drop _ _ _ | .receive _ | .handle _ _ => []

/-- The items of a sender that are handled in a step. -/
def handledBy (i : ι) : RelayEvent ι α → List α
  | .handle j a => if j = i then [a] else []
  | .push _ _ | .take _ | .send _ | .fail _ _ | .drop _ _ _ | .receive _ => []

/-- The items of a sender that are lost in a step. -/
def lostBy (i : ι) : RelayEvent ι α → List α
  | .fail j b => if j = i then b else []
  | .drop j _ b => if j = i then b else []
  | .push _ _ | .take _ | .send _ | .receive _ | .handle _ _ => []

/-- The items of a sender that came in, in their order. -/
def pushed (i : ι) (es : List (RelayEvent ι α)) : List α := es.flatMap (pushedBy i)

/-- The items of a sender that have been handled, in the order in which they were. -/
def handled (i : ι) (es : List (RelayEvent ι α)) : List α := es.flatMap (handledBy i)

def lost (i : ι) (es : List (RelayEvent ι α)) : List α := es.flatMap (lostBy i)

/-- The items of a sender that the worker has still to handle. -/
def mine (i : ι) (xs : List (ι × α)) : List α :=
  xs.filterMap fun x => if x.1 = i then some x.2 else none

/-- The items of a sender on their way, in the order in which they came in. -/
def pending (i : ι) (r : Relay ι α) : List α :=
  mine i r.working ++ ((r.queue i).flatten ++ ((r.taken i).getD [] ++ r.buffer i))

omit [DecidableEq α] in
@[simp] lemma mine_cons (i : ι) (x : ι × α) (xs : List (ι × α)) :
    mine i (x :: xs) = (if x.1 = i then [x.2] else []) ++ mine i xs := by
  rw [mine, List.filterMap_cons]
  split_ifs <;> rfl

omit [DecidableEq α] in
/-- A received batch belongs to its sender. -/
lemma mine_map (i j : ι) (b : List α) :
    mine i (b.map fun a => (j, a)) = if j = i then b else [] := by
  induction b with
  | nil => rw [ite_self]; rfl
  | cons a b ih =>
      rw [List.map_cons, mine_cons, ih]
      split_ifs <;> rfl

omit [DecidableEq ι] [DecidableEq α] in
/-- A batch that is dropped from a queue. -/
lemma flatten_eraseIdx {bs : List (List α)} {n : ℕ} {b : List α} (h : bs[n]? = some b) :
    (bs.eraseIdx n).flatten.Sublist bs.flatten ∧
      (bs.flatten : Multiset α) = (b : Multiset α) + ((bs.eraseIdx n).flatten : Multiset α) := by
  induction bs generalizing n with
  | nil => cases h
  | cons b' bs ih =>
      cases n with
      | zero =>
          obtain rfl : b' = b := by simpa using h
          refine ⟨?_, by simp⟩
          rw [List.eraseIdx_zero, List.tail_cons, List.flatten_cons]
          exact List.sublist_append_right _ _
      | succ n =>
          obtain ⟨hsub, hcount⟩ := ih (by simpa using h)
          rw [List.eraseIdx_cons_succ, List.flatten_cons, List.flatten_cons]
          refine ⟨List.Sublist.append (List.Sublist.refl _) hsub, ?_⟩
          rw [← Multiset.coe_add, ← Multiset.coe_add, hcount]
          exact add_left_comm _ _ _

/-- What a step does to the items of a sender: they keep their order, and none is made up,
doubled or forgotten. -/
structure Accounts (i : ι) (r : Relay ι α) (e : RelayEvent ι α) (r' : Relay ι α) : Prop where
  sublist : (handledBy i e ++ pending i r').Sublist (pending i r ++ pushedBy i e)
  count : ((pending i r ++ pushedBy i e : List α) : Multiset α) =
    handledBy i e + (lostBy i e + pending i r')

omit [DecidableEq α] in
/-- A step without items that leaves the pending ones in their order. -/
lemma Accounts.of_eq {i : ι} {r r' : Relay ι α} {e : RelayEvent ι α}
    (h : pending i r' = pending i r) (hpush : pushedBy i e = []) (hhandle : handledBy i e = [])
    (hlost : lostBy i e = []) : Accounts i r e r' := by
  constructor
  · rw [hhandle, hpush, h, List.nil_append, List.append_nil]
  · rw [hhandle, hpush, hlost, h, List.append_nil]
    simp

omit [DecidableEq α] in
/-- Another sender. -/
lemma pending_congr {i : ι} {r r' : Relay ι α} (hworking : mine i r'.working = mine i r.working)
    (hqueue : r'.queue i = r.queue i) (htaken : r'.taken i = r.taken i)
    (hbuffer : r'.buffer i = r.buffer i) : pending i r' = pending i r := by
  rw [pending, pending, hworking, hqueue, htaken, hbuffer]

/-! ### One step -/

section Step

variable {r r' : Relay ι α} {i j : ι}

omit [DecidableEq α] in
lemma accounts_push (r : Relay ι α) (i j : ι) (a : α) : Accounts i r (.push j a)
    { r with buffer := Function.update r.buffer j (r.buffer j ++ [a]) } := by
  by_cases hj : j = i
  · subst hj
    have hpending : pending j { r with
        buffer := Function.update r.buffer j (r.buffer j ++ [a]) } = pending j r ++ [a] := by
      simp [pending]
    constructor
    · rw [hpending, pushedBy, if_pos rfl]
      exact List.Sublist.refl _
    · rw [hpending, pushedBy, if_pos rfl, handledBy, lostBy]
      simp
  · refine .of_eq (pending_congr rfl rfl rfl ?_) (if_neg hj) rfl rfl
    exact Function.update_of_ne (Ne.symm hj) _ _

omit [DecidableEq α] in
lemma pending_take (hidle : r.taken j = none) (i : ι) : pending i { r with
    buffer := Function.update r.buffer j []
    taken := Function.update r.taken j (some (r.buffer j)) } = pending i r := by
  by_cases hj : j = i
  · subst hj
    simp [pending, hidle]
  · exact pending_congr rfl rfl (Function.update_of_ne (Ne.symm hj) _ _)
      (Function.update_of_ne (Ne.symm hj) _ _)

omit [DecidableEq α] in
lemma pending_send {b : List α} (htaken : r.taken j = some b) (i : ι) : pending i { r with
    taken := Function.update r.taken j none
    queue := Function.update r.queue j (r.queue j ++ [b]) } = pending i r := by
  by_cases hj : j = i
  · subst hj
    simp [pending, htaken]
  · exact pending_congr rfl (Function.update_of_ne (Ne.symm hj) _ _)
      (Function.update_of_ne (Ne.symm hj) _ _) rfl

omit [DecidableEq α] in
lemma accounts_fail {b : List α} (htaken : r.taken j = some b) (i : ι) :
    Accounts i r (.fail j b) { r with taken := Function.update r.taken j none } := by
  by_cases hj : j = i
  · subst hj
    constructor
    · rw [handledBy, pushedBy, pending, pending, htaken, List.nil_append, List.append_nil]
      refine List.Sublist.append (List.Sublist.refl _)
        (List.Sublist.append (List.Sublist.refl _) ?_)
      simp
    · rw [handledBy, pushedBy, lostBy, if_pos rfl, pending, pending, htaken]
      simp only [Function.update_self, Option.getD_some, Option.getD_none, List.nil_append,
        List.append_nil, ← Multiset.coe_add, Multiset.coe_nil, zero_add]
      abel
  · exact .of_eq (pending_congr rfl rfl (Function.update_of_ne (Ne.symm hj) _ _) rfl) rfl rfl
      (if_neg hj)

omit [DecidableEq α] in
lemma accounts_drop {n : ℕ} {b : List α} (hqueue : (r.queue j)[n]? = some b) (i : ι) :
    Accounts i r (.drop j n b)
      { r with queue := Function.update r.queue j ((r.queue j).eraseIdx n) } := by
  by_cases hj : j = i
  · subst hj
    obtain ⟨hsub, hcount⟩ := flatten_eraseIdx hqueue
    constructor
    · rw [handledBy, pushedBy, pending, pending, List.nil_append, List.append_nil]
      refine List.Sublist.append (List.Sublist.refl _)
        (List.Sublist.append ?_ (List.Sublist.refl _))
      dsimp only
      rwa [Function.update_self]
    · rw [handledBy, pushedBy, lostBy, if_pos rfl, pending, pending]
      simp only [Function.update_self, List.append_nil, ← Multiset.coe_add, Multiset.coe_nil,
        zero_add, hcount]
      abel
  · exact .of_eq (pending_congr rfl (Function.update_of_ne (Ne.symm hj) _ _) rfl rfl) rfl rfl
      (if_neg hj)

omit [DecidableEq α] in
lemma pending_receive {b : List α} {bs : List (List α)} (hidle : r.working = [])
    (hqueue : r.queue j = b :: bs) (i : ι) : pending i { r with
      queue := Function.update r.queue j bs
      working := b.map fun a => (j, a) } = pending i r := by
  by_cases hj : j = i
  · subst hj
    have hmine : mine j r.working = [] := by rw [hidle]; rfl
    rw [pending, pending, mine_map, if_pos rfl, hmine, hqueue]
    simp
  · refine pending_congr ?_ (Function.update_of_ne (Ne.symm hj) _ _) rfl rfl
    rw [mine_map, if_neg hj, hidle]
    rfl

omit [DecidableEq α] in
lemma accounts_handle {a : α} {rest : List (ι × α)} (hworking : r.working = (j, a) :: rest)
    (i : ι) : Accounts i r (.handle j a) { r with working := rest } := by
  have hsplit : pending i r =
      handledBy i (.handle j a) ++ pending i { r with working := rest } := by
    rw [pending, pending, hworking, mine_cons, handledBy, List.append_assoc]
  constructor
  · rw [hsplit, pushedBy, List.append_nil]
  · rw [hsplit, pushedBy, lostBy, List.append_nil, Multiset.coe_nil, zero_add, Multiset.coe_add]

/-- **One step accounts for all items.** -/
lemma accounts_step {e : RelayEvent ι α} (h : r.step e = some r') (i : ι) :
    Accounts i r e r' := by
  cases e with
  | push j a =>
      obtain rfl := Option.some.inj h
      exact accounts_push r i j a
  | take j =>
      rw [step] at h
      split_ifs at h with hidle
      obtain rfl := Option.some.inj h
      exact .of_eq (pending_take hidle.1 i) rfl rfl rfl
  | send j =>
      rw [step] at h
      cases htaken : r.taken j with
      | none =>
          rw [htaken] at h
          cases h
      | some b =>
          rw [htaken] at h
          obtain rfl := Option.some.inj h
          exact .of_eq (pending_send htaken i) rfl rfl rfl
  | fail j b =>
      rw [step] at h
      split_ifs at h with htaken
      obtain rfl := Option.some.inj h
      exact accounts_fail htaken i
  | drop j n b =>
      rw [step] at h
      split_ifs at h with hqueue
      obtain rfl := Option.some.inj h
      exact accounts_drop hqueue i
  | receive j =>
      rw [step] at h
      split_ifs at h with hidle
      cases hqueue : r.queue j with
      | nil =>
          rw [hqueue] at h
          cases h
      | cons b bs =>
          rw [hqueue] at h
          obtain rfl := Option.some.inj h
          exact .of_eq (pending_receive hidle hqueue i) rfl rfl rfl
  | handle j a =>
      rw [step] at h
      cases hworking : r.working with
      | nil =>
          rw [hworking] at h
          cases h
      | cons x rest =>
          rw [hworking] at h
          dsimp only at h
          split_ifs at h with hx
          obtain rfl := Option.some.inj h
          subst hx
          exact accounts_handle hworking i

end Step

/-! ### Runs -/

section Runs

variable {es : List (RelayEvent ι α)} {r : Relay ι α} {i : ι}

/-- **Items are handled in their order, and none of them twice.** -/
lemma Reached.sublist (h : Reached es r) (i : ι) :
    (handled i es ++ pending i r).Sublist (pushed i es) := by
  induction h with
  | start => exact List.Sublist.refl _
  | @snoc es e r r' _ hstep ih =>
      rw [handled, pushed, List.flatMap_append, List.flatMap_append, List.flatMap_singleton,
        List.flatMap_singleton, List.append_assoc]
      have hone := (List.Sublist.refl (handled i es)).append (accounts_step hstep i).sublist
      rw [← List.append_assoc (handled i es) (pending i r)] at hone
      exact hone.trans (ih.append (List.Sublist.refl _))

/-- **Every item is handled, lost, or on its way**, and only once. -/
lemma Reached.conserved (h : Reached es r) (i : ι) :
    (pushed i es : Multiset α) = handled i es + (lost i es + pending i r) := by
  induction h with
  | start => rfl
  | @snoc es e r r' _ hstep ih =>
      have hone := (accounts_step hstep i).count
      rw [← Multiset.coe_add] at hone
      simp only [pushed, handled, lost, List.flatMap_append, List.flatMap_singleton,
        ← Multiset.coe_add] at ih ⊢
      calc (es.flatMap (pushedBy i) : Multiset α) + (pushedBy i e : Multiset α)
          = es.flatMap (handledBy i) + es.flatMap (lostBy i) +
              ((pending i r : Multiset α) + (pushedBy i e : Multiset α)) := by
            rw [ih]
            abel
        _ = es.flatMap (handledBy i) + (handledBy i e : Multiset α) +
              (es.flatMap (lostBy i) + (lostBy i e : Multiset α) + pending i r') := by
            rw [hone]
            abel

/-- **If nothing is lost, nothing is missing**: what has been handled and what is on its way is
all that came in, in that order. -/
lemma Reached.complete (h : Reached es r) (hlost : lost i es = []) :
    pushed i es = handled i es ++ pending i r := by
  have hcount := congrArg Multiset.card (h.conserved i)
  rw [hlost, Multiset.coe_nil, zero_add, Multiset.coe_add, Multiset.coe_card,
    Multiset.coe_card] at hcount
  exact ((h.sublist i).eq_of_length hcount.symm).symm

/-- What is handled came in. -/
lemma Reached.mem_pushed {a : α} (h : Reached es r) (ha : a ∈ handled i es) : a ∈ pushed i es :=
  (h.sublist i).subset (List.mem_append_left _ ha)

end Runs

/-- The evaluation of steps. -/
def run (r : Relay ι α) : List (RelayEvent ι α) → Option (Relay ι α)
  | [] => some r
  | e :: es => (r.step e).bind fun r' => r'.run es

lemma reached_of_run {es es' : List (RelayEvent ι α)} {r r' : Relay ι α} (h : Reached es r)
    (hrun : r.run es' = some r') : Reached (es ++ es') r' := by
  induction es' generalizing es r with
  | nil =>
      obtain rfl : r = r' := Option.some.inj hrun
      rwa [List.append_nil]
  | cons e es' ih =>
      obtain ⟨r₁, hstep, hrest⟩ := Option.bind_eq_some_iff.mp hrun
      have hall := ih (h.snoc hstep) hrest
      rwa [List.append_assoc, List.singleton_append] at hall

end Relay

end Calculus
