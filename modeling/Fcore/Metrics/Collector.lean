import Fcore.Calculus.Protocol
import Fcore.Metrics.Storage

/-!
The collector beside the metric worker (`src/bin/api/main.rs`,
`src/bin/api/metrics.rs`).

`perform_gc` runs on a thread of its own while envelopes are inserted.  Every phase
of the collection and each half of an insertion is one call; `exec_insertCalls` and
`exec_gcCalls` say that a program run alone is the operation of the store, and
`Exact.worker` that so a thread alone keeps the indexes exact.

* `Pending`: between its two filters a collection has a set of series that it takes
  for alive, and this set may be out of date;
* `clearOfCollector`: no series gets its first metadata while a collection that
  does not know it waits to filter the tag index;
* `collectorProtocol`, `IndexInv`: a waiting collection knows every series that has
  metadata and a tag;
* `indexed_of_clear`: then every series with metadata stands in the tag index under
  each of its tags, in every state that is reached;
* `lost_series`: without the condition a series is lost from the index;
  `lost_of_not_clear` says that the next step of the waiting collection loses it.
-/

namespace Fcore

open Calculus
open Machine (exec)

namespace MetricStorage

/-! ### Calls -/

/-- The atomic steps on the store; the input is a clock reading. -/
inductive StoreCall : Type → Type where
  | now : StoreCall Int64
  | enterMetadata (key : UInt64) (e : MetricEnvelope) : StoreCall Unit
  | pushPoint (key : UInt64) (e : MetricEnvelope) : StoreCall Unit
  | trimInner (nowMs : Int64) : StoreCall Unit
  | aliveSeries : StoreCall (Finset UInt64)
  | retainMetadata (alive : Finset UInt64) : StoreCall Unit
  | retainTagIndex (alive : Finset UInt64) : StoreCall Unit

def StoreCall.exec {β : Type} : StoreCall β → Int64 → MetricStorage → Option (MetricStorage × β)
  | .now, i, s => some (s, i)
  | .enterMetadata key e, _, s => some (s.enterMetadata key e, ())
  | .pushPoint key e, _, s => some (s.pushPoint key e, ())
  | .trimInner nowMs, _, s => some (s.trimInner nowMs, ())
  | .aliveSeries, _, s => some (s, s.aliveSeries)
  | .retainMetadata alive, _, s => some (s.retainMetadata alive, ())
  | .retainTagIndex alive, _, s => some (s.retainTagIndex alive, ())

instance : Machine StoreCall Int64 MetricStorage where
  exec := StoreCall.exec

/-- `insert_envelope` as its two halves. -/
def insertCalls (digest : List String → UInt64) (e : MetricEnvelope) : Prog StoreCall Unit := do
  let key := makeSeriesKey digest e.name e.tags
  Prog.perform (.enterMetadata key e)
  Prog.perform (.pushPoint key e)

/-- `perform_gc` as its four phases. -/
def gcCalls : Prog StoreCall Unit := do
  let nowMs ← Prog.perform .now
  Prog.perform (.trimInner nowMs)
  let alive ← Prog.perform .aliveSeries
  Prog.perform (.retainMetadata alive)
  Prog.perform (.retainTagIndex alive)

/-- What a thread does next. -/
inductive Task where
  | insert (e : MetricEnvelope)
  | gc

def Task.calls (digest : List String → UInt64) : Task → Prog StoreCall Unit
  | .insert e => insertCalls digest e
  | .gc => gcCalls

/-- A thread does its tasks one after another. -/
def worker (digest : List String → UInt64) : List Task → Prog StoreCall Unit
  | [] => .pure ()
  | t :: ts => t.calls digest >>= fun _ => worker digest ts

lemma exec_insertCalls {rule : Rule StoreCall Int64 MetricStorage} {digest : List String → UInt64}
    {e : MetricEnvelope} {s s' : MetricStorage} {u : Unit}
    (h : Exec rule (insertCalls digest e) s u s') : s' = insertEnvelope digest e s := by
  simp only [insertCalls, Prog.perform_bind] at h
  obtain ⟨i₁, s₁, b₁, h₁, -, hrest⟩ := Exec.of_call h
  cases h₁
  obtain ⟨i₂, s₂, b₂, h₂, -, hrest⟩ := Exec.of_call hrest
  cases h₂
  exact (Exec.of_pure hrest).2

lemma exec_gcCalls {rule : Rule StoreCall Int64 MetricStorage} {s s' : MetricStorage} {u : Unit}
    (h : Exec rule gcCalls s u s') : ∃ nowMs, s' = performGc nowMs s := by
  simp only [gcCalls, Prog.perform_bind] at h
  obtain ⟨nowMs, s₁, b₁, h₁, -, hrest⟩ := Exec.of_call h
  cases h₁
  obtain ⟨i₂, s₂, b₂, h₂, -, hrest⟩ := Exec.of_call hrest
  cases h₂
  obtain ⟨i₃, s₃, b₃, h₃, -, hrest⟩ := Exec.of_call hrest
  cases h₃
  obtain ⟨i₄, s₄, b₄, h₄, -, hrest⟩ := Exec.of_call hrest
  cases h₄
  obtain ⟨i₅, s₅, b₅, h₅, -, hrest⟩ := Exec.of_call hrest
  cases h₅
  exact ⟨nowMs, (Exec.of_pure hrest).2⟩

/-- **A thread that works alone** keeps the indexes exact, whatever it inserts and however often
it collects. -/
lemma Exact.worker {rule : Rule StoreCall Int64 MetricStorage} {digest : List String → UInt64}
    {ts : List Task} {s s' : MetricStorage} {u : Unit} (h : s.Exact)
    (hexec : Exec rule (worker digest ts) s u s') : s'.Exact := by
  induction ts generalizing s with
  | nil =>
      obtain ⟨-, rfl⟩ := hexec.of_pure
      exact h
  | cons t ts ih =>
      obtain ⟨v, s₁, htask, hrest⟩ := hexec.of_bind
      refine ih ?_ hrest
      cases t with
      | insert e =>
          rw [exec_insertCalls htask]
          exact h.insertEnvelope digest e
      | gc =>
          obtain ⟨nowMs, rfl⟩ := exec_gcCalls htask
          exact h.performGc nowMs

/-! ### Collections between their two filters -/

/-- The call filters the tag index with a set that lacks the series. -/
def lacks (key : UInt64) : (β : Type) → StoreCall β → Bool
  | _, .retainTagIndex alive => key ∉ alive
  | _, _ => false

/-- No tagged series gets its first metadata while a collection that does not know
it has filtered the metadata and not yet the tag index. -/
def clearOfCollector : Rule StoreCall Int64 MetricStorage
  | _, others, .enterMetadata key e, _, s, _ =>
      (s.metadata.get key).isSome || e.tags.entries.isEmpty ||
        others.all fun p => !p.nextIs (lacks key)
  | _, _, _, _, _, _ => true

/-- The account of a thread: the sets with which it is about to filter the tag
index. -/
abbrev Pending := Multiset (Finset UInt64)

def collectorProtocol : Protocol StoreCall Pending where
  admits _ _ _ := True
  may _ c a :=
    match c with
    | .retainTagIndex alive => a = {alive}
    | _ => a = 0
  moves _ c _ a a' :=
    match c with
    | .retainMetadata alive => a' = {alive}
    | .retainTagIndex _ => a' = 0
    | _ => a' = a

/-- Every series with metadata is indexed under its tags, and every waiting
collection knows it. -/
structure IndexInv (s : MetricStorage) (pending : Pending) : Prop where
  indexed : ∀ key k v, s.hasTag key k v → key ∈ s.findSeriesByTag k v
  known : ∀ alive ∈ pending, ∀ key k v, s.hasTag key k v → key ∈ alive

lemma obeys_insertCalls (digest : List String → UInt64) (e : MetricEnvelope) :
    Obeys collectorProtocol (fun _ a => a = 0) (insertCalls digest e) 0 := by
  refine ⟨rfl, fun _ _ => ⟨0, rfl, ?_⟩⟩
  refine ⟨rfl, fun _ _ => ⟨0, rfl, ?_⟩⟩
  exact rfl

lemma obeys_gcCalls : Obeys collectorProtocol (fun _ a => a = 0) gcCalls 0 := by
  refine ⟨rfl, fun nowMs _ => ⟨0, rfl, ?_⟩⟩
  refine ⟨rfl, fun _ _ => ⟨0, rfl, ?_⟩⟩
  refine ⟨rfl, fun alive _ => ⟨0, rfl, ?_⟩⟩
  refine ⟨rfl, fun _ _ => ⟨{alive}, rfl, ?_⟩⟩
  refine ⟨rfl, fun _ _ => ⟨0, rfl, ?_⟩⟩
  exact rfl

lemma obeys_worker (digest : List String → UInt64) (ts : List Task) :
    Obeys collectorProtocol (fun _ a => a = 0) (worker digest ts) 0 := by
  induction ts with
  | nil => exact rfl
  | cons t ts ih =>
      have hfirst : Obeys collectorProtocol (fun _ a => a = 0) (t.calls digest) 0 := by
        cases t with
        | insert e => exact obeys_insertCalls digest e
        | gc => exact obeys_gcCalls
      refine hfirst.bind ?_
      rintro - - rfl
      exact ih

/-- A set in the accounts is the one with which some thread filters next. -/
lemma AllObey.exists_next {gs : List Pending} {ts : List (Prog StoreCall Unit)}
    (h : AllObey collectorProtocol (fun _ a => a = 0) gs ts) {alive : Finset UInt64}
    (hmem : alive ∈ gs.sum) {key : UInt64} (hkey : key ∉ alive) :
    ∃ p ∈ ts, p.nextIs (lacks key) = true := by
  induction h with
  | nil => exact absurd hmem (by simp)
  | @cons g p gs ts hp hrest ih =>
      rw [List.sum_cons, Multiset.mem_add] at hmem
      rcases hmem with hg | hgs
      · refine ⟨p, by simp, ?_⟩
        cases p with
        | pure x =>
            have hzero : g = 0 := hp
            exact absurd hg (by simp [hzero])
        | call c k =>
            have hmay := hp.1
            cases c with
            | retainTagIndex alive' =>
                have hone : g = {alive'} := hmay
                rw [hone, Multiset.mem_singleton] at hg
                subst hg
                exact decide_eq_true hkey
            | _ =>
                have hzero : g = 0 := hmay
                exact absurd hg (by simp [hzero])
      · obtain ⟨q, hq, hnext⟩ := ih hgs
        exact ⟨q, by simp [hq], hnext⟩

/-! ### Every step keeps the invariant -/

lemma IndexInv.enterMetadata {s : MetricStorage} {t : Pending} (h : IndexInv s t) {key : UInt64}
    {e : MetricEnvelope} (hnew : ∀ k v, s.metadata.get key = none → e.tags.get k = some v →
      ∀ alive ∈ t, key ∈ alive) : IndexInv (s.enterMetadata key e) t where
  indexed x k v htag := by
    rw [hasTag_enterMetadata] at htag
    rw [mem_find_enterMetadata]
    exact htag.imp (h.indexed x k v) id
  known alive hmem x k v htag := by
    rcases hasTag_enterMetadata.mp htag with hold | ⟨rfl, hnone, hk⟩
    · exact h.known alive hmem x k v hold
    · exact hnew k v hnone hk alive hmem

lemma IndexInv.retainMetadata {s : MetricStorage} {t : Pending} (h : IndexInv s t)
    (alive : Finset UInt64) : IndexInv (s.retainMetadata alive) ({alive} + t) where
  indexed key k v htag := h.indexed key k v (hasTag_retainMetadata.mp htag).1
  known alive' hmem key k v htag := by
    obtain ⟨hold, halive⟩ := hasTag_retainMetadata.mp htag
    rcases Multiset.mem_add.mp hmem with hnew | hmem
    · rw [Multiset.mem_singleton.mp hnew]
      exact halive
    · exact h.known alive' hmem key k v hold

lemma IndexInv.retainTagIndex {s : MetricStorage} {t : Pending} {alive : Finset UInt64}
    (h : IndexInv s ({alive} + t)) : IndexInv (s.retainTagIndex alive) t where
  indexed key k v htag := by
    have hold : s.hasTag key k v := htag
    exact mem_find_retainTagIndex.mpr
      ⟨h.indexed key k v hold, h.known alive (by simp) key k v hold⟩
  known alive' hmem key k v htag :=
    h.known alive' (Multiset.mem_add.mpr (Or.inr hmem)) key k v htag

lemma keeps_indexInv :
    Keeps clearOfCollector collectorProtocol (fun _ a => a = 0) IndexInv := by
  intro β c i s s' b a others gs hothers hexec hrule hmay hinv
  refine ⟨trivial, fun a' hmoves => ?_⟩
  cases c with
  | now =>
      cases hexec
      obtain rfl : a' = a := hmoves
      exact hinv
  | enterMetadata key e =>
      cases hexec
      obtain rfl : a' = a := hmoves
      obtain rfl : a' = 0 := hmay
      rw [zero_add] at hinv ⊢
      refine hinv.enterMetadata fun k v hnone hk alive halive => ?_
      by_contra hkey
      obtain ⟨p, hp, hnext⟩ := AllObey.exists_next hothers halive hkey
      have htags : e.tags.entries ≠ [] :=
        List.ne_nil_of_mem (Tags.mem_entries_iff.mpr hk)
      simp only [clearOfCollector, hnone, Option.isSome_none, Bool.false_or, Bool.or_eq_true,
        List.isEmpty_iff, htags, false_or, List.all_eq_true] at hrule
      exact absurd hnext (by simpa using hrule p hp)
  | pushPoint key e =>
      cases hexec
      obtain rfl : a' = a := hmoves
      exact ⟨hinv.indexed, hinv.known⟩
  | trimInner nowMs =>
      cases hexec
      obtain rfl : a' = a := hmoves
      exact ⟨hinv.indexed, hinv.known⟩
  | aliveSeries =>
      cases hexec
      obtain rfl : a' = a := hmoves
      exact hinv
  | retainMetadata alive =>
      cases hexec
      obtain rfl : a' = {alive} := hmoves
      obtain rfl : a = 0 := hmay
      rw [zero_add] at hinv
      exact hinv.retainMetadata alive
  | retainTagIndex alive =>
      cases hexec
      obtain rfl : a' = 0 := hmoves
      obtain rfl : a = {alive} := hmay
      rw [zero_add]
      exact hinv.retainTagIndex

lemma workers_obey (digest : List String → UInt64) (workers : List (List Task)) :
    AllObey collectorProtocol (fun _ a => a = 0) (workers.map fun _ => 0)
      (workers.map (worker digest)) := by
  rw [AllObey, List.forall₂_map_right_iff, List.forall₂_map_left_iff]
  exact List.forall₂_same.mpr fun ts _ => obeys_worker digest ts

/-- **A collection never unindexes a series**, in any interleaving of workers in
which no series gets its first metadata behind the metadata filter of a collection
that does not know it: in every state that is reached, a series whose metadata maps
a tag to a value stands in the index under them. -/
theorem indexed_of_clear (digest : List String → UInt64) (maxPoints : ℕ)
    (retentionSeconds : Int64) (workers : List (List Task)) {p : Pool StoreCall MetricStorage}
    (hreach : Reach clearOfCollector
      ⟨new maxPoints retentionSeconds, workers.map (worker digest)⟩ p) :
    ∀ key name tags k v, p.state.metadata.get key = some (name, tags) → tags.get k = some v →
      key ∈ p.state.findSeriesByTag k v := by
  have hinit : IndexInv (new maxPoints retentionSeconds) (workers.map fun _ => 0).sum := by
    have hzero : (workers.map fun _ => (0 : Pending)).sum = 0 := by simp
    rw [hzero]
    have hexact := exact_new maxPoints retentionSeconds
    exact ⟨fun key k v => (hexact.indexed k v key).mpr, by simp⟩
  obtain ⟨gs, -, hinv⟩ := Reach.sound keeps_indexInv hreach (workers_obey digest workers) hinit
  intro key name tags k v hmeta htag
  exact hinv.indexed key k v ⟨name, tags, hmeta, htag⟩

/-! ### A series that is lost -/

/-- A step that is not clear: the collection that waits loses the series when it
goes on. -/
lemma lost_of_not_clear {others : List (Prog StoreCall Unit)} {key : UInt64} {e : MetricEnvelope}
    {i : Int64} {s : MetricStorage}
    (h : clearOfCollector Unit others (.enterMetadata key e) i s () = false) :
    ∃ p ∈ others, ∃ alive k, p = .call (.retainTagIndex alive) k ∧ ∃ tag v,
      ((s.enterMetadata key e).retainTagIndex alive).hasTag key tag v ∧
      key ∉ ((s.enterMetadata key e).retainTagIndex alive).findSeriesByTag tag v := by
  simp only [clearOfCollector, Bool.or_eq_false_iff, Option.isSome_eq_false_iff,
    Option.isNone_iff_eq_none, List.isEmpty_eq_false_iff_exists_mem, List.all_eq_false,
    Bool.not_eq_true, Bool.not_eq_false'] at h
  obtain ⟨⟨hnone, ⟨tag, v⟩, htag⟩, p, hp, hnext⟩ := h
  refine ⟨p, hp, ?_⟩
  cases p with
  | pure x => cases hnext
  | call c k =>
      cases c with
      | retainTagIndex alive =>
          have hkey : key ∉ alive := of_decide_eq_true hnext
          refine ⟨alive, k, rfl, tag, v, ?_, fun hmem => hkey (mem_find_retainTagIndex.mp hmem).2⟩
          exact hasTag_enterMetadata.mpr (Or.inr ⟨rfl, hnone, Tags.mem_entries_iff.mp htag⟩)
      | _ => cases hnext

/-- A digest that sends every series to `7`. -/
def sampleDigest : List String → UInt64 := fun _ => 7

/-- A point of `sys.cpu_usage` with one tag. -/
def sampleEnvelope : MetricEnvelope :=
  { nodeId := 1, name := "sys.cpu_usage", value := 0, timestamp := 1000,
    tags := ⟨[("env", "dev")], by simp⟩ }

/-- A worker with one envelope beside a collection, on an empty store. -/
def samplePool : Pool StoreCall MetricStorage :=
  ⟨new 10 60, [[.insert sampleEnvelope], [.gc]].map (worker sampleDigest)⟩

/-- A collection that runs after the insertion keeps the series in the index. -/
theorem indexed_of_clear_sample : ∃ p, Reach clearOfCollector samplePool p ∧ p.finished = true ∧
    7 ∈ p.state.findSeriesByTag "env" "dev" := by
  have hrun : (runWith clearOfCollector
      [(0, 0), (0, 0), (1, 2000), (1, 0), (1, 0), (1, 0), (1, 0)] samplePool).map (fun p =>
        (p.finished, p.state.metadata.get 7)) =
      some (true, some ("sys.cpu_usage", ⟨[("env", "dev")], by simp⟩)) := by
    decide +kernel
  obtain ⟨p, hreach, hp⟩ := exists_reach_of_runWith hrun
  obtain ⟨hfin, hmeta⟩ := Prod.mk.inj hp
  exact ⟨p, hreach, hfin, indexed_of_clear sampleDigest 10 60 [[.insert sampleEnvelope], [.gc]]
    hreach 7 _ _ "env" "dev" hmeta (by decide)⟩

/-- The series gets its metadata and its index entry between the two filters of the
collection: the second one drops it from the index, and it keeps its metadata and its
point. -/
theorem lost_series : ∃ p, Reach Rule.any samplePool p ∧ p.finished = true ∧
    p.state.hasTag 7 "env" "dev" ∧ (p.state.series 1 7).isSome ∧
    7 ∉ p.state.findSeriesByTag "env" "dev" := by
  have hrun : (runWith Rule.any
      [(1, 2000), (1, 0), (1, 0), (1, 0), (0, 0), (1, 0), (0, 0)] samplePool).map (fun p =>
        (p.finished, p.state.metadata.get 7, (p.state.series 1 7).isSome,
          p.state.findSeriesByTag "env" "dev")) =
      some (true, some ("sys.cpu_usage", ⟨[("env", "dev")], by simp⟩), true, ∅) := by
    decide +kernel
  obtain ⟨p, hreach, hp⟩ := exists_reach_of_runWith hrun
  simp only [Prod.mk.injEq] at hp
  obtain ⟨hfin, hmeta, hseries, hindex⟩ := hp
  refine ⟨p, hreach, hfin, ⟨_, _, hmeta, by decide⟩, hseries, ?_⟩
  rw [hindex]
  exact Finset.notMem_empty 7

end MetricStorage

end Fcore
