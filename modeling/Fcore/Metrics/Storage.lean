import Fcore.Calculus.Table
import Fcore.Memory.Types

/-!
The metric store (`src/metrics/storage.rs`).

Points are kept per node and series; a series is named by the digest of a metric
name and its tags.  Two further maps describe the series: `metadata` holds the
name and the tags of a digest, `tag_index` the digests of a tag and its value.

* `enterMetadata`, `pushPoint`: the two halves of `insert_envelope`;
* `trimInner`, `aliveSeries`, `retainMetadata`, `retainTagIndex`: the four phases
  of `perform_gc`;
* `Exact`: every series has metadata, the index and the metadata agree, no series
  is longer than `max_points`; `Swept`: nothing is left that could be collected;
* `Exact.insertEnvelope`, `Exact.performGc`, `Exact.swept_performGc`: what the two
  operations keep and establish;
* `exact_run_and_swept`: the indexes are exact after any sequence of operations.

The digest of `DefaultHasher` is a parameter: nothing here depends on it, and two
series may share a digest.  Timestamps wrap as in a release build.
-/

namespace Fcore

open Calculus

/-! ### Data -/

/-- `BTreeMap<String, String>`: entries in increasing order of their keys. -/
structure Tags where
  entries : List (String × String)
  sorted : (entries.map Prod.fst).Pairwise (· < ·)
deriving DecidableEq

namespace Tags

/-- The value of a tag. -/
def get (tags : Tags) (k : String) : Option String :=
  (tags.entries.find? fun e => e.1 = k).map Prod.snd

lemma keys_nodup (tags : Tags) : (tags.entries.map Prod.fst).Nodup := by
  refine tags.sorted.imp ?_
  rintro k _ hlt rfl
  exact String.lt_irrefl k hlt

lemma mem_entries_iff {tags : Tags} {k v : String} :
    (k, v) ∈ tags.entries ↔ tags.get k = some v := by
  rw [get, Option.map_eq_some_iff]
  simp only [Table.find?_key_eq_some tags.keys_nodup]
  constructor
  · intro hmem
    exact ⟨(k, v), ⟨hmem, rfl⟩, rfl⟩
  · rintro ⟨⟨k', v'⟩, ⟨hmem, rfl⟩, rfl⟩
    exact hmem

end Tags

/-- `MetricPoint`; the value is kept as the bits of its `f64`. -/
structure MetricPoint where
  timestamp : Int64
  value : UInt64
deriving DecidableEq

structure MetricEnvelope where
  nodeId : Uuid
  name : String
  value : UInt64
  timestamp : Int64
  tags : Tags
deriving DecidableEq

/-- `tag_index`: tag, value, digests. -/
abbrev TagIndex := Table String (Table String (Finset UInt64))

structure MetricStorage where
  inner : Table Uuid (Table UInt64 (List MetricPoint))
  metadata : Table UInt64 (String × Tags)
  tagIndex : TagIndex
  maxPoints : ℕ
  retentionSeconds : Int64

namespace MetricStorage

def new (maxPoints : ℕ) (retentionSeconds : Int64) : MetricStorage :=
  { inner := ∅, metadata := ∅, tagIndex := ∅, maxPoints, retentionSeconds }

/-- `make_series_key`: the digest of the strings written to the hasher. -/
def makeSeriesKey (digest : List String → UInt64) (name : String) (tags : Tags) : UInt64 :=
  digest (name :: tags.entries.flatMap fun e => [e.1, e.2])

/-! ### Insertion -/

/-- One round of the loop that indexes the tags of a new series. -/
def indexTag (key : UInt64) (index : TagIndex) (e : String × String) : TagIndex :=
  let tagMap := (index.get e.1).getD ∅
  index.put e.1 (tagMap.put e.2 (insert key ((tagMap.get e.2).getD ∅)))

/-- The metadata entry of `insert_envelope`: a series is indexed when it is seen
for the first time. -/
def enterMetadata (key : UInt64) (e : MetricEnvelope) (s : MetricStorage) : MetricStorage :=
  match s.metadata.get key with
  | some _ => s
  | none =>
      { s with
        tagIndex := e.tags.entries.foldl (indexTag key) s.tagIndex
        metadata := s.metadata.put key (e.name, e.tags) }

/-- `while entry.len() > max_points`: the oldest points are dropped. -/
def dropExcess (maxPoints : ℕ) : List MetricPoint → List MetricPoint
  | [] => []
  | p :: ps => if (p :: ps).length > maxPoints then dropExcess maxPoints ps else p :: ps

/-- The loop that drops points from the front while they are older than
`minTs`. -/
def dropOld (minTs : Int64) (ps : List MetricPoint) : List MetricPoint :=
  ps.dropWhile fun p => p.timestamp < minTs

/-- The second half of `insert_envelope`: the point is pushed and its series
trimmed. -/
def pushPoint (key : UInt64) (e : MetricEnvelope) (s : MetricStorage) : MetricStorage :=
  let nodeMap := (s.inner.get e.nodeId).getD ∅
  let entry := (nodeMap.get key).getD [] ++ [{ timestamp := e.timestamp, value := e.value }]
  let entry := dropExcess s.maxPoints entry
  let retentionMs := s.retentionSeconds * 1000
  let minTs := e.timestamp - retentionMs
  { s with inner := s.inner.put e.nodeId (nodeMap.put key (dropOld minTs entry)) }

def insertEnvelope (digest : List String → UInt64) (e : MetricEnvelope) (s : MetricStorage) :
    MetricStorage :=
  let key := makeSeriesKey digest e.name e.tags
  pushPoint key e (enterMetadata key e s)

/-! ### Garbage collection -/

/-- What `retain` keeps of a series: its points from `minTs` on, if there are
any. -/
def trimSeries (minTs : Int64) (deque : List MetricPoint) : Option (List MetricPoint) :=
  let deque := dropOld minTs deque
  if deque.isEmpty then none else some deque

/-- What `retain` keeps of a node: its series that are not empty. -/
def trimNode (minTs : Int64) (nodeMap : Table UInt64 (List MetricPoint)) :
    Option (Table UInt64 (List MetricPoint)) :=
  let nodeMap := nodeMap.retain fun _ deque => trimSeries minTs deque
  if nodeMap.isEmpty then none else some nodeMap

/-- The first phase of `perform_gc`, at the clock reading `nowMs`. -/
def trimInner (nowMs : Int64) (s : MetricStorage) : MetricStorage :=
  let retentionMs := s.retentionSeconds * 1000
  let minTs := nowMs - retentionMs
  { s with inner := s.inner.retain fun _ nodeMap => trimNode minTs nodeMap }

/-- The second phase: the series stored under some node. -/
def aliveSeries (s : MetricStorage) : Finset UInt64 :=
  (s.inner.entries.flatMap fun node => node.2.entries.map Sigma.fst).toFinset

/-- The third phase. -/
def retainMetadata (alive : Finset UInt64) (s : MetricStorage) : MetricStorage :=
  { s with metadata := s.metadata.retain fun key m => if key ∈ alive then some m else none }

/-- What `retain` keeps of the digests of a tag value. -/
def trimSet (alive : Finset UInt64) (set : Finset UInt64) : Option (Finset UInt64) :=
  let set := set.filter (· ∈ alive)
  if set = ∅ then none else some set

/-- What `retain` keeps of a tag. -/
def trimTag (alive : Finset UInt64) (tagMap : Table String (Finset UInt64)) :
    Option (Table String (Finset UInt64)) :=
  let tagMap := tagMap.retain fun _ set => trimSet alive set
  if tagMap.isEmpty then none else some tagMap

/-- The fourth phase. -/
def retainTagIndex (alive : Finset UInt64) (s : MetricStorage) : MetricStorage :=
  { s with tagIndex := s.tagIndex.retain fun _ tagMap => trimTag alive tagMap }

def performGc (nowMs : Int64) (s : MetricStorage) : MetricStorage :=
  let s := trimInner nowMs s
  let alive := aliveSeries s
  retainTagIndex alive (retainMetadata alive s)

/-! ### Lookups -/

/-- The points of a series of a node. -/
def series (s : MetricStorage) (node : Uuid) (key : UInt64) : Option (List MetricPoint) :=
  (s.inner.get node).bind fun nodeMap => nodeMap.get key

/-- The digests of a tag and its value. -/
def lookupTag (index : TagIndex) (k v : String) : Finset UInt64 :=
  ((index.get k).bind fun tagMap => tagMap.get v).getD ∅

def findSeriesByTag (s : MetricStorage) (k v : String) : Finset UInt64 :=
  lookupTag s.tagIndex k v

/-- The metadata of the series maps the tag `k` to `v`. -/
def hasTag (s : MetricStorage) (key : UInt64) (k v : String) : Prop :=
  ∃ name tags, s.metadata.get key = some (name, tags) ∧ tags.get k = some v

/-! ### What the steps of an insertion do -/

lemma lookupTag_indexTag (key : UInt64) (index : TagIndex) (e : String × String) (k v : String) :
    lookupTag (indexTag key index e) k v =
      if (k, v) = e then insert key (lookupTag index k v) else lookupTag index k v := by
  obtain ⟨k', v'⟩ := e
  rw [lookupTag, indexTag, Table.get_put]
  by_cases hk : k = k'
  · subst hk
    rw [if_pos rfl, Option.bind_some, Table.get_put, lookupTag]
    by_cases hv : v = v'
    · subst hv
      rw [if_pos rfl, if_pos rfl]
      cases index.get k <;> rfl
    · rw [if_neg hv, if_neg (by simp [hv])]
      cases index.get k <;> rfl
  · rw [if_neg hk, if_neg (by simp [hk]), lookupTag]

lemma mem_lookupTag_foldl {key x : UInt64} {es : List (String × String)} {index : TagIndex}
    {k v : String} :
    x ∈ lookupTag (es.foldl (indexTag key) index) k v ↔
      x ∈ lookupTag index k v ∨ x = key ∧ (k, v) ∈ es := by
  induction es generalizing index with
  | nil => simp
  | cons e es ih =>
      rw [List.foldl_cons, ih, lookupTag_indexTag]
      by_cases he : (k, v) = e
      · simp only [he, ite_true, Finset.mem_insert, List.mem_cons, true_or, and_true]
        tauto
      · simp only [he, ite_false, List.mem_cons, false_or]

lemma enterMetadata_of_some {key : UInt64} {e : MetricEnvelope} {s : MetricStorage}
    {m : String × Tags} (h : s.metadata.get key = some m) : enterMetadata key e s = s := by
  rw [enterMetadata, h]

lemma metadata_enterMetadata (key : UInt64) (e : MetricEnvelope) (s : MetricStorage) :
    (enterMetadata key e s).metadata = s.metadata.vacant key (e.name, e.tags) := by
  rw [enterMetadata, Table.vacant]
  cases s.metadata.get key <;> rfl

@[simp] lemma inner_enterMetadata (key : UInt64) (e : MetricEnvelope) (s : MetricStorage) :
    (enterMetadata key e s).inner = s.inner := by
  rw [enterMetadata]
  cases s.metadata.get key <;> rfl

@[simp] lemma maxPoints_enterMetadata (key : UInt64) (e : MetricEnvelope) (s : MetricStorage) :
    (enterMetadata key e s).maxPoints = s.maxPoints := by
  rw [enterMetadata]
  cases s.metadata.get key <;> rfl

/-- The index after the metadata step: a new series stands under its tags. -/
lemma mem_find_enterMetadata {key x : UInt64} {e : MetricEnvelope} {s : MetricStorage}
    {k v : String} :
    x ∈ (enterMetadata key e s).findSeriesByTag k v ↔
      x ∈ s.findSeriesByTag k v ∨
        x = key ∧ s.metadata.get key = none ∧ e.tags.get k = some v := by
  cases h : s.metadata.get key with
  | some m => simp [enterMetadata_of_some h]
  | none =>
      rw [enterMetadata, h]
      simp only [findSeriesByTag, mem_lookupTag_foldl, Tags.mem_entries_iff, true_and]

lemma hasTag_enterMetadata {key x : UInt64} {e : MetricEnvelope} {s : MetricStorage}
    {k v : String} :
    (enterMetadata key e s).hasTag x k v ↔
      s.hasTag x k v ∨ x = key ∧ s.metadata.get key = none ∧ e.tags.get k = some v := by
  simp only [hasTag, metadata_enterMetadata, Table.get_vacant_eq_some]
  constructor
  · rintro ⟨name, tags, hold | ⟨rfl, hnone, heq⟩, htag⟩
    · exact Or.inl ⟨name, tags, hold, htag⟩
    · cases heq
      exact Or.inr ⟨rfl, hnone, htag⟩
  · rintro (⟨name, tags, hold, htag⟩ | ⟨rfl, hnone, htag⟩)
    · exact ⟨name, tags, Or.inl hold, htag⟩
    · exact ⟨e.name, e.tags, Or.inr ⟨rfl, hnone, rfl⟩, htag⟩

lemma length_dropExcess_le (maxPoints : ℕ) (ps : List MetricPoint) :
    (dropExcess maxPoints ps).length ≤ maxPoints := by
  induction ps with
  | nil => exact Nat.zero_le _
  | cons p ps ih =>
      rw [dropExcess]
      split_ifs with h
      · exact ih
      · omega

lemma length_dropOld_le (minTs : Int64) (ps : List MetricPoint) :
    (dropOld minTs ps).length ≤ ps.length :=
  (List.dropWhile_suffix _).length_le

/-- The series after the push: only the one of the envelope is another. -/
lemma series_pushPoint (key : UInt64) (e : MetricEnvelope) (s : MetricStorage) (n : Uuid)
    (x : UInt64) :
    (pushPoint key e s).series n x =
      if n = e.nodeId ∧ x = key then
        some (dropOld (e.timestamp - s.retentionSeconds * 1000) (dropExcess s.maxPoints
          ((s.series n x).getD [] ++ [{ timestamp := e.timestamp, value := e.value }])))
      else s.series n x := by
  rw [series, pushPoint, Table.get_put]
  by_cases hn : n = e.nodeId
  · subst hn
    rw [if_pos rfl, Option.bind_some, Table.get_put, series]
    by_cases hx : x = key
    · subst hx
      rw [if_pos rfl, if_pos ⟨rfl, rfl⟩]
      cases s.inner.get e.nodeId <;> rfl
    · rw [if_neg hx, if_neg (by simp [hx])]
      cases s.inner.get e.nodeId <;> rfl
  · rw [if_neg hn, if_neg (by simp [hn]), series]

/-! ### What the phases of the collection do -/

/-- A table that is dropped when it is empty is looked up like the table. -/
lemma bind_get_of_isEmpty {κ α : Type} [DecidableEq κ] (t : Table κ α) (k : κ) :
    ((if t.isEmpty then none else some t).bind fun t => t.get k) = t.get k := by
  split_ifs with h
  · rw [Table.isEmpty_iff.mp h k, Option.bind_none]
  · rfl

lemma series_trimInner (nowMs : Int64) (s : MetricStorage) (n : Uuid) (key : UInt64) :
    (trimInner nowMs s).series n key =
      (s.series n key).bind (trimSeries (nowMs - s.retentionSeconds * 1000)) := by
  rw [series, trimInner, Table.get_retain, series]
  cases s.inner.get n with
  | none => rfl
  | some nodeMap =>
      rw [Option.bind_some, Option.bind_some, trimNode]
      exact (bind_get_of_isEmpty _ key).trans (Table.get_retain ..)

lemma mem_aliveSeries {s : MetricStorage} {key : UInt64} :
    key ∈ s.aliveSeries ↔ ∃ n, (s.series n key).isSome := by
  rw [aliveSeries, List.mem_toFinset, List.mem_flatMap]
  constructor
  · rintro ⟨⟨n, nodeMap⟩, hnode, hkey⟩
    obtain ⟨⟨key', ps⟩, hps, rfl⟩ := List.mem_map.mp hkey
    refine ⟨n, Option.isSome_iff_exists.mpr ⟨ps, ?_⟩⟩
    rw [series, Table.mem_entries.mp hnode]
    exact Table.mem_entries.mp hps
  · rintro ⟨n, hsome⟩
    obtain ⟨ps, hps⟩ := Option.isSome_iff_exists.mp hsome
    obtain ⟨nodeMap, hnode, hkey⟩ := Option.bind_eq_some_iff.mp hps
    exact ⟨⟨n, nodeMap⟩, Table.mem_entries.mpr hnode,
      List.mem_map.mpr ⟨⟨key, ps⟩, Table.mem_entries.mpr hkey, rfl⟩⟩

lemma get_retainMetadata (alive : Finset UInt64) (s : MetricStorage) (key : UInt64) :
    (retainMetadata alive s).metadata.get key =
      if key ∈ alive then s.metadata.get key else none := by
  rw [retainMetadata, Table.get_retain]
  split_ifs with h
  · simp
  · simp

lemma hasTag_retainMetadata {alive : Finset UInt64} {s : MetricStorage} {key : UInt64}
    {k v : String} : (retainMetadata alive s).hasTag key k v ↔ s.hasTag key k v ∧ key ∈ alive := by
  simp only [hasTag, get_retainMetadata]
  by_cases h : key ∈ alive
  · simp [h]
  · simp [h]

lemma getD_trimSet (alive set : Finset UInt64) :
    (trimSet alive set).getD ∅ = set.filter (· ∈ alive) := by
  rw [trimSet]
  split_ifs with h
  · rw [h, Option.getD_none]
  · rfl

lemma mem_find_retainTagIndex {alive : Finset UInt64} {s : MetricStorage} {key : UInt64}
    {k v : String} :
    key ∈ (retainTagIndex alive s).findSeriesByTag k v ↔
      key ∈ s.findSeriesByTag k v ∧ key ∈ alive := by
  have hfind : (retainTagIndex alive s).findSeriesByTag k v =
      (s.findSeriesByTag k v).filter (· ∈ alive) := by
    rw [findSeriesByTag, lookupTag, retainTagIndex, Table.get_retain, findSeriesByTag, lookupTag]
    cases s.tagIndex.get k with
    | none => rfl
    | some tagMap =>
        rw [Option.bind_some, Option.bind_some, trimTag, bind_get_of_isEmpty, Table.get_retain]
        cases tagMap.get v with
        | none => rfl
        | some set => exact getD_trimSet alive set
  rw [hfind, Finset.mem_filter]

/-! ### Exact indexes -/

/-- The three maps agree. -/
structure Exact (s : MetricStorage) : Prop where
  described : ∀ n key, (s.series n key).isSome → (s.metadata.get key).isSome
  indexed : ∀ k v key, key ∈ s.findSeriesByTag k v ↔ s.hasTag key k v
  bounded : ∀ n key ps, s.series n key = some ps → ps.length ≤ s.maxPoints

/-- Nothing is left that a collection drops. -/
structure Swept (s : MetricStorage) : Prop where
  metadata : ∀ key, (s.metadata.get key).isSome ↔ ∃ n, (s.series n key).isSome
  series : ∀ n key, s.series n key ≠ some []
  nodes : ∀ n nodeMap, s.inner.get n = some nodeMap → nodeMap.isEmpty = false
  tags : ∀ k tagMap, s.tagIndex.get k = some tagMap → tagMap.isEmpty = false
  sets : ∀ k v tagMap, s.tagIndex.get k = some tagMap → tagMap.get v ≠ some ∅

lemma exact_new (maxPoints : ℕ) (retentionSeconds : Int64) :
    Exact (new maxPoints retentionSeconds) where
  described _ _ h := by simp [MetricStorage.series, new] at h
  indexed _ _ _ := by simp [findSeriesByTag, lookupTag, hasTag, new]
  bounded _ _ _ h := by simp [MetricStorage.series, new] at h

lemma Exact.enterMetadata {s : MetricStorage} (h : s.Exact) (key : UInt64) (e : MetricEnvelope) :
    (enterMetadata key e s).Exact where
  described n x hsome := by
    rw [MetricStorage.series, inner_enterMetadata] at hsome
    have hold := h.described n x hsome
    rw [metadata_enterMetadata, Table.get_vacant]
    split_ifs
    · rfl
    · exact hold
  indexed k v x := by
    rw [mem_find_enterMetadata, hasTag_enterMetadata, h.indexed]
  bounded n x ps hps := by
    rw [MetricStorage.series, inner_enterMetadata] at hps
    rw [maxPoints_enterMetadata]
    exact h.bounded n x ps hps

/-- The push keeps the maps exact when the series has its metadata. -/
lemma Exact.pushPoint {s : MetricStorage} (h : s.Exact) {key : UInt64} (e : MetricEnvelope)
    (hkey : (s.metadata.get key).isSome) : (pushPoint key e s).Exact where
  described n x hsome := by
    rw [series_pushPoint] at hsome
    split_ifs at hsome with hx
    · rw [hx.2]
      exact hkey
    · exact h.described n x hsome
  indexed := h.indexed
  bounded n x ps hps := by
    rw [series_pushPoint] at hps
    split_ifs at hps with hx
    · rw [← Option.some.inj hps]
      exact (length_dropOld_le _ _).trans (length_dropExcess_le _ _)
    · exact h.bounded n x ps hps

lemma Exact.insertEnvelope {s : MetricStorage} (h : s.Exact) (digest : List String → UInt64)
    (e : MetricEnvelope) : (insertEnvelope digest e s).Exact := by
  refine (h.enterMetadata _ e).pushPoint e ?_
  rw [metadata_enterMetadata, Table.get_vacant, if_pos rfl]
  rfl

lemma trimSeries_eq_some {minTs : Int64} {ps ps' : List MetricPoint} :
    trimSeries minTs ps = some ps' ↔ ps' = dropOld minTs ps ∧ ps' ≠ [] := by
  rw [trimSeries]
  split_ifs with h
  · rw [List.isEmpty_iff] at h
    simp only [false_iff, not_and, not_not]
    exact fun heq => heq.trans h
  · rw [List.isEmpty_iff] at h
    constructor
    · intro heq
      rw [← Option.some.inj heq]
      exact ⟨rfl, h⟩
    · rintro ⟨rfl, -⟩
      rfl

/-- A series after the first phase is what was left of it, and not empty. -/
lemma series_trimInner_eq_some {nowMs : Int64} {s : MetricStorage} {n : Uuid} {key : UInt64}
    {ps : List MetricPoint} (h : (trimInner nowMs s).series n key = some ps) :
    ∃ ps', s.series n key = some ps' ∧ ps.length ≤ ps'.length ∧ ps ≠ [] := by
  rw [series_trimInner] at h
  obtain ⟨ps', hps', htrim⟩ := Option.bind_eq_some_iff.mp h
  obtain ⟨rfl, hne⟩ := trimSeries_eq_some.mp htrim
  exact ⟨ps', hps', length_dropOld_le _ _, hne⟩

lemma Exact.trimInner {s : MetricStorage} (h : s.Exact) (nowMs : Int64) :
    (trimInner nowMs s).Exact where
  described n key hsome := by
    obtain ⟨ps, hps⟩ := Option.isSome_iff_exists.mp hsome
    obtain ⟨ps', hps', -, -⟩ := series_trimInner_eq_some hps
    exact h.described n key (by rw [hps']; rfl)
  indexed := h.indexed
  bounded n key ps hps := by
    obtain ⟨ps', hps', hlen, -⟩ := series_trimInner_eq_some hps
    exact hlen.trans (h.bounded n key ps' hps')

/-- Both filters with the series that are stored. -/
lemma Exact.retain {s : MetricStorage} (h : s.Exact) :
    (retainTagIndex s.aliveSeries (retainMetadata s.aliveSeries s)).Exact where
  described n key hsome := by
    have halive : key ∈ s.aliveSeries := mem_aliveSeries.mpr ⟨n, hsome⟩
    show ((retainMetadata s.aliveSeries s).metadata.get key).isSome
    rw [get_retainMetadata, if_pos halive]
    exact h.described n key hsome
  indexed k v key := by
    refine Iff.trans mem_find_retainTagIndex (Iff.trans ?_ hasTag_retainMetadata.symm)
    exact and_congr_left fun _ => h.indexed k v key
  bounded := h.bounded

lemma Exact.performGc {s : MetricStorage} (h : s.Exact) (nowMs : Int64) :
    (performGc nowMs s).Exact :=
  (h.trimInner nowMs).retain

lemma trimNode_isEmpty {minTs : Int64} {nodeMap nodeMap' : Table UInt64 (List MetricPoint)}
    (h : trimNode minTs nodeMap = some nodeMap') : nodeMap'.isEmpty = false := by
  rw [trimNode] at h
  split_ifs at h with hempty
  rw [← Option.some.inj h]
  exact Bool.eq_false_iff.mpr hempty

/-- What the fourth phase leaves of a tag: a map that is not empty, of sets that are
not empty. -/
lemma trimTag_eq_some {alive : Finset UInt64} {tagMap tagMap' : Table String (Finset UInt64)}
    (h : trimTag alive tagMap = some tagMap') :
    tagMap'.isEmpty = false ∧ ∀ v, tagMap'.get v ≠ some ∅ := by
  rw [trimTag] at h
  split_ifs at h with hempty
  rw [← Option.some.inj h]
  refine ⟨Bool.eq_false_iff.mpr hempty, fun v hv => ?_⟩
  rw [Table.get_retain] at hv
  obtain ⟨set, -, hset⟩ := Option.bind_eq_some_iff.mp hv
  rw [trimSet] at hset
  split_ifs at hset with hne
  exact hne (Option.some.inj hset)

lemma Exact.swept_performGc {s : MetricStorage} (h : s.Exact) (nowMs : Int64) :
    (MetricStorage.performGc nowMs s).Swept where
  metadata key := by
    refine ⟨fun hsome => ?_, fun ⟨n, hsome⟩ => (h.performGc nowMs).described n key hsome⟩
    change ((retainMetadata _ (MetricStorage.trimInner nowMs s)).metadata.get key).isSome at hsome
    rw [get_retainMetadata] at hsome
    split_ifs at hsome with halive
    · exact mem_aliveSeries.mp halive
    · cases hsome
  series n key hps := by
    obtain ⟨-, -, -, hne⟩ := series_trimInner_eq_some (s := s) hps
    exact hne rfl
  nodes n nodeMap hnode := by
    change (MetricStorage.trimInner nowMs s).inner.get n = some nodeMap at hnode
    rw [MetricStorage.trimInner, Table.get_retain] at hnode
    obtain ⟨nodeMap', -, htrim⟩ := Option.bind_eq_some_iff.mp hnode
    exact trimNode_isEmpty htrim
  tags k tagMap htag := by
    rw [MetricStorage.performGc, retainTagIndex, Table.get_retain] at htag
    obtain ⟨tagMap', -, htrim⟩ := Option.bind_eq_some_iff.mp htag
    exact (trimTag_eq_some htrim).1
  sets k v tagMap htag := by
    rw [MetricStorage.performGc, retainTagIndex, Table.get_retain] at htag
    obtain ⟨tagMap', -, htrim⟩ := Option.bind_eq_some_iff.mp htag
    exact (trimTag_eq_some htrim).2 v

/-! ### Sequences of operations -/

/-- One call: an envelope, or a collection at a clock reading. -/
inductive Op where
  | insert (e : MetricEnvelope)
  | gc (nowMs : Int64)

def apply (digest : List String → UInt64) (s : MetricStorage) : Op → MetricStorage
  | .insert e => insertEnvelope digest e s
  | .gc nowMs => performGc nowMs s

lemma Exact.apply {s : MetricStorage} (h : s.Exact) (digest : List String → UInt64) (op : Op) :
    (apply digest s op).Exact := by
  cases op with
  | insert e => exact h.insertEnvelope digest e
  | gc nowMs => exact h.performGc nowMs

lemma Exact.foldl_apply {s : MetricStorage} (h : s.Exact) (digest : List String → UInt64)
    (ops : List Op) : (ops.foldl (MetricStorage.apply digest) s).Exact := by
  induction ops generalizing s with
  | nil => exact h
  | cons op ops ih => exact ih (h.apply digest op)

lemma maxPoints_foldl_apply (digest : List String → UInt64) (ops : List Op) (s : MetricStorage) :
    (ops.foldl (apply digest) s).maxPoints = s.maxPoints := by
  induction ops generalizing s with
  | nil => rfl
  | cons op ops ih =>
      refine (ih _).trans ?_
      cases op with
      | insert e => exact maxPoints_enterMetadata _ e s
      | gc nowMs => rfl

/-- **The indexes of the metric store stay exact**, whatever the digest, the
operations, the clock readings, `max_points` and the retention are; and a
collection leaves no metadata without a series and nothing empty. -/
theorem exact_run_and_swept (digest : List String → UInt64) (maxPoints : ℕ)
    (retentionSeconds : Int64) (ops : List Op) :
    (ops.foldl (apply digest) (new maxPoints retentionSeconds)).Exact ∧
      (ops.foldl (apply digest) (new maxPoints retentionSeconds)).maxPoints = maxPoints ∧
      ∀ nowMs, ((ops ++ [Op.gc nowMs]).foldl (apply digest)
        (new maxPoints retentionSeconds)).Swept := by
  have hexact := (exact_new maxPoints retentionSeconds).foldl_apply digest ops
  refine ⟨hexact, maxPoints_foldl_apply digest ops _, fun nowMs => ?_⟩
  rw [List.foldl_append]
  exact hexact.swept_performGc nowMs

end MetricStorage

end Fcore
