import Fcore.Calculus.Window
import Fcore.Metrics.Storage

/-!
What can be read from the metric store (`get_range`, `get_aggregated_range` of
`src/metrics/storage.rs`), and which points it keeps.

A hash set is visited in an order that nothing fixes, so the aggregation takes the
orders of its two loops from outside.

* `getRange`, `getAggregatedRange`: the two queries; `seriesUnion`: what an
  aggregation is for, the points of all series under a tag;
* `get_getAggregatedRange`: what the two loops leave at a node, the points of the
  series visited last;
* `aggregates_iff_oneSeries`: the aggregation is right exactly where no node has
  points in two of the series;
* `arrivals`: the points that a sequence of operations inserts into a series;
  `series_sublist_arrivals`: what is stored of them, in their order;
* `retained_performGc_iff`: when a collection leaves no point that is too old;
* `series_eq_newest_window`: what is kept of points that arrive in order.
-/

namespace Fcore

open Calculus

namespace MetricStorage

/-! ### Queries -/

/-- The points of a series of a node with a timestamp from `fromMs` to `toMs`. -/
def getRange (s : MetricStorage) (node : Uuid) (key : UInt64) (fromMs toMs : Int64) :
    List MetricPoint :=
  ((s.inner.get node).bind fun nodeData => (nodeData.get key).map fun deque =>
    deque.filter fun p => fromMs ≤ p.timestamp && p.timestamp ≤ toMs).getD []

/-- The orders in which the nodes and the digests of a tag are visited. -/
structure IterOrder where
  nodes : List Uuid
  hashes : List UInt64

/-- A hash set in an order of iteration. -/
def iterSet (set : Finset UInt64) (order : List UInt64) : List UInt64 :=
  (set.sort (· ≤ ·)).insertionSort fun a b => order.idxOf a ≤ order.idxOf b

/-- The body of the inner loop of `get_aggregated_range`. -/
def aggregateSeries (s : MetricStorage) (metricName : String) (fromMs toMs : Int64) (node : Uuid)
    (result : Table Uuid (List MetricPoint)) (hash : UInt64) : Table Uuid (List MetricPoint) :=
  match s.metadata.get hash with
  | none => result
  | some m =>
      if m.1 = metricName then
        let points := s.getRange node hash fromMs toMs
        if points.isEmpty then result else result.put node points
      else result

def getAggregatedRange (s : MetricStorage) (order : IterOrder) (tagKey tagValue metricName : String)
    (fromMs toMs : Int64) : Table Uuid (List MetricPoint) :=
  let hashes := s.findSeriesByTag tagKey tagValue
  (s.inner.iter order.nodes).foldl
    (fun result nodeRef =>
      (iterSet hashes order.hashes).foldl
        (aggregateSeries s metricName fromMs toMs nodeRef.1) result)
    ∅

/-! ### What an aggregation is for -/

/-- The series stands under the tag and its metadata has the name. -/
def Selects (s : MetricStorage) (tagKey tagValue metricName : String) (key : UInt64) : Prop :=
  key ∈ s.findSeriesByTag tagKey tagValue ∧ (s.metadata.get key).map Prod.fst = some metricName

/-- The points of a node in all series under a tag that have the name. -/
def seriesUnion (s : MetricStorage) (tagKey tagValue metricName : String) (fromMs toMs : Int64)
    (node : Uuid) : Multiset MetricPoint :=
  ∑ key ∈ (s.findSeriesByTag tagKey tagValue).filter fun key =>
    (s.metadata.get key).map Prod.fst = some metricName,
      (s.getRange node key fromMs toMs : Multiset _)

/-- The answers to a query are the unions, in whatever order the sets are visited. -/
structure Aggregates (s : MetricStorage) (tagKey tagValue metricName : String)
    (fromMs toMs : Int64) : Prop where
  union : ∀ order n ps,
    (s.getAggregatedRange order tagKey tagValue metricName fromMs toMs).get n = some ps →
      (ps : Multiset MetricPoint) = s.seriesUnion tagKey tagValue metricName fromMs toMs n
  entry : ∀ order n,
    ((s.getAggregatedRange order tagKey tagValue metricName fromMs toMs).get n).isSome ↔
      s.seriesUnion tagKey tagValue metricName fromMs toMs n ≠ 0
  orders : ∀ order order' n,
    (s.getAggregatedRange order tagKey tagValue metricName fromMs toMs).get n =
      (s.getAggregatedRange order' tagKey tagValue metricName fromMs toMs).get n

/-- The node stores a point of the range in the series. -/
def HasPoint (s : MetricStorage) (n : Uuid) (key : UInt64) (fromMs toMs : Int64) : Prop :=
  ∃ ps p, s.series n key = some ps ∧ p ∈ ps ∧ fromMs ≤ p.timestamp ∧ p.timestamp ≤ toMs

/-- No node stores points of the range in two of the selected series. -/
def OneSeries (s : MetricStorage) (tagKey tagValue metricName : String) (fromMs toMs : Int64) :
    Prop :=
  ∀ n key key', s.Selects tagKey tagValue metricName key →
    s.Selects tagKey tagValue metricName key' →
      s.HasPoint n key fromMs toMs → s.HasPoint n key' fromMs toMs → key = key'

/-! ### What the loops of an aggregation do -/

lemma mem_iterSet {set : Finset UInt64} {order : List UInt64} {x : UInt64} :
    x ∈ iterSet set order ↔ x ∈ set := by
  rw [iterSet, List.mem_insertionSort, Finset.mem_sort]

lemma iterSet_perm (set : Finset UInt64) (order : List UInt64) :
    (iterSet set order : Multiset UInt64) = set.val := by
  rw [iterSet, Multiset.coe_eq_coe.mpr (List.perm_insertionSort _ _), Finset.sort_eq]

lemma iterSet_nodup (set : Finset UInt64) (order : List UInt64) : (iterSet set order).Nodup := by
  rw [← Multiset.coe_nodup, iterSet_perm]
  exact set.nodup

lemma getRange_eq (s : MetricStorage) (n : Uuid) (key : UInt64) (fromMs toMs : Int64) :
    s.getRange n key fromMs toMs = ((s.series n key).getD []).filter fun p =>
      fromMs ≤ p.timestamp && p.timestamp ≤ toMs := by
  rw [getRange, series]
  cases s.inner.get n with
  | none => rfl
  | some nodeData =>
      rw [Option.bind_some, Option.bind_some]
      cases nodeData.get key <;> rfl

lemma getRange_ne_nil_iff {s : MetricStorage} {n : Uuid} {key : UInt64} {fromMs toMs : Int64} :
    s.getRange n key fromMs toMs ≠ [] ↔ s.HasPoint n key fromMs toMs := by
  rw [getRange_eq, ne_eq, List.filter_eq_nil_iff, HasPoint]
  cases s.series n key with
  | none => simp
  | some ps => simp

/-- What one round of the inner loop writes at its node. -/
def contribution (s : MetricStorage) (metricName : String) (fromMs toMs : Int64) (node : Uuid)
    (hash : UInt64) : Option (List MetricPoint) :=
  if (s.metadata.get hash).map Prod.fst = some metricName ∧ s.getRange node hash fromMs toMs ≠ []
  then some (s.getRange node hash fromMs toMs) else none

section Loops

variable {s : MetricStorage} {name : String} {fromMs toMs : Int64}

lemma get_aggregateSeries (node n : Uuid) (result : Table Uuid (List MetricPoint))
    (hash : UInt64) :
    (aggregateSeries s name fromMs toMs node result hash).get n =
      if n = node then (s.contribution name fromMs toMs node hash).or (result.get n)
      else result.get n := by
  rw [aggregateSeries, contribution]
  cases s.metadata.get hash with
  | none => simp
  | some m =>
      by_cases hm : m.1 = name
      · by_cases hps : s.getRange node hash fromMs toMs = []
        · simp [hm, hps]
        · simp only [hm, hps, List.isEmpty_iff, ite_true, ite_false, Table.get_put, Option.map_some,
            ne_eq, not_false_eq_true, and_self, Option.some_or]
      · simp [hm]

/-- The inner loop: the series visited last wins. -/
lemma get_foldl_aggregateSeries (node n : Uuid) (hashes : List UInt64)
    (result : Table Uuid (List MetricPoint)) :
    (hashes.foldl (aggregateSeries s name fromMs toMs node) result).get n =
      if n = node then
        (hashes.filterMap (s.contribution name fromMs toMs node)).getLast?.or (result.get n)
      else result.get n := by
  induction hashes generalizing result with
  | nil => simp
  | cons hash hashes ih =>
      rw [List.foldl_cons, ih, get_aggregateSeries]
      split_ifs with hn
      · cases hc : s.contribution name fromMs toMs node hash with
        | none => rw [List.filterMap_cons_none hc, Option.none_or]
        | some ps =>
            rw [List.filterMap_cons_some hc, List.getLast?_cons, Option.some_or]
            cases (hashes.filterMap (s.contribution name fromMs toMs node)).getLast? <;> rfl
      · rfl

/-- The outer loop: what it leaves at a node was there before, if the node is not visited. -/
lemma get_foldl_nodes (n : Uuid) (hashes : List UInt64)
    (nodes : List (Uuid × Table UInt64 (List MetricPoint))) (hnodes : (nodes.map Prod.fst).Nodup)
    (result : Table Uuid (List MetricPoint)) :
    (nodes.foldl (fun result nodeRef =>
      hashes.foldl (aggregateSeries s name fromMs toMs nodeRef.1) result) result).get n =
      if n ∈ nodes.map Prod.fst then
        (hashes.filterMap (s.contribution name fromMs toMs n)).getLast?.or (result.get n)
      else result.get n := by
  induction nodes generalizing result with
  | nil => simp
  | cons node nodes ih =>
      rw [List.map_cons, List.nodup_cons] at hnodes
      rw [List.foldl_cons, ih hnodes.2, get_foldl_aggregateSeries]
      by_cases hn : n = node.1
      · subst hn
        simp [hnodes.1]
      · simp only [hn, ite_false, List.map_cons, List.mem_cons, false_or]

/-- Nothing is found under a node that has no series. -/
lemma contribution_of_none {n : Uuid} (hn : s.inner.get n = none) (hash : UInt64) :
    s.contribution name fromMs toMs n hash = none := by
  have hrange : s.getRange n hash fromMs toMs = [] := by rw [getRange, hn]; rfl
  rw [contribution, hrange, if_neg (by simp)]

/-- What an aggregation answers for a node: the points of the series visited last. -/
lemma get_getAggregatedRange (order : IterOrder) (tagKey tagValue : String) (n : Uuid) :
    (s.getAggregatedRange order tagKey tagValue name fromMs toMs).get n =
      ((iterSet (s.findSeriesByTag tagKey tagValue) order.hashes).filterMap
        (s.contribution name fromMs toMs n)).getLast? := by
  rw [getAggregatedRange, get_foldl_nodes n _ _ (Table.iter_keys_nodup _ _), Table.get_empty,
    Option.or_none]
  split_ifs with hn
  · rfl
  · have hnone : s.inner.get n = none := by
      refine Option.eq_none_iff_forall_not_mem.mpr fun nodeMap hmem => hn ?_
      exact List.mem_map.mpr ⟨(n, nodeMap), Table.mem_iter.mpr hmem, rfl⟩
    have hnil : (iterSet (s.findSeriesByTag tagKey tagValue) order.hashes).filterMap
        (s.contribution name fromMs toMs n) = [] :=
      List.filterMap_eq_nil_iff.mpr fun hash _ => contribution_of_none hnone hash
    rw [hnil, List.getLast?_nil]

lemma contribution_eq_some {n : Uuid} {hash : UInt64} {ps : List MetricPoint} :
    s.contribution name fromMs toMs n hash = some ps ↔
      (s.metadata.get hash).map Prod.fst = some name ∧ ps ≠ [] ∧
        ps = s.getRange n hash fromMs toMs := by
  rw [contribution]
  split_ifs with h
  · constructor
    · intro heq
      rw [← Option.some.inj heq]
      exact ⟨h.1, h.2, rfl⟩
    · rintro ⟨-, -, rfl⟩
      rfl
  · simp only [false_iff, not_and]
    rintro hname hne rfl
    exact h ⟨hname, hne⟩

/-- The union of the series is what the rounds write, one after the other. -/
lemma seriesUnion_eq_flatten (order : List UInt64) (tagKey tagValue : String) (n : Uuid) :
    s.seriesUnion tagKey tagValue name fromMs toMs n =
      (((iterSet (s.findSeriesByTag tagKey tagValue) order).filterMap
        (s.contribution name fromMs toMs n)).flatten : Multiset MetricPoint) := by
  have hcontr (hash : UInt64) :
      (if (s.metadata.get hash).map Prod.fst = some name then
        (s.getRange n hash fromMs toMs : Multiset MetricPoint) else 0) =
        ((s.contribution name fromMs toMs n hash).getD [] : List MetricPoint) := by
    rw [contribution]
    by_cases hname : (s.metadata.get hash).map Prod.fst = some name
    · by_cases hps : s.getRange n hash fromMs toMs = []
      · simp [hps]
      · simp [hname, hps]
    · simp [hname]
  have hflat (hashes : List UInt64) :
      ((hashes.map fun hash =>
        (((s.contribution name fromMs toMs n hash).getD [] : List MetricPoint) :
          Multiset MetricPoint)).sum) =
        ((hashes.filterMap (s.contribution name fromMs toMs n)).flatten :
          Multiset MetricPoint) := by
    induction hashes with
    | nil => rfl
    | cons hash hashes ih =>
        rw [List.map_cons, List.sum_cons, ih]
        cases hc : s.contribution name fromMs toMs n hash with
        | none => rw [List.filterMap_cons_none hc]; simp
        | some ps => rw [List.filterMap_cons_some hc]; simp
  rw [seriesUnion, Finset.sum_filter, ← hflat, Finset.sum]
  simp only [hcontr]
  rw [← iterSet_perm _ order, Multiset.map_coe, Multiset.sum_coe]

/-- Two series of a node contribute exactly if two of the rounds write. -/
lemma length_contributions_le_one_iff (order : List UInt64) (tagKey tagValue : String) (n : Uuid) :
    ((iterSet (s.findSeriesByTag tagKey tagValue) order).filterMap
      (s.contribution name fromMs toMs n)).length ≤ 1 ↔
      ∀ key key', s.Selects tagKey tagValue name key → s.Selects tagKey tagValue name key' →
        s.HasPoint n key fromMs toMs → s.HasPoint n key' fromMs toMs → key = key' := by
  have hsome (key : UInt64) : (s.contribution name fromMs toMs n key).isSome ↔
      (s.metadata.get key).map Prod.fst = some name ∧ s.HasPoint n key fromMs toMs := by
    rw [contribution, ← getRange_ne_nil_iff]
    split_ifs with h
    · exact iff_of_true rfl h
    · exact iff_of_false Bool.false_ne_true h
  have hmem (key : UInt64) : key ∈ ((iterSet (s.findSeriesByTag tagKey tagValue) order).filter
      fun key => (s.contribution name fromMs toMs n key).isSome).toFinset ↔
      s.Selects tagKey tagValue name key ∧ s.HasPoint n key fromMs toMs := by
    rw [List.mem_toFinset, List.mem_filter, mem_iterSet, hsome, Selects, and_assoc]
  rw [List.length_filterMap_eq_countP, List.countP_eq_length_filter,
    ← List.toFinset_card_of_nodup ((iterSet_nodup _ order).filter _), Finset.card_le_one]
  simp only [hmem]
  constructor
  · intro h key key' hkey hkey' hpoint hpoint'
    exact h key ⟨hkey, hpoint⟩ key' ⟨hkey', hpoint'⟩
  · rintro h key ⟨hkey, hpoint⟩ key' ⟨hkey', hpoint'⟩
    exact h key key' hkey hkey' hpoint hpoint'

end Loops

/-- Of lists that are not empty the last one is all of them exactly if there are not two. -/
lemma last_eq_flatten_iff {α : Type} {ls : List (List α)} (hne : ∀ l ∈ ls, l ≠ []) :
    (∀ l, ls.getLast? = some l → (l : Multiset α) = (ls.flatten : Multiset α)) ↔
      ls.length ≤ 1 := by
  rcases List.eq_nil_or_concat' ls with rfl | ⟨front, last, rfl⟩
  · simp
  · simp only [List.getLast?_concat, Option.some.injEq, forall_eq', List.flatten_concat,
      List.length_append, List.length_singleton]
    constructor
    · intro heq
      have hcard := congrArg Multiset.card heq
      rw [Multiset.coe_card, Multiset.coe_card, List.length_append] at hcard
      have hflat : front.flatten = [] := List.eq_nil_of_length_eq_zero (by omega)
      rw [List.flatten_eq_nil_iff] at hflat
      have hnil : front = [] := List.eq_nil_iff_forall_not_mem.mpr fun l hl =>
        hne l (List.mem_append_left _ hl) (hflat l hl)
      rw [hnil, List.length_nil]
    · intro hlen
      have hnil : front = [] := List.eq_nil_of_length_eq_zero (by omega)
      rw [hnil, List.flatten_nil, List.nil_append]

lemma eq_of_perm_of_length_le_one {α : Type} {l l' : List α} (hperm : l.Perm l')
    (hlen : l.length ≤ 1) : l = l' := by
  match l, hlen with
  | [], _ => exact (List.nil_perm.mp hperm).symm
  | [x], _ => exact List.singleton_perm.mp hperm

/-- The aggregation of a store, for any contents of its maps. -/
lemma aggregates_iff {s : MetricStorage} {tagKey tagValue metricName : String}
    {fromMs toMs : Int64} :
    s.Aggregates tagKey tagValue metricName fromMs toMs ↔
      s.OneSeries tagKey tagValue metricName fromMs toMs := by
  have hne (order : List UInt64) (n : Uuid) : ∀ ps ∈
      (iterSet (s.findSeriesByTag tagKey tagValue) order).filterMap
        (s.contribution metricName fromMs toMs n), ps ≠ [] := by
    intro ps hps
    obtain ⟨hash, -, hcontr⟩ := List.mem_filterMap.mp hps
    exact (contribution_eq_some.mp hcontr).2.1
  constructor
  · intro h n
    refine (length_contributions_le_one_iff [] tagKey tagValue n).mp ?_
    refine (last_eq_flatten_iff (hne [] n)).mp fun ps hps => ?_
    rw [← seriesUnion_eq_flatten]
    exact h.union ⟨[], []⟩ n ps ((get_getAggregatedRange _ _ _ n).trans hps)
  · intro h
    have hlen (order : List UInt64) (n : Uuid) :=
      (length_contributions_le_one_iff order tagKey tagValue n).mpr (h n)
    have hunion (order : IterOrder) (n : Uuid) (ps : List MetricPoint)
        (hps :
          (s.getAggregatedRange order tagKey tagValue metricName fromMs toMs).get n = some ps) :
        (ps : Multiset MetricPoint) = s.seriesUnion tagKey tagValue metricName fromMs toMs n := by
      rw [get_getAggregatedRange] at hps
      rw [seriesUnion_eq_flatten order.hashes]
      exact (last_eq_flatten_iff (hne order.hashes n)).mpr (hlen order.hashes n) ps hps
    refine ⟨hunion, fun order n => ?_, fun order order' n => ?_⟩
    · -- An entry stands where some round writes, and a round writes points only.
      rw [get_getAggregatedRange, seriesUnion_eq_flatten order.hashes, List.getLast?_isSome, ne_eq,
        ne_eq, Multiset.coe_eq_zero, List.flatten_eq_nil_iff]
      constructor
      · intro hcontr hnil
        obtain ⟨ps, hps⟩ := List.exists_mem_of_ne_nil _ hcontr
        exact hne order.hashes n ps hps (hnil ps hps)
      · intro hnil hcontr
        exact hnil fun ps hps => by rw [hcontr] at hps; cases hps
    · rw [get_getAggregatedRange, get_getAggregatedRange]
      have hperm : (iterSet (s.findSeriesByTag tagKey tagValue) order.hashes).Perm
          (iterSet (s.findSeriesByTag tagKey tagValue) order'.hashes) := by
        rw [← Multiset.coe_eq_coe, iterSet_perm, iterSet_perm]
      exact congrArg List.getLast?
        (eq_of_perm_of_length_le_one (hperm.filterMap _) (hlen order.hashes n))

/-- **The aggregation of a run.**  Whatever was inserted and collected before, the answers
are the unions of the series exactly if no node has points of the range in two of the
series that the tag and the name select. -/
theorem aggregates_iff_oneSeries (digest : List String → UInt64) (maxPoints : ℕ)
    (retentionSeconds : Int64) (ops : List Op) (tagKey tagValue metricName : String)
    (fromMs toMs : Int64) :
    (ops.foldl (apply digest) (new maxPoints retentionSeconds)).Aggregates
        tagKey tagValue metricName fromMs toMs ↔
      (ops.foldl (apply digest) (new maxPoints retentionSeconds)).OneSeries
        tagKey tagValue metricName fromMs toMs :=
  aggregates_iff

/-- The length of all names and values, a digest for the runs below. -/
def lengthDigest (parts : List String) : UInt64 :=
  UInt64.ofNat (parts.map String.length).sum

/-- The traffic of two users of a node in one environment. -/
def twoUsers : List Op :=
  [.insert { nodeId := 7, name := "traffic", value := 1, timestamp := 1000,
             tags := ⟨[("env", "dev"), ("user", "a")], by decide⟩ },
   .insert { nodeId := 7, name := "traffic", value := 2, timestamp := 2000,
             tags := ⟨[("env", "dev"), ("user", "bob")], by decide⟩ }]

/-- Both users have points under the environment, and one of them is left out. -/
theorem not_aggregates_twoUsers :
    ¬ (twoUsers.foldl (apply lengthDigest) (new 10 60)).Aggregates "env" "dev" "traffic" 0 5000 := by
  intro h
  have hone := aggregates_iff.mp h 7 18 20
    (by rw [Selects]; decide +kernel) (by rw [Selects]; decide +kernel)
    ⟨[⟨1000, 1⟩], ⟨1000, 1⟩, by decide +kernel, by decide, by decide, by decide⟩
    ⟨[⟨2000, 2⟩], ⟨2000, 2⟩, by decide +kernel, by decide, by decide, by decide⟩
  revert hone
  decide

/-! ### Arrivals -/

/-- The point that an operation inserts into a series, if it does. -/
def arrival (digest : List String → UInt64) (n : Uuid) (key : UInt64) : Op → Option MetricPoint
  | .insert e =>
      if n = e.nodeId ∧ key = makeSeriesKey digest e.name e.tags then
        some { timestamp := e.timestamp, value := e.value }
      else none
  | .gc _ => none

/-- The points inserted into a series, in the order of their arrival. -/
def arrivals (digest : List String → UInt64) (n : Uuid) (key : UInt64) (ops : List Op) :
    List MetricPoint :=
  ops.filterMap (arrival digest n key)

/-- A series after the arrival of a point. -/
def keepPoint (maxPoints : ℕ) (retentionSeconds : Int64) (ps : List MetricPoint)
    (p : MetricPoint) : List MetricPoint :=
  dropOld (p.timestamp - retentionSeconds * 1000) (dropExcess maxPoints (ps ++ [p]))

@[simp] lemma retentionSeconds_enterMetadata (key : UInt64) (e : MetricEnvelope)
    (s : MetricStorage) : (enterMetadata key e s).retentionSeconds = s.retentionSeconds := by
  rw [enterMetadata]
  cases s.metadata.get key <;> rfl

lemma retentionSeconds_foldl_apply (digest : List String → UInt64) (ops : List Op)
    (s : MetricStorage) :
    (ops.foldl (apply digest) s).retentionSeconds = s.retentionSeconds := by
  induction ops generalizing s with
  | nil => rfl
  | cons op ops ih =>
      refine (ih _).trans ?_
      cases op with
      | insert e => exact retentionSeconds_enterMetadata _ e s
      | gc nowMs => rfl

/-- The series after an insertion. -/
lemma series_insertEnvelope (digest : List String → UInt64) (e : MetricEnvelope)
    (s : MetricStorage) (n : Uuid) (key : UInt64) :
    (insertEnvelope digest e s).series n key =
      match arrival digest n key (.insert e) with
      | some p => some (keepPoint s.maxPoints s.retentionSeconds ((s.series n key).getD []) p)
      | none => s.series n key := by
  have hseries (x : UInt64) : (enterMetadata x e s).series n key = s.series n key := by
    rw [series, inner_enterMetadata, series]
  rw [insertEnvelope, series_pushPoint, hseries, arrival, maxPoints_enterMetadata,
    retentionSeconds_enterMetadata]
  split_ifs <;> rfl

/-- The series after a collection. -/
lemma series_performGc (nowMs : Int64) (s : MetricStorage) (n : Uuid) (key : UInt64) :
    (performGc nowMs s).series n key =
      (s.series n key).bind (trimSeries (nowMs - s.retentionSeconds * 1000)) :=
  series_trimInner nowMs s n key

lemma dropExcess_eq_rtake (maxPoints : ℕ) (ps : List MetricPoint) :
    dropExcess maxPoints ps = ps.rtake maxPoints := by
  induction ps with
  | nil => simp [dropExcess]
  | cons p ps ih =>
      rw [dropExcess]
      split_ifs with h
      · rw [ih, rtake_cons (by simpa [Nat.lt_succ_iff] using h)]
      · rw [rtake_of_length_le (by omega)]

lemma dropOld_sublist (minTs : Int64) (ps : List MetricPoint) : (dropOld minTs ps).Sublist ps :=
  (List.dropWhile_suffix _).sublist

lemma keepPoint_sublist (maxPoints : ℕ) (retentionSeconds : Int64) (ps : List MetricPoint)
    (p : MetricPoint) : (keepPoint maxPoints retentionSeconds ps p).Sublist (ps ++ [p]) := by
  rw [keepPoint, dropExcess_eq_rtake]
  exact (dropOld_sublist _ _).trans (List.drop_sublist _ _)

/-- What is stored of a series is some of what arrived, in that order. -/
lemma series_sublist_arrivals (digest : List String → UInt64) (maxPoints : ℕ)
    (retentionSeconds : Int64) (n : Uuid) (key : UInt64) (ops : List Op) :
    (((ops.foldl (apply digest) (new maxPoints retentionSeconds)).series n key).getD []).Sublist
      (arrivals digest n key ops) := by
  induction ops using List.reverseRecOn with
  | nil => exact List.Sublist.refl _
  | append_singleton ops op ih =>
      rw [List.foldl_append, arrivals, List.filterMap_append]
      cases op with
      | insert e =>
          change ((insertEnvelope digest e _).series n key).getD [] |>.Sublist _
          rw [series_insertEnvelope]
          cases harr : arrival digest n key (.insert e) with
          | none => exact ih.trans (List.sublist_append_left _ _)
          | some p =>
              rw [List.filterMap_cons_some harr]
              exact (keepPoint_sublist _ _ _ _).trans (ih.append_right _)
      | gc nowMs =>
          change ((performGc nowMs _).series n key).getD [] |>.Sublist _
          rw [series_performGc]
          refine List.Sublist.trans ?_ (ih.trans (List.sublist_append_left _ _))
          cases series _ n key with
          | none => exact List.Sublist.refl _
          | some ps =>
              rw [Option.bind_some, Option.getD_some]
              cases htrim : trimSeries _ ps with
              | none => exact List.nil_sublist _
              | some ps' =>
                  rw [(trimSeries_eq_some.mp htrim).1]
                  exact dropOld_sublist _ _

/-! ### Retention -/

/-- The difference to the retention is computed without an overflow. -/
structure CutoffFits (retentionSeconds ts : Int64) : Prop where
  product : -2 ^ 63 ≤ retentionSeconds.toInt * 1000 ∧ retentionSeconds.toInt * 1000 < 2 ^ 63
  difference : -2 ^ 63 ≤ ts.toInt - retentionSeconds.toInt * 1000 ∧
    ts.toInt - retentionSeconds.toInt * 1000 < 2 ^ 63

lemma toInt_cutoff {retentionSeconds ts : Int64} (h : CutoffFits retentionSeconds ts) :
    (ts - retentionSeconds * 1000).toInt = ts.toInt - retentionSeconds.toInt * 1000 := by
  obtain ⟨hproduct, hdifference⟩ := h
  have hmul : (retentionSeconds * 1000).toInt = retentionSeconds.toInt * 1000 := by
    rw [Int64.toInt_mul, show (1000 : Int64).toInt = 1000 from rfl,
      Int.bmod_eq_of_le (by omega) (by omega)]
  rw [Int64.toInt_sub, hmul, Int.bmod_eq_of_le (by omega) (by omega)]

/-- No stored point is older than `since`. -/
def Retained (s : MetricStorage) (since : ℤ) : Prop :=
  ∀ n key ps, s.series n key = some ps → ∀ p ∈ ps, since ≤ p.timestamp.toInt

/-- No point older than the retention stands behind a point that a collection at `nowMs`
does not drop. -/
def OldFirst (s : MetricStorage) (nowMs : Int64) : Prop :=
  ∀ n key ps, s.series n key = some ps → ∀ (i j : ℕ) (p q : MetricPoint),
    ps[i]? = some p → ps[j]? = some q → i ≤ j →
      nowMs - s.retentionSeconds * 1000 ≤ p.timestamp →
        nowMs.toInt - s.retentionSeconds.toInt * 1000 ≤ q.timestamp.toInt

/-- A collection leaves no old point exactly if the old points of every series stand in
front. -/
lemma retained_performGc (nowMs : Int64) (s : MetricStorage) :
    (performGc nowMs s).Retained (nowMs.toInt - s.retentionSeconds.toInt * 1000) ↔
      s.OldFirst nowMs := by
  have hseries (n : Uuid) (key : UInt64) (ps : List MetricPoint) (hps : s.series n key = some ps)
      (P : MetricPoint → Prop) :
      (∀ ps', (performGc nowMs s).series n key = some ps' → ∀ p ∈ ps', P p) ↔
        ∀ p ∈ dropOld (nowMs - s.retentionSeconds * 1000) ps, P p := by
    rw [series_performGc, hps, Option.bind_some]
    constructor
    · intro h p hp
      exact h _ (trimSeries_eq_some.mpr ⟨rfl, List.ne_nil_of_mem hp⟩) p hp
    · intro h ps' htrim
      rw [(trimSeries_eq_some.mp htrim).1]
      exact h
  have hkept (n : Uuid) (key : UInt64) (ps : List MetricPoint) (hps : s.series n key = some ps) :
      (∀ ps', (performGc nowMs s).series n key = some ps' → ∀ p ∈ ps',
        nowMs.toInt - s.retentionSeconds.toInt * 1000 ≤ p.timestamp.toInt) ↔
        ∀ (i j : ℕ) (p q : MetricPoint), ps[i]? = some p → ps[j]? = some q → i ≤ j →
          nowMs - s.retentionSeconds * 1000 ≤ p.timestamp →
            nowMs.toInt - s.retentionSeconds.toInt * 1000 ≤ q.timestamp.toInt := by
    rw [hseries n key ps hps, dropOld, forall_mem_dropWhile_iff]
    simp only [decide_eq_false_iff_not, Int64.not_lt]
  constructor
  · intro h n key ps hps
    exact (hkept n key ps hps).mp (h n key)
  · intro h n key ps' hps'
    have hold := hps'
    rw [series_performGc] at hold
    obtain ⟨ps, hps, -⟩ := Option.bind_eq_some_iff.mp hold
    exact (hkept n key ps hps).mpr (h n key ps hps) ps' hps'

/-- **Retention.**  After a collection at the end of any run, no stored point is older than
the retention, exactly if before it no series had such a point behind one that the
collection keeps.  Where the points of every series arrive in the order of their
timestamps, and the cutoff does not overflow, none has. -/
theorem retained_performGc_iff (digest : List String → UInt64) (maxPoints : ℕ)
    (retentionSeconds nowMs : Int64) (ops : List Op) :
    ((performGc nowMs (ops.foldl (apply digest) (new maxPoints retentionSeconds))).Retained
        (nowMs.toInt - retentionSeconds.toInt * 1000) ↔
      (ops.foldl (apply digest) (new maxPoints retentionSeconds)).OldFirst nowMs) ∧
      ((∀ n key, (arrivals digest n key ops).Pairwise (·.timestamp ≤ ·.timestamp)) →
        CutoffFits retentionSeconds nowMs →
          (ops.foldl (apply digest) (new maxPoints retentionSeconds)).OldFirst nowMs) := by
  have hret := retentionSeconds_foldl_apply digest ops (new maxPoints retentionSeconds)
  constructor
  · have hiff := retained_performGc nowMs (ops.foldl (apply digest) (new maxPoints retentionSeconds))
    rwa [hret] at hiff
  · intro hsorted hfits n key ps hps i j p q hp hq hij hkept
    have hsub := series_sublist_arrivals digest maxPoints retentionSeconds n key ops
    rw [hps, Option.getD_some] at hsub
    have hpq : p.timestamp ≤ q.timestamp := by
      rcases hij.eq_or_lt with rfl | hlt
      · rw [hp, Option.some.injEq] at hq
        rw [hq]
        exact Int64.le_refl _
      · obtain ⟨hi, rfl⟩ := List.getElem?_eq_some_iff.mp hp
        obtain ⟨hj, rfl⟩ := List.getElem?_eq_some_iff.mp hq
        exact List.pairwise_iff_getElem.mp ((hsorted n key).sublist hsub) i j hi hj hlt
    rw [hret] at hkept ⊢
    change nowMs - retentionSeconds * 1000 ≤ p.timestamp at hkept
    rw [Int64.le_iff_toInt_le, toInt_cutoff hfits] at hkept
    rw [Int64.le_iff_toInt_le] at hpq
    change nowMs.toInt - retentionSeconds.toInt * 1000 ≤ q.timestamp.toInt
    omega

/-- A point that arrives late, from a node whose clock is behind. -/
def lateArrival : List Op :=
  [.insert { nodeId := 7, name := "load", value := 1, timestamp := 90000, tags := ⟨[], by decide⟩ },
   .insert { nodeId := 7, name := "load", value := 2, timestamp := 10000, tags := ⟨[], by decide⟩ }]

/-- The late point stays, 90 s after its time, with a retention of 60 s. -/
theorem not_retained_lateArrival :
    ¬ (performGc 100000 (lateArrival.foldl (apply lengthDigest) (new 10 60))).Retained
      ((100000 : Int64).toInt - (60 : Int64).toInt * 1000) := by
  intro h
  have hold := h 7 4 [⟨90000, 1⟩, ⟨10000, 2⟩] (by decide +kernel) ⟨10000, 2⟩ (by decide)
  revert hold
  decide

/-! ### Points in order -/

/-- The series after a run of insertions. -/
lemma series_foldl_insert (digest : List String → UInt64) (maxPoints : ℕ)
    (retentionSeconds : Int64) (n : Uuid) (key : UInt64) (es : List MetricEnvelope) :
    ((es.map Op.insert).foldl (apply digest) (new maxPoints retentionSeconds)).series n key =
      if arrivals digest n key (es.map Op.insert) = [] then none
      else some ((arrivals digest n key (es.map Op.insert)).foldl
        (keepPoint maxPoints retentionSeconds) []) := by
  induction es using List.reverseRecOn with
  | nil => rfl
  | append_singleton es e ih =>
      rw [List.map_append, List.foldl_append, arrivals, List.filterMap_append]
      change (insertEnvelope digest e _).series n key = _
      rw [series_insertEnvelope, maxPoints_foldl_apply, retentionSeconds_foldl_apply, ih]
      cases harr : arrival digest n key (.insert e) with
      | none =>
          rw [List.map_singleton, List.filterMap_cons_none harr, List.filterMap_nil,
            List.append_nil]
          rfl
      | some p =>
          rw [List.map_singleton, List.filterMap_cons_some harr, List.filterMap_nil,
            if_neg (List.append_ne_nil_of_right_ne_nil _ (List.cons_ne_nil p [])),
            List.foldl_append]
          change some (keepPoint maxPoints retentionSeconds _ p) = some (keepPoint _ _ _ p)
          rw [arrivals]
          split_ifs with hnil
          · rw [hnil]
            rfl
          · rfl

/-- The points of a list with a timestamp from `since` on. -/
def since (t : ℤ) (ps : List MetricPoint) : List MetricPoint :=
  ps.filter fun p => t ≤ p.timestamp.toInt

lemma pairwise_since {ps : List MetricPoint} (t : ℤ)
    (h : ps.Pairwise (·.timestamp ≤ ·.timestamp)) :
    ps.Pairwise fun p q => decide (t ≤ p.timestamp.toInt) → decide (t ≤ q.timestamp.toInt) := by
  refine h.imp fun {p q} hpq => ?_
  rw [Int64.le_iff_toInt_le] at hpq
  simp only [decide_eq_true_eq]
  omega

/-- The loop over old points, on points in order. -/
lemma dropOld_eq_since {minTs : Int64} {ps : List MetricPoint}
    (h : ps.Pairwise (·.timestamp ≤ ·.timestamp)) : dropOld minTs ps = since minTs.toInt ps := by
  rw [since, ← dropWhile_eq_filter (pairwise_since minTs.toInt h), dropOld]
  congr 1
  funext p
  rw [← decide_not, decide_eq_decide, Int64.lt_iff_toInt_lt, not_le]

/-- One arrival, from the newest window of the points before to the one with the new point:
what the earlier cutoff dropped is older than the later one too. -/
lemma keepPoint_since (maxPoints : ℕ) {retentionSeconds : Int64} {ps : List MetricPoint}
    {p : MetricPoint} {t : ℤ} (hsorted : (ps ++ [p]).Pairwise (·.timestamp ≤ ·.timestamp))
    (hfits : CutoffFits retentionSeconds p.timestamp) (hret : 0 ≤ retentionSeconds.toInt)
    (ht : t ≤ p.timestamp.toInt - retentionSeconds.toInt * 1000) :
    keepPoint maxPoints retentionSeconds (since t (ps.rtake maxPoints)) p =
      since (p.timestamp.toInt - retentionSeconds.toInt * 1000) ((ps ++ [p]).rtake maxPoints) := by
  have htrimmed : (ps.rtake maxPoints ++ [p]).Pairwise (·.timestamp ≤ ·.timestamp) :=
    hsorted.sublist ((List.drop_sublist _ _).append_right _)
  have hpush : since t (ps.rtake maxPoints) ++ [p] = since t (ps.rtake maxPoints ++ [p]) := by
    have hnew : t ≤ p.timestamp.toInt := by omega
    rw [since, since, List.filter_append]
    simp [hnew]
  have hinner : dropExcess maxPoints (since t (ps.rtake maxPoints) ++ [p]) =
      since t ((ps ++ [p]).rtake maxPoints) := by
    rw [dropExcess_eq_rtake, hpush, since, ← filter_rtake (pairwise_since t htrimmed),
      rtake_rtake_concat, since]
  have hkept : (since t ((ps ++ [p]).rtake maxPoints)).Pairwise (·.timestamp ≤ ·.timestamp) :=
    hsorted.sublist ((List.filter_sublist).trans (List.drop_sublist _ _))
  rw [keepPoint, hinner, dropOld_eq_since hkept, toInt_cutoff hfits, since, since, since,
    List.filter_filter]
  refine List.filter_congr fun q _ => ?_
  rw [← Bool.decide_and, decide_eq_decide]
  omega

/-- A run of arrivals in order. -/
lemma foldl_keepPoint {maxPoints : ℕ} {retentionSeconds : Int64} {ps : List MetricPoint}
    (hret : 0 ≤ retentionSeconds.toInt) (hsorted : ps.Pairwise (·.timestamp ≤ ·.timestamp))
    (hfits : ∀ p ∈ ps, CutoffFits retentionSeconds p.timestamp) {last : MetricPoint}
    (hlast : ps.getLast? = some last) :
    ps.foldl (keepPoint maxPoints retentionSeconds) [] =
      since (last.timestamp.toInt - retentionSeconds.toInt * 1000) (ps.rtake maxPoints) := by
  induction ps using List.reverseRecOn generalizing last with
  | nil => cases hlast
  | append_singleton ps p ih =>
      rw [List.getLast?_concat, Option.some.injEq] at hlast
      subst hlast
      have hp : CutoffFits retentionSeconds p.timestamp := hfits p (by simp)
      rw [List.foldl_append]
      change keepPoint maxPoints retentionSeconds (ps.foldl _ []) p = _
      cases hprev : ps.getLast? with
      | none =>
          rw [List.getLast?_eq_none_iff] at hprev
          subst hprev
          have hfirst := keepPoint_since maxPoints (p := p) hsorted hp hret le_rfl
          rwa [List.rtake_nil] at hfirst
      | some q =>
          obtain ⟨hps, -, hle⟩ := List.pairwise_append.mp hsorted
          have hqp := hle q (List.mem_of_getLast? hprev) p (by simp)
          rw [Int64.le_iff_toInt_le] at hqp
          rw [ih hps (fun p' hp' => hfits p' (List.mem_append_left _ hp')) hprev]
          exact keepPoint_since maxPoints hsorted hp hret (by omega)

/-- **Points in order.**  Of points that arrive in a series with timestamps that do not
decrease, whatever arrives in other series between them, the last `max_points` are kept,
less those older than the retention at the last one. -/
theorem series_eq_newest_window (digest : List String → UInt64) (maxPoints : ℕ)
    (retentionSeconds : Int64) (hret : 0 ≤ retentionSeconds.toInt) (es : List MetricEnvelope)
    (n : Uuid) (key : UInt64) (last : MetricPoint)
    (hlast : (arrivals digest n key (es.map Op.insert)).getLast? = some last)
    (hsorted : (arrivals digest n key (es.map Op.insert)).Pairwise (·.timestamp ≤ ·.timestamp))
    (hfits : ∀ p ∈ arrivals digest n key (es.map Op.insert),
      CutoffFits retentionSeconds p.timestamp) :
    ((es.map Op.insert).foldl (apply digest) (new maxPoints retentionSeconds)).series n key =
      some (((arrivals digest n key (es.map Op.insert)).rtake maxPoints).filter fun p =>
        last.timestamp.toInt - retentionSeconds.toInt * 1000 ≤ p.timestamp.toInt) := by
  have hne : arrivals digest n key (es.map Op.insert) ≠ [] := by
    intro hnil
    rw [hnil] at hlast
    cases hlast
  rw [series_foldl_insert, if_neg hne, foldl_keepPoint hret hsorted hfits hlast, since]

/-- Load samples of a node, one every half second. -/
def loadSamples : List MetricEnvelope :=
  [1000, 1500, 2000, 2500, 3000].map fun ts =>
    { nodeId := 7, name := "load", value := 1, timestamp := ts, tags := ⟨[], by decide⟩ }

/-- Of five samples four may be kept, and the retention of a second leaves three. -/
theorem series_loadSamples :
    ((loadSamples.map Op.insert).foldl (apply lengthDigest) (new 4 1)).series 7 4 =
      some [⟨2000, 1⟩, ⟨2500, 1⟩, ⟨3000, 1⟩] := by
  have hwindow := series_eq_newest_window lengthDigest 4 1 (by decide) loadSamples 7 4 ⟨3000, 1⟩
    (by decide +kernel) (by decide +kernel) fun p hp => by
      have hall : ∀ p ∈ arrivals lengthDigest 7 4 (loadSamples.map Op.insert),
          0 ≤ p.timestamp.toInt ∧ p.timestamp.toInt ≤ 3000 := by decide +kernel
      have hone : (1 : Int64).toInt = 1 := rfl
      constructor <;> rw [hone] <;> have := hall p hp <;> omega
  rw [hwindow]
  decide +kernel

end MetricStorage

end Fcore
