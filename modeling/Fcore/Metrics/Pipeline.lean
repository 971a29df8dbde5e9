import Fcore.Calculus.Relay
import Fcore.Metrics.Ranges

/-!
The way of the metrics (`MetricBuffer` of `src/metrics/storage.rs`, the tasks that flush it in
`src/bin/node/node.rs` and `src/bin/auth/service.rs`, `MetricWorker` of
`src/bin/api/metrics.rs`).

A process pushes metrics of its node into a buffer.  `flush_to_zmq` takes the buffer and sends
it as one batch, while more metrics come in; a batch that cannot be sent is only logged.  The
worker of the API receives the batches and inserts their metrics one by one, and the collector
of the store runs in between.

* `MetricPipeline.step`: the steps of all processes, of the worker and of the collector;
* `MetricPipeline.Reached`: the states that they lead to, in any order;
* `stored_points_pushed`: whatever is lost and collected, the points of a series are points that
  were pushed for it, in their order and none of them twice;
* `flushed_series_newest_window`: once everything has arrived, a series is the newest window of
  what was pushed for it.
-/

namespace Fcore

open Calculus
open Calculus.Relay (pushed handled lost pending)
open MetricStorage (Op apply new arrival arrivals)

/-- The buffers and the batches of the processes, each under the id of its node, and the store. -/
structure MetricPipeline where
  relay : Relay Uuid MetricEnvelope
  store : MetricStorage

/-- The steps: of a process or of the worker, or a collection. -/
inductive PipelineEvent where
  | relay (e : RelayEvent Uuid MetricEnvelope)
  | gc (nowMs : Int64)

namespace MetricPipeline

/-- One step.  `push` and `write` are `.push`; `flush_to_zmq` is `.take`, if there is something
in the buffer, and then `.send`, or `.fail` with the batch that it logs; a batch that is not
delivered or not decoded is dropped; the worker goes on with `.receive` when it has inserted the
last batch. -/
def step (digest : List String → UInt64) (p : MetricPipeline) :
    PipelineEvent → Option MetricPipeline
  | .relay (.push n e) =>
      -- a process reports its own node
      if e.nodeId = n then (p.relay.step (.push n e)).map fun r => { p with relay := r } else none
  | .relay (.handle n e) =>
      (p.relay.step (.handle n e)).map fun r => ⟨r, p.store.insertEnvelope digest e⟩
  | .relay e => (p.relay.step e).map fun r => { p with relay := r }
  | .gc nowMs => some { p with store := p.store.performGc nowMs }

/-- The states that sequences of steps lead to. -/
inductive Reached (digest : List String → UInt64) (maxPoints : ℕ) (retentionSeconds : Int64) :
    List PipelineEvent → MetricPipeline → Prop where
  | start : Reached digest maxPoints retentionSeconds [] ⟨.empty, new maxPoints retentionSeconds⟩
  | snoc {es : List PipelineEvent} {e : PipelineEvent} {p p' : MetricPipeline}
      (hrun : Reached digest maxPoints retentionSeconds es p)
      (hstep : p.step digest e = some p') :
      Reached digest maxPoints retentionSeconds (es ++ [e]) p'

end MetricPipeline

namespace PipelineEvent

/-- The step of the relay. -/
def relayed : PipelineEvent → Option (RelayEvent Uuid MetricEnvelope)
  | relay e => some e
  | gc _ => none

/-- What is done to the store. -/
def op : PipelineEvent → Option Op
  | relay (.handle _ e) => some (.insert e)
  | relay (.push _ _) | relay (.take _) | relay (.send _) | relay (.fail _ _)
  | relay (.drop _ _ _) | relay (.receive _) => none
  | gc nowMs => some (.gc nowMs)

end PipelineEvent

namespace MetricPipeline

variable {digest : List String → UInt64} {maxPoints : ℕ} {retentionSeconds : Int64}
  {es : List PipelineEvent} {e : PipelineEvent} {p p' : MetricPipeline}

/-- The steps of the relay in a run. -/
def relayed (es : List PipelineEvent) : List (RelayEvent Uuid MetricEnvelope) :=
  es.filterMap PipelineEvent.relayed

/-- The points that were pushed for a series, in their order. -/
def pushedPoints (digest : List String → UInt64) (n : Uuid) (key : UInt64)
    (es : List PipelineEvent) : List MetricPoint :=
  arrivals digest n key ((pushed n (relayed es)).map Op.insert)

/-- What a step does: to the relay and to the store. -/
structure Stepped (digest : List String → UInt64) (p : MetricPipeline) (e : PipelineEvent)
    (p' : MetricPipeline) : Prop where
  moves : ∀ r, e.relayed = some r → p.relay.step r = some p'.relay
  stays : e.relayed = none → p'.relay = p.relay
  store : p'.store = e.op.elim p.store (apply digest p.store)
  own : ∀ n x, e = .relay (.push n x) → x.nodeId = n

lemma stepped (h : p.step digest e = some p') : Stepped digest p e p' := by
  -- a step of the relay, and what comes of it in the store
  have hrelay : ∀ {r : RelayEvent Uuid MetricEnvelope} {st : MetricStorage},
      (p.relay.step r).map (fun r => ⟨r, st⟩) = some p' → (∀ n x, r = .push n x → x.nodeId = n) →
        st = (PipelineEvent.relay r).op.elim p.store (apply digest p.store) →
          Stepped digest p (.relay r) p' := by
    rintro r st hstep hown rfl
    obtain ⟨r', hr', rfl⟩ := Option.map_eq_some_iff.mp hstep
    refine ⟨fun r₁ hr₁ => ?_, fun hnone => ?_, rfl, fun n x heq => ?_⟩
    · rwa [← Option.some.inj hr₁]
    · cases hnone
    · exact hown n x (PipelineEvent.relay.inj heq)
  cases e with
  | gc nowMs =>
      obtain rfl := Option.some.inj h
      refine ⟨fun r hr => ?_, fun _ => rfl, rfl, fun n x heq => ?_⟩
      · cases hr
      · cases heq
  | relay r =>
      cases r with
      | push n x =>
          rw [step] at h
          split_ifs at h with hown
          refine hrelay h (fun n' x' heq => ?_) rfl
          obtain ⟨rfl, rfl⟩ := RelayEvent.push.inj heq
          exact hown
      | take n | send n | fail n b | drop n k b | receive n | handle n x =>
          exact hrelay h (fun n' x' heq => by cases heq) rfl

/-! ### Runs -/

/-- What a run is to the relay and to the store. -/
structure Ran (digest : List String → UInt64) (maxPoints : ℕ) (retentionSeconds : Int64)
    (es : List PipelineEvent) (p : MetricPipeline) : Prop where
  relay : Relay.Reached (relayed es) p.relay
  store : p.store = (es.filterMap PipelineEvent.op).foldl (apply digest)
    (new maxPoints retentionSeconds)
  own : ∀ {n x}, x ∈ pushed n (relayed es) → x.nodeId = n

lemma Reached.ran (h : Reached digest maxPoints retentionSeconds es p) :
    Ran digest maxPoints retentionSeconds es p := by
  induction h with
  | start => exact ⟨.start, rfl, fun h => absurd h List.not_mem_nil⟩
  | @snoc es e p p' _ hstep ih =>
      obtain ⟨hmoves, hstays, hstore, hown⟩ := stepped hstep
      have hrelayed : relayed (es ++ [e]) = relayed es ++ e.relayed.toList := by
        rw [relayed, List.filterMap_append, relayed]
        cases hr : e.relayed <;> simp [hr]
      have hops : (es ++ [e]).filterMap PipelineEvent.op =
          es.filterMap PipelineEvent.op ++ e.op.toList := by
        rw [List.filterMap_append]
        cases hop : e.op <;> simp [hop]
      refine ⟨?_, ?_, ?_⟩
      · rw [hrelayed]
        cases hr : e.relayed with
        | none => rw [hstays hr]; simpa using ih.relay
        | some r => exact ih.relay.snoc (hmoves r hr)
      · rw [hops, List.foldl_append, ← ih.store, hstore]
        cases e.op <;> rfl
      · intro n x hx
        rw [hrelayed, pushed, List.flatMap_append, List.mem_append] at hx
        rcases hx with hx | hx
        · exact ih.own hx
        · cases e with
          | gc nowMs => exact absurd hx List.not_mem_nil
          | relay r =>
              cases r with
              | push m y =>
                  have hy := hown m y rfl
                  simp only [PipelineEvent.relayed, Option.toList_some, List.flatMap_singleton,
                    Relay.pushedBy] at hx
                  split_ifs at hx with hm
                  · rw [List.mem_singleton.mp hx, hy, hm]
                  · exact absurd hx List.not_mem_nil
              | take | send | fail | drop | receive | handle => exact absurd hx List.not_mem_nil

/-- A handled metric is one of the node. -/
lemma Ran.handled_own (h : Ran digest maxPoints retentionSeconds es p) {n : Uuid}
    {x : MetricEnvelope} (hx : .relay (.handle n x) ∈ es) : x.nodeId = n := by
  refine h.own (h.relay.mem_pushed (List.mem_flatMap.mpr ⟨.handle n x, ?_, ?_⟩))
  · exact List.mem_filterMap.mpr ⟨_, hx, rfl⟩
  · rw [Relay.handledBy, if_pos rfl]
    exact List.mem_singleton_self x

/-- What arrives in a series is what is handled of its node. -/
lemma arrivals_eq_handled (n : Uuid) (key : UInt64)
    (hown : ∀ m x, .relay (.handle m x) ∈ es → x.nodeId = m) :
    arrivals digest n key (es.filterMap PipelineEvent.op) =
      arrivals digest n key ((handled n (relayed es)).map Op.insert) := by
  induction es with
  | nil => rfl
  | cons e es ih =>
      have htail := ih fun m x hx => hown m x (List.mem_cons_of_mem e hx)
      cases e with
      | gc nowMs => exact htail
      | relay r =>
          cases r with
          | push | take | send | fail | drop | receive => exact htail
          | handle m x =>
              have hx := hown m x List.mem_cons_self
              have hops : (PipelineEvent.relay (.handle m x) :: es).filterMap PipelineEvent.op =
                  .insert x :: es.filterMap PipelineEvent.op := rfl
              have hhandled : handled n (relayed (.relay (.handle m x) :: es)) =
                  (if m = n then [x] else []) ++ handled n (relayed es) := rfl
              rw [hops, hhandled, arrivals, List.filterMap_cons, ← arrivals, htail]
              by_cases hm : m = n
              · subst hm
                rw [if_pos rfl, List.singleton_append, List.map_cons, arrivals, arrivals,
                  List.filterMap_cons]
              · -- a metric of another node arrives in no series of this one
                have hnone : arrival digest n key (.insert x) = none :=
                  if_neg fun hand => hm (hx.symm.trans hand.1.symm)
                rw [if_neg hm, List.nil_append, hnone]

/-- Without collections the store sees insertions only. -/
lemma ops_eq_inserts (hgc : ∀ nowMs, .gc nowMs ∉ es) :
    ∃ xs : List MetricEnvelope, es.filterMap PipelineEvent.op = xs.map Op.insert := by
  induction es with
  | nil => exact ⟨[], rfl⟩
  | cons e es ih =>
      obtain ⟨xs, hxs⟩ := ih fun nowMs hin => hgc nowMs (List.mem_cons_of_mem e hin)
      cases e with
      | gc nowMs => exact absurd List.mem_cons_self (hgc nowMs)
      | relay r =>
          cases r with
          | handle m x => exact ⟨x :: xs, congrArg (List.cons (Op.insert x)) hxs⟩
          | push | take | send | fail | drop | receive => exact ⟨xs, hxs⟩

/-- The points of a part of the metrics. -/
lemma arrivals_sublist {xs ys : List MetricEnvelope} (h : xs.Sublist ys) (n : Uuid) (key : UInt64) :
    (arrivals digest n key (xs.map Op.insert)).Sublist
      (arrivals digest n key (ys.map Op.insert)) :=
  (h.map Op.insert).filterMap _

/-- **Nothing is made up, doubled or exchanged**: in every run of the processes, the worker and
the collector, whatever fails to be sent or is dropped, the points of a series are some of those
that were pushed for it, in the order in which they were. -/
theorem stored_points_pushed (h : Reached digest maxPoints retentionSeconds es p) (n : Uuid)
    (key : UInt64) :
    ((p.store.series n key).getD []).Sublist (pushedPoints digest n key es) := by
  have hran := h.ran
  have hstored := MetricStorage.series_sublist_arrivals digest maxPoints retentionSeconds n key
    (es.filterMap PipelineEvent.op)
  rw [← hran.store, arrivals_eq_handled n key fun m x hx => hran.handled_own hx] at hstored
  have hhandled : (handled n (relayed es)).Sublist (pushed n (relayed es)) :=
    (List.sublist_append_left _ _).trans (hran.relay.sublist n)
  exact hstored.trans (arrivals_sublist hhandled n key)

/-- The evaluation of steps. -/
def run (digest : List String → UInt64) (p : MetricPipeline) :
    List PipelineEvent → Option MetricPipeline
  | [] => some p
  | e :: es => (p.step digest e).bind fun p' => p'.run digest es

lemma reached_of_run {es' : List PipelineEvent}
    (h : Reached digest maxPoints retentionSeconds es p) (hrun : p.run digest es' = some p') :
    Reached digest maxPoints retentionSeconds (es ++ es') p' := by
  induction es' generalizing es p with
  | nil =>
      obtain rfl : p = p' := Option.some.inj hrun
      rwa [List.append_nil]
  | cons e es' ih =>
      obtain ⟨p₁, hstep, hrest⟩ := Option.bind_eq_some_iff.mp hrun
      have hall := ih (h.snoc hstep) hrest
      rwa [List.append_assoc, List.singleton_append] at hall

/-- A load sample of a node. -/
def sample (node : Uuid) (ts : Int64) : MetricEnvelope :=
  { nodeId := node, name := "load", value := 1, timestamp := ts, tags := ⟨[], .nil⟩ }

/-- A batch that cannot be sent, and a collection that leaves the point of the next one. -/
def lossyRun : List PipelineEvent :=
  [.relay (.push 7 (sample 7 1000)), .relay (.take 7), .relay (.push 7 (sample 7 2000)),
    .relay (.fail 7 [sample 7 1000]), .relay (.take 7), .relay (.send 7), .relay (.receive 7),
    .relay (.handle 7 (sample 7 2000)), .gc 2500]

/-- The stored point is the second one. -/
theorem stored_points_lossyRun : ∃ p, Reached MetricStorage.lengthDigest 4 1 lossyRun p ∧
    p.store.series 7 4 = some [⟨2000, 1⟩] ∧
    [⟨2000, 1⟩].Sublist (pushedPoints MetricStorage.lengthDigest 7 4 lossyRun) := by
  have hrun : ((⟨.empty, new 4 1⟩ : MetricPipeline).run MetricStorage.lengthDigest lossyRun).map
      (fun p => p.store.series 7 4) = some (some [⟨2000, 1⟩]) := by
    decide +kernel
  obtain ⟨p, hp, hseries⟩ := Option.map_eq_some_iff.mp hrun
  have hreached : Reached MetricStorage.lengthDigest 4 1 lossyRun p := reached_of_run .start hp
  have hpushed := stored_points_pushed hreached 7 4
  rw [hseries, Option.getD_some] at hpushed
  exact ⟨p, hreached, hseries, hpushed⟩

/-- **Everything arrives**: in a run without losses and collections in which the clock of a
process does not go back, a series of its node is, once nothing is on its way, the newest window
of what was pushed for it, for every way in which pushes, flushes and insertions interleave. -/
theorem flushed_series_newest_window (h : Reached digest maxPoints retentionSeconds es p)
    (hret : 0 ≤ retentionSeconds.toInt) (hgc : ∀ nowMs, .gc nowMs ∉ es) (n : Uuid) (key : UInt64)
    (hlost : lost n (relayed es) = []) (hpending : pending n p.relay = []) (last : MetricPoint)
    (hlast : (pushedPoints digest n key es).getLast? = some last)
    (hsorted : (pushedPoints digest n key es).Pairwise (·.timestamp ≤ ·.timestamp))
    (hfits : ∀ x ∈ pushedPoints digest n key es,
      MetricStorage.CutoffFits retentionSeconds x.timestamp) :
    p.store.series n key = some (((pushedPoints digest n key es).rtake maxPoints).filter fun x =>
      last.timestamp.toInt - retentionSeconds.toInt * 1000 ≤ x.timestamp.toInt) := by
  have hran := h.ran
  -- all that was pushed has been handled
  have hall : pushed n (relayed es) = handled n (relayed es) := by
    rw [hran.relay.complete hlost, hpending, List.append_nil]
  obtain ⟨xs, hxs⟩ := ops_eq_inserts hgc
  have harrivals : arrivals digest n key (xs.map Op.insert) = pushedPoints digest n key es := by
    rw [← hxs, arrivals_eq_handled n key fun m x hx => hran.handled_own hx, pushedPoints, hall]
  have hne : pushedPoints digest n key es ≠ [] := by
    intro hnil
    rw [hnil] at hlast
    cases hlast
  rw [hran.store, hxs, MetricStorage.series_foldl_insert, harrivals, if_neg hne,
    MetricStorage.foldl_keepPoint hret hsorted hfits hlast, MetricStorage.since]

/-- Three samples of a node in two batches, and one of another node between them. -/
def flushedRun : List PipelineEvent :=
  [.relay (.push 7 (sample 7 1000)), .relay (.push 7 (sample 7 1500)), .relay (.take 7),
    .relay (.push 7 (sample 7 2500)), .relay (.push 8 (sample 8 100)), .relay (.take 8),
    .relay (.send 8), .relay (.send 7), .relay (.receive 7), .relay (.handle 7 (sample 7 1000)),
    .relay (.take 7), .relay (.send 7), .relay (.handle 7 (sample 7 1500)), .relay (.receive 8),
    .relay (.handle 8 (sample 8 100)), .relay (.receive 7), .relay (.handle 7 (sample 7 2500))]

/-- The window of a second of the three samples. -/
theorem flushed_series_flushedRun : ∃ p, Reached MetricStorage.lengthDigest 4 1 flushedRun p ∧
    p.store.series 7 4 = some [⟨1500, 1⟩, ⟨2500, 1⟩] := by
  have hrun : ((⟨.empty, new 4 1⟩ : MetricPipeline).run MetricStorage.lengthDigest flushedRun).map
      (fun p => pending 7 p.relay) = some [] := by
    decide +kernel
  obtain ⟨p, hp, hpending⟩ := Option.map_eq_some_iff.mp hrun
  have hreached : Reached MetricStorage.lengthDigest 4 1 flushedRun p := reached_of_run .start hp
  have hpoints : pushedPoints MetricStorage.lengthDigest 7 4 flushedRun =
      [⟨1000, 1⟩, ⟨1500, 1⟩, ⟨2500, 1⟩] := by
    decide +kernel
  refine ⟨p, hreached, ?_⟩
  have hwindow := flushed_series_newest_window hreached (by decide)
    (fun nowMs hin => by simp [flushedRun] at hin) 7 4 (by decide +kernel) hpending ⟨2500, 1⟩
    (by rw [hpoints]; rfl) (by rw [hpoints]; decide) fun x hx => by
      rw [hpoints] at hx
      have hall : ∀ x ∈ ([⟨1000, 1⟩, ⟨1500, 1⟩, ⟨2500, 1⟩] : List MetricPoint),
          0 ≤ x.timestamp.toInt ∧ x.timestamp.toInt ≤ 2500 := by decide +kernel
      have hone : (1 : Int64).toInt = 1 := rfl
      constructor <;> rw [hone] <;> have := hall x hx <;> omega
  rw [hwindow, hpoints]
  decide +kernel

end MetricPipeline

end Fcore
