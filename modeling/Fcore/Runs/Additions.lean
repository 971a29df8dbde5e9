import Fcore.Runs.Restarts

/-!
Additions over a restart of a node (`SnapshotManager`, `get_connections_handler`).

A node that restarts asks for the connections that were changed since its snapshot, by
the second.  The API compares with the time of its own last change to the connection.  A
creation that is on its way to the node when the snapshot is made is older than the
snapshot and not in it, and a reload takes the time of the last change from the database,
which neither a deletion nor a restoration writes.

* `succeedingNode`: the node, as far as its batches succeed;
* `Thorough`: a process that holds the creations that it has handled;
* `Thorough.sync_iff`: what such a process holds after its requests have been answered;
* `Restarted`: a restart in a history, everything that is published for it being
  handled;
* `restart_complete_iff`: the restarted node has all live connections exactly when each
  is in the snapshot or was changed in its second or later;
* `restart_loses_creation`: a creation that is on its way during the snapshot.
-/

namespace Fcore

open Calculus

/-! ### Batches that succeed -/

/-- A node, as far as its batches succeed. -/
def succeedingNode (ctx : NodeCtx) (inbounds : List Tag) (env : Env) (uuid : Uuid) : Process :=
  { nodeProcess ctx inbounds env uuid with
    Handle := fun msgs s s' => ∃ items : List Item, items.map Prod.fst = msgs ∧
      succeeds ctx items s = true ∧ HandleMessagesBatch ctx items s s'
    handle_creations := by
      rintro msgs s s' ⟨items, rfl, -, hbatch⟩ hcreate
      exact gains_handleMessagesBatch hbatch fun it hit => hcreate it.1 (List.mem_map_of_mem hit) }

/-- Every creation that the process handles is held afterwards. -/
def Thorough (p : Process) : Prop :=
  ∀ (msgs : List Message) (s s' : p.State), p.Handle msgs s s' →
    (∀ msg ∈ msgs, msg.action = .create) → ∀ msg ∈ msgs, p.held s' msg.connId ≠ none

lemma thorough_succeedingNode (ctx : NodeCtx) (inbounds : List Tag) (env : Env) (uuid : Uuid) :
    Thorough (succeedingNode ctx inbounds env uuid) := by
  rintro msgs s s' ⟨items, rfl, hok, hbatch⟩ hcreate msg hmsg
  obtain ⟨it, hit, rfl⟩ := List.mem_map.mp hmsg
  exact held_of_succeeds hbatch hok (fun it hit => hcreate it.1 (List.mem_map_of_mem hit)) hit

section Sync

variable {p : Process} {since : Option ℕ}

lemma Thorough.receives (hp : Thorough p) {es : List (Topic × List Message)} {s s' : p.State}
    (h : Receives p es s s') (hes : ∀ e ∈ es, ∀ msg ∈ e.2, msg.action = .create)
    {e : Topic × List Message} (he : e ∈ es) {msg : Message} (hmsg : msg ∈ e.2) :
    p.held s' msg.connId ≠ none := by
  induction h with
  | nil => exact absurd he List.not_mem_nil
  | @cons e' es s s₁ s' hhears hhandle hrest ih =>
      have hlater : ∀ e ∈ es, ∀ msg ∈ e.2, msg.action = .create := fun e he =>
        hes e (List.mem_cons_of_mem e' he)
      rcases List.mem_cons.mp he with rfl | he
      · have hheld := hp e.2 s s₁ hhandle (hes e List.mem_cons_self) msg hmsg
        have hgrows : Grows Set.univ (p.held s₁) (p.held s') :=
          hrest.grows fun e he msg hmsg => ⟨hlater e he msg hmsg, Set.mem_univ _⟩
        exact (hgrows msg.connId).1 hheld
      · exact ih hlater he

/-- One request adds exactly the connections that it selects. -/
lemma Thorough.request_iff (hp : Thorough p) {req : ConnType} {w w' : World} {reply : Reply}
    {s s' : p.State} (hexec : Exec Rule.any (getConnectionsHandler req) w (.ok reply) w')
    (hreceives : Receives p (published w w') s s') (id : Uuid) :
    p.held s' id ≠ none ↔ p.held s id ≠ none ∨
      ∃ c, w.memory.connections.get id = some c ∧ syncs req c = true := by
  have hcreate : ∀ e ∈ published w w', ∀ msg ∈ e.2, msg.action = .create := fun e he msg hmsg =>
    ((mem_syncPublication hexec he).2 msg hmsg).1
  have hgrows : Grows {id | ∃ c, w.memory.connections.get id = some c ∧ syncs req c = true}
      (p.held s) (p.held s') :=
    hreceives.grows fun e he => (mem_syncPublication hexec he).2
  constructor
  · exact (hgrows id).2
  · rintro (hheld | ⟨c, hget, hsyncs⟩)
    · exact (hgrows id).1 hheld
    · -- the request has been answered, so the connection has been published
      obtain ⟨-, order, hpub | ⟨-, e, he⟩⟩ := exec_getConnectionsHandler hexec
      · have hsel : (id, c) ∈ (w.memory.connections.iter order).filter fun e => syncs req e.2 :=
          List.mem_filter.mpr ⟨Table.mem_iter.mpr hget, hsyncs⟩
        rw [syncPublication, if_neg (List.ne_nil_of_mem hsel)] at hpub
        exact hp.receives hreceives hcreate (hpub ▸ List.mem_singleton_self _)
          (List.mem_map_of_mem hsel)
      · cases he

/-- The connection is selected by one of the requests. -/
def Selected (p : Process) (since : Option ℕ) (tags : List Tag) (w : World) (id : Uuid) : Prop :=
  ∃ c, w.memory.connections.get id = some c ∧ ∃ tag ∈ tags, syncs (p.syncRequest since tag) c = true

/-- **What a process holds after its requests**: what it held before and what they
select. -/
lemma Thorough.sync_iff (hp : Thorough p) {tags : List Tag} {w w' : World} {s s' : p.State}
    (h : Sync p since tags w s w' s') (id : Uuid) :
    p.held s' id ≠ none ↔ p.held s id ≠ none ∨ Selected p since tags w id := by
  induction h with
  | nil => simp [Selected]
  | @cons tag tags w w₁ w' s s₁ s' reply hexec hreceives hrest ih =>
      have hmem := (exec_getConnectionsHandler hexec).1
      have hone := hp.request_iff hexec hreceives id
      rw [ih, hone, Selected, Selected, hmem, or_assoc]
      refine or_congr_right ?_
      simp only [List.exists_mem_cons_iff]
      constructor
      · rintro (⟨c, hget, hsyncs⟩ | ⟨c, hget, hsyncs⟩)
        · exact ⟨c, hget, .inl hsyncs⟩
        · exact ⟨c, hget, .inr hsyncs⟩
      · rintro ⟨c, hget, hsyncs | hsyncs⟩
        · exact .inl ⟨c, hget, hsyncs⟩
        · exact .inr ⟨c, hget, hsyncs⟩

end Sync

/-! ### Restarts -/

/-- A connection that the node ought to have: it is not deleted, of the environment of the
node and of a tag that the node syncs. -/
structure Wanted (env : Env) (tags : List Tag) (w : World) (id : Uuid) (c : Conn) : Prop where
  get : w.memory.connections.get id = some c
  live : c.isDeleted = false
  env_eq : c.env = env
  tag_mem : c.proto.proto ∈ tags

/-- The second of the last change of a connection, cast to an unsigned word. -/
def Conn.modifiedSecond (c : Conn) : ℕ := (c.modifiedAt.timestamp % 2 ^ 64).toNat

/-- A connection that the node ought to have is selected exactly when it was changed in
the second of the snapshot or later. -/
lemma Wanted.selected_iff {p : Process} {tags : List Tag} {w : World} {id : Uuid} {c : Conn}
    (h : Wanted p.env tags w id c) (ts : ℕ) :
    Selected p (some ts) tags w id ↔ ts ≤ c.modifiedSecond := by
  constructor
  · rintro ⟨c', hget, tag, -, hsyncs⟩
    rw [← Option.some.inj (h.get.symm.trans hget)] at hsyncs
    simp only [syncs, Process.syncRequest, Bool.and_eq_true, decide_eq_true_eq] at hsyncs
    exact hsyncs.2
  · intro hts
    refine ⟨c, h.get, c.proto.proto, h.tag_mem, ?_⟩
    simp only [syncs, Process.syncRequest, h.live, h.env_eq, Bool.not_false, Bool.and_eq_true,
      beq_self_eq_true, Bool.or_true, decide_eq_true_eq, and_self, true_and]
    exact hts

/-- A restart of a node in a history: the last snapshot is loaded, the requests are
answered and everything that they publish is handled with success. -/
structure Restarted {ctx : NodeCtx} {inbounds : List Tag} {env : Env} {uuid : Uuid}
    (x₀ x : Site (nodeProcess ctx inbounds env uuid))
    (snapshot : SnapshotData (Uuid → Option Base)) (w' : World) (s' : NodeState) : Prop where
  history : History (nodeProcess ctx inbounds env uuid) x₀ x
  last : x.snapshot = some snapshot
  synced : ∃ s : NodeState, (nodeProcess ctx inbounds env uuid).Load snapshot.memory x.state s ∧
    Sync (succeedingNode ctx inbounds env uuid) (some snapshot.timestamp)
      (nodeProcess ctx inbounds env uuid).tags x.pool.state s w' s'

/-- **A restart makes up for the additions that the snapshot is older than**: in every
history of requests, ticks and reloads at the API, deliveries, losses, snapshots and
restarts, a node that has been restarted from its last snapshot holds every connection that
it ought to have exactly when each of them is in the snapshot or was changed, as the API
remembers it, in the second of the snapshot or later. -/
theorem restart_complete_iff {ctx : NodeCtx} {inbounds : List Tag} {env : Env} {uuid : Uuid}
    {lower : String → String} {ops : List ApiOp} {w₀ w' : World} {s₀ s' : NodeState}
    {x : Site (nodeProcess ctx inbounds env uuid)}
    {snapshot : SnapshotData (Uuid → Option Base)}
    (h : Restarted (Site.start lower ops w₀ s₀) x snapshot w' s') :
    (∀ id c, Wanted env (nodeProcess ctx inbounds env uuid).tags w' id c → s'.memory id ≠ none) ↔
      ∀ id c, Wanted env (nodeProcess ctx inbounds env uuid).tags x.pool.state id c →
        snapshot.memory id ≠ none ∨ snapshot.timestamp ≤ c.modifiedSecond := by
  obtain ⟨s, hload, hsync⟩ := h.synced
  have hstart : s.memory = snapshot.memory := (nodeProcess ctx inbounds env uuid).load_memory hload
  have hmem : w'.memory = x.pool.state.memory := hsync.memory_eq
  refine forall_congr' fun id => forall_congr' fun c => ?_
  have hwanted : Wanted env (nodeProcess ctx inbounds env uuid).tags w' id c ↔
      Wanted env (nodeProcess ctx inbounds env uuid).tags x.pool.state id c := by
    constructor
    · exact fun hw => ⟨hmem ▸ hw.get, hw.live, hw.env_eq, hw.tag_mem⟩
    · exact fun hw => ⟨hmem ▸ hw.get, hw.live, hw.env_eq, hw.tag_mem⟩
  rw [hwanted]
  refine imp_congr_right fun hw => ?_
  have hheld := (thorough_succeedingNode ctx inbounds env uuid).sync_iff hsync id
  have hselected : Selected (succeedingNode ctx inbounds env uuid) (some snapshot.timestamp)
      (nodeProcess ctx inbounds env uuid).tags x.pool.state id ↔
        snapshot.timestamp ≤ c.modifiedSecond := Wanted.selected_iff hw _
  rw [hselected] at hheld
  rw [← hstart]
  exact hheld

/-! ### Two restarts -/

/-- A connection of VLESS is created. -/
def vlessOps : List ApiOp :=
  [.createConnection ⟨.dev, none, .vlessTcpReality, none⟩ ⟨.v4 0x0A000000, 8⟩]

/-- The node, empty, at an empty API. -/
def vlessStart : Site vlessNode := Site.start id vlessOps World.empty NodeState.empty

/-- The request of the node after a restart from a snapshot. -/
def vlessRequest (since : ℕ) : ConnType := ⟨.vlessTcpReality, some since, .dev, .init 9⟩

/-- The empty snapshot of a node that has not received the creation yet. -/
def emptySnapshot (now : DateTime) : SnapshotData (Uuid → Option Base) :=
  createSnapshot (fun _ => none) now

/-- The creation is published and on its way to the node when the node makes its
snapshot. -/
def inFlightSite (pool : Pool Call World) (now : DateTime) : Site vlessNode :=
  ⟨pool, NodeState.empty, published World.empty pool.state, some (emptySnapshot now), none, [],
    none⟩

lemma history_inFlight {pool : Pool Call World} (hreach : Reach Rule.any vlessStart.pool pool)
    (now : DateTime) : History vlessNode vlessStart (inFlightSite pool now) :=
  (History.api .start hreach).snap now

/-- A restart from a snapshot of the second in which the connection was created. -/
theorem restart_complete_in_second :
    ∃ x w', Restarted vlessStart x
        (emptySnapshot 10500000000) w' vlessState ∧
      ∀ id c, Wanted .dev vlessNode.tags w' id c → vlessState.memory id ≠ none := by
  have hrun : ((runWith Rule.any creation vlessStart.pool).bind fun pool =>
      (execWith Rule.any (List.replicate 4 (Input.at 30000000000))
        (getConnectionsHandler (vlessRequest 10)) pool.state).map fun r =>
          (published pool.state r.1, answered r.2,
            (pool.state.memory.connections.iter []).all fun e => decide (10 ≤ e.2.modifiedSecond))) =
      some ([(.init 9, [vlessMessage])], true, true) := by
    decide +kernel
  obtain ⟨pool, hpool, hsync⟩ := Option.bind_eq_some_iff.mp hrun
  obtain ⟨⟨w, r⟩, hexec, hseen⟩ := Option.map_eq_some_iff.mp hsync
  simp only [Prod.mk.injEq] at hseen
  obtain ⟨hpub, hok, hstamps⟩ := hseen
  cases r with
  | error e => cases hok
  | ok reply =>
      have hhandle : (succeedingNode sampleNode [.vlessTcpReality] .dev 9).Handle [vlessMessage]
          NodeState.empty vlessState :=
        ⟨[vlessItem], rfl, by decide +kernel, [], by decide +kernel, rfl⟩
      have hreceives : Receives (succeedingNode sampleNode [.vlessTcpReality] .dev 9)
          (published pool.state w) NodeState.empty vlessState := by
        rw [hpub]
        exact .cons rfl hhandle .nil
      have hrestarted : Restarted vlessStart
          (inFlightSite pool 10500000000) (emptySnapshot 10500000000) w vlessState :=
        ⟨history_inFlight (reach_runWith .refl hpool) _, rfl, NodeState.empty, ⟨[], rfl⟩,
          .cons (exec_of_execWith hexec) hreceives .nil⟩
      refine ⟨_, w, hrestarted, (restart_complete_iff hrestarted).mpr fun id c hwanted => .inr ?_⟩
      have hstamp := List.all_eq_true.mp hstamps (id, c) (Table.mem_iter.mpr hwanted.get)
      exact of_decide_eq_true hstamp

/-- **A creation that is on its way during the snapshot is lost**: the connection is created
in second 10 and the snapshot made in second 11, before the node receives the creation.
After the restart the API has the connection and the node does not. -/
theorem restart_loses_creation :
    ∃ x w' c, Restarted vlessStart x
        (emptySnapshot 11000000000) w' NodeState.empty ∧
      Wanted .dev vlessNode.tags w' 1 c ∧ NodeState.empty.memory 1 = none := by
  have hrun : ((runWith Rule.any creation vlessStart.pool).bind fun pool =>
      (execWith Rule.any (List.replicate 3 (Input.at 30000000000))
        (getConnectionsHandler (vlessRequest 11)) pool.state).map fun r =>
          (published pool.state r.1, answered r.2,
            (r.1.memory.connections.get 1).any fun c =>
              !c.isDeleted && c.env == .dev && c.proto.proto == .vlessTcpReality)) =
      some ([], true, true) := by
    decide +kernel
  obtain ⟨pool, hpool, hsync⟩ := Option.bind_eq_some_iff.mp hrun
  obtain ⟨⟨w, r⟩, hexec, hseen⟩ := Option.map_eq_some_iff.mp hsync
  simp only [Prod.mk.injEq, Option.any_eq_true, Bool.and_eq_true, beq_iff_eq, Bool.not_eq_true'] at hseen
  obtain ⟨hpub, hok, c, hget, ⟨hlive, henv⟩, htag⟩ := hseen
  cases r with
  | error e => cases hok
  | ok reply =>
      have hreceives : Receives (succeedingNode sampleNode [.vlessTcpReality] .dev 9)
          (published pool.state w) NodeState.empty NodeState.empty := by
        rw [hpub]
        exact .nil
      have hrestarted : Restarted vlessStart
          (inFlightSite pool 11000000000) (emptySnapshot 11000000000) w NodeState.empty :=
        ⟨history_inFlight (reach_runWith .refl hpool) _, rfl, NodeState.empty, ⟨[], rfl⟩,
          .cons (exec_of_execWith hexec) hreceives .nil⟩
      have hmem : c.proto.proto ∈ vlessNode.tags := by
        rw [htag]
        decide
      exact ⟨_, w, c, hrestarted, ⟨hget, hlive, henv, hmem⟩, rfl⟩

end Fcore
