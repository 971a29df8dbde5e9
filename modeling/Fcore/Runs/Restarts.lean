import Fcore.Node.Process
import Fcore.Runs.DurableDeletes

/-!
Restarts of a node or of the auth service (`SnapshotManager`, `run` of both
services, `get_connections_handler`).

A process that restarts loads its last snapshot and asks the API for the connections
that were changed since.  The answer leaves deleted connections out and is published as
creations, so nothing of it removes a connection: a deletion whose message is missed is
never made up for.  Nor does a start remove anything from the backends of a node, which go on
while the node is down.

* `Site`: the API with its requests, the bus on the way to one process, the process and
  its last snapshot;
* `History`: the sites that requests, deliveries, losses, snapshots, starts and their
  synchronisations lead to, in any order;
* `NoneDeleted`: no record and no peer or user is of a connection that the API marks as
  deleted; `Revokes`: this is so of the process, and it accepts no token of one;
* `restart_revokes_iff`: after a start and its synchronisation the process revokes exactly
  when none was among what it has found, the snapshot and the backends;
* `restart_keeps_deleted`, `restart_keeps_user`: deletions that are missed.
-/

namespace Fcore

open Calculus

/-! ### Synchronisation -/

/-- The publications between two states of the API, oldest first. -/
def published (w w' : World) : List (Topic × List Message) :=
  (w'.bus.take (w'.bus.length - w.bus.length)).reverse

/-- The connection is in the memory of the API and not deleted. -/
def Alive (w : World) (id : Uuid) : Prop :=
  ∃ c, w.memory.connections.get id = some c ∧ c.isDeleted = false

/-- The publication of a synchronisation: nothing for no connections, else their
creations. -/
def syncPublication (topic : Topic) (es : List (Uuid × Conn)) : List (Topic × List Message) :=
  if es = [] then [] else [(topic, es.map fun e => e.2.asCreateMessage e.1)]

/-- `POST /connections/sync` leaves the memory alone and publishes what it selects, unless
the publication fails. -/
lemma exec_getConnectionsHandler {rule : Rule Call Input World} {req : ConnType} {w w' : World}
    {r : Except Error Reply} (h : Exec rule (getConnectionsHandler req) w r w') :
    w'.memory = w.memory ∧ ∃ order,
      published w w' = syncPublication req.topic
        ((w.memory.connections.iter order).filter fun e => syncs req e.2) ∨
      published w w' = [] ∧ ∃ e, r = .error e := by
  simp only [getConnectionsHandler, Prog.perform_bind] at h
  obtain ⟨i₁, w₁, u₁, hlock, -, hrest⟩ := h.of_call
  obtain ⟨l₁, -, rfl⟩ := exec_guard.mp hlock
  obtain ⟨i₂, w₂, es, hlook, -, hrest⟩ := hrest.of_call
  obtain ⟨-, hw₂, hes⟩ := exec_look.mp hlook
  change es = (w.memory.connections.iter i₂.order).filter (fun e => syncs req e.2) at hes
  subst hw₂
  cases es with
  | nil =>
      obtain ⟨i₃, w₃, u₃, hlock, -, hrest⟩ := hrest.of_call
      obtain ⟨l₃, -, rfl⟩ := exec_guard.mp hlock
      obtain ⟨-, rfl⟩ := hrest.of_pure
      exact ⟨rfl, i₂.order, .inl (by simp [published, syncPublication, ← hes])⟩
  | cons e es =>
      obtain ⟨i₃, w₃, r₃, hbus, -, hrest⟩ := hrest.of_call
      obtain ⟨hw₃, hr₃⟩ := exec_bus.mp hbus
      by_cases hok : i₃.ok = true
      · simp only [Call.execBus, hok, if_true] at hw₃ hr₃
        subst hw₃ hr₃
        obtain ⟨i₄, w₄, u₄, hlock, -, hrest⟩ := hrest.of_call
        obtain ⟨l₄, -, rfl⟩ := exec_guard.mp hlock
        obtain ⟨-, rfl⟩ := hrest.of_pure
        exact ⟨rfl, i₂.order, .inl (by simp [published, syncPublication, ← hes])⟩
      · simp only [Call.execBus, hok] at hw₃ hr₃
        subst hw₃ hr₃
        obtain ⟨i₄, w₄, u₄, hlock, -, hrest⟩ := hrest.of_call
        obtain ⟨l₄, -, rfl⟩ := exec_guard.mp hlock
        obtain ⟨rfl, rfl⟩ := hrest.of_pure
        exact ⟨rfl, i₂.order, .inr ⟨by simp [published], _, rfl⟩⟩

/-- What a synchronisation publishes are the creations of connections that it selects. -/
lemma asCreateMessage_of_published {req : ConnType} {w w' : World} {rule : Rule Call Input World}
    {r : Except Error Reply} (h : Exec rule (getConnectionsHandler req) w r w')
    {e : Topic × List Message} (he : e ∈ published w w') : e.1 = req.topic ∧
      ∀ msg ∈ e.2, ∃ id c, w.memory.connections.get id = some c ∧ syncs req c = true ∧
        msg = c.asCreateMessage id := by
  obtain ⟨-, order, hpub | ⟨hpub, -⟩⟩ := exec_getConnectionsHandler h
  · rw [hpub, syncPublication] at he
    split_ifs at he with hnil
    · exact absurd he List.not_mem_nil
    · rw [List.mem_singleton.mp he]
      refine ⟨rfl, fun msg hmsg => ?_⟩
      obtain ⟨e', he', rfl⟩ := List.mem_map.mp hmsg
      obtain ⟨hmem, hsyncs⟩ := List.mem_filter.mp he'
      exact ⟨e'.1, e'.2, Table.mem_iter.mp hmem, hsyncs, rfl⟩
  · rw [hpub] at he
    exact absurd he List.not_mem_nil

lemma mem_syncPublication {req : ConnType} {w w' : World} {rule : Rule Call Input World}
    {r : Except Error Reply} (h : Exec rule (getConnectionsHandler req) w r w')
    {e : Topic × List Message} (he : e ∈ published w w') : e.1 = req.topic ∧
      ∀ msg ∈ e.2, msg.action = .create ∧
        ∃ c, w.memory.connections.get msg.connId = some c ∧ syncs req c = true := by
  obtain ⟨htopic, hmsgs⟩ := asCreateMessage_of_published h he
  refine ⟨htopic, fun msg hmsg => ?_⟩
  obtain ⟨id, c, hget, hsyncs, rfl⟩ := hmsgs msg hmsg
  exact ⟨rfl, c, hget, hsyncs⟩

/-- A connection that is selected is not deleted. -/
lemma isDeleted_of_syncs {req : ConnType} {c : Conn} (h : syncs req c = true) :
    c.isDeleted = false := by
  simp only [syncs, Bool.and_eq_true, Bool.not_eq_true'] at h
  exact h.1.1.1

/-- The request of a process for one of its tags. -/
def Process.syncRequest (p : Process) (lastUpdate : Option ℕ) (tag : Tag) : ConnType :=
  ⟨tag, lastUpdate, p.env, .init p.uuid⟩

/-- Publications that reach the process one after the other. -/
inductive Receives (p : Process) : List (Topic × List Message) → p.State → p.State → Prop where
  | nil {s : p.State} : Receives p [] s s
  | cons {e : Topic × List Message} {es : List (Topic × List Message)} {s s₁ s' : p.State}
      (hhears : p.hears e.1 = true) (hhandle : p.Handle e.2 s s₁) (hrest : Receives p es s₁ s') :
      Receives p (e :: es) s s'

/-- The tags are synced one after the other, each request answered and its publication
handled. -/
inductive Sync (p : Process) (lastUpdate : Option ℕ) :
    List Tag → World → p.State → World → p.State → Prop where
  | nil {w : World} {s : p.State} : Sync p lastUpdate [] w s w s
  | cons {tag : Tag} {tags : List Tag} {w w₁ w' : World} {s s₁ s' : p.State} {reply : Reply}
      (hexec : Exec Rule.any (getConnectionsHandler (p.syncRequest lastUpdate tag)) w
        (.ok reply) w₁)
      (hreceives : Receives p (published w w₁) s s₁)
      (hrest : Sync p lastUpdate tags w₁ s₁ w' s') : Sync p lastUpdate (tag :: tags) w s w' s'

/-- The connections of the memory of a process. -/
def Process.held (p : Process) (s : p.State) : Uuid → Option Base := p.find (p.memory s)

/-- What creations with the given sources do to a process. -/
def Process.GainsFrom (p : Process) (source : Uuid → Option WgParam → Prop)
    (s s' : p.State) : Prop :=
  Gains p.slots source (p.held s) (p.held s') (p.filled s) (p.filled s')

lemma Receives.gains {p : Process} {es : List (Topic × List Message)} {s s' : p.State}
    {source : Uuid → Option WgParam → Prop} (h : Receives p es s s')
    (hes : ∀ e ∈ es, ∀ msg ∈ e.2, msg.action = .create ∧ source msg.connId msg.wg) :
    p.GainsFrom source s s' := by
  induction h with
  | nil => exact .refl _ _ _
  | @cons e es s s₁ s' hhears hhandle hrest ih =>
      have hfirst := hes e List.mem_cons_self
      have hone : p.GainsFrom source s s₁ := by
        refine (p.handle_creations hhandle fun msg hmsg => (hfirst msg hmsg).1).mono ?_
        rintro id wg ⟨msg, hmsg, rfl, rfl⟩
        exact (hfirst msg hmsg).2
      exact hone.trans (ih fun e' he' => hes e' (List.mem_cons_of_mem e he'))

lemma Receives.grows {p : Process} {es : List (Topic × List Message)} {s s' : p.State}
    {ids : Set Uuid} (h : Receives p es s s')
    (hes : ∀ e ∈ es, ∀ msg ∈ e.2, msg.action = .create ∧ msg.connId ∈ ids) :
    Grows ids (p.held s) (p.held s') := by
  have hgains : p.GainsFrom (fun id _ => id ∈ ids) s s' := h.gains hes
  exact hgains.grows.mono fun _ ⟨_, hid⟩ => hid

/-- The connection is in the memory of the API, not deleted, with these parameters. -/
def AliveWith (w : World) (id : Uuid) (wg : Option WgParam) : Prop :=
  ∃ c, w.memory.connections.get id = some c ∧ c.isDeleted = false ∧ c.proto.wg = wg

/-- A deleted connection is not alive. -/
lemma not_alive_of_deleted {w : World} {id : Uuid} {c : Conn} {wg : Option WgParam}
    (hget : w.memory.connections.get id = some c) (hdel : c.isDeleted = true) :
    ¬ AliveWith w id wg := by
  rintro ⟨c', hget', hlive, -⟩
  rw [Option.some.inj (hget.symm.trans hget'), hlive] at hdel
  cases hdel

/-- One request of a synchronisation only adds connections that are not deleted. -/
lemma Receives.gains_sync {p : Process} {req : ConnType} {rule : Rule Call Input World}
    {w w' : World} {r : Except Error Reply} {s s' : p.State}
    (hexec : Exec rule (getConnectionsHandler req) w r w') (h : Receives p (published w w') s s') :
    p.GainsFrom (AliveWith w) s s' := by
  refine h.gains fun e he msg hmsg => ?_
  obtain ⟨id, c, hget, hsyncs, rfl⟩ := (asCreateMessage_of_published hexec he).2 msg hmsg
  exact ⟨rfl, c, hget, isDeleted_of_syncs hsyncs, rfl⟩

lemma aliveWith_congr {w w' : World} (h : w'.memory = w.memory) : AliveWith w' = AliveWith w := by
  funext id wg
  rw [AliveWith, AliveWith, h]

/-- A synchronisation leaves the memory of the API alone. -/
lemma Sync.memory_eq {p : Process} {lastUpdate : Option ℕ} {tags : List Tag} {w w' : World}
    {s s' : p.State} (h : Sync p lastUpdate tags w s w' s') : w'.memory = w.memory := by
  induction h with
  | nil => rfl
  | cons hexec _ _ ih => exact ih.trans (exec_getConnectionsHandler hexec).1

/-! ### Histories -/

/-- What a start has met: the memory that it loads, and the state in which the process and its
backends were. -/
structure Found (p : Process) where
  memory : p.Memory
  before : p.State

/-- The API with its running requests, one process, the publications on their way to it,
and its last snapshot. -/
structure Site (p : Process) where
  pool : Pool Call World
  state : p.State
  queue : List (Topic × List Message)
  snapshot : Option (SnapshotData p.Memory)
  /-- The time of the snapshot of the last start, and the tags that are still to be synced. -/
  since : Option ℕ
  todo : List Tag
  /-- What the last start has met, until the API or the bus does something else than to
  synchronise. -/
  loaded : Option (Found p)

/-- The memory that the process starts with. -/
def Site.toLoad {p : Process} (x : Site p) : p.Memory :=
  match x.snapshot with
  | some snapshot => snapshot.memory
  | none => p.blank

/-- The start: requests and ticks at the API, and a process without a snapshot. -/
def Site.start {p : Process} (lower : String → String) (ops : List ApiOp) (w : World)
    (s : p.State) : Site p :=
  ⟨⟨w, ops.map (ApiOp.prog lower)⟩, s, [], none, none, [], none⟩

/-- The sites that are reached.  A publication arrives in its order or is missed, and a
process that is down misses everything. -/
inductive History (p : Process) (x₀ : Site p) : Site p → Prop where
  | start : History p x₀ x₀
  /-- The API makes some steps. -/
  | api {x : Site p} {pool : Pool Call World} (h : History p x₀ x)
      (hreach : Reach Rule.any x.pool pool) :
      History p x₀ { x with
        pool := pool
        queue := x.queue ++ published x.pool.state pool.state
        loaded := none }
  /-- The process handles a publication.  A batch is one step: a snapshot that a node makes while
  some messages of the batch wait for Xray is left out. -/
  | receive {x : Site p} {e : Topic × List Message} {es : List (Topic × List Message)}
      {s' : p.State} (h : History p x₀ x) (hqueue : x.queue = e :: es)
      (hhears : p.hears e.1 = true) (hhandle : p.Handle e.2 x.state s') :
      History p x₀ { x with state := s', queue := es, loaded := none }
  /-- The process misses a publication, or it is not for it. -/
  | miss {x : Site p} {e : Topic × List Message} {es : List (Topic × List Message)}
      (h : History p x₀ x) (hqueue : x.queue = e :: es) :
      History p x₀ { x with queue := es, loaded := none }
  /-- `create_snapshot`. -/
  | snap {x : Site p} (h : History p x₀ x) (now : DateTime) :
      History p x₀ { x with snapshot := some (createSnapshot (p.memory x.state) now) }
  /-- The process stops at any point, and starts again with `load_snapshot`.  The calls by which
  a node restores its backends land with it. -/
  | load {x : Site p} {s : p.State} (h : History p x₀ x) (hload : p.Load x.toLoad x.state s) :
      History p x₀ { x with
        state := s
        queue := []
        since := x.snapshot.map SnapshotData.timestamp
        todo := p.tags
        loaded := some ⟨x.toLoad, x.state⟩ }
  /-- The next tag is synced: the request is answered and its publication handled. -/
  | sync {x : Site p} {tag : Tag} {tags : List Tag} {s' : p.State} {w' : World} {reply : Reply}
      (h : History p x₀ x) (htodo : x.todo = tag :: tags) (hqueue : x.queue = [])
      (hexec : Exec Rule.any (getConnectionsHandler (p.syncRequest x.since tag)) x.pool.state
        (.ok reply) w')
      (hreceives : Receives p (published x.pool.state w') x.state s') :
      History p x₀ { x with
        pool := { x.pool with state := w' }
        state := s'
        todo := tags }

/-! ### Deleted connections -/

/-- The slot is one of a connection that is not deleted, or that the process holds. -/
def Process.Shared (p : Process) (w : World) (m : Uuid → Option Base) (k : p.Slot) : Prop :=
  (∃ id wg, AliveWith w id wg ∧ k ∈ p.slots id wg) ∨
    ∃ id b, m id = some b ∧ k ∈ p.slots id b.proto.wg

/-- No record is of a connection that the API marks as deleted, and no slot is filled for
one: a slot that it shares with another connection is filled for that one. -/
structure Process.NoneDeleted (p : Process) (w : World) (m : Uuid → Option Base)
    (filled : Set p.Slot) : Prop where
  records : ∀ id c, w.memory.connections.get id = some c → c.isDeleted = true → m id = none
  slots : ∀ id c, w.memory.connections.get id = some c → c.isDeleted = true →
    ∀ k ∈ p.slots id c.proto.wg, k ∈ filled → p.Shared w m k

/-- The process holds no connection that the API marks as deleted, serves with no peer or
user of one, and accepts a token for none. -/
structure Revokes (p : Process) (x : Site p) : Prop where
  noneDeleted : p.NoneDeleted x.pool.state (p.held x.state) (p.filled x.state)
  tokens : ∀ token id c, p.Accepts x.state token id →
    x.pool.state.memory.connections.get id = some c → c.isDeleted = false

/-- A token is accepted for a connection of the memory only. -/
lemma revokes_of_noneDeleted {p : Process} {x : Site p}
    (h : p.NoneDeleted x.pool.state (p.held x.state) (p.filled x.state)) : Revokes p x := by
  refine ⟨h, fun token id c haccepts hget => ?_⟩
  by_contra hdel
  exact p.find_accepts haccepts (h.records id c hget (by simpa using hdel))

section Nodes

variable {ctx : NodeCtx} {inbounds : List Tag} {env : Env} {uuid : Uuid} {w : World} {s : NodeState}
  {id : Uuid} {c : Conn}

/-- A node has no user of a deleted connection. -/
lemma Process.NoneDeleted.users_eq
    (h : (nodeProcess ctx inbounds env uuid).NoneDeleted w s.memory s.filled)
    (hget : w.memory.connections.get id = some c) (hdel : c.isDeleted = true) (tag : Tag) :
    s.users (id, tag) = none := by
  by_contra huser
  -- only the connection itself has this user
  have howner : ∀ {id' wg}, NodeSlot.user id tag ∈ nodeSlots ctx id' wg → id' = id := by
    rintro id' wg (⟨tag', heq⟩ | ⟨param, pubkey, -, -, heq⟩)
    · exact (NodeSlot.user.inj heq).1.symm
    · cases heq
  rcases h.slots id c hget hdel _ (user_mem_nodeSlots ctx id tag _) huser with
    ⟨id', wg, halive, hslot⟩ | ⟨id', b, hb, hslot⟩
  · exact not_alive_of_deleted hget hdel (howner hslot ▸ halive)
  · rw [howner hslot] at hb
    exact absurd (hb.symm.trans (h.records id c hget hdel)) (Option.some_ne_none b)

end Nodes

/-! ### Starts -/

/-- What a start has loaded and what the process then has differ by connections that are not
deleted. -/
lemma History.gains {p : Process} {x₀ x : Site p} {f : Found p} (h : History p x₀ x)
    (h₀ : x₀.loaded = none) (hloaded : x.loaded = some f) :
    ∃ s, p.Load f.memory f.before s ∧ p.GainsFrom (AliveWith x.pool.state) s x.state := by
  induction h with
  | start => rw [h₀] at hloaded; cases hloaded
  | api => cases hloaded
  | receive => cases hloaded
  | miss => cases hloaded
  | snap _ _ ih => exact ih hloaded
  | @load x s _ hload =>
      obtain rfl := Option.some.inj hloaded
      exact ⟨s, hload, .refl _ _ _⟩
  | @sync x tag tags s' w' reply _ _ _ hexec hreceives ih =>
      obtain ⟨s, hload, hgains⟩ := ih hloaded
      have hmem := (exec_getConnectionsHandler hexec).1
      refine ⟨s, hload, ?_⟩
      rw [aliveWith_congr hmem]
      exact hgains.trans (hreceives.gains_sync hexec)

section Start

variable {p : Process} {w : World} {f : Found p} {s s' : p.State}

/-- A start and its synchronisation bring no deleted connection in. -/
lemma Process.NoneDeleted.start (h : p.NoneDeleted w (p.find f.memory) (p.filled f.before))
    (hload : p.Load f.memory f.before s) (hgains : p.GainsFrom (AliveWith w) s s') :
    p.NoneDeleted w (p.held s') (p.filled s') := by
  have hstart : p.held s = p.find f.memory := congrArg p.find (p.load_memory hload)
  refine ⟨fun id c hget hdel => ?_, fun id c hget hdel k hk hfilled => ?_⟩
  · by_contra hheld
    obtain ⟨b, hb⟩ := Option.ne_none_iff_exists'.mp hheld
    rcases hgains.recorded hb with hbefore | ⟨wg, halive, -⟩
    · rw [hstart, h.records id c hget hdel] at hbefore
      cases hbefore
    · exact not_alive_of_deleted hget hdel halive
  · -- a record that has been loaded is still there
    have hheld : ∀ {id' b}, p.find f.memory id' = some b → p.held s' id' = some b := fun hb =>
      hgains.kept (hstart ▸ hb)
    rcases hgains.fresh hfilled with hloaded | ⟨id', wg, halive, hslot⟩
    · rcases (p.load_filled hload).2 k hloaded with hbefore | ⟨id', b, hb, hslot⟩
      · rcases h.slots id c hget hdel k hk hbefore with halive | ⟨id', b, hb, hslot⟩
        · exact .inl halive
        · exact .inr ⟨id', b, hheld hb, hslot⟩
      · exact .inr ⟨id', b, hheld hb, hslot⟩
    · exact .inl ⟨id', wg, halive, hslot⟩

/-- Nor do they take any out. -/
lemma Process.NoneDeleted.before (h : p.NoneDeleted w (p.held s') (p.filled s'))
    (hload : p.Load f.memory f.before s) (hgains : p.GainsFrom (AliveWith w) s s') :
    p.NoneDeleted w (p.find f.memory) (p.filled f.before) := by
  have hstart : p.held s = p.find f.memory := congrArg p.find (p.load_memory hload)
  refine ⟨fun id c hget hdel => ?_, fun id c hget hdel k hk hfilled => ?_⟩
  · by_contra hfound
    obtain ⟨b, hb⟩ := Option.ne_none_iff_exists'.mp hfound
    have hheld : p.held s' id = some b := hgains.kept (hstart ▸ hb)
    rw [h.records id c hget hdel] at hheld
    cases hheld
  · have hfilled' : k ∈ p.filled s' := hgains.filled ((p.load_filled hload).1 hfilled)
    rcases h.slots id c hget hdel k hk hfilled' with halive | ⟨id', b, hb, hslot⟩
    · exact .inl halive
    · rcases hgains.recorded hb with hbefore | ⟨wg, halive, hsub⟩
      · exact .inr ⟨id', b, hstart ▸ hbefore, hslot⟩
      · exact .inl ⟨id', wg, halive, hsub hslot⟩

end Start

/-- **A restart makes up for no deletion**: in every history of requests and ticks at the API,
deliveries, losses, snapshots, starts and synchronisations, a process that has started, whichever of
its tags it has synced since, has nothing of a deleted connection, in its memory, among its peers
and users and among the tokens that it accepts, exactly when nothing of one was in its snapshot and
in the backends that it has found. -/
theorem restart_revokes_iff {svc : Service} {lower : String → String} {ops : List ApiOp}
    {w₀ : World} {s₀ : svc.process.State} {x : Site svc.process} {f : Found svc.process}
    (hrun : History svc.process (Site.start lower ops w₀ s₀) x) (hloaded : x.loaded = some f) :
    Revokes svc.process x ↔
      svc.process.NoneDeleted x.pool.state (svc.process.find f.memory)
        (svc.process.filled f.before) := by
  obtain ⟨s, hload, hgains⟩ := hrun.gains rfl hloaded
  constructor
  · exact fun hrevokes => hrevokes.noneDeleted.before hload hgains
  · exact fun hclean => revokes_of_noneDeleted (hclean.start hload hgains)

/-! ### Two histories -/

/-- A Hysteria2 connection is created and, later, deleted. -/
def sampleOps : List ApiOp :=
  [.createConnection ⟨.dev, none, .hysteria2, none⟩ ⟨.v4 0x0A000000, 8⟩, .deleteConnection 1]

/-- The creation, at second 10, with connection 1 and token 5. -/
def creation : List (ℕ × Input) :=
  [(0, { Input.at 10000000000 with uuid := 5 }), (0, Input.at 10000000000),
    (0, { Input.at 10000000000 with uuid := 1 })] ++ List.replicate 3 (0, Input.at 10000000000)

/-- The deletion, at second 20. -/
def deletion : List (ℕ × Input) := List.replicate 5 (1, Input.at 20000000000)

/-- The auth service, empty, at an empty API. -/
abbrev sampleAuth : Service := .auth .dev 9
def sampleStart : Site sampleAuth.process :=
  Site.start id sampleOps World.empty (∅ : Connections Base)

/-- What is published for the creation, and the memory of the service with it. -/
def createMessage : Message := ⟨1, .create, .hysteria2, none, none, some 5, none, none⟩
def createdMemory : Connections Base := authHandleMessagesBatch [(createMessage, 11000000000)] ∅

lemma createdMemory_held : createdMemory.get 1 ≠ none := by decide +kernel

lemma createdMemory_accepts : createdMemory.validateToken [] 5 = some 1 := by decide +kernel

/-- The service with the creation and a snapshot of second 12, and with what is on its
way. -/
def afterSnapshot (pool : Pool Call World) (queue : List (Topic × List Message)) :
    Site sampleAuth.process :=
  ⟨pool, createdMemory, queue, some (createSnapshot createdMemory 12000000000), none, [], none⟩

lemma history_snapshot {pool : Pool Call World} (hreach : Reach Rule.any sampleStart.pool pool)
    (hpub : published World.empty pool.state = [(.auth, [createMessage])]) :
    History sampleAuth.process sampleStart (afterSnapshot pool []) := by
  have hapi := History.api .start hreach
  have hqueue : sampleStart.queue ++ published sampleStart.pool.state pool.state =
      [(.auth, [createMessage])] := hpub
  rw [hqueue] at hapi
  have hhandle : sampleAuth.process.Handle [createMessage] sampleStart.state createdMemory :=
    ⟨[(createMessage, 11000000000)], rfl, rfl⟩
  exact (hapi.receive rfl rfl hhandle).snap 12000000000

/-- The request of the service after a start from that snapshot. -/
def sampleRequest : ConnType := ⟨.hysteria2, some 12, .dev, .init 9⟩

/-- The service has started from that snapshot. -/
def afterRestart (pool : Pool Call World) : Site sampleAuth.process :=
  ⟨pool, createdMemory, [], some (createSnapshot createdMemory 12000000000), some 12, [],
    some ⟨createdMemory, createdMemory⟩⟩

/-- The service restarts and nothing is published for it. -/
lemma history_restart {pool : Pool Call World} {queue : List (Topic × List Message)} {w : World}
    {reply : Reply} (h : History sampleAuth.process sampleStart (afterSnapshot pool queue))
    (hexec : Exec Rule.any (getConnectionsHandler sampleRequest) pool.state (.ok reply) w)
    (hpub : published pool.state w = []) :
    History sampleAuth.process sampleStart (afterRestart { pool with state := w }) := by
  have hreceives : Receives sampleAuth.process (published pool.state w) createdMemory
      createdMemory := by
    rw [hpub]
    exact .nil
  have hload : sampleAuth.process.Load (afterSnapshot pool queue).toLoad createdMemory
      createdMemory := rfl
  exact (h.load hload).sync rfl rfl hexec hreceives

/-- The request went through. -/
def answered : Except Error Reply → Bool
  | .ok _ => true
  | .error _ => false

/-- A restart of the service while the connection lives. -/
theorem restart_revokes_before_deletion :
    ∃ x f, History sampleAuth.process (Site.start id sampleOps World.empty (∅ : Connections Base)) x ∧
      x.loaded = some f ∧ sampleAuth.process.held x.state 1 ≠ none ∧
      Revokes sampleAuth.process x := by
  have hrun : ((runWith Rule.any creation sampleStart.pool).bind fun pool =>
      (execWith Rule.any (List.replicate 3 (Input.at 30000000000))
        (getConnectionsHandler sampleRequest) pool.state).map fun r =>
          (published World.empty pool.state, published pool.state r.1, answered r.2,
            (r.1.memory.connections.iter []).all fun e => !e.2.isDeleted)) =
      some ([(.auth, [createMessage])], [], true, true) := by
    decide +kernel
  obtain ⟨pool, hpool, hsync⟩ := Option.bind_eq_some_iff.mp hrun
  obtain ⟨⟨w, r⟩, hexec, hseen⟩ := Option.map_eq_some_iff.mp hsync
  simp only [Prod.mk.injEq] at hseen
  obtain ⟨hcreated, hnothing, hok, hclean⟩ := hseen
  cases r with
  | error e => cases hok
  | ok reply =>
      have hsnap := history_snapshot (reach_runWith .refl hpool) hcreated
      have hhistory := history_restart hsnap (exec_of_execWith hexec) hnothing
      refine ⟨_, _, hhistory, rfl, createdMemory_held, ?_⟩
      -- the API has no deleted connection
      have hlive : ∀ id c, w.memory.connections.get id = some c → c.isDeleted ≠ true := by
        intro id c hget hdel
        have halive := List.all_eq_true.mp hclean (id, c) (Table.mem_iter.mpr hget)
        rw [hdel] at halive
        cases halive
      exact (restart_revokes_iff hhistory rfl).mpr
        ⟨fun id c hget hdel => absurd hdel (hlive id c hget),
          fun id c hget hdel => absurd hdel (hlive id c hget)⟩

/-- **A missed deletion is not made up for**: the connection is created, received and in
the snapshot, then deleted, and the message of the deletion is missed.  After the restart
its token is still accepted. -/
theorem restart_keeps_deleted :
    ∃ x f c, History sampleAuth.process (Site.start id sampleOps World.empty (∅ : Connections Base)) x ∧
      x.loaded = some f ∧ x.todo = [] ∧ x.pool.state.memory.connections.get 1 = some c ∧
      c.isDeleted = true ∧ sampleAuth.process.held x.state 1 ≠ none ∧
      sampleAuth.process.Accepts x.state 5 1 ∧ ¬ Revokes sampleAuth.process x := by
  have hrun : ((runWith Rule.any creation sampleStart.pool).bind fun pool =>
      (runWith Rule.any deletion pool).bind fun pool' =>
        (execWith Rule.any (List.replicate 3 (Input.at 30000000000))
          (getConnectionsHandler sampleRequest) pool'.state).map fun r =>
            (published World.empty pool.state, (published pool.state pool'.state).length == 1 &&
              (published pool'.state r.1).isEmpty && answered r.2 &&
              (r.1.memory.connections.get 1).any fun c => c.isDeleted)) =
      some ([(.auth, [createMessage])], true) := by
    decide +kernel
  obtain ⟨pool, hpool, hrest⟩ := Option.bind_eq_some_iff.mp hrun
  obtain ⟨pool', hpool', hsync⟩ := Option.bind_eq_some_iff.mp hrest
  obtain ⟨⟨w, r⟩, hexec, hseen⟩ := Option.map_eq_some_iff.mp hsync
  simp only [Prod.mk.injEq, Bool.and_eq_true, beq_iff_eq, List.isEmpty_iff, Option.any_eq_true] at hseen
  obtain ⟨hcreated, ⟨⟨hdeleted, hnothing⟩, hok⟩, c, hget, hdel⟩ := hseen
  obtain ⟨e, he⟩ := List.length_eq_one_iff.mp hdeleted
  cases r with
  | error e => cases hok
  | ok reply =>
      have hsnap := history_snapshot (reach_runWith .refl hpool) hcreated
      have hmissed := (hsnap.api (reach_runWith .refl hpool')).miss he
      have hhistory := history_restart hmissed (exec_of_execWith hexec) hnothing
      refine ⟨_, _, c, hhistory, rfl, rfl, hget, hdel, createdMemory_held,
        ⟨[], createdMemory_accepts⟩, ?_⟩
      exact fun hrevokes => createdMemory_held (hrevokes.noneDeleted.records 1 c hget hdel)

/-! ### A node -/

/-- A node with an inbound of VLESS. -/
abbrev vlessNode : Process := nodeProcess sampleNode [.vlessTcpReality] .dev 9

/-- A connection of VLESS is created and, later, deleted. -/
def vlessLifeOps : List ApiOp :=
  [.createConnection ⟨.dev, none, .vlessTcpReality, none⟩ ⟨.v4 0x0A000000, 8⟩, .deleteConnection 1]

/-- The node, empty, at an empty API. -/
def vlessLifeStart : Site vlessNode := Site.start id vlessLifeOps World.empty NodeState.empty

/-- What is published for the connection, and the node that has handled it. -/
def vlessMessage : Message := ⟨1, .create, .vlessTcpReality, none, none, none, none, none⟩
def vlessItem : Item := (vlessMessage, ⟨true, true, fun _ => true, 12000000000, ""⟩)
def vlessState : NodeState := (stop sampleNode [vlessItem] NodeState.empty).state

/-- The node after a start without a snapshot. -/
def emptiedState : NodeState := { vlessState with memory := fun _ => none }

/-- **A user outlasts its node**: the connection is created and received, and deleted while the
node, which has made no snapshot yet, is down.  After the restart the memory of the node is empty,
and Xray still serves the user. -/
theorem restart_keeps_user :
    ∃ x f c, History vlessNode (Site.start id vlessLifeOps World.empty NodeState.empty) x ∧
      x.loaded = some f ∧ x.todo = [] ∧ x.pool.state.memory.connections.get 1 = some c ∧
      c.isDeleted = true ∧ (∀ id, vlessNode.held x.state id = none) ∧
      x.state.users (1, .vlessTcpReality) ≠ none ∧ ¬ Revokes vlessNode x := by
  have hrun : ((runWith Rule.any creation vlessLifeStart.pool).bind fun pool =>
      (runWith Rule.any deletion pool).bind fun pool' =>
        (execWith Rule.any (List.replicate 3 (Input.at 30000000000))
          (getConnectionsHandler (vlessNode.syncRequest none .vlessTcpReality)) pool'.state).map
          fun r =>
            (published World.empty pool.state,
              (published pool'.state r.1).isEmpty && answered r.2 &&
              (r.1.memory.connections.get 1).any fun c => c.isDeleted)) =
      some ([(.updates .dev, [vlessMessage])], true) := by
    decide +kernel
  obtain ⟨pool, hpool, hrest⟩ := Option.bind_eq_some_iff.mp hrun
  obtain ⟨pool', hpool', hsync⟩ := Option.bind_eq_some_iff.mp hrest
  obtain ⟨⟨w, r⟩, hexec, hseen⟩ := Option.map_eq_some_iff.mp hsync
  simp only [Prod.mk.injEq, Bool.and_eq_true, List.isEmpty_iff, Option.any_eq_true] at hseen
  obtain ⟨hcreated, ⟨hnothing, hok⟩, c, hget, hdel⟩ := hseen
  cases r with
  | error e => cases hok
  | ok reply =>
      have hstart : History vlessNode vlessLifeStart vlessLifeStart := .start
      have hapi := hstart.api (reach_runWith .refl hpool)
      have hqueue : vlessLifeStart.queue ++ published vlessLifeStart.pool.state pool.state =
          [(.updates .dev, [vlessMessage])] := hcreated
      rw [hqueue] at hapi
      have hhandle : vlessNode.Handle [vlessMessage] NodeState.empty vlessState :=
        ⟨[vlessItem], rfl, [], by decide +kernel, rfl⟩
      have hdeleted := (hapi.receive rfl rfl hhandle).api (reach_runWith .refl hpool')
      -- there is no snapshot, and so nothing to restore
      have hload : vlessNode.Load (fun _ => none) vlessState emptiedState := ⟨[], rfl⟩
      have hreceives : Receives vlessNode (published pool'.state w) emptiedState emptiedState := by
        rw [hnothing]
        exact .nil
      have hhistory := (hdeleted.load hload).sync rfl rfl (exec_of_execWith hexec) hreceives
      have huser : emptiedState.users (1, .vlessTcpReality) ≠ none := by decide +kernel
      refine ⟨_, _, c, hhistory, rfl, rfl, hget, hdel, fun _ => rfl, huser, fun hrevokes => ?_⟩
      have hnone : vlessNode.NoneDeleted w emptiedState.memory emptiedState.filled :=
        hrevokes.noneDeleted
      exact huser (hnone.users_eq hget hdel .vlessTcpReality)

end Fcore
