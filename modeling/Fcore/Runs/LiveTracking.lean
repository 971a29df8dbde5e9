import Fcore.Runs.Upkeep

/-!
The live connections of the API and what a process hears of them (`addConn` and the other
operations of `src/bin/api/sync`, `get_state_from_db`, `handle_messages_batch`).

A process hears of a connection when it is created, deleted and restored.  What a table row
keeps of a connection, its core, never changes.

* `Conn.core`: a connection as far as its row keeps it; `ConnRow.toConn_stored`: the row of a
  connection gives back its core;
* `Service.serves`: the connections of a process; `Service.heard`: the last thing it heard of
  a connection;
* `Live`: the invariant between two operations and in the course of a restoration: memory and
  database agree on cores and flags, and a process has last heard of a connection that it is
  there exactly if it is live;
* `freshKeys`: nothing fails, and every private key that is drawn has a public key that no
  other connection has;
* `upkeep_live`: the invariant is kept by everything that happens to connections;
* `live_of_serial`: it holds after every sequence of operations.
-/

namespace Fcore

open Calculus
open Machine (exec)

/-! ### The core of a connection -/

/-- The protocols that the handlers and the rows make: the tag of an Xray protocol is one of
Xray, or that of Mtproto, whose secret has no column. -/
def Proto.wellTagged : Proto → Bool
  | .xray tag => tag.isXray && tag != .shadowsocks || tag == .mtproto
  | _ => true

/-- A connection as far as its row keeps it, without the deleted flag: times in microseconds,
not the time of the last change, and not the secret of Mtproto. -/
def Conn.core (c : Conn) : Conn where
  env := c.env
  proto := if c.proto.isMtproto then .xray .mtproto else c.proto
  subscriptionId := c.subscriptionId
  createdAt := pgRound c.createdAt
  modifiedAt := 0
  expiresAt := c.expiresAt.map pgRound
  isDeleted := false

@[simp] lemma Conn.setDeleted_core (c : Conn) (v : Bool) (now : DateTime) :
    (c.setDeleted v now).core = c.core := rfl

/-- What is the same for an Mtproto connection with and without its secret is the same for a
connection and its core. -/
lemma Conn.map_core_proto {α : Type} {f : Proto → α}
    (hf : ∀ secret, f (.xray .mtproto) = f (.mtproto secret)) (c : Conn) :
    f c.core.proto = f c.proto := by
  obtain ⟨env, proto, sub, created, modified, expires, del⟩ := c
  cases proto with
  | mtproto secret => exact hf secret
  | wireguard | shadowsocks | xray | hysteria2 => rfl

@[simp] lemma Conn.core_wg (c : Conn) : c.core.proto.wg = c.proto.wg :=
  map_core_proto (fun _ => rfl) c

@[simp] lemma Conn.core_token (c : Conn) : c.core.proto.token = c.proto.token :=
  map_core_proto (fun _ => rfl) c

@[simp] lemma Conn.core_onNode (c : Conn) : c.core.proto.onNode = c.proto.onNode :=
  map_core_proto (fun _ => rfl) c

@[simp] lemma Conn.core_wellTagged (c : Conn) : c.core.proto.wellTagged = c.proto.wellTagged :=
  map_core_proto (fun _ => rfl) c

@[simp] lemma Conn.core_tag (c : Conn) : c.core.proto.proto = c.proto.proto :=
  map_core_proto (fun _ => rfl) c

@[simp] lemma Conn.core_password (c : Conn) : c.core.proto.password = c.proto.password :=
  map_core_proto (fun _ => rfl) c

/-- The text of the environment is read back as the environment. -/
def EnvStable (lower : String → String) (env : Env) : Prop := Env.fromText lower env.toText = env

instance (lower : String → String) (env : Env) : Decidable (EnvStable lower env) :=
  inferInstanceAs (Decidable (_ = _))

/-- **The row of a connection gives back its core.** -/
lemma ConnRow.toConn_stored {lower : String → String} (id : Uuid) {c : Conn}
    (hproto : c.proto.wellTagged = true) (henv : EnvStable lower c.env) :
    ∃ c', (ConnRow.ofConn id c).stored.toConn lower = .ok c' ∧ c'.core = c.core ∧
      c'.isDeleted = c.isDeleted := by
  obtain ⟨env, proto, sub, created, modified, expires, del⟩ := c
  have hcore : ∀ {proto'} {e : Option DateTime}, e = expires.map pgRound →
      (if proto'.isMtproto then Proto.xray .mtproto else proto') =
        (if proto.isMtproto then Proto.xray .mtproto else proto) →
      (Conn.mk (Env.fromText lower env.toText) proto' sub (pgRound created) (pgRound modified) e
        del).core = (Conn.mk env proto sub created modified expires del).core := by
    rintro proto' e rfl hsame
    have hexpires : (expires.map pgRound).map pgRound = expires.map pgRound := by
      cases expires with
      | none => rfl
      | some t => simp [pgRound_idem]
    simp only [Conn.core, Conn.mk.injEq, hsame, hexpires, pgRound_idem, and_self]
    exact ⟨henv, trivial⟩
  cases proto with
  | wireguard wg => exact ⟨_, rfl, hcore rfl rfl, rfl⟩
  | shadowsocks password => exact ⟨_, rfl, hcore rfl rfl, rfl⟩
  | hysteria2 token => exact ⟨_, rfl, hcore rfl rfl, rfl⟩
  | mtproto secret => exact ⟨_, rfl, hcore rfl rfl, rfl⟩
  | xray tag =>
      cases tag with
      | wireguard | shadowsocks | hysteria2 => exact absurd hproto Bool.false_ne_true
      | _ => exact ⟨_, rfl, hcore rfl rfl, rfl⟩

/-! ### What a process serves and hears -/

/-- The topic on which the connections of a process are announced. -/
def Service.topic : Service → Topic
  | node _ _ env _ => .updates env
  | auth _ _ => .auth

/-- The connections that a node serves: those of its environment and its inbounds, as far as
it handles their protocols. -/
def nodeServes (inbounds : List Tag) (env : Env) (c : Conn) : Bool :=
  c.env == env && (c.proto.onNode && inbounds.contains c.proto.proto)

/-- The connections that a process serves: the auth service those with a token. -/
def Service.serves : Service → Conn → Bool
  | node _ inbounds env _, c => nodeServes inbounds env c
  | auth _ _, c => c.proto.token.isSome

/-- The messages that are about such connections. -/
def Service.minds : Service → Message → Bool
  | node _ inbounds _ _, m => (m.tag.isXray || m.tag == .wireguard) && inbounds.contains m.tag
  | auth _ _, m => m.token.isSome

lemma nodeServes_core (inbounds : List Tag) (env : Env) (c : Conn) :
    nodeServes inbounds env c.core = nodeServes inbounds env c := by
  rw [nodeServes, nodeServes, Conn.core_onNode, Conn.core_tag]
  rfl

@[simp] lemma Service.serves_core (svc : Service) (c : Conn) :
    svc.serves c.core = svc.serves c := by
  cases svc with
  | node ctx inbounds env uuid => exact nodeServes_core inbounds env c
  | auth env uuid => simp only [serves, Conn.core_token]

lemma Proto.onNode_eq {p : Proto} (h : p.wellTagged = true) :
    p.onNode = (p.proto.isXray || p.proto == .wireguard) := by
  cases p with
  | xray tag => cases tag <;> first | rfl | exact absurd h Bool.false_ne_true
  | wireguard | shadowsocks | hysteria2 | mtproto => rfl

/-- A connection without a token belongs to the topic of its environment. -/
lemma Conn.topic_eq_updates {c : Conn} {env : Env} :
    c.topic = .updates env ↔ c.proto.token = none ∧ c.env = env := by
  rw [topic]
  cases c.proto.token <;> simp

lemma Conn.topic_eq_auth {c : Conn} : c.topic = .auth ↔ c.proto.token.isSome = true := by
  rw [topic]
  cases c.proto.token <;> simp

lemma Proto.token_of_onNode {p : Proto} (h : p.onNode = true) :
    p.token = none ∧ p.isMtproto = false := by
  cases p <;> first | exact ⟨rfl, rfl⟩ | exact absurd h Bool.false_ne_true

/-- A connection that a process serves is announced to it. -/
lemma Service.topic_of_serves {svc : Service} {c : Conn} (h : svc.serves c = true) :
    c.topic = svc.topic ∧ c.createTopic = some svc.topic ∧ c.proto.isMtproto = false := by
  cases svc with
  | node ctx inbounds env uuid =>
      simp only [serves, nodeServes, Bool.and_eq_true, beq_iff_eq] at h
      obtain ⟨henv, hnode, -⟩ := h
      obtain ⟨htoken, hmt⟩ := Proto.token_of_onNode hnode
      refine ⟨Conn.topic_eq_updates.mpr ⟨htoken, henv⟩, ?_, hmt⟩
      simp [Conn.createTopic, htoken, hmt, henv, topic]
  | auth env uuid =>
      refine ⟨Conn.topic_eq_auth.mpr h, if_pos h, ?_⟩
      simp only [serves] at h
      cases hproto : c.proto with
      | hysteria2 token => rfl
      | wireguard | shadowsocks | xray | mtproto =>
          rw [hproto] at h
          exact absurd h Bool.false_ne_true

/-- On its topic a process minds the messages of the connections that it serves. -/
lemma Service.minds_asMessage {svc : Service} {c : Conn} (htagged : c.proto.wellTagged = true)
    (htopic : c.topic = svc.topic) (a : Action) (id : Uuid) :
    svc.minds (c.asMessage a id) = svc.serves c := by
  cases svc with
  | node ctx inbounds env uuid =>
      have henv := (Conn.topic_eq_updates.mp htopic).2
      rw [minds, serves, nodeServes, Proto.onNode_eq htagged, henv, beq_self_eq_true, Bool.true_and]
      rfl
  | auth env uuid => rfl

/-- Whether a connection is there, as one more message of it tells. -/
def Action.tells : Action → Bool → Bool
  | .create, _ | .update, _ => true
  | .delete, _ => false
  | .resetStat, h => h

/-- Whether a connection is there, after one more message. -/
def Service.hear (svc : Service) (id : Uuid) (h : Bool) (m : Message) : Bool :=
  if m.connId = id ∧ svc.minds m = true then m.action.tells h else h

/-- Whether the last thing that a process has heard of a connection is that it is there. -/
def Service.heard (svc : Service) (id : Uuid) : List (Topic × List Message) → Bool
  | [] => false
  | (topic, ms) :: bus =>
      if topic = svc.topic then ms.foldl (svc.hear id) (svc.heard id bus) else svc.heard id bus

/-- Publications on other topics are not heard. -/
lemma Service.heard_cons_of_ne {svc : Service} {topic : Topic} (h : topic ≠ svc.topic) (id : Uuid)
    (ms : List Message) (bus : List (Topic × List Message)) :
    svc.heard id ((topic, ms) :: bus) = svc.heard id bus := if_neg h

/-- An announcement of a connection on its topic. -/
lemma Service.heard_cons {svc : Service} {c : Conn} (htagged : c.proto.wellTagged = true)
    (a : Action) (id id' : Uuid) (bus : List (Topic × List Message)) :
    svc.heard id' ((c.topic, [c.asMessage a id]) :: bus) =
      if id' = id ∧ svc.serves c = true then a.tells (svc.heard id bus) else svc.heard id' bus := by
  by_cases htopic : c.topic = svc.topic
  · have hminds := svc.minds_asMessage htagged htopic a id
    have hid : (c.asMessage a id).connId = id := rfl
    rw [heard, if_pos htopic, List.foldl_cons, List.foldl_nil, hear, hminds, hid]
    by_cases heq : id' = id
    · subst heq
      simp only [true_and]
      rfl
    · rw [if_neg (fun h => heq h.1.symm), if_neg (fun h => heq h.1)]
  · rw [heard_cons_of_ne htopic, if_neg]
    exact fun h => htopic (topic_of_serves h.2).1

/-! ### The invariant -/

/-- The core and the deleted flag of a connection. -/
abbrev Flagged := Conn × Bool

/-- The connection with another flag. -/
def Flagged.flag (v : Bool) (e : Flagged) : Flagged := (e.1, v)

/-- A connection in memory. -/
def Cache.flagged (id : Uuid) (m : Cache) : Option Flagged :=
  (m.connections.get id).map fun c => (c.core, c.isDeleted)

/-- What a row is converted to. -/
def ConnRow.flagged (lower : String → String) (r : ConnRow) : Option Flagged :=
  match r.toConn lower with
  | .ok c => some (c.core, c.isDeleted)
  | .error _ => none

/-- A connection in the database. -/
def Db.flagged (lower : String → String) (id : Uuid) (db : Db) : Option (Option Flagged) :=
  (db.connections.get id).map (ConnRow.flagged lower)

/-- A process is to have the connection. -/
def Service.has (svc : Service) (e : Option Flagged) : Bool := e.any fun e => !e.2 && svc.serves e.1

@[simp] lemma map_fst_flag (e : Option Flagged) (v : Bool) :
    (e.map (Flagged.flag v)).map Prod.fst = e.map Prod.fst := by
  cases e <;> rfl

/-- The last flag counts. -/
@[simp] lemma Flagged.flag_comp_flag (v w : Bool) :
    Flagged.flag w ∘ Flagged.flag v = Flagged.flag w := rfl

@[simp] lemma Service.has_flag_true (svc : Service) (e : Option Flagged) :
    svc.has (e.map (Flagged.flag true)) = false := by
  cases e <;> rfl

@[simp] lemma Service.has_flag_false (svc : Service) (e : Option Flagged) :
    svc.has (e.map (Flagged.flag false)) = (e.map Prod.fst).any svc.serves := by
  cases e <;> rfl

/-- A connection that a process does not serve is not to be there. -/
lemma Service.has_eq_false {svc : Service} {e : Option Flagged}
    (h : (e.map Prod.fst).any svc.serves = false) : svc.has e = false := by
  cases e with
  | none => rfl
  | some e =>
      rw [Option.map_some, Option.any_some] at h
      simp [has, h]

lemma Cache.flagged_setDeleted (id id' : Uuid) (v : Bool) (i : Input) (m : Cache) :
    (Edit.run (.setDeleted id v) i m).1.flagged id' =
      if id' = id then (m.flagged id).map (Flagged.flag v) else m.flagged id' := by
  show Option.map _ ((m.connections.change id _).get id') = _
  rw [Table.get_change]
  split_ifs with hid
  · rw [flagged, Option.map_map, Option.map_map]
    rfl
  · rfl

lemma ConnRow.flagged_isDeleted (lower : String → String) (r : ConnRow) (v : Bool) :
    ConnRow.flagged lower { r with isDeleted := v } =
      (r.flagged lower).map (Flagged.flag v) := by
  have hproto : ConnRow.toProto { r with isDeleted := v } = r.toProto := rfl
  simp only [flagged, toConn, hproto]
  cases r.toProto <;> rfl

lemma Db.flagged_connSetDeleted (lower : String → String) (id id' : Uuid) (v : Bool) (db : Db) :
    (db.connSetDeleted id v).flagged lower id' =
      if id' = id then (db.flagged lower id).map (Option.map (Flagged.flag v))
      else db.flagged lower id' := by
  show Option.map _ ((db.connections.change id _).get id') = _
  rw [Table.get_change]
  split_ifs with hid
  · rw [flagged, Option.map_map, Option.map_map]
    exact congrArg (Option.map · _) (funext fun r => ConnRow.flagged_isDeleted lower r v)
  · rfl

/-- The public keys of WireGuard connections can be derived and differ, as far as a node is
concerned. -/
def Service.KeysApart : Service → (Uuid → Option Conn) → Prop
  | node ctx _ _ _, core => ∀ {id c wg}, core id = some c → c.proto.wg = some wg →
      (∃ pk, ctx.pubkey wg.keys = .ok pk) ∧ ∀ {id' c' wg'}, core id' = some c' →
        c'.proto.wg = some wg' → ctx.pubkey wg.keys = ctx.pubkey wg'.keys → id = id'
  | auth _ _, _ => True

/-- What is known of a connection is its core. -/
def Known (core : Uuid → Option Conn) (id : Uuid) (c : Conn) : Prop := core id = some c.core

/-- Where a process comes in: the topic on which it alone asks for connections, if it does, and
what was known and published before. -/
structure Since where
  own : Option Uuid
  core : Uuid → Option Conn
  bus : List (Topic × List Message)

/-- The start of the API. -/
def Since.start : Since := ⟨none, fun _ => none, []⟩

/-- A publication: nobody else asked for it on the topic of the process' own, and on the topic
of the process it is about one connection, and true. -/
structure Told (svc : Service) (own : Option Uuid) (core : Uuid → Option Conn)
    (e : Topic × List Message) : Prop where
  notOwn : ∀ u ∈ own, e.1 ≠ .init u
  one : e.1 = svc.topic → ∃ id c act, e.2 = [c.asMessage act id] ∧ act ≠ .resetStat ∧
    c.topic = svc.topic ∧ Known core id c

/-- The invariant: memory and database agree, a process has last heard of a connection that it
is there exactly if it is live and served, and what has been published tells the truth.  In the
course of a restoration the account says for which connections the update is out, and for which
the row is restored. -/
structure Live (svc : Service) (lower : String → String) (x : Since) (core : Uuid → Option Conn)
    (a : Repair) (s : World) : Prop where
  cores : ∀ id, (s.memory.flagged id).map Prod.fst = core id
  rows : ∀ id, s.db.flagged lower id =
    (if id ∈ a.2 then (s.memory.flagged id).map (Flagged.flag false)
      else s.memory.flagged id).map some
  heard : ∀ id, svc.heard id s.bus =
    if id ∈ a.1 then (core id).any svc.serves else svc.has (s.memory.flagged id)
  tagged : ∀ {id c}, core id = some c → c.proto.wellTagged = true
  keys : svc.KeysApart core
  older : ∀ {id c}, x.core id = some c → core id = some c
  news : ∃ news, s.bus = news ++ x.bus ∧ ∀ e ∈ news, Told svc x.own core e

section Steps

variable {svc : Service} {lower : String → String} {x : Since}
  {core : Uuid → Option Conn} {a : Repair} {s s' : World}
  {id : Uuid} {c : Conn}

lemma Live.knows (h : Live svc lower x core a s)
    (hget : s.memory.connections.get id = some c) : Known core id c := by
  rw [Known, ← h.cores id, Cache.flagged, hget]
  rfl

lemma Live.wellTagged (h : Live svc lower x core a s) (hc : Known core id c) :
    c.proto.wellTagged = true := by
  rw [← Conn.core_wellTagged]
  exact h.tagged hc

/-- The account of the bus can begin anew. -/
lemma Live.rebase (h : Live svc lower x core a s) (own : Option Uuid) :
    Live svc lower ⟨own, core, s.bus⟩ core a s where
  cores := h.cores
  rows := h.rows
  heard := h.heard
  tagged := h.tagged
  keys := h.keys
  older := fun hc => hc
  news := ⟨[], rfl, fun _ he => absurd he List.not_mem_nil⟩

/-- The invariant is about the connections and the bus only. -/
lemma Live.frame (h : Live svc lower x core a s)
    (hmem : s'.memory.connections = s.memory.connections)
    (hdb : s'.db.connections = s.db.connections) (hbus : s'.bus = s.bus) :
    Live svc lower x core a s' where
  cores id := by
    rw [Cache.flagged, hmem]
    exact h.cores id
  rows id := by
    rw [Cache.flagged, Db.flagged, hmem, hdb]
    exact h.rows id
  heard id := by
    rw [Cache.flagged, hmem, hbus]
    exact h.heard id
  tagged := h.tagged
  keys := h.keys
  older := h.older
  news := by
    rw [hbus]
    exact h.news

/-- A connection announces what is known of it. -/
lemma told_of_known (hc : Known core id c) {act : Action} (hact : act ≠ .resetStat) :
    Told svc x.own core (c.topic, [c.asMessage act id]) where
  notOwn u _ := by
    rw [Conn.topic]
    split_ifs <;> simp
  one htopic := ⟨id, c, act, rfl, hact, htopic, hc⟩

/-- One more publication. -/
lemma Live.news_cons (h : Live svc lower x core a s) {e : Topic × List Message}
    (he : Told svc x.own core e) :
    ∃ news, e :: s.bus = news ++ x.bus ∧ ∀ e ∈ news, Told svc x.own core e := by
  obtain ⟨news, hnews, hall⟩ := h.news
  refine ⟨e :: news, by rw [hnews, List.cons_append], fun e' he' => ?_⟩
  rcases List.mem_cons.mp he' with rfl | he'
  · exact he
  · exact hall e' he'

lemma Live.heard_zero (h : Live svc lower x core 0 s) (id : Uuid) :
    svc.heard id s.bus = svc.has (s.memory.flagged id) :=
  (h.heard id).trans (if_neg (Multiset.notMem_zero id))

lemma Live.rows_zero (h : Live svc lower x core 0 s) (id : Uuid) :
    s.db.flagged lower id = (s.memory.flagged id).map some :=
  (h.rows id).trans (congrArg (Option.map some) (if_neg (Multiset.notMem_zero id)))

/-- Nothing is heard of a connection that the process does not serve. -/
lemma Live.heard_eq_false (h : Live svc lower x core a s) (hc : Known core id c)
    (hserves : svc.serves c = false) : svc.heard id s.bus = false := by
  have hnone : (core id).any svc.serves = false := by
    rw [hc, Option.any_some, Service.serves_core, hserves]
  rw [h.heard, hnone]
  split_ifs
  · rfl
  · refine Service.has_eq_false ?_
    rw [h.cores, hnone]

/-- A deletion that goes through. -/
lemma Live.deleted (h : Live svc lower x core 0 s) (hc : Known core id c) (i : Input) :
    Live svc lower x core 0 { s with
      db := s.db.connSetDeleted id true
      bus := (c.topic, [c.asDeleteMessage id]) :: s.bus
      memory := (Edit.run (.setDeleted id true) i s.memory).1 } where
  cores id' := by
    dsimp only
    rw [Cache.flagged_setDeleted]
    split_ifs with hid
    · rw [map_fst_flag, hid]
      exact h.cores id
    · exact h.cores id'
  rows id' := by
    refine Eq.trans ?_ (congrArg (Option.map some) (if_neg (Multiset.notMem_zero id')).symm)
    dsimp only
    rw [Cache.flagged_setDeleted, Db.flagged_connSetDeleted, h.rows_zero, h.rows_zero]
    split_ifs
    · rw [Option.map_map, Option.map_map]
      rfl
    · rfl
  heard id' := by
    refine Eq.trans ?_ (if_neg (Multiset.notMem_zero id')).symm
    dsimp only
    rw [Cache.flagged_setDeleted, Conn.asDeleteMessage, Service.heard_cons (h.wellTagged hc)]
    by_cases hid : id' = id
    · subst hid
      rw [if_pos rfl, Service.has_flag_true]
      split_ifs with hserves
      · rfl
      · exact h.heard_eq_false hc (by simpa using hserves)
    · rw [if_neg (fun hand => hid hand.1), if_neg hid, h.heard_zero]
  tagged := h.tagged
  keys := h.keys
  older := h.older
  news := h.news_cons (told_of_known hc (by decide))

/-- The update of a connection goes out. -/
lemma Live.updateOut (h : Live svc lower x core a s) (hc : Known core id c) :
    Live svc lower x core (a + ({id}, 0))
      { s with bus := (c.topic, [c.asUpdateMessage id]) :: s.bus } where
  cores := h.cores
  rows id' := by simpa using h.rows id'
  heard id' := by
    dsimp only
    rw [Conn.asUpdateMessage, Service.heard_cons (h.wellTagged hc)]
    by_cases hid : id' = id
    · subst hid
      have hany : (core id').any svc.serves = svc.serves c := by
        rw [hc, Option.any_some, Service.serves_core]
      have hout : id' ∈ (a + (({id'} : Multiset Uuid), (0 : Multiset Uuid))).1 := by simp
      rw [if_pos hout, hany]
      cases hserves : svc.serves c with
      | true => rw [if_pos ⟨rfl, rfl⟩]; rfl
      | false =>
          rw [if_neg (fun hand => Bool.false_ne_true hand.2)]
          exact h.heard_eq_false hc hserves
    · rw [if_neg (fun hand => hid hand.1), h.heard]
      simp [hid]
  tagged := h.tagged
  keys := h.keys
  older := h.older
  news := h.news_cons (told_of_known hc (by decide))

/-- The row of a connection is restored. -/
lemma Live.rowRestored (h : Live svc lower x core a s) :
    Live svc lower x core (a + (0, {id})) { s with db := s.db.connSetDeleted id false } where
  cores := h.cores
  rows id' := by
    dsimp only
    rw [Db.flagged_connSetDeleted, h.rows, h.rows]
    by_cases hid : id' = id
    · subst hid
      by_cases hmem : id' ∈ a.2
      · simp only [hmem, if_true, Option.map_map]
        simp only [Prod.snd_add, Multiset.mem_add, hmem, true_or, if_true, Option.map_map]
        rfl
      · simp only [hmem, if_true, if_false, Option.map_map]
        simp only [Prod.snd_add, Multiset.mem_add, Multiset.mem_singleton, or_true, if_true,
          Option.map_map]
        rfl
    · simp [hid]
  heard id' := by simpa using h.heard id'
  tagged := h.tagged
  keys := h.keys
  older := h.older
  news := h.news

/-- The flag of a connection is cleared. -/
lemma Live.flagCleared (h : Live svc lower x core (a + ({id}, {id})) s) (i : Input) :
    Live svc lower x core a
      { s with memory := (Edit.run (.setDeleted id false) i s.memory).1 } where
  cores id' := by
    dsimp only
    rw [Cache.flagged_setDeleted]
    split_ifs with hid
    · rw [map_fst_flag, hid]
      exact h.cores id
    · exact h.cores id'
  rows id' := by
    have hrows := h.rows id'
    dsimp only
    rw [Cache.flagged_setDeleted]
    by_cases hid : id' = id
    · subst hid
      simpa using hrows
    · simpa [hid] using hrows
  heard id' := by
    have hheard := h.heard id'
    dsimp only
    rw [Cache.flagged_setDeleted]
    by_cases hid : id' = id
    · subst hid
      rw [if_pos rfl, Service.has_flag_false, h.cores, ite_self]
      simpa using hheard
    · simpa [hid] using hheard
  tagged := h.tagged
  keys := h.keys
  older := h.older
  news := h.news

/-- A connection that the memory does not have. -/
lemma Live.missing (h : Live svc lower x core (a + ({id}, 0)) s)
    (hid : s.memory.connections.get id = none) : Live svc lower x core a s where
  cores := h.cores
  rows id' := by simpa using h.rows id'
  heard id' := by
    have hheard := h.heard id'
    by_cases heq : id' = id
    · subst heq
      have hnone : s.memory.flagged id' = none := by rw [Cache.flagged, hid, Option.map_none]
      have hcore := h.cores id'
      rw [hnone] at hcore
      simpa [hnone, ← hcore, Service.has] using hheard
    · simpa [heq] using hheard
  tagged := h.tagged
  keys := h.keys
  older := h.older
  news := h.news

/-- Creations for a process that has asked for them on a topic of its own. -/
lemma Live.synced (h : Live svc lower x core 0 s) {u : Uuid} (hown : x.own ≠ some u)
    (ms : List Message) :
    Live svc lower x core 0 { s with bus := (.init u, ms) :: s.bus } where
  cores := h.cores
  rows := h.rows
  heard id := by
    have htopic : Topic.init u ≠ svc.topic := by cases svc <;> simp [Service.topic]
    dsimp only
    rw [Service.heard_cons_of_ne htopic]
    exact h.heard id
  tagged := h.tagged
  keys := h.keys
  older := h.older
  news := by
    refine h.news_cons ⟨?_, fun htopic => ?_⟩
    · rintro v hv heq
      obtain rfl : u = v := Topic.init.inj heq
      exact hown hv
    · cases svc <;> exact absurd htopic (by simp [Service.topic])

/-- The memory that a reload builds is that of the rows. -/
lemma flagged_buildCache {db : Db} {order : List Uuid} {subs : List Subscription} {m : Cache}
    (h : buildCache lower (db.connAll order) subs = .ok m) (id : Uuid) :
    (m.flagged id).map some = db.flagged lower id := by
  rw [Cache.flagged, Option.map_map]
  refine map_get_buildCache h (fun {r id c} hconv => ?_) id
  have hsame : r.toConn lower = .ok c := hconv
  rw [ConnRow.flagged, hsame]
  rfl

/-- The memory is replaced by the rows. -/
lemma Live.reloaded (h : Live svc lower x core 0 s) {order : List Uuid}
    {subs : List Subscription} (hdb : s'.db = s.db) (hbus : s'.bus = s.bus)
    (hcache : buildCache lower (s.db.connAll order) subs = .ok s'.memory) :
    Live svc lower x core 0 s' := by
  have hentry : ∀ id, s'.memory.flagged id = s.memory.flagged id := fun id =>
    Option.map_injective (Option.some_injective _)
      ((flagged_buildCache hcache id).trans (h.rows_zero id))
  exact
    { cores := fun id => by rw [hentry]; exact h.cores id
      rows := fun id => by rw [hentry, hdb]; exact h.rows id
      heard := fun id => by rw [hentry, hbus]; exact h.heard id
      tagged := h.tagged
      keys := h.keys
      older := h.older
      news := by rw [hbus]; exact h.news }

end Steps

/-! ### New connections -/

/-- The public key can be derived, and no connection in memory has it. -/
def Service.keyFree (svc : Service) (privkey : String) (s : World) : Bool :=
  match svc with
  | node ctx _ _ _ => match ctx.pubkey ⟨privkey⟩ with
      | .error _ => false
      | .ok pk => (s.memory.connections.iter []).all fun e => match e.2.proto.wg with
          | none => true
          | some wg => match ctx.pubkey wg.keys with
              | .error _ => true
              | .ok pk' => pk' != pk
  | auth _ _ => true

/-- Nothing fails, and a private key that is drawn has a public key of its own. -/
def freshKeys (svc : Service) : Rule Call Input World
  | _, _, .look (.prepare _ req), i, s, _ =>
      i.ok && (req.proto != .wireguard || svc.keyFree i.text s)
  | _, _, .look (.wgProto _), i, s, _ => i.ok && svc.keyFree i.text s
  | _, _, _, i, _, _ => i.ok

/-- A protocol for a new connection. -/
structure FreshKey (svc : Service) (proto : Proto) (s : World) : Prop where
  tagged : proto.wellTagged = true
  key : ∀ wg, proto.wg = some wg → svc.keyFree wg.keys.privkey s = true

section Additions

variable {svc : Service} {lower : String → String} {x : Since}
  {core : Uuid → Option Conn} {s : World} {id : Uuid}
  {c : Conn}

/-- What `keyFree` says of the cores. -/
lemma Service.keyFree_node {ctx : NodeCtx} {inbounds : List Tag} {env : Env} {uuid : Uuid}
    {privkey : String} (h : (node ctx inbounds env uuid).keyFree privkey s = true) :
    ∃ pk, ctx.pubkey ⟨privkey⟩ = .ok pk ∧ ∀ id c wg, s.memory.connections.get id = some c →
      c.proto.wg = some wg → ctx.pubkey wg.keys ≠ .ok pk := by
  rw [keyFree] at h
  cases hpk : ctx.pubkey ⟨privkey⟩ with
  | error e => simp [hpk] at h
  | ok pk =>
      simp only [hpk] at h
      refine ⟨pk, rfl, fun id c wg hget hwg hsame => ?_⟩
      have hone := List.all_eq_true.mp h (id, c) (Table.mem_iter.mpr hget)
      simp [hwg, hsame] at hone

/-- One more connection, with a key of its own. -/
lemma Service.KeysApart.update (h : svc.KeysApart core)
    (hmem : ∀ {id c}, core id = some c → ∃ c', s.memory.connections.get id = some c' ∧
      c'.proto.wg = c.proto.wg) (hfresh : FreshKey svc c.proto s) :
    svc.KeysApart (Function.update core id (some c.core)) := by
  cases svc with
  | auth env uuid => exact trivial
  | node ctx inbounds env uuid =>
      -- the key of the new connection is not that of an old one
      have hnew : ∀ {wg}, c.proto.wg = some wg → ∃ pk, ctx.pubkey wg.keys = .ok pk ∧
          ∀ {id' c' wg'}, core id' = some c' → c'.proto.wg = some wg' →
            ctx.pubkey wg'.keys ≠ .ok pk := by
        intro wg hwg
        obtain ⟨pk, hpk, hother⟩ := keyFree_node (hfresh.key wg hwg)
        refine ⟨pk, hpk, fun {id' c' wg'} hcore hwg' => ?_⟩
        obtain ⟨c'', hget, hsame⟩ := hmem hcore
        exact hother id' c'' wg' hget (hsame.trans hwg')
      intro id₁ c₁ wg₁ h₁ hwg₁
      rw [Function.update_apply] at h₁
      split_ifs at h₁ with hid₁
      · obtain rfl := Option.some.inj h₁
        rw [Conn.core_wg] at hwg₁
        obtain ⟨pk, hpk, hother⟩ := hnew hwg₁
        refine ⟨⟨pk, hpk⟩, fun {id₂ c₂ wg₂} h₂ hwg₂ hsame => ?_⟩
        rw [Function.update_apply] at h₂
        split_ifs at h₂ with hid₂
        · rw [hid₁, hid₂]
        · exact absurd (hsame.symm.trans hpk) (hother h₂ hwg₂)
      · obtain ⟨hder, hold⟩ := h h₁ hwg₁
        refine ⟨hder, fun {id₂ c₂ wg₂} h₂ hwg₂ hsame => ?_⟩
        rw [Function.update_apply] at h₂
        split_ifs at h₂ with hid₂
        · obtain rfl := Option.some.inj h₂
          rw [Conn.core_wg] at hwg₂
          obtain ⟨pk, hpk, hother⟩ := hnew hwg₂
          exact absurd (hsame.trans hpk) (hother h₁ hwg₁)
        · exact hold h₂ hwg₂ hsame

/-- A creation goes to the topic of the connection, if it is announced at all. -/
lemma Conn.topic_of_createTopic {topic : Topic} (h : c.createTopic = some topic) :
    topic = c.topic := by
  rw [createTopic] at h
  rw [Conn.topic]
  split_ifs at h ⊢
  · exact (Option.some.inj h).symm
  · exact (Option.some.inj h).symm

lemma Service.heard_announced (htagged : c.proto.wellTagged = true) (id' : Uuid) :
    svc.heard id' (announced id c s).bus =
      if id' = id ∧ svc.serves c = true then true else svc.heard id' s.bus := by
  rw [announced]
  cases htopic : c.createTopic with
  | some topic =>
      obtain rfl := Conn.topic_of_createTopic htopic
      exact heard_cons htagged .create id id' s.bus
  | none =>
      rw [if_neg]
      rintro ⟨-, hserves⟩
      rw [(topic_of_serves hserves).2.1] at htopic
      cases htopic

/-- A new connection that is stored and announced. -/
lemma Live.added (h : Live svc lower x core 0 s) (hnone : s.db.connections.get id = none)
    (hlive : c.isDeleted = false) (hfresh : FreshKey svc c.proto s) (henv : EnvStable lower c.env) :
    Live svc lower x (Function.update core id (some c.core)) 0 (announced id c { s with
      db := { s.db with connections := s.db.connections.put id (ConnRow.ofConn id c).stored }
      memory := { s.memory with connections := s.memory.connections.vacant id c } }) := by
  have hrow : s.db.flagged lower id = none := by rw [Db.flagged, hnone, Option.map_none]
  have hmem : s.memory.flagged id = none :=
    Option.map_eq_none_iff.mp ((h.rows_zero id).symm.trans hrow)
  have hget : s.memory.connections.get id = none := Option.map_eq_none_iff.mp hmem
  have hcore : core id = none := by rw [← h.cores, hmem, Option.map_none]
  have hmem' : ∀ id', Cache.flagged id'
      { s.memory with connections := s.memory.connections.vacant id c } =
        if id' = id then some (c.core, false) else s.memory.flagged id' := by
    intro id'
    rw [Cache.flagged, Table.get_vacant, hget]
    split_ifs
    · simp [hlive]
    · rfl
  have hrow' : ∀ id', Db.flagged lower id'
      { s.db with connections := s.db.connections.put id (ConnRow.ofConn id c).stored } =
        if id' = id then some (some (c.core, false)) else s.db.flagged lower id' := by
    intro id'
    rw [Db.flagged, Table.get_put]
    split_ifs
    · obtain ⟨c', hconv, hsame, hdel⟩ := ConnRow.toConn_stored id hfresh.tagged henv
      rw [Option.map_some, ConnRow.flagged, hconv]
      simp [hsame, hdel, hlive]
    · rfl
  -- nothing has been told of the new connection yet
  have hother : ∀ {id' : Uuid} {c' : Conn}, core id' = some c' →
      Function.update core id (some c.core) id' = some c' := by
    intro id' c' hc'
    rw [Function.update_apply, if_neg, hc']
    rintro rfl
    rw [hcore] at hc'
    cases hc'
  have htold : ∀ {e}, Told svc x.own core e →
      Told svc x.own (Function.update core id (some c.core)) e := by
    rintro e ⟨hown, hone⟩
    refine ⟨hown, fun htopic => ?_⟩
    obtain ⟨id', c', act, hmsgs, hact, htopic', hknown⟩ := hone htopic
    exact ⟨id', c', act, hmsgs, hact, htopic', hother hknown⟩
  constructor
  · intro id'
    rw [announced_memory, hmem', Function.update_apply]
    split_ifs
    · rfl
    · exact h.cores id'
  · intro id'
    rw [announced_memory, announced_db, hmem', hrow', h.rows_zero]
    refine Eq.trans ?_ (congrArg (Option.map some) (if_neg (Multiset.notMem_zero id')).symm)
    split_ifs
    · rfl
    · rfl
  · intro id'
    refine Eq.trans ?_ (if_neg (Multiset.notMem_zero id')).symm
    rw [announced_memory, Service.heard_announced hfresh.tagged, hmem']
    dsimp only
    by_cases hid : id' = id
    · subst hid
      rw [if_pos rfl, h.heard_zero, hmem]
      cases hserves : svc.serves c <;> simp [Service.has, hserves]
    · rw [if_neg hid, if_neg (fun hand => hid hand.1), h.heard_zero]
  · intro id' c' hc'
    rw [Function.update_apply] at hc'
    split_ifs at hc'
    · rw [← Option.some.inj hc', Conn.core_wellTagged]
      exact hfresh.tagged
    · exact h.tagged hc'
  · refine h.keys.update (s := s) (fun {id' c'} hc' => ?_) hfresh
    rw [← h.cores, Option.map_eq_some_iff] at hc'
    obtain ⟨e, he, rfl⟩ := hc'
    obtain ⟨c'', hget', rfl⟩ := Option.map_eq_some_iff.mp he
    exact ⟨c'', hget', (Conn.core_wg c'').symm⟩
  · exact fun hc' => hother (h.older hc')
  · obtain ⟨news, hnews, hall⟩ := h.news
    rw [announced]
    cases htopic : c.createTopic with
    | none => exact ⟨news, hnews, fun e he => htold (hall e he)⟩
    | some topic =>
        obtain rfl := Conn.topic_of_createTopic htopic
        refine ⟨(c.topic, [c.asCreateMessage id]) :: news, ?_, fun e he => ?_⟩
        · dsimp only
          rw [hnews, List.cons_append]
        · rcases List.mem_cons.mp he with rfl | he
          · refine ⟨fun u _ => ?_, fun htopic' => ?_⟩
            · rw [Conn.topic]
              split_ifs <;> simp
            · exact ⟨id, c, .create, rfl, by decide, htopic', Function.update_self ..⟩
          · exact htold (hall e he)

/-- What the handlers build is well tagged. -/
lemma wellTagged_newProto {net : IpAddrMask} {conns : Connections Conn} {tag : Tag} {i : Input}
    {proto : Proto} (h : newProto net conns tag i = .ok proto) : proto.wellTagged = true ∧
      ∀ wg, proto.wg = some wg → tag = .wireguard ∧ wg.keys.privkey = i.text := by
  cases tag with
  | wireguard =>
      simp only [newProto, newWgProto] at h
      split at h
      · cases h
      · rw [← Except.ok.inj h]
        refine ⟨rfl, ?_⟩
        rintro wg ⟨⟩
        exact ⟨rfl, rfl⟩
  | _ =>
      rw [← Except.ok.inj h]
      refine ⟨rfl, ?_⟩
      rintro wg ⟨⟩

lemma FreshKey.of_wg_none {proto : Proto} (htagged : proto.wellTagged = true)
    (hwg : proto.wg = none) : FreshKey svc proto s := by
  refine ⟨htagged, fun wg h => ?_⟩
  rw [hwg] at h
  cases h

/-- The requests of other processes for themselves. -/
def AsksFor (own : Option Uuid) (req : ConnType) : Prop := ∃ u, req.topic = .init u ∧ own ≠ some u

/-- **The invariant is kept by everything that happens to connections.** -/
lemma upkeep_live (svc : Service) (lower : String → String) (x : Since) :
    Upkeep (freshKeys svc) lower (Live svc lower x) Known (FreshKey svc) (EnvStable lower)
      (AsksFor x.own) where
  goes := by
    intro β ps c i s b h
    rw [freshKeys.eq_def] at h
    split at h
    · exact (Bool.and_eq_true_iff.mp h).1
    · exact (Bool.and_eq_true_iff.mp h).1
    · exact h
  knows h hget := h.knows hget
  frame h hmem hdb hbus := h.frame hmem hdb hbus
  deleted i h hc := h.deleted hc i
  updateOut h hc := h.updateOut hc
  rowRestored h := h.rowRestored
  flagCleared i h := h.flagCleared i
  missing h hid := h.missing hid
  synced := by
    rintro core s es req h ⟨u, hu, hown⟩ -
    rw [hu]
    exact h.synced hown _
  reloaded h hdb hbus hcache := h.reloaded hdb hbus hcache
  added h hnone hlive hfresh henv := ⟨_, h.added hnone hlive hfresh henv⟩
  drawn := by
    intro s i net req r proto hrule hproto
    obtain ⟨htagged, hwg⟩ := wellTagged_newProto hproto
    refine ⟨htagged, fun wg h => ?_⟩
    obtain ⟨htag, hkey⟩ := hwg wg h
    rw [freshKeys.eq_def] at hrule
    simpa [htag, hkey] using (Bool.and_eq_true_iff.mp hrule).2
  drawnWg := by
    intro s i net r proto hrule hproto
    have hnew : newProto net s.memory.connections .wireguard i = .ok proto := hproto
    obtain ⟨htagged, hwg⟩ := wellTagged_newProto hnew
    refine ⟨htagged, fun wg h => ?_⟩
    rw [(hwg wg h).2]
    exact (Bool.and_eq_true_iff.mp hrule).2
  drawnToken _ _ := .of_wg_none rfl rfl
  drawnPassword _ := ⟨.of_wg_none rfl rfl, .of_wg_none rfl rfl⟩
  drawnXray := by
    intro s tag hxray hss
    refine .of_wg_none ?_ rfl
    simp [Proto.wellTagged, hxray, hss]

/-- The environments of an operation are read back from the database, and it asks for nothing
on a topic of the process' own. -/
abbrev ApiOp.Plain (lower : String → String) (own : Option Uuid) : ApiOp → Prop :=
  ApiOp.Meets (EnvStable lower) (AsksFor own)

/-- Nothing is there at the start. -/
lemma live_empty (svc : Service) (lower : String → String) :
    Live svc lower .start (fun _ => none) 0 World.empty where
  cores _ := rfl
  rows _ := rfl
  heard _ := rfl
  tagged h := by cases h
  keys := by
    cases svc with
    | node ctx inbounds env uuid => exact fun h => by cases h
    | auth env uuid => exact trivial
  older h := h
  news := ⟨[], rfl, fun e he => absurd he List.not_mem_nil⟩

/-- **The invariant holds after every sequence of operations.** -/
lemma live_of_serial {svc : Service} {lower : String → String} {x : Since} {ops : List ApiOp}
    {s s' : World} (hrun : Serial (freshKeys svc) (ApiOp.prog lower) s ops s')
    (hops : ∀ op ∈ ops, op.Plain lower x.own) (h : ∃ core, Live svc lower x core 0 s) :
    ∃ core, Live svc lower x core 0 s' :=
  (upkeep_live svc lower x).serial hrun hops h

end Additions

end Fcore
