import Fcore.Calculus.Triple
import Fcore.Runs.Restarts

/-!
The tokens that the auth service has heard (`handle_messages_batch` of the auth
service, `delete_connection`, `restore_connections_by_subscription`,
`get_state_from_db`).

The auth service has no state but what it hears on its topic.  A connection with a
token is announced there when it is created, deleted and restored, and the token
of a connection never changes.

* `AuthAfter`: the memory of the auth service once it has handled everything
  published on its topic; `heard`: the token it then has for a connection;
* `memEntry`, `rowEntry`: token and flag of a connection in memory and in the
  database;
* `Tracks`: the invariant between two operations, for the tokens of all
  connections: memory and database agree on tokens and flags, and the auth service
  has the tokens of the live connections;
* `freshTokens`: nothing fails, and no draw is the token of a connection;
* `restoreProtocol`: the account of a restoration holds the connections whose
  update is out, and those whose row is restored; `keeps_restoreInv`: the invariant
  in its course.
-/

namespace Fcore

open Calculus
open Machine (exec)

/-! ### What the auth service hears -/

/-- The memory of the auth service that has handled every publication on its topic,
once and in order. -/
inductive AuthAfter : List (Topic × List Message) → Connections Base → Prop where
  | nil : AuthAfter [] ∅
  | auth {bus : List (Topic × List Message)} {t : Connections Base}
      {items : List (Message × DateTime)} (h : AuthAfter bus t) :
      AuthAfter ((.auth, items.map Prod.fst) :: bus) (authHandleMessagesBatch items t)
  | other {bus : List (Topic × List Message)} {t : Connections Base} {topic : Topic}
      {ms : List Message} (htopic : topic ≠ .auth) (h : AuthAfter bus t) :
      AuthAfter ((topic, ms) :: bus) t

/-- The token of a connection after one more message. -/
def hear (id : Uuid) (h : Option Uuid) (m : Message) : Option Uuid :=
  if m.connId = id then
    match m.action with
    | .create | .update => h.or m.token
    | .delete => none
    | .resetStat => h
  else h

/-- The token that the auth service has for a connection. -/
def heard (id : Uuid) : List (Topic × List Message) → Option Uuid
  | [] => none
  | (topic, ms) :: bus =>
      if topic = .auth then ms.foldl (hear id) (heard id bus) else heard id bus

/-- One message of the auth service. -/
lemma get_authHandleMessage {t : Connections Base} {id : Uuid} {h : Option Uuid}
    (ht : (t.get id).map Base.proto = h.map Proto.hysteria2) (m : Message) (now : DateTime) :
    ((authHandleMessage m now t).get id).map Base.proto = (hear id h m).map Proto.hysteria2 := by
  rw [authHandleMessage, hear]
  cases m.action with
  | create | update =>
      cases m.token with
      | none => simpa using ht
      | some token =>
          simp only [Connections.add, Table.get_vacant]
          by_cases hid : m.connId = id
          · subst hid
            rw [if_pos rfl, if_pos rfl]
            cases hget : t.get m.connId with
            | none =>
                rw [hget] at ht
                have hnone : h = none := by simpa using ht.symm
                simp [hnone, Message.toBase, Base.new]
            | some c =>
                rw [hget] at ht
                obtain ⟨u, rfl, hu⟩ := Option.map_eq_some_iff.mp ht.symm
                simpa using hu.symm
          · rw [if_neg hid, if_neg (Ne.symm hid)]
            exact ht
  | delete =>
      simp only [Connections.remove]
      by_cases hid : m.connId = id
      · subst hid
        rw [if_pos rfl]
        cases hget : t.get m.connId with
        | none => simp [hget]
        | some c => simp [Table.get_drop]
      · rw [if_neg hid]
        cases t.get m.connId with
        | none => exact ht
        | some c =>
            simp only [Table.get_drop, if_neg (Ne.symm hid)]
            exact ht
  | resetStat => simpa using ht

lemma get_authHandleMessagesBatch (items : List (Message × DateTime)) {t : Connections Base}
    {id : Uuid} {h : Option Uuid} (ht : (t.get id).map Base.proto = h.map Proto.hysteria2) :
    ((authHandleMessagesBatch items t).get id).map Base.proto =
      ((items.map Prod.fst).foldl (hear id) h).map Proto.hysteria2 := by
  induction items generalizing t h with
  | nil => exact ht
  | cons it items ih => exact ih (get_authHandleMessage ht it.1 it.2)

/-- The auth service has the tokens it has heard, and nothing else. -/
lemma AuthAfter.get {bus : List (Topic × List Message)} {t : Connections Base}
    (h : AuthAfter bus t) (id : Uuid) :
    (t.get id).map Base.proto = (heard id bus).map Proto.hysteria2 := by
  induction h with
  | nil => rfl
  | @auth bus t items h ih =>
      rw [heard, if_pos rfl]
      exact get_authHandleMessagesBatch items ih
  | other htopic h ih =>
      rw [heard, if_neg htopic]
      exact ih

/-- An announcement on the topic of a connection. -/
lemma heard_cons_topic (c : Conn) (a : Action) (id id' : Uuid)
    (bus : List (Topic × List Message)) :
    heard id' ((c.topic, [c.asMessage a id]) :: bus) =
      if c.proto.token.isSome then hear id' (heard id' bus) (c.asMessage a id)
      else heard id' bus := by
  rw [heard, Conn.topic]
  cases c.proto.token.isSome <;> simp

lemma heard_update (c : Conn) (id id' : Uuid) (bus : List (Topic × List Message)) :
    heard id' ((c.topic, [c.asUpdateMessage id]) :: bus) =
      if id' = id then (heard id bus).or c.proto.token else heard id' bus := by
  rw [Conn.asUpdateMessage, heard_cons_topic]
  by_cases hid : id' = id
  · subst hid
    cases htoken : c.proto.token <;> simp [hear, Conn.asMessage, htoken]
  · simp [hear, Conn.asMessage, hid, Ne.symm hid]

lemma heard_announced (c : Conn) (id id' : Uuid) (s : World) :
    heard id' (announced id c s).bus =
      if id' = id then (heard id s.bus).or c.proto.token else heard id' s.bus := by
  rw [announced, Conn.createTopic]
  cases htoken : c.proto.token with
  | some token =>
      by_cases hid : id' = id
      · subst hid
        simp [heard, hear, Conn.asCreateMessage, Conn.asMessage, htoken]
      · simp [heard, hear, Conn.asCreateMessage, Conn.asMessage, hid, Ne.symm hid]
  | none =>
      cases c.proto.isMtproto with
      | true => by_cases hid : id' = id <;> simp [hid]
      | false => by_cases hid : id' = id <;> simp [heard, hid]

lemma heard_delete (c : Conn) (id id' : Uuid) (bus : List (Topic × List Message)) :
    heard id' ((c.topic, [c.asDeleteMessage id]) :: bus) =
      if id' = id ∧ c.proto.token.isSome then none else heard id' bus := by
  rw [Conn.asDeleteMessage, heard_cons_topic]
  by_cases hid : id' = id
  · subst hid
    cases htoken : c.proto.token <;> simp [hear, Conn.asMessage]
  · simp [hear, Conn.asMessage, hid, Ne.symm hid]

/-! ### Tokens and flags -/

/-- The token that a row gives to its connection. -/
def ConnRow.authToken (r : ConnRow) : Option Uuid := if r.proto = .hysteria2 then r.token else none

lemma ConnRow.toConn_token {lower : String → String} {r : ConnRow} {c : Conn}
    (h : r.toConn lower = .ok c) : c.proto.token = r.authToken := by
  rw [toConn] at h
  cases hproto : r.toProto with
  | error e => simp [hproto] at h
  | ok proto =>
      rw [hproto] at h
      rw [← Except.ok.inj h, authToken]
      rw [toProto] at hproto
      cases htag : r.proto <;> simp only [htag] at hproto
      all_goals first
        | (rw [← Except.ok.inj hproto]; rfl)
        | (split at hproto <;> first
            | (rw [← Except.ok.inj hproto]; simp_all [Proto.token])
            | cases hproto)

/-- A row has the token of the connection that was stored. -/
lemma ConnRow.ofConn_authToken (id : Uuid) (c : Conn) :
    (ConnRow.ofConn id c).stored.authToken = c.proto.token := by
  show (if c.proto.proto = .hysteria2 then c.proto.token else none) = c.proto.token
  cases c.proto with
  | xray tag => exact ite_self _
  | hysteria2 token => exact if_pos rfl
  | wireguard | shadowsocks | mtproto => exact if_neg (by simp [Proto.proto])

/-- The token and the deleted flag of a connection. -/
abbrev Entry := Option Uuid × Bool

/-- The entry of a connection in memory. -/
def memEntry (id : Uuid) (m : Cache) : Option Entry :=
  (m.connections.get id).map fun c => (c.proto.token, c.isDeleted)

/-- The entry of a connection in the database. -/
def rowEntry (id : Uuid) (db : Db) : Option Entry :=
  (db.connections.get id).map fun r => (r.authToken, r.isDeleted)

/-- The token of a connection that is not deleted. -/
def Entry.live (e : Entry) : Option Uuid := if e.2 then none else e.1

/-- The entry with another flag. -/
def Entry.flag (v : Bool) (e : Entry) : Entry := (e.1, v)

/-- A flag leaves the token alone. -/
@[simp] lemma bind_fst_flag (e : Option Entry) (v : Bool) :
    (e.map (Entry.flag v)).bind Prod.fst = e.bind Prod.fst := by
  cases e <;> rfl

@[simp] lemma bind_live_flag_true (e : Option Entry) :
    (e.map (Entry.flag true)).bind Entry.live = none := by
  cases e <;> rfl

@[simp] lemma bind_live_flag_false (e : Option Entry) :
    (e.map (Entry.flag false)).bind Entry.live = e.bind Prod.fst := by
  cases e <;> rfl

/-- The last flag counts. -/
@[simp] lemma Entry.flag_comp_flag (v w : Bool) : Entry.flag w ∘ Entry.flag v = Entry.flag w := rfl

/-- A connection that is deleted or not has at most its token. -/
lemma live_or_token (e : Option Entry) :
    (e.bind Entry.live).or (e.bind Prod.fst) = e.bind Prod.fst := by
  rcases e with - | ⟨token, del⟩
  · rfl
  · cases del <;> cases token <;> rfl

lemma memEntry_setDeleted (id id' : Uuid) (v : Bool) (i : Input) (m : Cache) :
    memEntry id' (Edit.run (.setDeleted id v) i m).1 =
      if id' = id then (memEntry id m).map (Entry.flag v) else memEntry id' m := by
  show Option.map _ ((m.connections.change id _).get id') = _
  rw [Table.get_change]
  split_ifs with hid
  · rw [memEntry, Option.map_map, Option.map_map]
    rfl
  · rfl

lemma rowEntry_connSetDeleted (id id' : Uuid) (v : Bool) (db : Db) :
    rowEntry id' (db.connSetDeleted id v) =
      if id' = id then (rowEntry id db).map (Entry.flag v) else rowEntry id' db := by
  show Option.map _ ((db.connections.change id _).get id') = _
  rw [Table.get_change]
  split_ifs with hid
  · rw [rowEntry, Option.map_map, Option.map_map]
    rfl
  · rfl

/-- The invariant between two operations; `tok` has the tokens of all connections,
deleted or not. -/
structure Tracks (tok : Uuid → Option Uuid) (s : World) : Prop where
  tokens : ∀ id, (memEntry id s.memory).bind Prod.fst = tok id
  rows : ∀ id, rowEntry id s.db = memEntry id s.memory
  heard : ∀ id, heard id s.bus = (memEntry id s.memory).bind Entry.live
  unique : ∀ {id id' t}, tok id = some t → tok id' = some t → id = id'

/-- No connection in memory has the token. -/
def tokenFree (token : Uuid) (s : World) : Bool :=
  (s.memory.connections.iter []).all fun e => e.2.proto.token != some token

/-- Nothing fails, and what is drawn is not the token of a connection in memory. -/
def freshTokens : Rule Call Input World
  | _, _, .ask .uuid, i, s, _ => i.ok && tokenFree i.uuid s
  | _, _, .look (.prepare _ _), i, s, _ => i.ok && tokenFree i.uuid s
  | _, _, _, i, _, _ => i.ok

section Steps

variable {tok : Uuid → Option Uuid} {s s' : World}

lemma ok_of_freshTokens {β : Type} {ps : List (Prog Call Unit)} {c : Call β} {i : Input} {b : β}
    (h : freshTokens β ps c i s b = true) : i.ok = true := by
  rw [freshTokens.eq_def] at h
  split at h
  · exact (Bool.and_eq_true_iff.mp h).1
  · exact (Bool.and_eq_true_iff.mp h).1
  · exact h

lemma not_mayFail : ¬ MayFail freshTokens := by
  rintro ⟨β, c, i, s, b, hfail, hrule⟩
  rw [ok_of_freshTokens hrule] at hfail
  cases hfail

/-- The invariant is about the connections and the bus only. -/
lemma Tracks.frame (h : Tracks tok s) (hmem : s'.memory.connections = s.memory.connections)
    (hdb : s'.db.connections = s.db.connections) (hbus : s'.bus = s.bus) : Tracks tok s' where
  tokens id := by
    rw [memEntry, hmem]
    exact h.tokens id
  rows id := by
    rw [memEntry, rowEntry, hmem, hdb]
    exact h.rows id
  heard id := by
    rw [memEntry, hmem, hbus]
    exact h.heard id
  unique := h.unique

lemma token_of_get (h : ∀ id, (memEntry id s.memory).bind Prod.fst = tok id) {id : Uuid} {c : Conn}
    (hget : s.memory.connections.get id = some c) : c.proto.token = tok id := by
  rw [← h id, memEntry, hget]
  rfl

/-- A connection without a token has none at the auth service. -/
lemma Tracks.heard_eq_none (h : Tracks tok s) {id : Uuid} (hid : tok id = none) :
    Fcore.heard id s.bus = none := by
  have htoken : (memEntry id s.memory).bind Prod.fst = none := (h.tokens id).trans hid
  rw [h.heard]
  rcases hentry : memEntry id s.memory with - | ⟨token, del⟩
  · rfl
  · obtain rfl : token = none := by simpa [hentry] using htoken
    exact ite_self _

/-- Messages that repeat what the auth service has. -/
lemma foldl_hear_eq {id : Uuid} {u : Option Uuid} {ms : List Message}
    (h : ∀ m ∈ ms, m.connId = id → m.action = .create ∧ m.token = u) :
    ms.foldl (hear id) u = u := by
  induction ms with
  | nil => rfl
  | cons m ms ih =>
      have hhear : hear id u m = u := by
        rw [hear]
        split_ifs with hid
        · obtain ⟨haction, htoken⟩ := h m List.mem_cons_self hid
          rw [haction, htoken]
          exact Option.or_self
        · rfl
      rw [List.foldl_cons, hhear]
      exact ih fun m' hm' => h m' (List.mem_cons_of_mem m hm')

/-- Creations of connections that are not deleted, on any topic. -/
lemma Tracks.sync (h : Tracks tok s) (topic : Topic) {es : List (Uuid × Conn)}
    (hes : ∀ e ∈ es, s.memory.connections.get e.1 = some e.2 ∧ e.2.isDeleted = false) :
    Tracks tok { s with bus := (topic, es.map fun e => e.2.asCreateMessage e.1) :: s.bus } where
  tokens := h.tokens
  rows := h.rows
  heard id := by
    rw [Fcore.heard]
    split_ifs with htopic
    · rw [foldl_hear_eq, h.heard]
      intro m hm hid
      obtain ⟨e, he, rfl⟩ := List.mem_map.mp hm
      obtain ⟨hget, hlive⟩ := hes e he
      obtain rfl : e.1 = id := hid
      refine ⟨rfl, ?_⟩
      rw [h.heard, memEntry, hget]
      simp [Entry.live, hlive, Conn.asCreateMessage, Conn.asMessage]
    · exact h.heard id
  unique := h.unique

/-- The memory that a reload builds has the entries of the rows. -/
lemma memEntry_buildCache {lower : String → String} {db : Db} {order : List Uuid}
    {subs : List Subscription} {m : Cache} (h : buildCache lower (db.connAll order) subs = .ok m)
    (id : Uuid) : memEntry id m = rowEntry id db := by
  refine map_get_buildCache h (fun hconv => ?_) id
  rw [ConnRow.toConn_token hconv, ConnRow.toConn_isDeleted hconv]
  rfl

/-- A deletion that goes through. -/
lemma Tracks.delete (h : Tracks tok s) {id : Uuid} {c : Conn} (hc : c.proto.token = tok id)
    (i : Input) : Tracks tok { s with
      db := s.db.connSetDeleted id true
      bus := (c.topic, [c.asDeleteMessage id]) :: s.bus
      memory := (Edit.run (.setDeleted id true) i s.memory).1 } where
  tokens id' := by
    dsimp only
    rw [memEntry_setDeleted]
    split_ifs with hid
    · rw [bind_fst_flag, hid]
      exact h.tokens id
    · exact h.tokens id'
  rows id' := by
    dsimp only
    rw [memEntry_setDeleted, rowEntry_connSetDeleted, h.rows, h.rows]
  heard id' := by
    dsimp only
    rw [memEntry_setDeleted, heard_delete]
    by_cases hid : id' = id
    · subst hid
      rw [if_pos rfl, bind_live_flag_true]
      split_ifs with hsome
      · rfl
      · refine h.heard_eq_none ?_
        rw [← hc]
        simpa using hsome
    · rw [if_neg hid, if_neg (fun hand => hid hand.1)]
      exact h.heard id'
  unique := h.unique

end Steps

/-! ### Restorations -/

/-- The account of a restoration holds the connections whose update is out, and those
whose row is restored; a connection leaves both when its flag is cleared. -/
def restoreProtocol (tok : Uuid → Option Uuid) : Protocol Call (Multiset Uuid × Multiset Uuid) where
  admits
    | _, .look (.toRestore _), es => ∀ e ∈ es, e.2.proto.token = tok e.1
    | _, .bus (.publish _ _), r => r = .ok ()
    | _, .sql (.connRestore _), r => r = .ok ()
    | _, _, _ => True
  may
    | _, .look _, _ => True
    | _, .ask _, _ => True
    | _, .bus (.publish topic ms), _ =>
        ∃ id c, topic = Conn.topic c ∧ ms = [c.asUpdateMessage id] ∧ c.proto.token = tok id
    | _, .sql (.connRestore _), _ => True
    | _, .edit (.setDeleted _ v), _ => v = false
    | _, _, _ => False
  moves
    | _, .bus (.publish _ ms), _, a, a' => a' = a + ((ms.map Message.connId : Multiset Uuid), 0)
    | _, .look (.connection id), none, a, a' => a = a' + ({id}, 0)
    | _, .sql (.connRestore id), _, a, a' => a' = a + (0, {id})
    | _, .edit (.setDeleted id _), _, a, a' => a = a' + ({id}, {id})
    | _, _, _, a, a' => a' = a

section Restoration

variable {tok : Uuid → Option Uuid}

lemma restoreProtocol_framed : Framed (restoreProtocol tok) where
  may := by
    intro β c a f h
    cases c with
    | edit w => cases w <;> exact h
    | sql q => cases q <;> exact h
    | bus p => cases p; exact h
    | _ => exact h
  moves := by
    intro β c b a a' f h
    have hsame : a' = a → a' + f = a + f := fun h => by rw [h]
    cases c with
    | edit w =>
        cases w with
        | setDeleted id v => exact add_frame f h
        | _ => exact hsame h
    | look r =>
        cases r with
        | connection id =>
            cases b with
            | none => exact add_frame f h
            | some c => exact hsame h
        | _ => exact hsame h
    | bus p =>
        cases p with
        | publish topic ms => exact add_frame f h
    | sql q =>
        cases q with
        | connRestore id => exact add_frame f h
        | _ => exact hsame h
    | _ => exact hsame h

lemma restoreProtocol_pick : Free (restoreProtocol tok) (.ask .pick) :=
  fun _ => ⟨trivial, fun _ => rfl⟩

lemma restoreProtocol_restoreConnection (connId : Uuid) :
    Obeys (restoreProtocol tok) (fun _ a => a = 0) (restoreConnection connId) ({connId}, 0) := by
  refine ⟨trivial, fun existing _ => ?_⟩
  cases existing with
  | none => exact ⟨0, (zero_add _).symm, rfl⟩
  | some c =>
      refine ⟨_, rfl, trivial, fun r hr => ⟨_, rfl, ?_⟩⟩
      obtain rfl : r = .ok () := hr
      refine ⟨rfl, fun _ _ => ⟨0, ?_, rfl⟩⟩
      exact Prod.ext (by simp) (by simp)

lemma restoreProtocol_restoreOne {e : Uuid × Conn} (he : e.2.proto.token = tok e.1) :
    Obeys (restoreProtocol tok) (fun _ a => a = 0) (restoreOne e) 0 := by
  refine ⟨⟨e.1, e.2, rfl, rfl, he⟩, fun r hr => ⟨({e.1}, 0), (zero_add _).symm, ?_⟩⟩
  obtain rfl : r = .ok () := hr
  refine (restoreProtocol_restoreConnection e.1).bind ?_
  rintro r a rfl
  rcases r with r | st
  · exact rfl
  · cases st <;> exact rfl

lemma restoreProtocol_restoreConnectionsBySubscription (subId : Uuid) :
    Obeys (restoreProtocol tok) (fun _ a => a = 0) (restoreConnectionsBySubscription subId) 0 := by
  refine ⟨trivial, fun es hes => ⟨0, rfl, ?_⟩⟩
  cases es with
  | nil => exact rfl
  | cons e es =>
      have hall : Obeys (restoreProtocol tok) (fun _ a => a = 0)
          (Prog.joinAll (.ask .pick) ((e :: es).map restoreOne)) 0 := by
        refine (Obeys.joinAll restoreProtocol_framed restoreProtocol_pick
          (G := fun _ _ => True) fun x hx => ?_).mono fun _ _ h => h.2
        exact (restoreProtocol_restoreOne (hes x hx)).mono fun _ _ h => ⟨trivial, h⟩
      exact hall.bind fun _ _ h => h

/-- The invariant in the course of a restoration. -/
structure RestoreInv (tok : Uuid → Option Uuid) (s : World) (a : Multiset Uuid × Multiset Uuid) :
    Prop where
  tokens : ∀ id, (memEntry id s.memory).bind Prod.fst = tok id
  rows : ∀ id, rowEntry id s.db = if id ∈ a.2 then (memEntry id s.memory).map (Entry.flag false)
    else memEntry id s.memory
  heard : ∀ id, heard id s.bus = if id ∈ a.1 then tok id
    else (memEntry id s.memory).bind Entry.live
  unique : ∀ {id id' t}, tok id = some t → tok id' = some t → id = id'

lemma restoreInv_zero {s : World} : RestoreInv tok s 0 ↔ Tracks tok s := by
  constructor
  · intro h
    exact ⟨h.tokens, fun id => by simpa using h.rows id, fun id => by simpa using h.heard id,
      h.unique⟩
  · intro h
    exact ⟨h.tokens, fun id => by simpa using h.rows id, fun id => by simpa using h.heard id,
      h.unique⟩

variable {s : World} {a : Multiset Uuid × Multiset Uuid}

/-- The update of a connection goes out. -/
lemma RestoreInv.publish (h : RestoreInv tok s a) {id : Uuid} {c : Conn}
    (hc : c.proto.token = tok id) :
    RestoreInv tok { s with bus := (c.topic, [c.asUpdateMessage id]) :: s.bus }
      (a + ({id}, 0)) where
  tokens := h.tokens
  rows id' := by simpa using h.rows id'
  heard id' := by
    dsimp only
    rw [heard_update, h.heard, h.heard, hc]
    by_cases hid : id' = id
    · subst hid
      have hlive := live_or_token (memEntry id' s.memory)
      rw [h.tokens] at hlive
      by_cases hmem : id' ∈ a.1 <;> simp [hmem, hlive]
    · simp [hid]
  unique := h.unique

/-- The row of a connection is restored. -/
lemma RestoreInv.connRestore (h : RestoreInv tok s a) (id : Uuid) :
    RestoreInv tok { s with db := s.db.connSetDeleted id false } (a + (0, {id})) where
  tokens := h.tokens
  rows id' := by
    dsimp only
    rw [rowEntry_connSetDeleted, h.rows, h.rows]
    by_cases hid : id' = id
    · subst hid
      by_cases hmem : id' ∈ a.2 <;> simp [hmem]
    · simp [hid]
  heard id' := by simpa using h.heard id'
  unique := h.unique

/-- The flag of a connection is cleared. -/
lemma RestoreInv.setDeleted {id : Uuid} (h : RestoreInv tok s (a + ({id}, {id}))) (i : Input) :
    RestoreInv tok { s with memory := (Edit.run (.setDeleted id false) i s.memory).1 } a where
  tokens id' := by
    dsimp only
    rw [memEntry_setDeleted]
    split_ifs with hid
    · rw [bind_fst_flag, hid]
      exact h.tokens id
    · exact h.tokens id'
  rows id' := by
    have hrows := h.rows id'
    dsimp only
    rw [memEntry_setDeleted]
    by_cases hid : id' = id
    · subst hid
      simpa using hrows
    · simpa [hid] using hrows
  heard id' := by
    have hheard := h.heard id'
    dsimp only
    rw [memEntry_setDeleted]
    by_cases hid : id' = id
    · subst hid
      rw [if_pos rfl, bind_live_flag_false, h.tokens, ite_self]
      simpa using hheard
    · simpa [hid] using hheard
  unique := h.unique

/-- A connection that the memory does not have. -/
lemma RestoreInv.missing {id : Uuid} (h : RestoreInv tok s (a + ({id}, 0)))
    (hid : s.memory.connections.get id = none) : RestoreInv tok s a where
  tokens := h.tokens
  rows id' := by simpa using h.rows id'
  heard id' := by
    have hheard := h.heard id'
    by_cases heq : id' = id
    · subst heq
      have hnone : memEntry id' s.memory = none := by rw [memEntry, hid, Option.map_none]
      have htok := h.tokens id'
      rw [hnone] at htok
      simpa [hnone, ← htok] using hheard
    · simpa [heq] using hheard
  unique := h.unique

lemma keeps_restoreInv : KeepsAlone freshTokens (restoreProtocol tok) (RestoreInv tok) := by
  intro β c i s s' b a hexec hrule hmay hinv
  have hok := ok_of_freshTokens hrule
  cases c with
  | look r =>
      obtain ⟨-, rfl, hb⟩ := exec_look.mp hexec
      cases r with
      | connection id =>
          refine ⟨trivial, fun a' hm => ?_⟩
          cases b with
          | none =>
              obtain rfl : a = a' + (({id} : Multiset Uuid), (0 : Multiset Uuid)) := hm
              exact hinv.missing hb.symm
          | some c => rwa [show a' = a from hm]
      | toRestore sub =>
          refine ⟨fun e he => ?_, fun a' hm => by rwa [show a' = a from hm]⟩
          rw [hb] at he
          have hget := Connections.mem_getBySubscriptionId.mp (List.mem_filter.mp he).1
          exact token_of_get hinv.tokens hget.1
      | _ => exact ⟨trivial, fun a' hm => by rwa [show a' = a from hm]⟩
  | bus p =>
      obtain ⟨rfl, rfl⟩ := exec_bus.mp hexec
      cases p with
      | publish topic ms =>
          obtain ⟨id, c, rfl, rfl, hc⟩ := hmay
          rw [Call.execBus, hok]
          refine ⟨rfl, fun a' hm => ?_⟩
          rw [show a' = _ from hm]
          exact hinv.publish hc
  | ask q =>
      obtain ⟨rfl, -⟩ := exec_ask.mp hexec
      exact ⟨trivial, fun a' hm => by rwa [show a' = a from hm]⟩
  | sql q =>
      obtain ⟨rfl, rfl⟩ := exec_sql.mp hexec
      cases q with
      | connRestore id =>
          rw [Sql.run, hok]
          refine ⟨rfl, fun a' hm => ?_⟩
          rw [show a' = _ from hm]
          exact hinv.connRestore id
      | _ => exact hmay.elim
  | edit w =>
      cases w with
      | setDeleted id v =>
          obtain rfl : v = false := hmay
          obtain ⟨-, rfl, -⟩ := exec_edit.mp hexec
          refine ⟨trivial, fun a' hm => ?_⟩
          obtain rfl : a = a' + (({id} : Multiset Uuid), ({id} : Multiset Uuid)) := hm
          exact hinv.setDeleted i
      | _ => exact hmay.elim
  | _ => exact hmay.elim

end Restoration

end Fcore
