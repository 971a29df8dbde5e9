import Fcore.Api.ConnRows
import Fcore.Memory.Nodes

/-!
Registered nodes and their two tables (`src/bin/api/postgres/node.rs`, `add_node`
and `update_node_status` in `src/bin/api/sync/tasks.rs`, `post_node_handler`).

* `NodeDb.upsert`, `NodeDb.all`: a registration replaces the columns of the node and
  those of its inbounds, and a reading joins the tables;
* `postNodeHandler`: `POST /node`, `reloadNodes`: the nodes of `get_state_from_db`;
* `NodeRequest.Storable`, `NodeRequest.Succeeds`: the registrations that the tables
  keep whole, alone and after an earlier one of the same node;
* `reload_keeps_nodes`: after such registrations a reload changes nothing.
-/

namespace Fcore

open Calculus

/-! ### Tables -/

/-- `cores as i32`. -/
def asI32 (n : ℕ) : ℤ := Int.bmod n (2 ^ 32)

/-- `cores as usize`, of a signed word. -/
def asUsize (n : ℤ) : ℕ := (n % 2 ^ 64).toNat

/-- `port as u16`, of a signed word. -/
def asU16 (n : ℤ) : UInt16 := UInt16.ofNat (n % 2 ^ 16).toNat

/-- The columns of `nodes`; the identifier is the primary key. -/
structure NodeRow where
  uuid : Uuid
  env : String
  hostname : String
  address : IpAddr
  status : NodeStatus
  createdAt : DateTime
  modifiedAt : DateTime
  label : String
  interface : String
  cores : ℤ
  maxBandwidthBps : ℤ
  country : String
  nodeType : NodeType

/-- The columns of `inbounds`; the node and the tag are unique together. -/
structure InboundRow where
  port : ℤ
  streamSettings : Option StreamSettings
  uplink : Option ℤ
  downlink : Option ℤ
  connCount : Option ℤ
  wgPrivkey : Option String
  wgInterface : Option String
  wgAddress : Option String
  dns : Option (List IpAddr)
  h2 : Option H2Settings
  mtprotoSecret : Option String

/-- The tables `nodes` and `inbounds`. -/
structure NodeDb where
  nodes : Table Uuid NodeRow
  inbounds : Table (Uuid × Tag) InboundRow

/-- All tags. -/
def Tag.all : List Tag :=
  [.vlessTcpReality, .vlessGrpcReality, .vlessXhttpReality, .vmess, .shadowsocks, .wireguard,
    .hysteria2, .mtproto]

/-- The inbounds of a node in an order of iteration. -/
def Node.inboundValues (node : Node) (order : List Tag) : List Inbound :=
  (order ++ Tag.all).dedup.filterMap node.inbounds

/-- The columns that are written of an inbound. -/
def InboundRow.ofInbound (ip : IpText) (inbound : Inbound) : InboundRow where
  port := inbound.port.toNat
  streamSettings := inbound.streamSettings
  uplink := inbound.uplink
  downlink := inbound.downlink
  connCount := inbound.connCount
  wgPrivkey := inbound.wg.map (·.keys.privkey)
  wgInterface := inbound.wg.map (·.interface)
  wgAddress := inbound.wg.map (·.address.toText ip)
  dns := inbound.wg.map fun wg => wg.dns.map IpAddr.v4
  h2 := inbound.h2
  mtprotoSecret := inbound.mtprotoSecret

/-- The inbound that is read from the columns. -/
def InboundRow.toInbound (ip : IpText) (tag : Tag) (row : InboundRow) : Inbound where
  tag := tag
  port := asU16 row.port
  streamSettings := row.streamSettings
  uplink := row.uplink
  downlink := row.downlink
  connCount := row.connCount
  wg :=
    let dns := row.dns.map fun ips => ips.filterMap fun
      | .v4 v4 => some v4
      | .v6 _ => none
    match row.wgPrivkey, row.wgInterface, row.wgAddress.bind (IpAddrMask.fromStr ip), dns with
    | some privkey, some interface, some address, some dns =>
        some { keys := ⟨privkey⟩, interface := interface, address := address,
               port := asU16 row.port, dns := dns }
    | _, _, _, _ => none
  h2 := row.h2
  mtprotoSecret := row.mtprotoSecret

/-- The columns that `INSERT INTO nodes` writes; the type is not among them. -/
def NodeRow.ofNode (node : Node) : NodeRow where
  uuid := node.uuid
  env := node.env.toText
  hostname := node.hostname
  address := .v4 node.address
  status := node.status
  createdAt := pgRound node.createdAt
  modifiedAt := pgRound node.modifiedAt
  label := node.label
  interface := node.interface
  cores := asI32 node.cores
  maxBandwidthBps := node.maxBandwidthBps
  country := node.country
  nodeType := .common

namespace NodeDb

/-- `PgNode::upsert`.  On a conflict the time of creation and the type of the row stay. -/
def upsert (ip : IpText) (order : List Tag) (nodeId : Uuid) (node : Node)
    (db : NodeDb) : NodeDb where
  nodes := db.nodes.put nodeId (match db.nodes.get nodeId with
    | some old => { NodeRow.ofNode node with createdAt := old.createdAt, nodeType := old.nodeType }
    | none => NodeRow.ofNode node)
  inbounds := (node.inboundValues order).foldl
    (fun t inbound => t.put (nodeId, inbound.tag) (InboundRow.ofInbound ip inbound)) db.inbounds

/-- `PgNode::update_status`. -/
def updateStatus (uuid : Uuid) (env : String) (status : NodeStatus) (now : DateTime) (db : NodeDb) :
    NodeDb :=
  { db with nodes := db.nodes.change uuid fun row =>
      if row.env = env then { row with status := status, modifiedAt := pgRound now } else row }

/-- The node of a row, with the inbounds that the join gives it; a row whose address is no
IPv4 one is skipped. -/
def toNode (ip : IpText) (lower : String → String) (db : NodeDb) (nodeId : Uuid) (row : NodeRow) :
    Option Node :=
  match row.address with
  | .v6 _ => none
  | .v4 address => some
      { uuid := row.uuid
        env := Env.fromText lower row.env
        hostname := row.hostname
        address := address
        status := row.status
        label := row.label
        interface := row.interface
        createdAt := row.createdAt
        modifiedAt := row.modifiedAt
        inbounds := fun tag => (db.inbounds.get (nodeId, tag)).map (InboundRow.toInbound ip tag)
        cores := asUsize row.cores
        maxBandwidthBps := row.maxBandwidthBps
        country := row.country
        type := row.nodeType }

/-- `PgNode::all`. -/
def all (ip : IpText) (lower : String → String) (order : List Uuid) (db : NodeDb) : List Node :=
  (db.nodes.iter order).filterMap fun e => db.toNode ip lower e.1 e.2

end NodeDb

/-! ### Requests -/

/-- The memory of the nodes and their tables. -/
structure NodeWorld where
  memory : Nodes
  db : NodeDb

/-- Nothing is registered. -/
def NodeWorld.empty : NodeWorld := ⟨∅, ⟨∅, ∅⟩⟩

/-- `request::NodeRequest`. -/
structure NodeRequest where
  env : Env
  hostname : String
  address : BitVec 32
  inbounds : Tag → Option Inbound
  uuid : Uuid
  label : String
  interface : String
  cores : ℕ
  maxBandwidthBps : ℤ
  country : String
  type : Option NodeType

/-- `NodeRequest::as_node`. -/
def NodeRequest.asNode (req : NodeRequest) (now : DateTime) : Node where
  uuid := req.uuid
  env := req.env
  hostname := req.hostname
  address := req.address
  status := .online
  label := req.label
  interface := req.interface
  createdAt := now
  modifiedAt := now
  inbounds := req.inbounds
  cores := req.cores
  maxBandwidthBps := req.maxBandwidthBps
  country := req.country
  type := req.type.getD .common

/-- What a registration meets outside. -/
structure NodeInput where
  /-- The upsert goes through. -/
  ok : Bool
  /-- The update of the status goes through. -/
  statusOk : Bool
  /-- The clock. -/
  now : DateTime
  /-- The text of a database error. -/
  text : String
  /-- The order of the inbounds. -/
  order : List Tag

/-- `add_node`: the tables first, then the memory. -/
def addNode (ip : IpText) (i : NodeInput) (nodeId : Uuid) (node : Node) (s : NodeWorld) :
    NodeWorld × Except SyncError Status :=
  if !i.ok then (s, .error (.database (.database i.text)))
  else
    let (memory, status) := s.memory.add node
    ({ memory := memory, db := s.db.upsert ip i.order nodeId node }, match status with
      | .ok _ | .alreadyExist _ | .updated _ => .ok (.ok nodeId)
      | .notModified id => .ok (.notModified id)
      | other => .error (.memory ("Unexpected operation status: " ++ other.toText)))

/-- `update_node_status`; its result is not used. -/
def updateNodeStatus (i : NodeInput) (uuid : Uuid) (env : Env) (status : NodeStatus)
    (s : NodeWorld) :
    NodeWorld :=
  match s.memory.getNode env uuid with
  | none => s
  | some node =>
      if node.status = status || !i.statusOk then s
      else
        { memory := s.memory.change env fun nodes => nodes.map fun n =>
            if n.uuid = uuid then { n with status := status } else n
          db := s.db.updateStatus uuid env.toText status i.now }

/-- `post_node_handler`. -/
def postNodeHandler (ip : IpText) (i : NodeInput) (req : NodeRequest) (s : NodeWorld) :
    NodeWorld × Reply :=
  let node := req.asNode i.now
  match addNode ip i req.uuid node s with
  | (s, .ok (.ok id)) | (s, .ok (.alreadyExist id)) | (s, .ok (.notModified id)) =>
      (updateNodeStatus i req.uuid node.env .online s, successResponse "Ok" (some id) .none)
  | (s, .ok _) => (s, badRequest "Operation not supported")
  | (s, .error e) =>
      (s, internalError ("INTERNAL_SERVER_ERROR " ++ e.toText ++ " for " ++ req.uuid.asHyphenated))

/-- The nodes that `get_state_from_db` leaves in the memory. -/
def reloadNodes (ip : IpText) (lower : String → String) (order : List Uuid) (db : NodeDb) : Nodes :=
  Nodes.addAll ∅ (db.all ip lower order)

/-! ### What the tables keep -/

/-- A node without its times. -/
def Node.undated (node : Node) : Node := { node with createdAt := 0, modifiedAt := 0 }

lemma Node.env_eq_of_undated {node node' : Node} (h : node.undated = node'.undated) :
    node.env = node'.env := by
  have henv : node.undated.env = node'.undated.env := by rw [h]
  exact henv

lemma Node.uuid_eq_of_undated {node node' : Node} (h : node.undated = node'.undated) :
    node.uuid = node'.uuid := by
  have huuid : node.undated.uuid = node'.undated.uuid := by rw [h]
  exact huuid

/-- A registration that the tables keep whole: a common node with a small number of cores,
inbounds under their own tags, and WireGuard settings with the port of the inbound and
a proper mask. -/
structure NodeRequest.Storable (req : NodeRequest) : Prop where
  type_common : req.type.getD .common = .common
  cores : asUsize (asI32 req.cores) = req.cores
  tag_eq : ∀ tag inbound, req.inbounds tag = some inbound → inbound.tag = tag
  wg : ∀ tag inbound wg, req.inbounds tag = some inbound → inbound.wg = some wg →
    wg.port = inbound.port ∧ wg.address.cidr ≤ wg.address.address.maxCidr

/-- A registration after an earlier one: the same node keeps its environment and drops no
inbound. -/
def NodeRequest.Succeeds (old req : NodeRequest) : Prop :=
  old.uuid = req.uuid → req.env = old.env ∧
    ∀ tag, old.inbounds tag ≠ none → req.inbounds tag ≠ none

lemma mem_inboundValues {node : Node} {order : List Tag} {inbound : Inbound} :
    inbound ∈ node.inboundValues order ↔ ∃ tag, node.inbounds tag = some inbound := by
  have hall : ∀ tag, tag ∈ Tag.all := fun tag => by cases tag <;> decide
  rw [Node.inboundValues, List.mem_filterMap]
  constructor
  · rintro ⟨tag, -, hinbound⟩
    exact ⟨tag, hinbound⟩
  · rintro ⟨tag, hinbound⟩
    exact ⟨tag, List.mem_dedup.mpr (List.mem_append_right _ (hall tag)), hinbound⟩

lemma asU16_toNat (n : UInt16) : asU16 n.toNat = n := by
  have hlt : n.toNat < 65536 := n.toNat_lt
  have hmod : ((n.toNat : ℤ) % 2 ^ 16).toNat = n.toNat := by omega
  rw [asU16, hmod, UInt16.ofNat_toNat]

/-- An inbound with proper WireGuard settings is read as it was written. -/
lemma InboundRow.toInbound_ofInbound (ip : IpText) {inbound : Inbound}
    (h : ∀ wg, inbound.wg = some wg →
      wg.port = inbound.port ∧ wg.address.cidr ≤ wg.address.address.maxCidr) :
    (InboundRow.ofInbound ip inbound).toInbound ip inbound.tag = inbound := by
  obtain ⟨tag, port, stream, uplink, downlink, count, wg, h2, secret⟩ := inbound
  cases wg with
  | none => simp [ofInbound, toInbound, asU16_toNat]
  | some wg =>
      obtain ⟨hport, hmask⟩ := h wg rfl
      have hdns : (wg.dns.map IpAddr.v4).filterMap (fun
          | .v4 v4 => some v4
          | .v6 _ => none) = wg.dns := by
        induction wg.dns with
        | nil => simp
        | cons a l ih => simp [ih]
      simp only [] at hport
      simp [ofInbound, toInbound, asU16_toNat, IpAddrMask.fromStr_toText hmask, hdns, ← hport]

/-- Rows put under their keys: where one of them belongs, a lookup finds it. -/
lemma get_foldl_put_of_mem {κ α ρ : Type} [DecidableEq κ] (key : ρ → κ) {row : ρ → α}
    {rows : List ρ}
    {k : κ} {v : α} (hrow : ∀ r ∈ rows, key r = k → row r = v) (hmem : ∃ r ∈ rows, key r = k)
    (t : Table κ α) : (rows.foldl (fun t r => t.put (key r) (row r)) t).get k = some v := by
  induction rows using List.reverseRecOn with
  | nil => simp at hmem
  | append_singleton rows r ih =>
      rw [List.foldl_append, List.foldl_cons, List.foldl_nil, Table.get_put]
      split_ifs with hk
      · rw [hrow r (by simp) hk.symm]
      · apply ih (fun r' hr' => hrow r' (by simp [hr']))
        obtain ⟨r', hr', hkey⟩ := hmem
        rw [List.mem_append, List.mem_singleton] at hr'
        rcases hr' with hr' | rfl
        · exact ⟨r', hr', hkey⟩
        · exact absurd hkey.symm hk

/-- Elsewhere it finds what was there. -/
lemma get_foldl_put_of_notMem {κ α ρ : Type} [DecidableEq κ] (key : ρ → κ) {row : ρ → α}
    {rows : List ρ} {k : κ} (hmem : ∀ r ∈ rows, key r ≠ k) (t : Table κ α) :
    (rows.foldl (fun t r => t.put (key r) (row r)) t).get k = t.get k := by
  induction rows generalizing t with
  | nil => simp
  | cons r rows ih =>
      rw [List.forall_mem_cons] at hmem
      rw [List.foldl_cons, ih hmem.2, Table.get_put_of_ne _ _ (Ne.symm hmem.1)]

namespace NodeDb

variable {ip : IpText} {lower : String → String} {order : List Tag} {db : NodeDb}
    {req : NodeRequest}
  {now : DateTime} {id : Uuid} {tag : Tag}

/-- The node that the join gives for an identifier. -/
def readNode (ip : IpText) (lower : String → String) (db : NodeDb) (id : Uuid) : Option Node :=
  (db.nodes.get id).bind (db.toNode ip lower id)

/-- The inbounds of another node stay. -/
lemma inbounds_upsert_of_ne {nodeId : Uuid} {node : Node} (hid : id ≠ nodeId) :
    (db.upsert ip order nodeId node).inbounds.get (id, tag) = db.inbounds.get (id, tag) := by
  refine get_foldl_put_of_notMem (fun inbound : Inbound => (nodeId, inbound.tag)) ?_ _
  intro inbound _ hkey
  exact hid (congrArg Prod.fst hkey).symm

/-- The inbounds of the registered node: the new ones, and those it no longer has. -/
lemma inbounds_upsert {node : Node}
    (htag : ∀ tag inbound, node.inbounds tag = some inbound → inbound.tag = tag) :
    (db.upsert ip order id node).inbounds.get (id, tag) = match node.inbounds tag with
      | some inbound => some (InboundRow.ofInbound ip inbound)
      | none => db.inbounds.get (id, tag) := by
  cases hinbound : node.inbounds tag with
  | some inbound =>
      refine get_foldl_put_of_mem (fun inbound : Inbound => (id, inbound.tag)) ?_ ?_ _
      · intro other hother hkey
        obtain ⟨tag', hother'⟩ := mem_inboundValues.mp hother
        have hsame : tag' = tag := (htag tag' other hother').symm.trans (congrArg Prod.snd hkey)
        rw [hsame, hinbound] at hother'
        rw [Option.some.inj hother']
      · exact ⟨inbound, mem_inboundValues.mpr ⟨tag, hinbound⟩, by rw [htag tag inbound hinbound]⟩
  | none =>
      refine get_foldl_put_of_notMem (fun inbound : Inbound => (id, inbound.tag)) ?_ _
      intro other hother hkey
      obtain ⟨tag', hother'⟩ := mem_inboundValues.mp hother
      have hsame : tag' = tag := (htag tag' other hother').symm.trans (congrArg Prod.snd hkey)
      rw [hsame, hinbound] at hother'
      cases hother'

/-- A registration leaves the other nodes alone. -/
lemma readNode_upsert_of_ne {nodeId : Uuid} {node : Node} (hid : id ≠ nodeId) :
    (db.upsert ip order nodeId node).readNode ip lower id = db.readNode ip lower id := by
  have hnode : (db.upsert ip order nodeId node).nodes.get id = db.nodes.get id :=
    Table.get_put_of_ne _ _ hid
  have hinbounds : ∀ tag, (db.upsert ip order nodeId node).inbounds.get (id, tag) =
      db.inbounds.get (id, tag) := fun tag => inbounds_upsert_of_ne hid
  rw [readNode, readNode, hnode]
  cases db.nodes.get id with
  | none => rfl
  | some row => simp [toNode, hinbounds]

/-- A row gives the node it was written from, up to the times. -/
lemma toNode_ofNode {node : Node} {created : DateTime} (htype : node.type = .common)
    (henv : Env.fromText lower node.env.toText = node.env)
    (hcores : asUsize (asI32 node.cores) = node.cores)
    (hinbounds : (fun tag => (db.inbounds.get (id, tag)).map (InboundRow.toInbound ip tag)) =
      node.inbounds) :
    (db.toNode ip lower id { NodeRow.ofNode node with createdAt := created }).map Node.undated =
      some node.undated := by
  simp [toNode, NodeRow.ofNode, Node.undated, hinbounds, henv, hcores, htype]

/-- A registered node is read as it was registered, up to its times. -/
lemma readNode_upsert (h : req.Storable) (henv : Env.fromText lower req.env.toText = req.env)
    (htype : ∀ row, db.nodes.get req.uuid = some row → row.nodeType = .common)
    (hgone : ∀ tag, req.inbounds tag = none → db.inbounds.get (req.uuid, tag) = none) :
    ((db.upsert ip order req.uuid (req.asNode now)).readNode ip lower req.uuid).map Node.undated =
      some (req.asNode now).undated := by
  have hinbounds : (fun tag => ((db.upsert ip order req.uuid (req.asNode now)).inbounds.get
      (req.uuid, tag)).map (InboundRow.toInbound ip tag)) = req.inbounds := by
    funext tag
    have htag : ∀ tag inbound, (req.asNode now).inbounds tag = some inbound → inbound.tag = tag :=
      h.tag_eq
    rw [inbounds_upsert htag]
    cases hinbound : req.inbounds tag with
    | none => simp [NodeRequest.asNode, hinbound, hgone tag hinbound]
    | some inbound =>
        have hread := InboundRow.toInbound_ofInbound ip (h.wg tag inbound · hinbound)
        rw [h.tag_eq tag inbound hinbound] at hread
        simp [NodeRequest.asNode, hinbound, hread]
  have hrow : ∃ row, (db.upsert ip order req.uuid (req.asNode now)).nodes.get req.uuid = some row ∧
      ∃ created, row = { NodeRow.ofNode (req.asNode now) with createdAt := created } := by
    refine ⟨_, Table.get_put_self _ _ _, ?_⟩
    cases hold : db.nodes.get req.uuid with
    | none => exact ⟨(NodeRow.ofNode (req.asNode now)).createdAt, by simp⟩
    | some old => exact ⟨old.createdAt, by simp [htype old hold, NodeRow.ofNode]⟩
  obtain ⟨row, hget, created, rfl⟩ := hrow
  rw [readNode, hget, Option.bind_some]
  exact toNode_ofNode h.type_common henv h.cores hinbounds

end NodeDb

/-! ### Registrations -/

/-- The memory and the tables agree: each listed node was registered in this way and is
read back, and no row is without a node. -/
structure NodesAgree (ip : IpText) (lower : String → String) (seen : List NodeRequest)
    (s : NodeWorld) : Prop where
  once : s.memory.Once
  seen : ∀ env, ∀ node ∈ s.memory.nodesOf env, node.env = env ∧
    ∃ req ∈ seen, ∃ now, node = req.asNode now
  stored : ∀ env, ∀ node ∈ s.memory.nodesOf env,
    (s.db.readNode ip lower node.uuid).map Node.undated = some node.undated
  listed : ∀ id row, s.db.nodes.get id = some row → row.nodeType = .common ∧
    ∃ env, ∃ node ∈ s.memory.nodesOf env, node.uuid = id
  owned : ∀ id tag, s.db.inbounds.get (id, tag) ≠ none → s.db.nodes.get id ≠ none

section

variable {ip : IpText} {lower : String → String} {seen : List NodeRequest} {s : NodeWorld}
  {i : NodeInput} {req : NodeRequest}

lemma NodesAgree.init : NodesAgree ip lower [] NodeWorld.empty where
  once := ⟨Nodes.distinct_empty, fun env env' node hnode => by
    simp [Nodes.nodesOf, NodeWorld.empty] at hnode⟩
  seen env node hnode := by simp [Nodes.nodesOf, NodeWorld.empty] at hnode
  stored env node hnode := by simp [Nodes.nodesOf, NodeWorld.empty] at hnode
  listed id row hrow := by simp [NodeWorld.empty] at hrow
  owned id tag hrow := by simp [NodeWorld.empty] at hrow

/-- The rows that a node of the memory has in the tables, seen from the tables: an inbound
of the identifier belongs to the listed node. -/
lemma NodesAgree.inbounds_none (h : NodesAgree ip lower seen s)
    (hsucc : ∀ old ∈ seen, old.Succeeds req) {tag : Tag} (hnone : req.inbounds tag = none) :
    s.db.inbounds.get (req.uuid, tag) = none := by
  by_contra hrow
  obtain ⟨row, hnode⟩ := Option.ne_none_iff_exists'.mp (h.owned _ _ hrow)
  obtain ⟨-, env, node, hmem, hid⟩ := h.listed _ _ hnode
  obtain ⟨-, old, hold, now, rfl⟩ := h.seen env node hmem
  -- the node is read with this inbound, so it was registered with it
  have hread := h.stored env _ hmem
  rw [hid, NodeDb.readNode, hnode, Option.bind_some] at hread
  obtain ⟨node', hnode', hundated⟩ := Option.map_eq_some_iff.mp hread
  have hinbounds : node'.inbounds = old.inbounds := congrArg Node.inbounds hundated
  have hsome : node'.inbounds tag ≠ none := by
    rw [NodeDb.toNode] at hnode'
    cases haddress : row.address with
    | v6 _ => simp [haddress] at hnode'
    | v4 _ =>
        simp only [haddress, Option.some.injEq] at hnode'
        rw [← hnode']
        simpa using hrow
  rw [hinbounds] at hsome
  exact (hsucc old hold hid).2 tag hsome hnone

/-- A registration that the tables keep. -/
lemma NodesAgree.register (h : NodesAgree ip lower seen s) (hreq : req.Storable)
    (henv : Env.fromText lower req.env.toText = req.env) (hsucc : ∀ old ∈ seen, old.Succeeds req)
    (order : List Tag) (now : DateTime) :
    NodesAgree ip lower (req :: seen) ⟨(s.memory.add (req.asNode now)).1,
      s.db.upsert ip order req.uuid (req.asNode now)⟩ := by
  -- an older entry of the same node stands in the same environment
  have hsame : ∀ env, ∀ node ∈ s.memory.nodesOf env, node.uuid = req.uuid → env = req.env := by
    intro env node hnode hid
    obtain ⟨rfl, old, hold, then_, rfl⟩ := h.seen env node hnode
    exact (hsucc old hold hid).1.symm
  have hmem : ∀ {env : Env} {node : Node},
      node ∈ (s.memory.add (req.asNode now)).1.nodesOf env →
        node = req.asNode now ∧ env = req.env ∨
          node ∈ s.memory.nodesOf env ∧ node.uuid ≠ req.uuid := by
    intro env node hnode
    rcases (Nodes.mem_nodesOf_add h.once.1).mp hnode with ⟨rfl, hnew⟩ | ⟨hold, hother⟩
    · exact .inl ⟨rfl, hnew⟩
    · exact .inr ⟨hold, fun hid => hother ⟨hsame env node hold hid, hid⟩⟩
  have hkeep : ∀ {env : Env} {node : Node}, node ∈ s.memory.nodesOf env → node.uuid ≠ req.uuid →
      node ∈ (s.memory.add (req.asNode now)).1.nodesOf env := fun hnode hid =>
    (Nodes.mem_nodesOf_add h.once.1).mpr (.inr ⟨hnode, fun hboth => hid hboth.2⟩)
  refine ⟨⟨h.once.1.add _, ?_⟩, ?_, ?_, ?_, ?_⟩
  · intro env env' node hnode node' hnode' hid
    rcases hmem hnode with ⟨rfl, rfl⟩ | ⟨hold, hne⟩
    · rcases hmem hnode' with ⟨-, rfl⟩ | ⟨-, hne'⟩
      · rfl
      · exact absurd hid.symm hne'
    · rcases hmem hnode' with ⟨rfl, -⟩ | ⟨hold', -⟩
      · exact absurd hid hne
      · exact h.once.2 env env' node hold node' hold' hid
  · intro env node hnode
    rcases hmem hnode with ⟨rfl, rfl⟩ | ⟨hold, -⟩
    · exact ⟨rfl, req, List.mem_cons_self, now, rfl⟩
    · obtain ⟨henv', old, hmemOld, then_, heq⟩ := h.seen env node hold
      exact ⟨henv', old, List.mem_cons_of_mem _ hmemOld, then_, heq⟩
  · intro env node hnode
    rcases hmem hnode with ⟨rfl, -⟩ | ⟨hold, hne⟩
    · exact NodeDb.readNode_upsert hreq henv (fun row hrow => (h.listed _ row hrow).1)
        fun tag hnone => h.inbounds_none hsucc hnone
    · rw [NodeDb.readNode_upsert_of_ne hne]
      exact h.stored env node hold
  · intro id row hrow
    by_cases hid : id = req.uuid
    · subst hid
      have hnew : (s.db.upsert ip order req.uuid (req.asNode now)).nodes.get req.uuid = some _ :=
        Table.get_put_self _ _ _
      refine ⟨?_, req.env, req.asNode now, ?_, rfl⟩
      · rw [hnew, Option.some.injEq] at hrow
        rw [← hrow]
        cases hold : s.db.nodes.get req.uuid with
        | none => simp [NodeRow.ofNode]
        | some old => simpa using (h.listed _ old hold).1
      · exact (Nodes.mem_nodesOf_add h.once.1).mpr (.inl ⟨rfl, rfl⟩)
    · rw [NodeDb.upsert, Table.get_put_of_ne _ _ hid] at hrow
      obtain ⟨htype, env, node, hnode, rfl⟩ := h.listed id row hrow
      exact ⟨htype, env, node, hkeep hnode hid, rfl⟩
  · intro id tag hrow
    by_cases hid : id = req.uuid
    · subst hid
      simp [NodeDb.upsert]
    · rw [NodeDb.inbounds_upsert_of_ne hid] at hrow
      rw [NodeDb.upsert, Table.get_put_of_ne _ _ hid]
      exact h.owned id tag hrow

/-- A registered node is online already. -/
lemma NodesAgree.updateNodeStatus_eq (h : NodesAgree ip lower seen s) (uuid : Uuid) (env : Env) :
    updateNodeStatus i uuid env .online s = s := by
  rw [updateNodeStatus]
  cases hget : s.memory.getNode env uuid with
  | none => rfl
  | some node =>
      have hnode : node ∈ s.memory.nodesOf env := by
        rw [Nodes.getNode] at hget
        obtain ⟨nodes, hnodes, hfind⟩ := Option.bind_eq_some_iff.mp hget
        rw [Nodes.nodesOf, hnodes]
        exact List.mem_of_find?_eq_some hfind
      obtain ⟨-, req, -, now, rfl⟩ := h.seen env node hnode
      simp [NodeRequest.asNode]

lemma status_addTo (node : Node) (nodes : List Node) :
    ∃ id, (addTo node nodes).2 = .ok id ∨ (addTo node nodes).2 = .alreadyExist id ∨
      (addTo node nodes).2 = .updated id := by
  induction nodes with
  | nil => exact ⟨node.uuid, .inl rfl⟩
  | cons first nodes ih =>
      rw [addTo]
      split_ifs
      · exact ⟨node.uuid, .inr (.inl rfl)⟩
      · exact ⟨node.uuid, .inr (.inr rfl)⟩
      · exact ih

/-- A registration that goes through writes the tables and the memory, whatever was there. -/
lemma addNode_of_ok (hok : i.ok = true) : addNode ip i req.uuid (req.asNode i.now) s =
    (⟨(s.memory.add (req.asNode i.now)).1, s.db.upsert ip i.order req.uuid (req.asNode i.now)⟩,
      .ok (.ok req.uuid)) := by
  have hstatus : ∃ id, (s.memory.add (req.asNode i.now)).2 = .ok id ∨
      (s.memory.add (req.asNode i.now)).2 = .alreadyExist id ∨
        (s.memory.add (req.asNode i.now)).2 = .updated id := by
    rw [Nodes.add]
    cases s.memory.get (req.asNode i.now).env with
    | none => exact ⟨_, .inl rfl⟩
    | some nodes => exact status_addTo _ nodes
  obtain ⟨id, hcase | hcase | hcase⟩ := hstatus
  · simp [addNode, hok, hcase]
  · simp [addNode, hok, hcase]
  · simp [addNode, hok, hcase]

/-- A successful request writes the tables and the memory. -/
lemma state_of_postNodeHandler (hok : (postNodeHandler ip i req s).2.status = 200) :
    (postNodeHandler ip i req s).1 = updateNodeStatus i req.uuid req.env .online
      ⟨(s.memory.add (req.asNode i.now)).1,
        s.db.upsert ip i.order req.uuid (req.asNode i.now)⟩ := by
  have hthrough : i.ok = true := by
    by_contra hfail
    rw [Bool.not_eq_true] at hfail
    simp [postNodeHandler, addNode, hfail, internalError, Reply.plain] at hok
  simp only [postNodeHandler, addNode_of_ok hthrough]
  rfl

end

/-- The state after a sequence of registrations. -/
def registerAll (ip : IpText) (reqs : List (NodeInput × NodeRequest)) (s : NodeWorld) : NodeWorld :=
  reqs.foldl (fun s r => (postNodeHandler ip r.1 r.2 s).1) s

/-- Every registration of the sequence is answered with success. -/
def AllSucceed (ip : IpText) : List (NodeInput × NodeRequest) → NodeWorld → Prop
  | [], _ => True
  | r :: reqs, s => (postNodeHandler ip r.1 r.2 s).2.status = 200 ∧
      AllSucceed ip reqs (postNodeHandler ip r.1 r.2 s).1

/-- The same nodes for every environment, up to their order and their times. -/
def SameNodes (t t' : Nodes) : Prop :=
  ∀ env, ((t.nodesOf env).map Node.undated).Perm ((t'.nodesOf env).map Node.undated)

section

variable {ip : IpText} {lower : String → String} {seen : List NodeRequest} {s : NodeWorld}

/-- A run of registrations that the tables keep. -/
lemma NodesAgree.registerAll (h : NodesAgree ip lower seen s)
    {reqs : List (NodeInput × NodeRequest)}
    (hok : AllSucceed ip reqs s) (hreqs : ∀ r ∈ reqs, r.2.Storable)
    (henv : ∀ r ∈ reqs, Env.fromText lower r.2.env.toText = r.2.env)
    (hseen : ∀ old ∈ seen, ∀ r ∈ reqs, old.Succeeds r.2)
    (hpair : reqs.Pairwise fun old r => old.2.Succeeds r.2) :
    ∃ seen', NodesAgree ip lower seen' (registerAll ip reqs s) := by
  induction reqs generalizing seen s with
  | nil => exact ⟨seen, h⟩
  | cons r reqs ih =>
      obtain ⟨hstatus, hok⟩ := hok
      rw [List.forall_mem_cons] at hreqs henv
      rw [List.pairwise_cons] at hpair
      have hstep : NodesAgree ip lower (r.2 :: seen) (postNodeHandler ip r.1 r.2 s).1 := by
        have hnext := h.register hreqs.1 henv.1
          (fun old hold => hseen old hold r List.mem_cons_self) r.1.order r.1.now
        rw [state_of_postNodeHandler hstatus, hnext.updateNodeStatus_eq]
        exact hnext
      refine ih hstep hok hreqs.2 henv.2 ?_ hpair.2
      intro old hold r' hr'
      rcases List.mem_cons.mp hold with rfl | hold
      · exact hpair.1 r' hr'
      · exact hseen old hold r' (List.mem_cons_of_mem _ hr')

lemma NodeDb.mem_all {db : NodeDb} {order : List Uuid} {node : Node} :
    node ∈ db.all ip lower order ↔ ∃ id, db.readNode ip lower id = some node := by
  rw [all, List.mem_filterMap]
  constructor
  · rintro ⟨⟨id, row⟩, hiter, hnode⟩
    refine ⟨id, ?_⟩
    rw [readNode, Table.mem_iter.mp hiter]
    exact hnode
  · rintro ⟨id, hread⟩
    obtain ⟨row, hrow, hnode⟩ := Option.bind_eq_some_iff.mp hread
    exact ⟨(id, row), Table.mem_iter.mpr hrow, hnode⟩

/-- What is read for an identifier is the node that the memory lists. -/
lemma NodesAgree.exists_of_readNode (h : NodesAgree ip lower seen s) {id : Uuid} {node : Node}
    (hread : s.db.readNode ip lower id = some node) :
    node.uuid = id ∧ ∃ node' ∈ s.memory.nodesOf node.env, node'.undated = node.undated := by
  obtain ⟨row, hrow, -⟩ := Option.bind_eq_some_iff.mp hread
  obtain ⟨-, env, node', hnode', rfl⟩ := h.listed id row hrow
  have hstored := h.stored env node' hnode'
  rw [hread, Option.map_some, Option.some.injEq] at hstored
  refine ⟨Node.uuid_eq_of_undated hstored, node', ?_, hstored.symm⟩
  rw [Node.env_eq_of_undated hstored, (h.seen env node' hnode').1]
  exact hnode'

/-- The nodes of the tables have pairwise different identifiers. -/
lemma NodesAgree.nodup_all (h : NodesAgree ip lower seen s) (order : List Uuid) :
    ((s.db.all ip lower order).map Node.uuid).Nodup := by
  have hsub : ∀ l : List (Uuid × NodeRow), (∀ e ∈ l, s.db.nodes.get e.1 = some e.2) →
      ((l.filterMap fun e => s.db.toNode ip lower e.1 e.2).map Node.uuid).Sublist
        (l.map Prod.fst) := by
    intro l hl
    induction l with
    | nil => simp
    | cons e l ih =>
        rw [List.forall_mem_cons] at hl
        rw [List.filterMap_cons, List.map_cons]
        cases hnode : s.db.toNode ip lower e.1 e.2 with
        | none => exact (ih hl.2).cons _
        | some node =>
            have hread : s.db.readNode ip lower e.1 = some node := by
              rw [NodeDb.readNode, hl.1]
              exact hnode
            rw [List.map_cons, (h.exists_of_readNode hread).1]
            exact (ih hl.2).cons_cons _
  refine (hsub _ ?_).nodup (Table.iter_keys_nodup s.db.nodes order)
  rintro ⟨id, row⟩ he
  exact Table.mem_iter.mp he

/-- Where memory and tables agree a reload changes nothing. -/
lemma NodesAgree.sameNodes (h : NodesAgree ip lower seen s) (order : List Uuid) :
    SameNodes (reloadNodes ip lower order s.db) s.memory := by
  intro env
  have hnodup : ∀ t : Nodes, t.Distinct → ((t.nodesOf env).map Node.undated).Nodup := by
    intro t ht
    have hids :
        ((t.nodesOf env).map Node.undated).map Node.uuid = (t.nodesOf env).map Node.uuid := by
      rw [List.map_map]
      rfl
    exact List.Nodup.of_map Node.uuid (hids ▸ ht env)
  have hmem : ∀ node, node ∈ (reloadNodes ip lower order s.db).nodesOf env ↔
      node ∈ s.db.all ip lower order ∧ node.env = env := by
    intro node
    rw [reloadNodes, Nodes.mem_nodesOf_addAll Nodes.distinct_empty (h.nodup_all order)]
    · simp [Nodes.nodesOf]
    · intro _ _ _ old hold
      simp [Nodes.nodesOf] at hold
  refine (List.perm_ext_iff_of_nodup (hnodup _ (Nodes.distinct_empty.addAll _))
    (hnodup _ h.once.1)).mpr fun undated => ?_
  rw [List.mem_map, List.mem_map]
  constructor
  · rintro ⟨node, hnode, rfl⟩
    obtain ⟨hall, rfl⟩ := (hmem node).mp hnode
    obtain ⟨id, hread⟩ := NodeDb.mem_all.mp hall
    exact (h.exists_of_readNode hread).2
  · rintro ⟨node, hnode, rfl⟩
    obtain ⟨node', hread, hundated⟩ := Option.map_eq_some_iff.mp (h.stored env node hnode)
    refine ⟨node', (hmem node').mpr ⟨NodeDb.mem_all.mpr ⟨_, hread⟩, ?_⟩, hundated⟩
    rw [Node.env_eq_of_undated hundated, (h.seen env node hnode).1]

end

/-- After registrations that the tables keep, each alone and after the earlier ones of the
same node, a reload leaves the same nodes in the memory. -/
theorem reload_keeps_nodes (ip : IpText) (lower : String → String)
    (reqs : List (NodeInput × NodeRequest)) (order : List Uuid)
    (hok : AllSucceed ip reqs NodeWorld.empty)
    (henv : ∀ r ∈ reqs, Env.fromText lower r.2.env.toText = r.2.env)
    (hreqs : ∀ r ∈ reqs, r.2.Storable)
    (hpair : reqs.Pairwise fun old r => old.2.Succeeds r.2) :
    SameNodes (reloadNodes ip lower order (registerAll ip reqs NodeWorld.empty).db)
      (registerAll ip reqs NodeWorld.empty).memory := by
  have hinit : NodesAgree ip lower [] NodeWorld.empty := NodesAgree.init
  obtain ⟨seen, hagree⟩ := hinit.registerAll hok hreqs henv (by simp) hpair
  exact hagree.sameNodes order

/-- An inbound of VLESS. -/
def sampleInbound : Inbound where
  tag := .vlessTcpReality
  port := 443
  streamSettings := none
  uplink := none
  downlink := none
  connCount := none
  wg := none
  h2 := none
  mtprotoSecret := none

/-- A request for a node of the given type with one inbound. -/
def nodePost (type : NodeType) : NodeRequest where
  env := .dev
  hostname := "node"
  address := 0x0A000001
  inbounds tag := if tag = .vlessTcpReality then some sampleInbound else none
  uuid := 7
  label := "node"
  interface := "eth0"
  cores := 4
  maxBandwidthBps := 100000000
  country := "NL"
  type := some type

/-- A registration that goes through. -/
def nodePostInput (now : DateTime) : NodeInput := ⟨true, true, now, "", []⟩

/-- A common node that registers twice. -/
theorem reload_keeps_common :
    AllSucceed sampleIpText [(nodePostInput 1, nodePost .common),
      (nodePostInput 2, nodePost .common)] NodeWorld.empty ∧
    SameNodes (reloadNodes sampleIpText CaseTable.ascii.toLowercase []
      (registerAll sampleIpText [(nodePostInput 1, nodePost .common),
        (nodePostInput 2, nodePost .common)] NodeWorld.empty).db)
      (registerAll sampleIpText [(nodePostInput 1, nodePost .common),
        (nodePostInput 2, nodePost .common)] NodeWorld.empty).memory := by
  have hok : AllSucceed sampleIpText [(nodePostInput 1, nodePost .common),
      (nodePostInput 2, nodePost .common)] NodeWorld.empty :=
    ⟨by decide, by decide, trivial⟩
  have hstorable : (nodePost .common).Storable := by
    refine ⟨by decide, by decide, ?_, ?_⟩
    · intro tag inbound hinbound
      simp only [nodePost] at hinbound
      split_ifs at hinbound with htag
      rw [← Option.some.inj hinbound, htag]
      rfl
    · intro tag inbound wg hinbound hwg
      simp only [nodePost] at hinbound
      split_ifs at hinbound
      rw [← Option.some.inj hinbound] at hwg
      cases hwg
  refine ⟨hok, reload_keeps_nodes sampleIpText CaseTable.ascii.toLowercase _ [] hok ?_ ?_ ?_⟩
  · intro r hr
    simp only [List.mem_cons, List.not_mem_nil, or_false] at hr
    rcases hr with rfl | rfl <;> decide
  · intro r hr
    simp only [List.mem_cons, List.not_mem_nil, or_false] at hr
    rcases hr with rfl | rfl <;> exact hstorable
  · simp [NodeRequest.Succeeds]

/-- A premium node is a common one after a reload. -/
theorem reload_changes_type :
    AllSucceed sampleIpText [(nodePostInput 1, nodePost .premium)] NodeWorld.empty ∧
    Env.fromText CaseTable.ascii.toLowercase (nodePost .premium).env.toText =
      (nodePost .premium).env ∧
    ¬ SameNodes (reloadNodes sampleIpText CaseTable.ascii.toLowercase []
      (registerAll sampleIpText [(nodePostInput 1, nodePost .premium)] NodeWorld.empty).db)
      (registerAll sampleIpText [(nodePostInput 1, nodePost .premium)] NodeWorld.empty).memory := by
  refine ⟨⟨by decide, trivial⟩, by decide, fun hsame => ?_⟩
  have hperm := (hsame .dev).map Node.type
  rw [List.map_map, List.map_map] at hperm
  have hafter : ((reloadNodes sampleIpText CaseTable.ascii.toLowercase []
      (registerAll sampleIpText [(nodePostInput 1, nodePost .premium)] NodeWorld.empty).db).nodesOf
        .dev).map (Node.type ∘ Node.undated) = [.common] := by
    decide
  have hbefore : ((registerAll sampleIpText [(nodePostInput 1, nodePost .premium)]
      NodeWorld.empty).memory.nodesOf .dev).map (Node.type ∘ Node.undated) = [.premium] := by
    decide
  rw [hafter, hbefore] at hperm
  exact absurd hperm (by decide)

end Fcore
