import Fcore.Api.NodeRows
import Fcore.Api.Tasks
import Fcore.Config.Inbound

/-!
Links and configurations for clients (`src/bin/api/http/handlers/subscription.rs`,
`src/bin/api/http/handlers/connection.rs`, `src/bin/api/http/request.rs`).

Three handlers read the memory under its lock and render what they find; each is a
function of the memory, the nodes, the clock and the order in which the connections are
iterated.

* `matching`: the connections of a subscription that a request asks for, with the node
  inbounds that render them;
* `subscriptionLinkHandler`, `wireguardConnectionsHandler`, `mtprotoConnectionsHandler`:
  the handlers; `Query`, `answer`: a request to one of them;
* `Answer.materials`: the links and configurations in an answer;
* `OnlyActive`: an answer holds material only for an active subscription in memory and
  only of its own live connections of the requested environment;
* `onlyActive_iff`: the two handlers that do not insist on the subscription serve without
  one exactly when there is something to serve;
* `ServesRendered`: an answer has the links of all entries that can be rendered, if there are
  any; `rendered_links_served_iff`: exactly if none of the others is there.
-/

namespace Fcore

open Calculus

/-! ### Requests -/

/-- `request::TagReq`. -/
inductive TagReq where
  | xray
  | wireguard
  | hysteria2
  | mtproto
  deriving DecidableEq, Repr

/-- `request::FormatReq`. -/
inductive FormatReq where
  | base64
  | txt
  | clash
  deriving DecidableEq, Repr

/-- The names of the variants (`Debug`). -/
def TagReq.toText : TagReq → String
  | .xray => "Xray"
  | .wireguard => "Wireguard"
  | .hysteria2 => "Hysteria2"
  | .mtproto => "Mtproto"

def FormatReq.toText : FormatReq → String
  | .base64 => "Base64"
  | .txt => "Txt"
  | .clash => "Clash"

/-- `TagReq::tags`. -/
def TagReq.tags : TagReq → List Tag
  | .xray => [.vlessTcpReality, .vlessGrpcReality, .vlessXhttpReality, .vmess, .shadowsocks]
  | .wireguard => [.wireguard]
  | .hysteria2 => [.hysteria2]
  | .mtproto => [.mtproto]

structure SubscriptionInfoRequest where
  id : Uuid
  format : FormatReq
  env : Env
  proto : TagReq
  deriving DecidableEq, Repr

/-- `allowed_formats`. -/
def allowedFormats : TagReq → List FormatReq
  | .xray => [.txt, .base64, .clash]
  | .wireguard => []
  | .hysteria2 => [.txt, .base64]
  | .mtproto => []

def SubscriptionInfoRequest.validate (req : SubscriptionInfoRequest) : Except Error Unit :=
  if req.format ∈ allowedFormats req.proto then .ok ()
  else .error (.custom ("Format " ++ req.format.toText ++ " not allowed for proto " ++
    req.proto.toText))

/-- `request::ConnectionInfoRequest`; its `validate` accepts everything. -/
structure ConnectionInfoRequest where
  id : Uuid
  env : Env
  deriving DecidableEq, Repr

/-! ### What is found for a request -/

/-- What the handlers see: the memory, the nodes and the clock. -/
structure Sight where
  memory : Cache
  nodes : Nodes
  now : DateTime

/-- A connection with an inbound of a node for it. -/
structure LinkEntry where
  connId : Uuid
  conn : Conn
  inbound : Inbound
  node : Node

/-- The entries of one connection: the nodes of its environment with an inbound for its
protocol. -/
def entriesOf (s : Sight) (connId : Uuid) (conn : Conn) : List LinkEntry :=
  match s.nodes.get conn.env with
  | none => []
  | some nodes => nodes.filterMap fun node =>
      (node.inbounds conn.proto.proto).map fun inbound => ⟨connId, conn, inbound, node⟩

/-- The loop over the connections of a subscription: deleted ones and those of another
environment or protocol are passed over. -/
def matching (s : Sight) (order : List Uuid) (id : Uuid) (env : Env) (tags : List Tag) :
    List LinkEntry :=
  ((s.memory.connections.getBySubscriptionId order id).getD []).flatMap fun c =>
    if c.2.isDeleted || c.2.env != env || !tags.contains c.2.proto.proto then []
    else entriesOf s c.1 c.2

/-- The link of an entry. -/
def LinkEntry.link (r : Rendering) (e : LinkEntry) : Except Error String :=
  e.inbound.createLink r e.connId e.conn e.node.address e.node.label

/-- The proxy of an entry. -/
def LinkEntry.proxy (r : Rendering) (e : LinkEntry) : Option ClashProxy :=
  e.inbound.proxy r e.connId e.node.address e.node.label

/-- The Telegram link of an entry. -/
def LinkEntry.mtproto (r : Rendering) (e : LinkEntry) : Except Error String :=
  e.inbound.mtproto r e.node.address e.node.label

/-! ### The handlers -/

/-- One node in the answer of `wireguard_connections_handler`. -/
structure WgNode where
  connId : Uuid
  label : String
  env : Env
  config : String
  deriving DecidableEq

/-- One connection in the answer of `mtproto_connections_handler`. -/
structure MtprotoNode where
  label : String
  url : String
  deriving DecidableEq

/-- The answers: a plain reply, a rejection, or a body. -/
inductive Answer where
  | plain (reply : Reply)
  | rejected (e : Error)
  | text (head : String) (links : List String)
  | base64 (head : String) (links : List String)
  | clash (config : ClashConfig)
  | wireguard (nodes : List WgNode)
  | mtproto (connections : List MtprotoNode)

/-- The text of the first three bodies. -/
def Answer.body (r : Rendering) : Answer → Option String
  | .text head links => some (head ++ "\n".intercalate links)
  | .base64 head links => some (r.base64 (head ++ "\n".intercalate links) ++ "\n")
  | .clash config => some (r.yaml config)
  | _ => none

/-- `generate_meta`. -/
def generateMeta (title : String) (limit expiresAt : ℤ) : String :=
  "\n#profile-title: " ++ title ++
    "\n#profile-update-interval: 1\n#subscription-userinfo: upload=0; download=0; total=" ++
    toString limit ++ "; expire=" ++ toString expiresAt ++ "\n\n"

/-- `collect` into a `Result`: the links of all entries, or the first error. -/
def collectLinks (r : Rendering) : List LinkEntry → Except Error (List String)
  | [] => .ok []
  | e :: es =>
      match e.link r with
      | .error err => .error err
      | .ok link =>
          match collectLinks r es with
          | .error err => .error err
          | .ok links => .ok (link :: links)

/-- `subscription_link_handler`. -/
def subscriptionLinkHandler (r : Rendering) (title : String) (limit : ℤ) (s : Sight)
    (order : List Uuid) (req : SubscriptionInfoRequest) : Answer :=
  match req.validate with
  | .error e => .plain (badRequest ("Bad Request: " ++ e.toText))
  | .ok () =>
      match s.memory.subscriptions.get req.id with
      | none => .plain (notFound ("Subscription " ++ req.id.asHyphenated ++ " not found"))
      | some sub =>
          if !sub.isActive s.now then
            .plain (notFound ("Subscription " ++ req.id.asHyphenated ++ " is expired"))
          else
            let inboundsList := matching s order req.id req.env req.proto.tags
            if inboundsList.isEmpty then
              .plain (notFound ("Nodes for subscription " ++ req.id.asHyphenated ++ " not found"))
            else
              let expiresAt := (sub.expiresAt.map DateTime.timestamp).getD 0
              match req.format with
              | .txt =>
                  match collectLinks r inboundsList with
                  | .error e => .rejected e
                  | .ok links => .text (generateMeta title limit expiresAt) links
              | .base64 =>
                  match collectLinks r inboundsList with
                  | .error e => .rejected e
                  | .ok links => .base64 (generateMeta title limit expiresAt) links
              | .clash => .clash (Inbound.clash (inboundsList.filterMap (LinkEntry.proxy r)))

/-- The gate of the other two handlers, and their answer without connections: a missing
subscription passes. -/
def connectionsGate (s : Sight) (order : List Uuid) (req : ConnectionInfoRequest) (next : Answer) :
    Answer :=
  match s.memory.subscriptions.get req.id with
  | some sub =>
      if !sub.isActive s.now then
        .plain (notFound ("Subscription " ++ req.id.asHyphenated ++ " is expired"))
      else if (s.memory.connections.getBySubscriptionId order req.id).isNone then
        .plain (notFound "No connections")
      else next
  | none =>
      if (s.memory.connections.getBySubscriptionId order req.id).isNone then
        .plain (notFound "No connections")
      else next

/-- The node of an entry; entries that cannot be rendered are left out. -/
def LinkEntry.wgNode (r : Rendering) (e : LinkEntry) : Option WgNode :=
  match e.link r with
  | .ok link => some ⟨e.connId, e.node.label, e.node.env, link⟩
  | .error _ => none

/-- `wireguard_connections_handler`. -/
def wireguardConnectionsHandler (r : Rendering) (s : Sight) (order : List Uuid)
    (req : ConnectionInfoRequest) : Answer :=
  connectionsGate s order req <| .wireguard <|
    (matching s order req.id req.env [.wireguard]).filterMap (LinkEntry.wgNode r)

/-- The connection of an entry. -/
def LinkEntry.mtprotoNode (r : Rendering) (e : LinkEntry) : Option MtprotoNode :=
  match e.mtproto r with
  | .ok url => some ⟨e.node.label, url⟩
  | .error _ => none

/-- `mtproto_connections_handler`. -/
def mtprotoConnectionsHandler (r : Rendering) (s : Sight) (order : List Uuid)
    (req : ConnectionInfoRequest) : Answer :=
  connectionsGate s order req <| .mtproto <|
    (matching s order req.id req.env [.mtproto]).filterMap (LinkEntry.mtprotoNode r)

/-- A request to one of the three handlers. -/
inductive Query where
  | link (req : SubscriptionInfoRequest)
  | wireguard (req : ConnectionInfoRequest)
  | mtproto (req : ConnectionInfoRequest)

/-- The subscription that a request asks for. -/
def Query.id : Query → Uuid
  | .link req => req.id
  | .wireguard req => req.id
  | .mtproto req => req.id

/-- The environment that a request asks for. -/
def Query.env : Query → Env
  | .link req => req.env
  | .wireguard req => req.env
  | .mtproto req => req.env

/-- The answer to a request. -/
def answer (r : Rendering) (title : String) (limit : ℤ) (s : Sight) (order : List Uuid) :
    Query → Answer
  | .link req => subscriptionLinkHandler r title limit s order req
  | .wireguard req => wireguardConnectionsHandler r s order req
  | .mtproto req => mtprotoConnectionsHandler r s order req

/-! ### Material -/

/-- What gives a client access. -/
inductive Material where
  | link (text : String)
  | proxy (p : ClashProxy)
  | config (node : WgNode)
  | url (connection : MtprotoNode)

/-- The links and configurations in an answer. -/
def Answer.materials : Answer → List Material
  | .plain _ | .rejected _ => []
  | .text _ links | .base64 _ links => links.map .link
  | .clash config => config.proxies.map .proxy
  | .wireguard nodes => nodes.map .config
  | .mtproto connections => connections.map .url

/-- The entry is a live connection of the subscription in the environment, with an inbound
of a node of this environment for its protocol. -/
def LinkEntry.Of (e : LinkEntry) (s : Sight) (id : Uuid) (env : Env) : Prop :=
  s.memory.connections.get e.connId = some e.conn ∧ e.conn.subscriptionId = some id ∧
    e.conn.isDeleted = false ∧ e.conn.env = env ∧
    ∃ nodes, s.nodes.get env = some nodes ∧ e.node ∈ nodes ∧
      e.node.inbounds e.conn.proto.proto = some e.inbound

/-- The material is what the entry renders. -/
def LinkEntry.Renders (r : Rendering) (e : LinkEntry) : Material → Prop
  | .link text => e.link r = .ok text
  | .proxy p => e.proxy r = some p
  | .config node => node.connId = e.connId ∧ e.link r = .ok node.config
  | .url connection => e.mtproto r = .ok connection.url

/-- A subscription with the identifier is in memory and active. -/
def HasActive (s : Sight) (id : Uuid) : Prop :=
  ∃ sub, s.memory.subscriptions.get id = some sub ∧ sub.isActive s.now = true

/-- Material is served for an active subscription only, and of its own live connections in
the requested environment. -/
def OnlyActive (r : Rendering) (s : Sight) (id : Uuid) (env : Env) (a : Answer) : Prop :=
  ∀ m ∈ a.materials, HasActive s id ∧ ∃ e : LinkEntry, e.Of s id env ∧ e.Renders r m

/-- The two handlers with the weaker gate: the subscription is in memory, or there is
nothing to serve. -/
def SubscribedOrIdle (r : Rendering) (s : Sight) : Query → Prop
  | .link _ => True
  | .wireguard req => s.memory.subscriptions.get req.id ≠ none ∨
      ∀ e : LinkEntry, e.Of s req.id req.env → e.conn.proto.proto = .wireguard →
        ∀ link, e.link r ≠ .ok link
  | .mtproto req => s.memory.subscriptions.get req.id ≠ none ∨
      ∀ e : LinkEntry, e.Of s req.id req.env → e.conn.proto.proto = .mtproto →
        ∀ url, e.mtproto r ≠ .ok url

lemma mem_entriesOf {s : Sight} {connId : Uuid} {conn : Conn} {e : LinkEntry} :
    e ∈ entriesOf s connId conn ↔ e.connId = connId ∧ e.conn = conn ∧
      ∃ nodes, s.nodes.get conn.env = some nodes ∧ e.node ∈ nodes ∧
        e.node.inbounds conn.proto.proto = some e.inbound := by
  rw [entriesOf]
  cases s.nodes.get conn.env with
  | none => simp
  | some nodes =>
      simp only [List.mem_filterMap, Option.map_eq_some_iff, Option.some.injEq, exists_eq_left']
      constructor
      · rintro ⟨node, hnode, inbound, hinbound, rfl⟩
        exact ⟨rfl, rfl, hnode, hinbound⟩
      · rintro ⟨rfl, rfl, hnode, hinbound⟩
        exact ⟨e.node, hnode, e.inbound, hinbound, rfl⟩

/-- The loop finds the entries of the subscription's live connections in the environment
whose protocol is asked for. -/
lemma mem_matching {s : Sight} {order : List Uuid} {id : Uuid} {env : Env} {tags : List Tag}
    {e : LinkEntry} :
    e ∈ matching s order id env tags ↔ e.Of s id env ∧ e.conn.proto.proto ∈ tags := by
  simp only [matching, List.mem_flatMap, Prod.exists, Connections.mem_getBySubscriptionId]
  constructor
  · rintro ⟨connId, conn, ⟨hget, hsub⟩, hmem⟩
    split_ifs at hmem with hskip
    · simp at hmem
    · simp only [Bool.or_eq_true, bne_iff_ne, ne_eq, Bool.not_eq_eq_eq_not, Bool.not_true,
        List.contains_eq_mem, decide_eq_false_iff_not, not_or, not_not, Bool.not_eq_true] at hskip
      obtain ⟨⟨hlive, henv⟩, htag⟩ := hskip
      obtain ⟨rfl, rfl, hnodes⟩ := mem_entriesOf.mp hmem
      subst henv
      exact ⟨⟨hget, hsub, hlive, rfl, hnodes⟩, htag⟩
  · rintro ⟨⟨hget, hsub, hlive, rfl, hnodes⟩, htag⟩
    refine ⟨e.connId, e.conn, ⟨hget, hsub⟩, ?_⟩
    rw [if_neg (by simp [hlive, htag])]
    exact mem_entriesOf.mpr ⟨rfl, rfl, hnodes⟩

/-- `create_link` renders the entry. -/
def LinkEntry.Linked (r : Rendering) (e : LinkEntry) : Prop := ∃ link, e.link r = .ok link

lemma LinkEntry.linked_iff {r : Rendering} {e : LinkEntry} :
    e.Linked r ↔ (e.link r).isOk = true := by
  rw [Linked]
  cases e.link r with
  | error err => simp [Except.isOk, Except.toBool]
  | ok link => simp [Except.isOk, Except.toBool]

/-- The links of entries that are all rendered. -/
lemma collectLinks_of_linked {r : Rendering} {es : List LinkEntry} (h : ∀ e ∈ es, e.Linked r) :
    collectLinks r es = .ok (es.filterMap fun e => (e.link r).toOption) := by
  induction es with
  | nil => rfl
  | cons e es ih =>
      obtain ⟨link, hlink⟩ := h e List.mem_cons_self
      have hrest := ih fun e' he' => h e' (List.mem_cons_of_mem e he')
      rw [collectLinks, hlink, hrest]
      simp [hlink, Except.toOption]

/-- Links are collected of entries that are all rendered only. -/
lemma linked_of_collectLinks {r : Rendering} {es : List LinkEntry} {links : List String}
    (h : collectLinks r es = .ok links) : ∀ e ∈ es, e.Linked r := by
  induction es generalizing links with
  | nil => simp
  | cons e es ih =>
      rw [collectLinks] at h
      cases hlink : e.link r with
      | error err =>
          rw [hlink] at h
          cases h
      | ok link =>
          rw [hlink] at h
          cases hrest : collectLinks r es with
          | error err =>
              rw [hrest] at h
              cases h
          | ok rest =>
              intro e' he'
              rcases List.mem_cons.mp he' with rfl | he'
              · exact ⟨link, hlink⟩
              · exact ih hrest e' he'

/-- Every collected link is rendered by an entry. -/
lemma mem_collectLinks {r : Rendering} {es : List LinkEntry} {links : List String}
    (h : collectLinks r es = .ok links) {text : String} (hmem : text ∈ links) :
    ∃ e ∈ es, e.link r = .ok text := by
  rw [collectLinks_of_linked (linked_of_collectLinks h)] at h
  rw [← Except.ok.inj h] at hmem
  obtain ⟨e, he, htext⟩ := List.mem_filterMap.mp hmem
  refine ⟨e, he, ?_⟩
  cases hlink : e.link r with
  | error err =>
      rw [hlink] at htext
      cases htext
  | ok link =>
      rw [hlink] at htext
      rw [← Option.some.inj htext]

/-! ### Who is served -/

/-- Links and proxies are served to active subscriptions only, in an allowed format, and of the
matching entries. -/
lemma served_link {r : Rendering} {title : String} {limit : ℤ} {s : Sight} {order : List Uuid}
    {req : SubscriptionInfoRequest} {m : Material}
    (h : m ∈ (subscriptionLinkHandler r title limit s order req).materials) :
    HasActive s req.id ∧ req.format ∈ allowedFormats req.proto ∧
      ∃ e ∈ matching s order req.id req.env req.proto.tags, e.Renders r m := by
  by_cases hallowed : req.format ∈ allowedFormats req.proto
  · rw [subscriptionLinkHandler, SubscriptionInfoRequest.validate, if_pos hallowed] at h
    cases hsub : s.memory.subscriptions.get req.id with
    | none =>
        rw [hsub] at h
        exact absurd h (by simp [Answer.materials])
    | some sub =>
        simp only [hsub] at h
        split_ifs at h with hexpired hempty
        · exact absurd h (by simp [Answer.materials])
        · exact absurd h (by simp [Answer.materials])
        · refine ⟨⟨sub, hsub, by simpa using hexpired⟩, hallowed, ?_⟩
          -- a list of links that was collected from the entries
          have hlinks : ∀ {links}, collectLinks r (matching s order req.id req.env req.proto.tags) =
              .ok links → m ∈ links.map Material.link →
                ∃ e ∈ matching s order req.id req.env req.proto.tags, e.Renders r m := by
            intro links hcollect hm
            obtain ⟨text, htext, rfl⟩ := List.mem_map.mp hm
            exact mem_collectLinks hcollect htext
          cases hformat : req.format with
          | txt =>
              rw [hformat] at h
              cases hcollect : collectLinks r (matching s order req.id req.env req.proto.tags) with
              | error e => exact absurd h (by simp [hcollect, Answer.materials])
              | ok links =>
                  rw [hcollect] at h
                  exact hlinks hcollect h
          | base64 =>
              rw [hformat] at h
              cases hcollect : collectLinks r (matching s order req.id req.env req.proto.tags) with
              | error e => exact absurd h (by simp [hcollect, Answer.materials])
              | ok links =>
                  rw [hcollect] at h
                  exact hlinks hcollect h
          | clash =>
              rw [hformat] at h
              obtain ⟨p, hp, rfl⟩ := List.mem_map.mp h
              exact List.mem_filterMap.mp hp
  · rw [subscriptionLinkHandler, SubscriptionInfoRequest.validate, if_neg hallowed] at h
    exact absurd h List.not_mem_nil

/-- The links of a subscription are served to active subscriptions only. -/
lemma onlyActive_link (r : Rendering) (title : String) (limit : ℤ) (s : Sight) (order : List Uuid)
    (req : SubscriptionInfoRequest) :
    OnlyActive r s req.id req.env (subscriptionLinkHandler r title limit s order req) := by
  intro m hm
  obtain ⟨hactive, -, e, he, hrenders⟩ := served_link hm
  exact ⟨hactive, e, (mem_matching.mp he).1, hrenders⟩

/-- What the weaker gate lets through: everything, unless the subscription is in memory and
not active, or there is no connection. -/
lemma materials_connectionsGate (s : Sight) (order : List Uuid) (req : ConnectionInfoRequest)
    (next : Answer) :
    (connectionsGate s order req next).materials = [] ∨
      (connectionsGate s order req next).materials = next.materials ∧
        (s.memory.subscriptions.get req.id ≠ none → HasActive s req.id) := by
  rw [connectionsGate]
  cases hsub : s.memory.subscriptions.get req.id with
  | none =>
      dsimp only
      split_ifs
      · exact Or.inl rfl
      · exact Or.inr ⟨rfl, fun h => absurd rfl h⟩
  | some sub =>
      dsimp only
      split_ifs with hexpired
      · exact Or.inl rfl
      · exact Or.inl rfl
      · exact Or.inr ⟨rfl, fun _ => ⟨sub, hsub, by simpa using hexpired⟩⟩

/-- Without the subscription the weaker gate lets everything through. -/
lemma connectionsGate_of_none {s : Sight} {order : List Uuid} {req : ConnectionInfoRequest}
    {next : Answer} (hsub : s.memory.subscriptions.get req.id = none) {id : Uuid} {c : Conn}
    (hget : s.memory.connections.get id = some c) (hown : c.subscriptionId = some req.id) :
    connectionsGate s order req next = next := by
  rw [connectionsGate, hsub]
  refine if_neg fun hnone => ?_
  have hmem : (id, c) ∈ (s.memory.connections.getBySubscriptionId order req.id).getD [] :=
    Connections.mem_getBySubscriptionId.mpr ⟨hget, hown⟩
  rw [Option.isNone_iff_eq_none.mp hnone] at hmem
  simp at hmem

/-- **The weaker gate**: material of one protocol, made from the matching entries, is served
to active subscriptions only exactly when the subscription is in memory or nothing can be
made. -/
lemma onlyActive_connectionsGate_iff {r : Rendering} {s : Sight} {order : List Uuid}
    {req : ConnectionInfoRequest} {next : Answer} (tag : Tag) (make : LinkEntry → Option Material)
    (hnext : next.materials = (matching s order req.id req.env [tag]).filterMap make)
    (hmake : ∀ e m, make e = some m → e.Renders r m) :
    OnlyActive r s req.id req.env (connectionsGate s order req next) ↔
      s.memory.subscriptions.get req.id ≠ none ∨
        ∀ e : LinkEntry, e.Of s req.id req.env → e.conn.proto.proto = tag → make e = none := by
  constructor
  · intro honly
    by_contra hnot
    push Not at hnot
    obtain ⟨hsub, e, hof, htag, hsome⟩ := hnot
    obtain ⟨m, hm⟩ := Option.ne_none_iff_exists'.mp hsome
    have hserved : m ∈ (connectionsGate s order req next).materials := by
      rw [connectionsGate_of_none hsub hof.1 hof.2.1, hnext]
      exact List.mem_filterMap.mpr ⟨e, mem_matching.mpr ⟨hof, by simp [htag]⟩, hm⟩
    obtain ⟨⟨sub, hget, -⟩, -⟩ := honly m hserved
    exact absurd (hget.symm.trans hsub) (Option.some_ne_none sub)
  · intro hcond m hm
    rcases materials_connectionsGate s order req next with hnone | ⟨hall, hactive⟩
    · rw [hnone] at hm
      simp at hm
    · rw [hall, hnext] at hm
      obtain ⟨e, he, hrender⟩ := List.mem_filterMap.mp hm
      obtain ⟨hof, htag⟩ := mem_matching.mp he
      rcases hcond with hsub | hidle
      · exact ⟨hactive hsub, e, hof, hmake e m hrender⟩
      · have hnone := hidle e hof (by simpa using htag)
        exact absurd (hrender.symm.trans hnone) (Option.some_ne_none m)

lemma LinkEntry.wgNode_eq_some {r : Rendering} {e : LinkEntry} {node : WgNode} :
    e.wgNode r = some node ↔
      ∃ link, e.link r = .ok link ∧ node = ⟨e.connId, e.node.label, e.node.env, link⟩ := by
  rw [wgNode]
  cases e.link r with
  | error err => simp
  | ok link => simp [eq_comm]

lemma LinkEntry.mtprotoNode_eq_some {r : Rendering} {e : LinkEntry} {node : MtprotoNode} :
    e.mtprotoNode r = some node ↔ ∃ url, e.mtproto r = .ok url ∧ node = ⟨e.node.label, url⟩ := by
  rw [mtprotoNode]
  cases e.mtproto r with
  | error err => simp
  | ok url => simp [eq_comm]

lemma onlyActive_wireguard_iff (r : Rendering) (s : Sight) (order : List Uuid)
    (req : ConnectionInfoRequest) :
    OnlyActive r s req.id req.env (wireguardConnectionsHandler r s order req) ↔
      SubscribedOrIdle r s (.wireguard req) := by
  refine (onlyActive_connectionsGate_iff .wireguard (fun e => (e.wgNode r).map .config) ?_ ?_).trans
    (or_congr_right ?_)
  · exact List.map_filterMap ..
  · intro e m hm
    obtain ⟨node, hnode, rfl⟩ := Option.map_eq_some_iff.mp hm
    obtain ⟨link, hlink, rfl⟩ := LinkEntry.wgNode_eq_some.mp hnode
    exact ⟨rfl, hlink⟩
  · refine forall_congr' fun e => imp_congr_right fun _ => imp_congr_right fun _ => ?_
    rw [Option.map_eq_none_iff, Option.eq_none_iff_forall_ne_some]
    simp only [ne_eq, LinkEntry.wgNode_eq_some, not_exists, not_and]
    exact ⟨fun h link hlink => h _ link hlink rfl, fun h _ link hlink => absurd hlink (h link)⟩

lemma onlyActive_mtproto_iff (r : Rendering) (s : Sight) (order : List Uuid)
    (req : ConnectionInfoRequest) :
    OnlyActive r s req.id req.env (mtprotoConnectionsHandler r s order req) ↔
      SubscribedOrIdle r s (.mtproto req) := by
  refine (onlyActive_connectionsGate_iff .mtproto (fun e => (e.mtprotoNode r).map .url) ?_ ?_).trans
    (or_congr_right ?_)
  · exact List.map_filterMap ..
  · intro e m hm
    obtain ⟨node, hnode, rfl⟩ := Option.map_eq_some_iff.mp hm
    obtain ⟨url, hurl, rfl⟩ := LinkEntry.mtprotoNode_eq_some.mp hnode
    exact hurl
  · refine forall_congr' fun e => imp_congr_right fun _ => imp_congr_right fun _ => ?_
    rw [Option.map_eq_none_iff, Option.eq_none_iff_forall_ne_some]
    simp only [ne_eq, LinkEntry.mtprotoNode_eq_some, not_exists, not_and]
    exact ⟨fun h url hurl => h _ url hurl rfl, fun h _ url hurl => absurd hurl (h url)⟩

/-- **Material only for active subscriptions**: of the three handlers the one for links
keeps to it always, the other two exactly when the subscription is in memory or nothing of
it can be served. -/
theorem onlyActive_iff (r : Rendering) (title : String) (limit : ℤ) (s : Sight)
    (order : List Uuid) (q : Query) :
    OnlyActive r s q.id q.env (answer r title limit s order q) ↔ SubscribedOrIdle r s q := by
  cases q with
  | link req => exact iff_of_true (onlyActive_link r title limit s order req) trivial
  | wireguard req => exact onlyActive_wireguard_iff r s order req
  | mtproto req => exact onlyActive_mtproto_iff r s order req

/-! ### A subscription that is deleted in the database -/

/-- A rendering with one known key pair. -/
def sampleRendering : Rendering where
  ip := sampleIpText
  stream _ := ⟨.tcp, none, none, none, none⟩
  h2 _ := ⟨"", false, none⟩
  pubkey keys :=
    if keys.privkey = "AQEBAQEBAQEBAQEBAQEBAQEBAQEBAQEBAQEBAQEBAQE=" then
      .ok "pOCSkrZRwni5dyxWn1+puxPZBrRqtoyd+dwrRAn4ogk="
    else .error (.custom "Private key must be exactly 32 bytes")
  url parts := .ok parts.base
  json _ := ""
  base64 s := s
  yaml _ := ""

/-- A WireGuard node in `dev`. -/
def wgNodePost : NodeRequest where
  env := .dev
  hostname := "node"
  address := 0x0A000002
  inbounds tag := if tag = .wireguard then some
    { sampleInbound with
      tag := .wireguard
      wg := some ⟨⟨"AQEBAQEBAQEBAQEBAQEBAQEBAQEBAQEBAQEBAQEBAQE="⟩, "wg0", ⟨.v4 0x0A000002, 8⟩,
        51820, []⟩ }
    else none
  uuid := 9
  label := "node"
  interface := "eth0"
  cores := 4
  maxBandwidthBps := 100000000
  country := "NL"
  type := some .common

/-- A database with a live WireGuard connection of a subscription that is deleted. -/
def orphanDb : Db where
  connections :=
    (∅ : Table Uuid ConnRow).put 1 (ConnRow.ofConn 1 { sampleWg with subscriptionId := some 7 })
  subscriptions := (∅ : Table Uuid Subscription).put 7
    ⟨7, some 2000000000000000000, none, "code", 0, 0, true, none, none⟩
  keys := ∅
  credits := []

/-- What the handlers see at time 2, beside the node. -/
def orphanSight (memory : Cache) : Sight :=
  ⟨memory, (registerAll sampleIpText [(nodePostInput 1, wgNodePost)] NodeWorld.empty).memory, 2⟩

/-- **A deleted subscription is served**: after a reload its connection is in memory and it
is not, and the WireGuard configuration is in the answer. -/
theorem deleted_subscription_served :
    ∃ w, Exec Rule.any (getStateFromDb id) { World.empty with db := orphanDb } (.ok ()) w ∧
      ¬ OnlyActive sampleRendering (orphanSight w.memory) 7 .dev
        (answer sampleRendering "" 0 (orphanSight w.memory) [] (.wireguard ⟨7, .dev⟩)) := by
  have hrun : (execWith Rule.any (List.replicate 5 (Input.at 2)) (getStateFromDb id)
      { World.empty with db := orphanDb }).map (fun x =>
        (x.2.isOk, x.1.memory.subscriptions.get 7, (answer sampleRendering "" 0
          (orphanSight x.1.memory) [] (.wireguard ⟨7, .dev⟩)).materials.length)) =
      some (true, none, 1) := by
    decide +kernel
  obtain ⟨⟨w, res⟩, hexec, hout⟩ := Option.map_eq_some_iff.mp hrun
  simp only [Prod.mk.injEq] at hout
  obtain ⟨hok, hsub, hlen⟩ := hout
  obtain rfl : res = .ok () := by
    cases res with
    | ok u => rfl
    | error e => cases hok
  refine ⟨w, exec_of_execWith hexec, fun honly => ?_⟩
  obtain ⟨m, hm⟩ := List.length_pos_iff_exists_mem.mp (hlen ▸ Nat.one_pos)
  obtain ⟨⟨sub, hget, -⟩, -⟩ := honly m hm
  exact absurd (hget.symm.trans hsub) (Option.some_ne_none sub)

/-! ### Links that cannot be rendered -/

/-- The links in an answer. -/
def Answer.links : Answer → Option (List String)
  | .text _ links | .base64 _ links => some links
  | _ => none

/-- A request for links asks for the entry. -/
def SubscriptionInfoRequest.Asks (req : SubscriptionInfoRequest) (s : Sight)
    (e : LinkEntry) : Prop :=
  e.Of s req.id req.env ∧ e.conn.proto.proto ∈ req.proto.tags

/-- If one of the entries is rendered, then the answer has the links of all that are. -/
def ServesRendered (r : Rendering) (es : List LinkEntry) (a : Answer) : Prop :=
  (∃ e ∈ es, e.Linked r) → a.links = some (es.filterMap fun e => (e.link r).toOption)

/-- The links that an active subscription gets, as text or in Base64. -/
lemma links_subscriptionLinkHandler {r : Rendering} {title : String} {limit : ℤ} {s : Sight}
    {order : List Uuid} {req : SubscriptionInfoRequest} (hactive : HasActive s req.id)
    (hformat : req.format = .txt ∨ req.format = .base64)
    (hallowed : req.format ∈ allowedFormats req.proto) :
    (subscriptionLinkHandler r title limit s order req).links =
      if (matching s order req.id req.env req.proto.tags).isEmpty then none
      else (collectLinks r (matching s order req.id req.env req.proto.tags)).toOption := by
  obtain ⟨sub, hsub, hlive⟩ := hactive
  rw [subscriptionLinkHandler, SubscriptionInfoRequest.validate, if_pos hallowed]
  simp only [hsub, hlive, Bool.not_true, Bool.false_eq_true, if_false]
  split_ifs with hempty
  · rfl
  · rcases hformat with hformat | hformat <;>
      · rw [hformat]
        cases collectLinks r (matching s order req.id req.env req.proto.tags) <;> rfl

/-- **The links that can be rendered are served exactly if all of them can be rendered or
none.** -/
theorem rendered_links_served_iff (r : Rendering) (title : String) (limit : ℤ) (s : Sight)
    (order : List Uuid) (req : SubscriptionInfoRequest) (hactive : HasActive s req.id)
    (hformat : req.format = .txt ∨ req.format = .base64)
    (hallowed : req.format ∈ allowedFormats req.proto) :
    ServesRendered r (matching s order req.id req.env req.proto.tags)
        (subscriptionLinkHandler r title limit s order req) ↔
      ((∃ e, req.Asks s e ∧ e.Linked r) → ∀ e, req.Asks s e → e.Linked r) := by
  have hlinks : (subscriptionLinkHandler r title limit s order req).links = _ :=
    links_subscriptionLinkHandler hactive hformat hallowed
  have hasks : ∀ e, e ∈ matching s order req.id req.env req.proto.tags ↔ req.Asks s e :=
    fun e => mem_matching
  simp only [ServesRendered, ← hasks, hlinks]
  refine imp_congr_right fun hsome => ?_
  obtain ⟨e, he, -⟩ := hsome
  have hne : (matching s order req.id req.env req.proto.tags).isEmpty = false :=
    List.isEmpty_eq_false_iff_exists_mem.mpr ⟨e, he⟩
  rw [hne]
  simp only [Bool.false_eq_true, if_false]
  constructor
  · intro hserved
    cases hcollect : collectLinks r (matching s order req.id req.env req.proto.tags) with
    | error err =>
        rw [hcollect] at hserved
        cases hserved
    | ok links => exact linked_of_collectLinks hcollect
  · intro hall
    rw [collectLinks_of_linked hall]
    rfl

/-- A rendering of links with the settings of one Reality inbound; the blanks in a fragment are
encoded. -/
def realityRendering : Rendering :=
  { sampleRendering with
    stream := fun _ => ⟨.tcp, none, some ⟨["example.com"], "pbk", ["ab"]⟩, none, none⟩
    url := fun parts => .ok (parts.base ++ "?" ++
      "&".intercalate (parts.pairs.map fun q => q.1 ++ "=" ++ q.2) ++ "#" ++
        String.ofList (parts.fragment.toList.flatMap fun c =>
          if c = ' ' then "%20".toList else [c])) }

/-- A node in `dev` with inbounds for VLESS and Shadowsocks. -/
def realityNode : Node where
  uuid := 9
  env := .dev
  hostname := "node"
  address := 0x0A000002
  status := .online
  label := "node"
  interface := "eth0"
  createdAt := 0
  modifiedAt := 0
  inbounds
    | .vlessTcpReality => some { sampleInbound with streamSettings := some ⟨"settings"⟩ }
    | .shadowsocks => some { sampleInbound with tag := .shadowsocks }
    | _ => none
  cores := 4
  maxBandwidthBps := 100000000
  country := "NL"
  type := .common

/-- What the handlers see of an active subscription with connections of these protocols. -/
def protosSight (protos : List Proto) : Sight where
  memory :=
    ⟨protos.zipIdx.foldl
      (fun t p => t.put (BitVec.ofNat 128 p.2) (Conn.new .dev (some 7) p.1 none 0)) ∅,
      (∅ : Table Uuid Subscription).put 7 ⟨7, some 10, none, "code", 0, 0, false, none, none⟩⟩
  nodes := (∅ : Nodes).put .dev [realityNode]
  now := 2

/-- A request for all links of the Xray protocols. -/
def xrayRequest : SubscriptionInfoRequest := ⟨7, .txt, .dev, .xray⟩

lemma hasActive_protosSight (protos : List Proto) : HasActive (protosSight protos) 7 :=
  ⟨⟨7, some 10, none, "code", 0, 0, false, none, none⟩, rfl, rfl⟩

/-- The one VLESS connection is rendered and served. -/
theorem rendered_links_served_vless :
    (∃ e, xrayRequest.Asks (protosSight [.xray .vlessTcpReality]) e ∧ e.Linked realityRendering) ∧
    ServesRendered realityRendering
      (matching (protosSight [.xray .vlessTcpReality]) [] 7 .dev TagReq.xray.tags)
      (subscriptionLinkHandler realityRendering "" 0 (protosSight [.xray .vlessTcpReality]) []
        xrayRequest) := by
  have hall : (matching (protosSight [.xray .vlessTcpReality]) [] 7 .dev TagReq.xray.tags).map
      (fun e => (e.link realityRendering).isOk) = [true] := by
    decide +kernel
  have hlinked : ∀ e ∈ matching (protosSight [.xray .vlessTcpReality]) [] 7 .dev TagReq.xray.tags,
      e.Linked realityRendering := by
    intro e he
    have hok := List.mem_map_of_mem (f := fun e => (e.link realityRendering).isOk) he
    rw [hall, List.mem_singleton] at hok
    exact LinkEntry.linked_iff.mpr hok
  refine ⟨?_, (rendered_links_served_iff realityRendering "" 0 _ [] xrayRequest
    (hasActive_protosSight _) (.inl rfl) (by decide)).mpr fun _ e he =>
      hlinked e (mem_matching.mpr he)⟩
  have hmem : true ∈ [true] := List.mem_singleton_self true
  rw [← hall] at hmem
  obtain ⟨e, he, -⟩ := List.mem_map.mp hmem
  exact ⟨e, mem_matching.mp he, hlinked e he⟩

/-- A Shadowsocks connection is not rendered, and the link of the VLESS connection beside it is not
served. -/
theorem shadowsocks_breaks_links :
    HasActive (protosSight [.xray .vlessTcpReality, .shadowsocks "password"]) 7 ∧
    ¬ServesRendered realityRendering
      (matching (protosSight [.xray .vlessTcpReality, .shadowsocks "password"]) [] 7 .dev
        TagReq.xray.tags)
      (subscriptionLinkHandler realityRendering "" 0
        (protosSight [.xray .vlessTcpReality, .shadowsocks "password"]) [] xrayRequest) := by
  have hone : (matching (protosSight [.xray .vlessTcpReality, .shadowsocks "password"]) [] 7 .dev
      TagReq.xray.tags).map (fun e => (e.link realityRendering).isOk) = [false, true] := by
    decide +kernel
  have hanswer : (subscriptionLinkHandler realityRendering "" 0
      (protosSight [.xray .vlessTcpReality, .shadowsocks "password"]) []
        xrayRequest).links = none := by
    decide +kernel
  have hmem : true ∈ [false, true] := by simp
  rw [← hone] at hmem
  obtain ⟨e, he, hok⟩ := List.mem_map.mp hmem
  refine ⟨hasActive_protosSight _, fun hserved => ?_⟩
  have hlinks := hserved ⟨e, he, LinkEntry.linked_iff.mpr hok⟩
  rw [hanswer] at hlinks
  cases hlinks

end Fcore
