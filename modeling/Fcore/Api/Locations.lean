import Fcore.Api.Links

/-!
The locations of a subscription (`get_subscription_info_json` in
`src/bin/api/http/handlers/subscription.rs`).

The flags of an environment are computed from any node and any connection, by the tags that the
inbounds have and with a list of tags of their own.  The handlers that deliver look for the tag of
each connection among the keys of the inbounds.

* `getSubscriptionInfoJson`: the handler; `location`: the flags of one environment;
* `Connected`, `Labelled`, `Offered`: the tags of the live connections, of the inbounds and of
  their keys in an environment;
* `Delivered`: each flag says whether the handler behind it finds an inbound;
* `Matched`, `locations_delivered_iff`: the states in which they do.
-/

namespace Fcore

open Calculus

/-! ### The handler -/

/-- `response::EnvInfo`. -/
structure EnvInfo where
  env : Env
  hasXray : Bool
  hasH2 : Bool
  hasMtproto : Bool
  hasWg : Bool
  deriving DecidableEq, Repr

/-- `response::SubscriptionResponse`. -/
structure SubscriptionResponse where
  id : Uuid
  expires : DateTime
  days : ℤ
  refCode : String
  invitedCount : ℕ
  locations : List EnvInfo
  downlink : ℤ
  limitBytes : ℤ
  deriving DecidableEq, Repr

/-- `days_remaining`: whole days, towards zero. -/
def Subscription.daysRemaining (sub : Subscription) (now : DateTime) : Option ℤ :=
  sub.expiresAt.map fun e => Int.tdiv (e - now) (days 1)

/-- `count_invited_by`. -/
def Subscriptions.countInvitedBy (t : Subscriptions) (order : List Uuid) (code : String) : ℕ :=
  ((t.iter order).filter fun e => e.2.referredByTrimmed == some code).length

/-- `xray_tags`. -/
def xrayTags : List Tag := [.vlessGrpcReality, .vlessTcpReality, .vlessXhttpReality, .vmess]

/-- A node of the environment has an inbound with one of the tags. -/
def nodeExists (s : Sight) (env : Env) (tags : List Tag) : Bool :=
  (s.nodes.get env).any fun nodes =>
    nodes.any fun node => (node.inboundValues []).any fun inbound => tags.contains inbound.tag

/-- The loop body over the connections: a live one of the environment sets the flag of its
protocol, if there is a node. -/
def EnvInfo.note (s : Sight) (info : EnvInfo) (conn : Conn) : EnvInfo :=
  if !conn.isDeleted && conn.env == info.env then
    let proto := conn.proto.proto
    { info with
      hasXray := info.hasXray || (nodeExists s info.env xrayTags && xrayTags.contains proto)
      hasH2 := info.hasH2 || (nodeExists s info.env [.hysteria2] && proto == .hysteria2)
      hasWg := info.hasWg || (nodeExists s info.env [.wireguard] && proto == .wireguard)
      hasMtproto := info.hasMtproto || (nodeExists s info.env [.mtproto] && proto == .mtproto) }
  else info

/-- The flags of one environment. -/
def location (s : Sight) (conns : List (Uuid × Conn)) (env : Env) : EnvInfo :=
  conns.foldl (fun info c => info.note s c.2) ⟨env, false, false, false, false⟩

/-- `active_envs`, in an order of iteration. -/
def activeEnvs (conns : List (Uuid × Conn)) (order : List Env) : List Env :=
  ((Table.load ((conns.filter fun c => !c.2.isDeleted).map fun c => (c.2.env, ()))).iter order).map
    Prod.fst

/-- `get_subscription_info_json`; a missing subscription is answered with a text. -/
def getSubscriptionInfoJson (s : Sight) (order : List Uuid) (envs : List Env) (id : Uuid) :
    Except String SubscriptionResponse :=
  match s.memory.subscriptions.get id with
  | none => .error "Subscription not found"
  | some sub =>
      let locations := match s.memory.connections.getBySubscriptionId order id with
        | some conns => (activeEnvs conns envs).map (location s conns)
        | none => []
      .ok
        { id := sub.id
          expires := sub.expiresAt.getD 0
          days := (sub.daysRemaining s.now).getD 0
          refCode := sub.referCodeTrimmed
          invitedCount := s.memory.subscriptions.countInvitedBy order sub.referCodeTrimmed
          locations := locations
          downlink := 0
          limitBytes := sub.limitBytes.getD 0 }

/-! ### Tags in an environment -/

/-- The subscription has a live connection with the tag. -/
def Connected (s : Sight) (id : Uuid) (env : Env) (tag : Tag) : Prop :=
  ∃ connId conn, s.memory.connections.get connId = some conn ∧ conn.subscriptionId = some id ∧
    conn.isDeleted = false ∧ conn.env = env ∧ conn.proto.proto = tag

/-- A node has an inbound with the tag, under whatever key. -/
def Labelled (s : Sight) (env : Env) (tag : Tag) : Prop :=
  ∃ nodes, s.nodes.get env = some nodes ∧ ∃ node ∈ nodes, ∃ key inbound,
    node.inbounds key = some inbound ∧ inbound.tag = tag

/-- A node has an inbound under the tag. -/
def Offered (s : Sight) (env : Env) (tag : Tag) : Prop :=
  ∃ nodes, s.nodes.get env = some nodes ∧ ∃ node ∈ nodes, ∃ inbound,
    node.inbounds tag = some inbound

section Tags

variable {s : Sight} {id : Uuid} {env : Env} {order : List Uuid} {tags : List Tag}

lemma nodeExists_iff : nodeExists s env tags = true ↔ ∃ tag ∈ tags, Labelled s env tag := by
  simp only [nodeExists, Option.any_eq_true, List.any_eq_true, mem_inboundValues,
    List.contains_eq_mem, decide_eq_true_eq]
  constructor
  · rintro ⟨nodes, hnodes, node, hnode, inbound, ⟨key, hinbound⟩, htag⟩
    exact ⟨inbound.tag, htag, nodes, hnodes, node, hnode, key, inbound, hinbound, rfl⟩
  · rintro ⟨tag, htag, nodes, hnodes, node, hnode, key, inbound, hinbound, rfl⟩
    exact ⟨nodes, hnodes, node, hnode, inbound, ⟨key, hinbound⟩, htag⟩

/-- A handler finds an inbound for a tag that a connection has and a node offers. -/
lemma matching_ne_nil_iff : matching s order id env tags ≠ [] ↔
    ∃ tag ∈ tags, Connected s id env tag ∧ Offered s env tag := by
  constructor
  · intro hne
    obtain ⟨e, he⟩ := List.exists_mem_of_ne_nil _ hne
    obtain ⟨⟨hget, hsub, hlive, henv, nodes, hnodes, hnode, hinbound⟩, htag⟩ := mem_matching.mp he
    exact ⟨_, htag, ⟨e.connId, e.conn, hget, hsub, hlive, henv, rfl⟩, nodes, hnodes, e.node, hnode,
      e.inbound, hinbound⟩
  · rintro ⟨tag, htag, ⟨connId, conn, hget, hsub, hlive, henv, rfl⟩, nodes, hnodes, node, hnode,
      inbound, hinbound⟩
    have hmem : ⟨connId, conn, inbound, node⟩ ∈ matching s order id env tags :=
      mem_matching.mpr ⟨⟨hget, hsub, hlive, henv, nodes, hnodes, hnode, hinbound⟩, htag⟩
    exact List.ne_nil_of_mem hmem

/-- A live connection of the environment has one of the tags. -/
def seen (conns : List (Uuid × Conn)) (env : Env) (tags : List Tag) : Bool :=
  conns.any fun c => !c.2.isDeleted && c.2.env == env && tags.contains c.2.proto.proto

/-- The loop over the connections. -/
lemma foldl_note (s : Sight) (conns : List (Uuid × Conn)) (info : EnvInfo) :
    conns.foldl (fun info c => info.note s c.2) info =
      { info with
        hasXray := info.hasXray || (nodeExists s info.env xrayTags && seen conns info.env xrayTags)
        hasH2 := info.hasH2 ||
          (nodeExists s info.env [.hysteria2] && seen conns info.env [.hysteria2])
        hasWg := info.hasWg ||
          (nodeExists s info.env [.wireguard] && seen conns info.env [.wireguard])
        hasMtproto := info.hasMtproto ||
          (nodeExists s info.env [.mtproto] && seen conns info.env [.mtproto]) } := by
  induction conns generalizing info with
  | nil => simp [seen]
  | cons c conns ih =>
      have henv : (info.note s c.2).env = info.env := by
        rw [EnvInfo.note]
        split <;> rfl
      have hseen : ∀ tags, seen (c :: conns) info.env tags =
          ((!c.2.isDeleted && c.2.env == info.env) && tags.contains c.2.proto.proto ||
            seen conns info.env tags) := fun tags => List.any_cons
      have hone : ∀ tag, [tag].contains c.2.proto.proto = (c.2.proto.proto == tag) := fun tag => by
        rw [List.contains_cons, List.contains_nil, Bool.or_false]
      rw [List.foldl_cons, ih, henv, EnvInfo.note]
      simp only [hseen, hone]
      split_ifs with hlive
      · simp only [hlive, Bool.true_and, Bool.and_or_distrib_left, Bool.or_assoc]
      · simp only [Bool.eq_false_iff.mpr hlive, Bool.false_and, Bool.false_or]

lemma seen_iff :
    seen ((s.memory.connections.getBySubscriptionId order id).getD []) env tags = true ↔
    ∃ tag ∈ tags, Connected s id env tag := by
  simp only [seen, List.any_eq_true, Prod.exists, Connections.mem_getBySubscriptionId,
    Bool.and_eq_true, Bool.not_eq_eq_eq_not, Bool.not_true, beq_iff_eq, List.contains_eq_mem,
    decide_eq_true_eq]
  constructor
  · rintro ⟨connId, conn, ⟨hget, hsub⟩, ⟨hlive, henv⟩, htag⟩
    exact ⟨_, htag, connId, conn, hget, hsub, hlive, henv, rfl⟩
  · rintro ⟨tag, htag, connId, conn, hget, hsub, hlive, henv, rfl⟩
    exact ⟨connId, conn, ⟨hget, hsub⟩, ⟨hlive, henv⟩, htag⟩

/-- A flag needs a connection and an inbound with tags of its group, but not with the same. -/
lemma flag_iff : (nodeExists s env tags &&
      seen ((s.memory.connections.getBySubscriptionId order id).getD []) env tags) = true ↔
    (∃ tag ∈ tags, Connected s id env tag) ∧ ∃ tag ∈ tags, Labelled s env tag := by
  rw [Bool.and_eq_true, nodeExists_iff, seen_iff, and_comm]

/-- The locations in an answer. -/
lemma mem_locations {envs : List Env} {resp : SubscriptionResponse} {info : EnvInfo}
    (h : getSubscriptionInfoJson s order envs id = .ok resp) (hinfo : info ∈ resp.locations) :
    ∃ env, info = location s ((s.memory.connections.getBySubscriptionId order id).getD []) env := by
  rw [getSubscriptionInfoJson] at h
  cases hsub : s.memory.subscriptions.get id with
  | none =>
      rw [hsub] at h
      cases h
  | some sub =>
      rw [hsub] at h
      rw [← Except.ok.inj h] at hinfo
      cases hconns : s.memory.connections.getBySubscriptionId order id with
      | none =>
          rw [hconns] at hinfo
          cases hinfo
      | some conns =>
          rw [hconns] at hinfo
          obtain ⟨env, -, rfl⟩ := List.mem_map.mp hinfo
          exact ⟨env, rfl⟩

end Tags

/-! ### What is delivered -/

/-- `GET /sub` does not answer that it finds no nodes. -/
def FindsNodes (r : Rendering) (title : String) (limit : ℤ) (s : Sight) (order : List Uuid)
    (req : SubscriptionInfoRequest) : Prop :=
  subscriptionLinkHandler r title limit s order req ≠
    .plain (notFound ("Nodes for subscription " ++ req.id.asHyphenated ++ " not found"))

/-- Each flag says whether the handler behind it finds an inbound. -/
structure Delivered (r : Rendering) (title : String) (limit : ℤ) (s : Sight) (order : List Uuid)
    (id : Uuid) (info : EnvInfo) : Prop where
  xray : ∀ format ∈ allowedFormats .xray, info.hasXray = true ↔
    FindsNodes r title limit s order ⟨id, format, info.env, .xray⟩
  h2 : ∀ format ∈ allowedFormats .hysteria2, info.hasH2 = true ↔
    FindsNodes r title limit s order ⟨id, format, info.env, .hysteria2⟩
  wg : info.hasWg = true ↔ matching s order id info.env [.wireguard] ≠ []
  mtproto : info.hasMtproto = true ↔ matching s order id info.env [.mtproto] ≠ []

/-- Inbounds for Hysteria2, WireGuard and Mtproto stand under their own tags, as far as there is a
connection; a connection with a tag that is offered goes with an inbound with such a tag, and
without one Shadowsocks is delivered exactly if there are a connection and an inbound with tags
of the list. -/
def Matched (s : Sight) (id : Uuid) (env : Env) : Prop :=
  (∀ tag ∈ [Tag.hysteria2, .wireguard, .mtproto], Connected s id env tag →
    (Labelled s env tag ↔ Offered s env tag)) ∧
  ((∃ tag ∈ xrayTags, Connected s id env tag ∧ Offered s env tag) →
    ∃ tag ∈ xrayTags, Labelled s env tag) ∧
  ((¬∃ tag ∈ xrayTags, Connected s id env tag ∧ Offered s env tag) →
    (Connected s id env .shadowsocks ∧ Offered s env .shadowsocks ↔
      (∃ tag ∈ xrayTags, Connected s id env tag) ∧ ∃ tag ∈ xrayTags, Labelled s env tag))

section Delivered

variable {r : Rendering} {title : String} {limit : ℤ} {s : Sight} {order order' : List Uuid}
  {id : Uuid} {env : Env}

/-- An active subscription gets no nodes exactly if there are none. -/
lemma findsNodes_iff {req : SubscriptionInfoRequest} (hactive : HasActive s req.id)
    (hallowed : req.format ∈ allowedFormats req.proto) :
    FindsNodes r title limit s order req ↔ matching s order req.id req.env req.proto.tags ≠ [] := by
  obtain ⟨sub, hsub, hlive⟩ := hactive
  rw [FindsNodes, subscriptionLinkHandler, SubscriptionInfoRequest.validate, if_pos hallowed]
  simp only [hsub, hlive, Bool.not_true, Bool.false_eq_true, if_false]
  split_ifs with hempty
  · simp [List.isEmpty_iff.mp hempty]
  · refine iff_of_true ?_ (by simpa using hempty)
    cases req.format with
    | txt | base64 =>
        cases collectLinks r (matching s order req.id req.env req.proto.tags) <;> simp
    | clash => simp

/-- The groups of one tag. -/
lemma delivered_single_iff (tag : Tag) :
    ((nodeExists s env [tag] &&
        seen ((s.memory.connections.getBySubscriptionId order id).getD []) env [tag]) = true ↔
      matching s order' id env [tag] ≠ []) ↔
    (Connected s id env tag → (Labelled s env tag ↔ Offered s env tag)) := by
  rw [flag_iff, matching_ne_nil_iff]
  simp only [List.mem_singleton, exists_eq_left]
  tauto

/-- The group of Xray. -/
lemma delivered_xray_iff :
    ((nodeExists s env xrayTags &&
        seen ((s.memory.connections.getBySubscriptionId order id).getD []) env xrayTags) = true ↔
      matching s order' id env TagReq.xray.tags ≠ []) ↔
    ((∃ tag ∈ xrayTags, Connected s id env tag ∧ Offered s env tag) →
      ∃ tag ∈ xrayTags, Labelled s env tag) ∧
    ((¬∃ tag ∈ xrayTags, Connected s id env tag ∧ Offered s env tag) →
      (Connected s id env .shadowsocks ∧ Offered s env .shadowsocks ↔
        (∃ tag ∈ xrayTags, Connected s id env tag) ∧ ∃ tag ∈ xrayTags, Labelled s env tag)) := by
  have hgroup : (∃ tag ∈ TagReq.xray.tags, Connected s id env tag ∧ Offered s env tag) ↔
      (∃ tag ∈ xrayTags, Connected s id env tag ∧ Offered s env tag) ∨
        Connected s id env .shadowsocks ∧ Offered s env .shadowsocks := by
    simp only [TagReq.tags, xrayTags, List.mem_cons, List.not_mem_nil, or_false, or_and_right,
      exists_or, exists_eq_left]
    tauto
  rw [flag_iff, matching_ne_nil_iff, hgroup]
  by_cases hown : ∃ tag ∈ xrayTags, Connected s id env tag ∧ Offered s env tag
  · have hconnected : ∃ tag ∈ xrayTags, Connected s id env tag := by
      obtain ⟨tag, htag, hconn, -⟩ := hown
      exact ⟨tag, htag, hconn⟩
    simp only [hown, hconnected, true_and, true_or, iff_true, forall_const, not_true_eq_false,
      false_implies, and_true]
  · simp only [hown, false_or, false_implies, true_and, not_false_eq_true, forall_const]
    exact iff_comm

end Delivered

/-- **The flags of a location agree with what is delivered exactly if the tags match.** -/
theorem locations_delivered_iff (r : Rendering) (title : String) (limit : ℤ) (s : Sight)
    (order order' : List Uuid) (envs : List Env) (id : Uuid) (resp : SubscriptionResponse)
    (hactive : HasActive s id) (hresp : getSubscriptionInfoJson s order envs id = .ok resp)
    (info : EnvInfo) (hinfo : info ∈ resp.locations) :
    Delivered r title limit s order' id info ↔ Matched s id info.env := by
  obtain ⟨env, rfl⟩ := mem_locations hresp hinfo
  set conns := (s.memory.connections.getBySubscriptionId order id).getD [] with hconns
  have hflags : location s conns env =
      { env := env
        hasXray := nodeExists s env xrayTags && seen conns env xrayTags
        hasH2 := nodeExists s env [.hysteria2] && seen conns env [.hysteria2]
        hasWg := nodeExists s env [.wireguard] && seen conns env [.wireguard]
        hasMtproto := nodeExists s env [.mtproto] && seen conns env [.mtproto] } := by
    simp only [location, foldl_note, Bool.false_or]
  rw [hflags, hconns]
  have hfinds : ∀ {format : FormatReq} {proto : TagReq}, format ∈ allowedFormats proto →
      (FindsNodes r title limit s order' ⟨id, format, env, proto⟩ ↔
        matching s order' id env proto.tags ≠ []) :=
    fun hallowed => findsNodes_iff hactive hallowed
  constructor
  · intro h
    refine ⟨?_, delivered_xray_iff.mp ((h.xray .txt (by decide)).trans (hfinds (by decide)))⟩
    simp only [List.forall_mem_cons, List.not_mem_nil, false_implies, implies_true, and_true]
    exact ⟨(delivered_single_iff .hysteria2).mp ((h.h2 .txt (by decide)).trans (hfinds (by decide))),
      (delivered_single_iff .wireguard).mp h.wg, (delivered_single_iff .mtproto).mp h.mtproto⟩
  · rintro ⟨hsingle, hxray⟩
    constructor
    · intro format hallowed
      exact (delivered_xray_iff.mpr hxray).trans (hfinds hallowed).symm
    · intro format hallowed
      exact ((delivered_single_iff .hysteria2).mpr (hsingle _ (by simp))).trans (hfinds hallowed).symm
    · exact (delivered_single_iff .wireguard).mpr (hsingle _ (by simp))
    · exact (delivered_single_iff .mtproto).mpr (hsingle _ (by simp))

/-- The subscription with one connection has one location. -/
lemma exists_location {s : Sight} {id : Uuid} {info : EnvInfo}
    (h : (getSubscriptionInfoJson s [] [] id).map SubscriptionResponse.locations = .ok [info]) :
    ∃ resp, getSubscriptionInfoJson s [] [] id = .ok resp ∧ info ∈ resp.locations := by
  cases hresp : getSubscriptionInfoJson s [] [] id with
  | error text =>
      rw [hresp] at h
      cases h
  | ok resp =>
      rw [hresp] at h
      refine ⟨resp, rfl, ?_⟩
      rw [show resp.locations = [info] from Except.ok.inj h]
      exact List.mem_singleton_self info

lemma matched_vless : Matched (protosSight [.xray .vlessTcpReality]) 7 .dev := by
  have hseen : ∀ tag ∈ [Tag.hysteria2, .wireguard, .mtproto],
      seen (((protosSight [.xray .vlessTcpReality]).memory.connections.getBySubscriptionId
        [] 7).getD []) .dev [tag] = false := by
    decide +kernel
  have hfound : (matching (protosSight [.xray .vlessTcpReality]) [] 7 .dev xrayTags).isEmpty =
      false := by
    decide +kernel
  refine ⟨fun tag htag hconnected => ?_, fun _ => nodeExists_iff.mp (by decide +kernel),
    fun hnone => absurd (matching_ne_nil_iff.mp (by simpa using hfound)) hnone⟩
  have htrue := hseen tag htag
  rw [seen_iff.mpr ⟨tag, List.mem_singleton_self tag, hconnected⟩] at htrue
  cases htrue

/-- The one VLESS connection is advertised and delivered. -/
theorem locations_delivered_vless :
    ∃ resp, getSubscriptionInfoJson (protosSight [.xray .vlessTcpReality]) [] [] 7 = .ok resp ∧
      ∃ info ∈ resp.locations, info.hasXray = true ∧
        Delivered realityRendering "" 0 (protosSight [.xray .vlessTcpReality]) [] 7 info := by
  have hlocations : (getSubscriptionInfoJson (protosSight [.xray .vlessTcpReality]) [] [] 7).map
      SubscriptionResponse.locations = .ok [⟨.dev, true, false, false, false⟩] := by
    decide +kernel
  obtain ⟨resp, hresp, hinfo⟩ := exists_location hlocations
  exact ⟨resp, hresp, _, hinfo, rfl, (locations_delivered_iff realityRendering "" 0 _ [] [] [] 7 resp
    (hasActive_protosSight _) hresp _ hinfo).mpr matched_vless⟩

/-- A Vmess connection is advertised where only VLESS is offered, and a Shadowsocks connection is
delivered and not advertised. -/
theorem locations_not_delivered :
    (HasActive (protosSight [.xray .vmess]) 7 ∧
      ∃ resp, getSubscriptionInfoJson (protosSight [.xray .vmess]) [] [] 7 = .ok resp ∧
      ∃ info ∈ resp.locations, info.env = .dev ∧ info.hasXray = true ∧
        ¬FindsNodes realityRendering "" 0 (protosSight [.xray .vmess]) [] xrayRequest) ∧
    (HasActive (protosSight [.shadowsocks "password"]) 7 ∧
      ∃ resp, getSubscriptionInfoJson (protosSight [.shadowsocks "password"]) [] [] 7 = .ok resp ∧
      ∃ info ∈ resp.locations, info.env = .dev ∧ info.hasXray = false ∧
        FindsNodes realityRendering "" 0 (protosSight [.shadowsocks "password"]) [] xrayRequest) := by
  have hvmess : (getSubscriptionInfoJson (protosSight [.xray .vmess]) [] [] 7).map
      SubscriptionResponse.locations = .ok [⟨.dev, true, false, false, false⟩] := by
    decide +kernel
  have hshadowsocks : (getSubscriptionInfoJson (protosSight [.shadowsocks "password"]) [] [] 7).map
      SubscriptionResponse.locations = .ok [⟨.dev, false, false, false, false⟩] := by
    decide +kernel
  have hmatching : (matching (protosSight [.xray .vmess]) [] 7 .dev TagReq.xray.tags).isEmpty = true ∧
      (matching (protosSight [.shadowsocks "password"]) [] 7 .dev TagReq.xray.tags).isEmpty = false := by
    decide +kernel
  obtain ⟨resp, hresp, hinfo⟩ := exists_location hvmess
  obtain ⟨resp', hresp', hinfo'⟩ := exists_location hshadowsocks
  refine ⟨⟨hasActive_protosSight _, resp, hresp, _, hinfo, rfl, rfl, ?_⟩,
    hasActive_protosSight _, resp', hresp', _, hinfo', rfl, rfl, ?_⟩
  · rw [findsNodes_iff (hasActive_protosSight _) (by decide), not_not]
    exact List.isEmpty_iff.mp hmatching.1
  · rw [findsNodes_iff (hasActive_protosSight _) (by decide)]
    exact List.isEmpty_eq_false_iff.mp hmatching.2

end Fcore
