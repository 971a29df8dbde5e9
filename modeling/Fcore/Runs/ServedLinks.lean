import Fcore.Api.Links
import Fcore.Runs.Mirrors

/-!
What is served to clients and what the processes accept (`subscription_link_handler`,
`wireguard_connections_handler`, `run` of both services).

* `Query.Asks`: what a request asks for; `renders_of_materials`: everything in an answer is
  rendered of such an entry;
* `Service.Answers`: the process that a client of an entry turns to; `Service.Accepts`: it has
  what the client shows;
* `Follows.accepts_iff`: a process that follows the API accepts the client of a connection
  exactly if the connection is live;
* `served_accepted_while_live`: so whatever has been served, proxies of Telegram apart, is
  accepted when it is served, and then exactly as long as its connection is live.
-/

namespace Fcore

open Calculus
open Machine (exec)

/-! ### Entries of an answer -/

/-- The tags that a request asks for. -/
def Query.tags : Query → List Tag
  | .link req => req.proto.tags
  | .wireguard _ => [.wireguard]
  | .mtproto _ => [.mtproto]

/-- A request asks for the entry. -/
def Query.Asks (q : Query) (v : Sight) (e : LinkEntry) : Prop :=
  e.Of v q.id q.env ∧ e.conn.proto.proto ∈ q.tags

/-- Everything in an answer is rendered of an entry that is asked for. -/
lemma renders_of_materials {r : Rendering} {title : String} {limit : ℤ} {v : Sight}
    {order : List Uuid} {q : Query} {m : Material}
    (h : m ∈ (answer r title limit v order q).materials) :
    ∃ e : LinkEntry, q.Asks v e ∧ e.Renders r m := by
  cases q with
  | link req =>
      obtain ⟨-, -, e, he, hrenders⟩ := served_link h
      exact ⟨e, mem_matching.mp he, hrenders⟩
  | wireguard req =>
      rcases materials_connectionsGate v order req (.wireguard
        ((matching v order req.id req.env [.wireguard]).filterMap (LinkEntry.wgNode r)))
        with hnone | ⟨hall, -⟩
      · rw [answer, wireguardConnectionsHandler, hnone] at h
        exact absurd h List.not_mem_nil
      · rw [answer, wireguardConnectionsHandler, hall] at h
        obtain ⟨node, hnode, rfl⟩ := List.mem_map.mp h
        obtain ⟨e, he, hmake⟩ := List.mem_filterMap.mp hnode
        obtain ⟨link, hlink, rfl⟩ := LinkEntry.wgNode_eq_some.mp hmake
        exact ⟨e, mem_matching.mp he, rfl, hlink⟩
  | mtproto req =>
      rcases materials_connectionsGate v order req (.mtproto
        ((matching v order req.id req.env [.mtproto]).filterMap (LinkEntry.mtprotoNode r)))
        with hnone | ⟨hall, -⟩
      · rw [answer, mtprotoConnectionsHandler, hnone] at h
        exact absurd h List.not_mem_nil
      · rw [answer, mtprotoConnectionsHandler, hall] at h
        obtain ⟨conn, hconn, rfl⟩ := List.mem_map.mp h
        obtain ⟨e, he, hmake⟩ := List.mem_filterMap.mp hconn
        obtain ⟨url, hurl, rfl⟩ := LinkEntry.mtprotoNode_eq_some.mp hmake
        exact ⟨e, mem_matching.mp he, hurl⟩

/-- What is not an answer for Telegram has nothing of its proxies: no format is allowed for
them among the links. -/
lemma mtproto_not_asked {r : Rendering} {title : String} {limit : ℤ} {v : Sight}
    {order : List Uuid} {q : Query} (hq : ∀ req, q ≠ .mtproto req) {m : Material}
    (h : m ∈ (answer r title limit v order q).materials) : Tag.mtproto ∉ q.tags := by
  cases q with
  | link req =>
      obtain ⟨-, hallowed, -⟩ := served_link h
      show Tag.mtproto ∉ req.proto.tags
      cases hproto : req.proto with
      | mtproto =>
          rw [hproto] at hallowed
          exact absurd hallowed List.not_mem_nil
      | xray | wireguard | hysteria2 => decide
  | wireguard req =>
      show Tag.mtproto ∉ [Tag.wireguard]
      decide
  | mtproto req => exact absurd rfl (hq req)

/-! ### Who accepts an entry -/

/-- The nodes of the API list a node with its environment and inbounds (`register_node`). -/
def Service.Listed : Service → Nodes → Prop
  | node _ inbounds env uuid, nodes => ∀ {env' ns n}, nodes.get env' = some ns → n ∈ ns →
      n.uuid = uuid → env' = env ∧ ∀ tag, (n.inbounds tag).isSome → tag ∈ inbounds
  | auth _ _, _ => True

/-- The process that a client of the entry turns to: the node of the entry, for a protocol
that nodes handle, and the auth service for a token. -/
def Service.Answers : Service → LinkEntry → Prop
  | node _ _ _ uuid, e => e.node.uuid = uuid ∧ e.conn.proto.onNode = true
  | auth _ _, e => e.conn.proto.token.isSome = true

/-- A node has what a client with the protocol shows: its WireGuard interface the public key with
the address, Xray the user with the password. -/
def NodeState.Accepts (ctx : NodeCtx) (s : NodeState) (id : Uuid) : Proto → Prop
  | .wireguard wg => ∃ pk, ctx.pubkey wg.keys = .ok pk ∧ s.peers pk = some wg.address
  | .shadowsocks password => s.users (id, .shadowsocks) = some (some password)
  | .xray tag => s.users (id, tag) = some none
  | .hysteria2 _ | .mtproto _ => False

/-- The auth service has the token that a client shows. -/
def acceptsToken (t : Connections Base) (id : Uuid) (proto : Proto) : Prop :=
  ∃ token b, proto.token = some token ∧ t.get id = some b ∧ b.proto = .hysteria2 token

/-- Every protocol other than Mtproto is handled by nodes or has a token for the auth service. -/
lemma Proto.onNode_or_token {p : Proto} (htagged : p.wellTagged = true)
    (hp : p.proto ≠ .mtproto) : p.onNode = true ∨ p.token.isSome = true := by
  cases p with
  | wireguard | shadowsocks => exact .inl rfl
  | xray tag =>
      have hmt : tag ≠ .mtproto := hp
      rw [wellTagged, beq_eq_false_iff_ne.mpr hmt, Bool.or_false] at htagged
      exact .inl htagged
  | hysteria2 token => exact .inr rfl
  | mtproto secret => exact absurd rfl hp

/-- The process accepts a client of the entry. -/
def Service.Accepts : (svc : Service) → svc.steady.State → LinkEntry → Prop
  | node ctx _ _ _, s, e => NodeState.Accepts ctx s e.connId e.conn.proto
  | auth _ _, t, e => acceptsToken t e.connId e.conn.proto

/-- The connection of an entry is live. -/
def LinkEntry.LiveIn (e : LinkEntry) (w : World) : Prop :=
  ∃ c, w.memory.connections.get e.connId = some c ∧ c.isDeleted = false

section Course

variable {svc : Service} {lower : String → String} {before after ops : List ApiOp} {w w' : World}
  {s s' : svc.steady.State}

/-- A listed process serves the connections whose clients turn to it. -/
lemma serves_of_answers {nodes : Nodes} (hlisted : svc.Listed nodes) {e : LinkEntry} {m : Cache}
    {now : DateTime} {id : Uuid} {env : Env} (hof : e.Of ⟨m, nodes, now⟩ id env)
    (hanswers : svc.Answers e) : svc.serves e.conn = true := by
  cases svc with
  | node ctx inbounds env' uuid =>
      obtain ⟨-, -, -, henv, ns, hns, hin, hinbound⟩ := hof
      obtain ⟨rfl, htags⟩ := hlisted hns hin hanswers.1
      have htag := htags e.conn.proto.proto (by rw [hinbound]; rfl)
      simp [Service.serves, nodeServes, henv, hanswers.2, htag]
  | auth env' uuid => exact hanswers

/-- The user of a live Xray connection of a node. -/
lemma Follows.user_iff {ctx : NodeCtx} {inbounds : List Tag} {env : Env} {uuid : Uuid}
    {s : (Service.node ctx inbounds env uuid).steady.State}
    (h : Follows (.node ctx inbounds env uuid) lower before after w s) {id : Uuid} {c : Conn}
    (hget : w.memory.connections.get id = some c) (hserves : nodeServes inbounds env c = true)
    (hxray : c.proto.proto.isXray = true) :
    NodeState.users s (id, c.proto.proto) = some c.proto.password ↔ c.isDeleted = false := by
  obtain ⟨henv, -, htag⟩ := serves_node hserves
  rw [h.users_eq id htag hxray, hget, Option.bind_some, Conn.xrayUser, if_pos rfl]
  cases c.isDeleted <;> simp [henv]

/-- The peer of a live WireGuard connection of a node: no other connection has its key. -/
lemma Follows.peer_iff {ctx : NodeCtx} {inbounds : List Tag} {env : Env} {uuid : Uuid}
    {s : (Service.node ctx inbounds env uuid).steady.State}
    (h : Follows (.node ctx inbounds env uuid) lower before after w s) {id : Uuid} {c : Conn}
    (hget : w.memory.connections.get id = some c) (hserves : nodeServes inbounds env c = true)
    {wg : WgParam} (hwg : c.proto = .wireguard wg) :
    (∃ pk, ctx.pubkey wg.keys = .ok pk ∧ NodeState.peers s pk = some wg.address) ↔
      c.isDeleted = false := by
  obtain ⟨henv, -, htag⟩ := serves_node hserves
  rw [hwg] at htag
  obtain ⟨x, core, hlive, -⟩ := h.mirrors
  have hknows : ∀ {id c wg}, w.memory.connections.get id = some c → c.proto = .wireguard wg →
      core id = some c.core ∧ c.core.proto.wg = some wg := by
    intro id c wg hget hproto
    refine ⟨hlive.knows hget, ?_⟩
    rw [Conn.core_wg, hproto]
    rfl
  obtain ⟨hcore, hcorewg⟩ := hknows hget hwg
  obtain ⟨⟨pk, hpk⟩, happart⟩ := hlive.keys hcore hcorewg
  constructor
  · rintro ⟨pk', hpk', hpeer⟩
    obtain ⟨id', c', wg', hget', hdel, -, hproto, hpk'', -⟩ := (h.peers_iff htag _ _).mp hpeer
    obtain ⟨hcore', hcorewg'⟩ := hknows hget' hproto
    obtain rfl := happart hcore' hcorewg' (hpk'.trans hpk''.symm)
    obtain rfl := Option.some.inj (hget.symm.trans hget')
    exact hdel
  · exact fun hdel => ⟨pk, hpk, (h.peers_iff htag _ _).mpr
      ⟨id, c, wg, hget, hdel, henv, hwg, hpk, rfl⟩⟩

/-- **Accepted exactly if live**: a process that follows the API accepts the client of an entry
that it serves exactly if the connection is live; the entry may be from an earlier moment. -/
lemma Follows.accepts_iff (h : Follows svc lower before after w s) {e : LinkEntry} {c : Conn}
    (hget : w.memory.connections.get e.connId = some c) (hcore : c.core = e.conn.core)
    (hserves : svc.serves e.conn = true) : svc.Accepts s e ↔ c.isDeleted = false := by
  have hserves' : svc.serves c = true := by
    rw [← Service.serves_core, hcore, Service.serves_core, hserves]
  cases svc with
  | node ctx inbounds env uuid =>
      have hxray := fun hxray => h.user_iff hget hserves' hxray
      rw [← Conn.core_tag, hcore, Conn.core_tag, ← Conn.core_password, hcore, Conn.core_password]
        at hxray
      have hnode := (serves_node hserves).2.1
      show NodeState.Accepts ctx s e.connId e.conn.proto ↔ _
      cases hproto : e.conn.proto with
      | wireguard wg =>
          have hwg : c.proto = .wireguard wg := by
            refine Proto.eq_of_wg ?_
            rw [← Conn.core_wg, hcore, Conn.core_wg, hproto]
            rfl
          exact h.peer_iff hget hserves' hwg
      | shadowsocks password =>
          rw [hproto] at hxray
          exact hxray rfl
      | xray tag =>
          rw [hproto] at hxray
          rw [hproto, Proto.onNode, Bool.and_eq_true] at hnode
          exact hxray hnode.1
      | hysteria2 token | mtproto secret =>
          rw [hproto] at hnode
          cases hnode
  | auth env uuid =>
      obtain ⟨token, htoken⟩ := Option.isSome_iff_exists.mp hserves
      have hproto : c.proto = .hysteria2 token := by
        refine Proto.eq_of_token ?_
        rw [← Conn.core_token, hcore, Conn.core_token, htoken]
      have hview : (Table.get s e.connId).map Base.kept = _ := h.view_eq e.connId
      rw [Service.wanted, hget, Option.bind_some, hserves'] at hview
      show acceptsToken s e.connId e.conn.proto ↔ _
      constructor
      · rintro ⟨token', b, -, hb, -⟩
        rw [hb] at hview
        by_contra hdel
        rw [if_neg fun hlive => hdel hlive.1] at hview
        cases hview
      · intro hdel
        rw [if_pos ⟨hdel, rfl⟩] at hview
        obtain ⟨b, hb, hkept⟩ := Option.map_eq_some_iff.mp hview
        exact ⟨token, b, htoken, hb, (congrArg Kept.proto hkept).trans hproto⟩

/-- A connection keeps its core. -/
lemma Follows.core_eq (h : Follows svc lower before after w s)
    (hrun : Serial (freshKeys svc) (ApiOp.prog lower) w ops w')
    (hplain : ∀ op ∈ ops, op.Plain lower (some svc.uuid)) {id : Uuid} {c : Conn}
    (hget : w.memory.connections.get id = some c) :
    ∃ c', w'.memory.connections.get id = some c' ∧ c'.core = c.core := by
  obtain ⟨x, core, hlive, -⟩ := h.mirrors
  obtain ⟨core', hlive'⟩ := live_of_serial hrun hplain ⟨core, hlive.rebase (some svc.uuid)⟩
  have hflagged : (w'.memory.flagged id).map Prod.fst = some c.core :=
    (hlive'.cores id).trans (hlive'.older (hlive.knows hget))
  rw [Cache.flagged, Option.map_map] at hflagged
  exact Option.map_eq_some_iff.mp hflagged

/-- **What has been served is accepted exactly as long as its connection is live**: of any
request for links or WireGuard configurations at a moment at which a process has followed the
API, everything in the answer is of entries that are asked for.  Each of them is one for nodes
or for the auth service, and if it is one for the process, then the process accepts its client at
that moment, and after any further operations exactly if the connection is live then. -/
theorem served_accepted_while_live (h : Follows svc lower before after w s)
    (hrun : Serial (freshKeys svc) (ApiOp.prog lower) w ops w')
    (hplain : ∀ op ∈ ops, op.Plain lower (some svc.uuid))
    (hreceives : Receives svc.steady ((published w w').filter svc.heeds) s s') {nodes : Nodes}
    (hlisted : svc.Listed nodes) (r : Rendering) (title : String) (limit : ℤ) (now : DateTime)
    (order : List Uuid) (q : Query) (hq : ∀ req, q ≠ .mtproto req) :
    ∀ m ∈ (answer r title limit ⟨w.memory, nodes, now⟩ order q).materials,
      (∃ e : LinkEntry, q.Asks ⟨w.memory, nodes, now⟩ e ∧ e.Renders r m) ∧
      ∀ e : LinkEntry, q.Asks ⟨w.memory, nodes, now⟩ e → e.Renders r m →
        (e.conn.proto.onNode = true ∨ e.conn.proto.token.isSome = true) ∧
        (svc.Answers e → svc.Accepts s e ∧ (svc.Accepts s' e ↔ e.LiveIn w')) := by
  intro m hm
  refine ⟨renders_of_materials hm, fun e hasks _ => ?_⟩
  obtain ⟨hof, htag⟩ := hasks
  obtain ⟨hget, -, hdel, -⟩ := id hof
  refine ⟨?_, fun hanswers => ?_⟩
  · obtain ⟨x, core, hlive, -⟩ := h.mirrors
    refine Proto.onNode_or_token (hlive.wellTagged (hlive.knows hget)) fun hmt => ?_
    rw [hmt] at htag
    exact mtproto_not_asked hq hm htag
  · have hserves := serves_of_answers hlisted hof hanswers
    obtain ⟨c', hget', hcore⟩ := h.core_eq hrun hplain hget
    refine ⟨(h.accepts_iff hget rfl hserves).mpr hdel, ?_⟩
    rw [(h.append hrun hplain hreceives).accepts_iff hget' hcore hserves, LinkEntry.LiveIn, hget']
    simp

end Course

/-! ### A configuration before and after a deletion -/

/-- A subscription with a WireGuard connection. -/
def beforeServing : List (ApiOp × List Input) :=
  [(.postSubscription ⟨none, none, some 30, none⟩ 7 [],
      List.replicate 5 { Input.at 1000000 with uuid := 7 }),
    (.createConnection ⟨.dev, some 7, .wireguard, none⟩ ⟨.v4 0x0A000000, 8⟩,
      List.replicate 6 { Input.at 2000000 with
        uuid := 2
        text := "AQEBAQEBAQEBAQEBAQEBAQEBAQEBAQEBAQEBAQEBAQE=" })]

/-- The deletion of the connection. -/
def afterServing : List (ApiOp × List Input) :=
  [(.deleteConnection 2, List.replicate 5 (Input.at 4000000))]

/-- The node, as it has registered. -/
def servingNodes : Nodes := (∅ : Nodes).put .dev [wgNodePost.asNode 0]

lemma listed_servingNodes : twoInbounds.Listed servingNodes := by
  intro env' ns n hns hn _
  rw [servingNodes, Table.get_put] at hns
  split_ifs at hns with henv
  · obtain rfl := Option.some.inj hns
    rw [List.mem_singleton.mp hn]
    refine ⟨henv, fun tag htag => ?_⟩
    cases tag <;> first | decide | cases htag
  · cases hns

/-- The configuration that is served for the connection is accepted, and after the deletion it is
not. -/
theorem served_config_until_deleted : ∃ w w' s s' m e,
    Follows twoInbounds id (beforeServing.map Prod.fst) [] w s ∧
      Serial (freshKeys twoInbounds) (ApiOp.prog id) w (afterServing.map Prod.fst) w' ∧
      Receives twoInbounds.steady ((published w w').filter twoInbounds.heeds) s s' ∧
      m ∈ (answer sampleRendering "" 0 ⟨w.memory, servingNodes, 3000000⟩ []
        (.wireguard ⟨7, .dev⟩)).materials ∧
      LinkEntry.Renders sampleRendering e m ∧ twoInbounds.Accepts s e ∧ ¬ twoInbounds.Accepts s' e := by
  have hcourse : ((twoInbounds.courseWith beforeServing (List.replicate 4 (Input.at 2500000)) []).bind
      fun w => (serialWith (freshKeys twoInbounds) (ApiOp.prog id) afterServing w).map fun w' =>
        !(answer sampleRendering "" 0 ⟨w.memory, servingNodes, 3000000⟩ []
            (.wireguard ⟨7, .dev⟩)).materials.isEmpty &&
          (w.memory.connections.iter []).all (fun e => e.2.proto.onNode) &&
          (w'.memory.connections.iter []).all fun e => e.2.isDeleted) = some true := by
    decide +kernel
  obtain ⟨w, hw, hlate⟩ := Option.bind_eq_some_iff.mp hcourse
  obtain ⟨w', hw', hseen⟩ := Option.map_eq_some_iff.mp hlate
  simp only [Bool.and_eq_true, Bool.not_eq_true', List.isEmpty_eq_false_iff_exists_mem,
    List.all_eq_true, Prod.forall, Table.mem_iter] at hseen
  obtain ⟨⟨⟨m, hm⟩, hnode⟩, hdel⟩ := hseen
  obtain ⟨s, hfollows⟩ := Service.exists_follows hw ⟨by decide, fun _ => rfl, fun _ _ _ => rfl⟩
    (fun op hop => by
      rcases List.mem_cons.mp hop with rfl | hop
      · exact trivial
      · rw [List.mem_singleton.mp hop]
        exact rfl)
    (fun op hop => absurd hop List.not_mem_nil)
  obtain ⟨s', hreceives⟩ := twoInbounds.exists_receives
    ((published w w').filter twoInbounds.heeds) (fun e he => (List.mem_filter.mp he).2) s
  have hrun : Serial (freshKeys twoInbounds) (ApiOp.prog id) w (afterServing.map Prod.fst) w' :=
    serial_of_serialWith .nil hw'
  obtain ⟨⟨e, hasks, hrenders⟩, hall⟩ := served_accepted_while_live hfollows hrun
    (fun op hop => by rw [List.mem_singleton.mp hop]; exact trivial) hreceives
    listed_servingNodes sampleRendering "" 0 3000000 [] (.wireguard ⟨7, .dev⟩)
    (fun _ hq => by cases hq) m hm
  obtain ⟨-, haccepts⟩ := hall e hasks hrenders
  obtain ⟨⟨hget, -, -, -, ns, hns, hin, -⟩, -⟩ := hasks
  have hnodes : servingNodes.get .dev = some [wgNodePost.asNode 0] := Table.get_put_self ..
  obtain rfl := Option.some.inj (hnodes.symm.trans hns)
  have huuid : e.node.uuid = 9 := congrArg Node.uuid (List.mem_singleton.mp hin)
  obtain ⟨hnow, hlater⟩ := haccepts ⟨huuid, hnode _ _ hget⟩
  refine ⟨w, w', s, s', m, e, hfollows, hrun, hreceives, hm, hrenders, hnow, fun hthen => ?_⟩
  obtain ⟨c, hget', hlive⟩ := hlater.mp hthen
  rw [hdel _ _ hget'] at hlive
  cases hlive

end Fcore
