import Fcore.Runs.LiveTracking

/-!
What a process makes of the messages about connections (`handle_message` and
`handle_messages_batch` of nodes and of the auth service).

* `Kept`: what a process keeps of a connection;
* `NodeMirror`: memory, WireGuard peers and Xray users of a node are those of the connections
  that are there; `AuthMirror`: the memory of the auth service is;
* `Footprint`: what a message of a connection can touch;
* `NodeMirror.told`: a message keeps the mirror, the connection being there afterwards or not
  as the message tells;
* `NodeMirror.batch`: so does a batch of creations of connections that were not there.

The backend calls for the tags of the inbounds go through.
-/

namespace Fcore

open Calculus

/-! ### What is kept of a connection -/

/-- What a process keeps of a connection; the expiry in the precision of the database. -/
structure Kept where
  proto : Proto
  subscriptionId : Option Uuid
  expiresAt : Option DateTime
  deriving DecidableEq

def Conn.kept (c : Conn) : Kept := ⟨c.proto, c.subscriptionId, c.expiresAt.map pgRound⟩

def Base.kept (b : Base) : Kept := ⟨b.proto, b.subscriptionId, b.expiresAt.map pgRound⟩

lemma Conn.kept_core {c : Conn} (h : c.proto.isMtproto = false) : c.core.kept = c.kept := by
  obtain ⟨env, proto, sub, created, modified, expires, del⟩ := c
  have hround : (expires.map pgRound).map pgRound = expires.map pgRound := by
    cases expires with
    | none => rfl
    | some t => simp [pgRound_idem]
  have hproto : proto.isMtproto = false := h
  simp only [kept, core, hproto, hround]
  rfl

/-- The record of a message keeps what is kept of its connection. -/
lemma kept_toBase (c : Conn) (act : Action) (id : Uuid) (now : DateTime) :
    ((c.asMessage act id).toBase c.proto now).kept = c.kept := by
  obtain ⟨hproto, hexpires, hsub⟩ := rebuilds_toBase c act id now
  rw [Base.kept, hproto, hexpires, hsub]
  rfl

/-! ### What a message can touch -/

/-- A message of a connection touches its memory, its user and, for WireGuard, the peers. -/
structure Footprint (id : Uuid) (c : Conn) (s s' : NodeState) : Prop where
  other : ∀ id' ≠ id, s'.memory id' = s.memory id'
  own : ∀ b, s'.memory id = some b → s.memory id = some b ∨ c.proto.onNode = true ∧ b.kept = c.kept
  peers : c.proto.wg = none → s'.peers = s.peers
  users : ∀ id' tag, (id', tag) ≠ (id, c.proto.proto) → s'.users (id', tag) = s.users (id', tag)

namespace Footprint

variable {id : Uuid} {c : Conn} {s s' s'' : NodeState}

lemma refl : Footprint id c s s :=
  ⟨fun _ _ => rfl, fun _ h => .inl h, fun _ => rfl, fun _ _ _ => rfl⟩

lemma trans (h : Footprint id c s s') (h' : Footprint id c s' s'') : Footprint id c s s'' where
  other id' hne := (h'.other id' hne).trans (h.other id' hne)
  own b hb := (h'.own b hb).elim (h.own b) .inr
  peers hwg := (h'.peers hwg).trans (h.peers hwg)
  users id' tag hne := (h'.users id' tag hne).trans (h.users id' tag hne)

lemma add {b : Base} (hnode : c.proto.onNode = true) (hb : b.kept = c.kept) :
    Footprint id c s (s.add id b) where
  other id' hne := by rw [NodeState.memory_add, if_neg hne]
  own b' hb' := by
    rw [NodeState.memory_add, if_pos rfl] at hb'
    cases hold : s.memory id with
    | none =>
        rw [hold, Option.getD_none] at hb'
        rw [← Option.some.inj hb']
        exact .inr ⟨hnode, hb⟩
    | some b₀ =>
        rw [hold, Option.getD_some] at hb'
        exact .inl hb'
  peers _ := rfl
  users _ _ _ := rfl

lemma remove : Footprint id c s (s.remove id) where
  other id' hne := Function.update_of_ne hne _ _
  own b hb := by
    have hnone : (s.remove id).memory id = none := Function.update_self ..
    rw [hnone] at hb
    cases hb
  peers _ := rfl
  users _ _ _ := rfl

lemma setPeer {wg : WgParam} (hwg : c.proto.wg = some wg) (pk : String)
    (addr : Option IpAddrMask) :
    Footprint id c s { s with peers := Function.update s.peers pk addr } where
  other _ _ := rfl
  own _ hb := .inl hb
  peers hnone := by
    rw [hwg] at hnone
    cases hnone
  users _ _ _ := rfl

lemma setUser (u : Option (Option String)) :
    Footprint id c s { s with users := Function.update s.users (id, c.proto.proto) u } where
  other _ _ := rfl
  own _ hb := .inl hb
  peers _ := rfl
  users _ _ hne := Function.update_of_ne hne _ _

end Footprint

section Touch

variable {id : Uuid} {c : Conn} {ctx : NodeCtx} {act : Action} {g : Given} {s : NodeState}

/-- What a creation of a WireGuard connection leaves behind: the connection in memory, and a
peer unless the key is on the interface or cannot be derived. -/
lemma state_createWg {msg : Message} {wg : WgParam} (hwg : msg.wg = some wg) :
    (createWg ctx msg g s).1 = s.add msg.connId (msg.toBase (.wireguard wg) g.now) ∨
      ∃ pk, ctx.pubkey wg.keys = .ok pk ∧ (createWg ctx msg g s).1 =
        { s.add msg.connId (msg.toBase (.wireguard wg) g.now) with
          peers := Function.update s.peers pk (some wg.address) } := by
  simp only [createWg, hwg]
  cases ctx.wgClient with
  | false => exact .inl rfl
  | true =>
      cases ctx.pubkey wg.keys with
      | error e => exact .inl rfl
      | ok pk =>
          dsimp only
          cases g.readable &&
            ((s.add msg.connId (msg.toBase (.wireguard wg) g.now)).peers pk).isSome with
          | true => exact .inl rfl
          | false =>
              cases g.ok with
              | true => exact .inr ⟨pk, rfl, rfl⟩
              | false => exact .inl rfl

lemma Proto.eq_of_wg {p : Proto} {wg : WgParam} (h : p.wg = some wg) : p = .wireguard wg := by
  cases p with
  | wireguard wg' => rw [Option.some.inj h]
  | shadowsocks | xray | hysteria2 | mtproto => cases h

lemma footprint_createWg : Footprint id c s (createWg ctx (c.asMessage act id) g s).1 := by
  cases hwg : c.proto.wg with
  | none =>
      have hmsg : (c.asMessage act id).wg = none := hwg
      rw [createWg, hmsg]
      exact .refl
  | some wg =>
      have hproto := Proto.eq_of_wg hwg
      have hadd : Footprint id c s
          (s.add id ((c.asMessage act id).toBase (.wireguard wg) g.now)) := by
        refine .add (by rw [hproto]; rfl) ?_
        rw [← hproto]
        exact kept_toBase c act id g.now
      have hmsg : (c.asMessage act id).wg = some wg := hwg
      rcases state_createWg hmsg with hstate | ⟨pk, -, hstate⟩
      · rw [hstate]
        exact hadd
      · rw [hstate]
        exact hadd.trans (.setPeer hwg pk _)

lemma footprint_deleteWg : Footprint id c s (deleteWg ctx (c.asMessage act id) g s).1 := by
  rw [deleteWg]
  cases ctx.wgClient with
  | false => exact .refl
  | true =>
      cases hwg : c.proto.wg with
      | none =>
          have hmsg : (c.asMessage act id).wg = none := hwg
          rw [hmsg]
          exact .refl
      | some wg =>
          have hmsg : (c.asMessage act id).wg = some wg := hwg
          rw [hmsg]
          dsimp only
          cases ctx.pubkey wg.keys with
          | error e => exact .refl
          | ok pk =>
              cases g.ok with
              | true => exact (Footprint.setPeer hwg pk none).trans .remove
              | false => exact .refl

lemma footprint_createXray {proto : Proto} {password : Option String}
    (hnode : c.proto.onNode = true) (hproto : c.proto = proto) :
    Footprint id c s (createXray ctx (c.asMessage act id) proto password g s).1 := by
  rw [createXray]
  cases ctx.handlerClient with
  | false => exact .refl
  | true =>
      cases g.ok with
      | false => exact .refl
      | true =>
          refine (Footprint.setUser (some password)).trans (.add hnode ?_)
          rw [← hproto]
          exact kept_toBase c act id g.now

lemma footprint_removeXray : Footprint id c s (removeXray ctx (c.asMessage act id) g s).1 := by
  rw [removeXray]
  cases ctx.handlerClient with
  | false => exact .refl
  | true =>
      cases g.ok with
      | true => exact (Footprint.setUser none).trans .remove
      | false => exact .remove

/-- **What a message of a connection can touch.** -/
lemma footprint_handleMessage (hact : act ≠ .resetStat) (htagged : c.proto.wellTagged = true) :
    Footprint id c s (handleMessage ctx (c.asMessage act id) g s).1 := by
  obtain ⟨env, proto, sub, created, modified, expires, del⟩ := c
  cases act with
  | resetStat => exact absurd rfl hact
  | create | update =>
      cases proto with
      | wireguard wg => exact footprint_createWg
      | shadowsocks password => exact footprint_createXray rfl rfl
      | hysteria2 token => exact .refl
      | mtproto secret => exact .refl
      | xray tag =>
          cases tag with
          | shadowsocks | wireguard | hysteria2 => exact absurd htagged Bool.false_ne_true
          | mtproto => exact .refl
          | _ => exact footprint_createXray rfl rfl
  | delete =>
      cases proto with
      | wireguard wg => exact footprint_deleteWg
      | shadowsocks password =>
          have hsome : handleMessage ctx ((Conn.mk env (.shadowsocks password) sub created modified
              expires del).asMessage .delete id) g s = removeXray ctx _ g s :=
            if_neg (by simp [Conn.asMessage, Proto.password])
          rw [hsome]
          exact footprint_removeXray
      | hysteria2 token => exact .refl
      | mtproto secret => exact .refl
      | xray tag =>
          cases tag with
          | shadowsocks | wireguard | hysteria2 => exact absurd htagged Bool.false_ne_true
          | mtproto => exact .refl
          | _ => exact footprint_removeXray

end Touch

/-! ### The mirror of a node -/

/-- The user that Xray has for a connection under a tag. -/
def Conn.xrayUser (c : Conn) (tag : Tag) : Option (Option String) :=
  if c.proto.proto = tag then some c.proto.password else none

@[simp] lemma Conn.xrayUser_core (c : Conn) (tag : Tag) : c.core.xrayUser tag = c.xrayUser tag := by
  rw [xrayUser, core_tag, core_password, xrayUser]

/-- Memory, peers and users of a node, as far as its inbounds go, are those of the connections
that are there. -/
structure NodeMirror (ctx : NodeCtx) (inbounds : List Tag) (env : Env) (there : Uuid → Bool)
    (core : Uuid → Option Conn) (s : NodeState) : Prop where
  real : ∀ {id}, there id = true → ∃ c, core id = some c ∧
    nodeServes inbounds env c = true
  kept : ∀ {id b}, s.memory id = some b → ∃ c, core id = some c ∧ c.env = env ∧
    c.proto.onNode = true ∧ b.kept = c.kept
  held : ∀ {id c}, core id = some c → nodeServes inbounds env c = true →
    ((s.memory id).isSome ↔ there id = true)
  peers : .wireguard ∈ inbounds → ∀ pk addr, s.peers pk = some addr ↔ ∃ id c wg, there id = true ∧
    core id = some c ∧ c.proto.wg = some wg ∧ ctx.pubkey wg.keys = .ok pk ∧ wg.address = addr
  users : ∀ id tag, tag ∈ inbounds → tag.isXray = true → s.users (id, tag) =
    if there id then (core id).bind fun c => c.xrayUser tag else none

/-- The clients of a node fit its inbounds. -/
structure Equipped (ctx : NodeCtx) (inbounds : List Tag) : Prop where
  nodup : inbounds.Nodup
  wg : .wireguard ∈ inbounds → ctx.wgClient = true
  xray : ∀ tag ∈ inbounds, tag.isXray = true → ctx.handlerClient = true

/-- The connections that are there after a message. -/
def afterward (id : Uuid) (v : Bool) (there : Uuid → Bool) : Uuid → Bool :=
  Function.update there id v

section Node

variable {ctx : NodeCtx} {inbounds : List Tag} {env : Env} {there : Uuid → Bool}
  {core : Uuid → Option Conn} {s : NodeState} {id : Uuid} {c : Conn} {act : Action} {g : Given}

/-- A connection that a node does not serve: its messages change nothing that counts. -/
lemma NodeMirror.foreign (h : NodeMirror ctx inbounds env there core s)
    (htagged : c.proto.wellTagged = true) (hc : Known core id c) (henv : c.env = env)
    (hserves : nodeServes inbounds env c = false) {s' : NodeState}
    (hfoot : Footprint id c s s') : NodeMirror ctx inbounds env there core s' where
  real := h.real
  kept := by
    intro id' b hb
    by_cases hid : id' = id
    · subst hid
      rcases hfoot.own b hb with hold | ⟨hnode, hnew⟩
      · exact h.kept hold
      · exact ⟨c.core, hc, henv, (Conn.core_onNode c).trans hnode,
          hnew.trans (Conn.kept_core (Proto.token_of_onNode hnode).2).symm⟩
    · rw [hfoot.other id' hid] at hb
      exact h.kept hb
  held := by
    intro id' c' hc' hs'
    by_cases hid : id' = id
    · subst hid
      obtain rfl := Option.some.inj (hc.symm.trans hc')
      rw [nodeServes_core, hserves] at hs'
      cases hs'
    · rw [hfoot.other id' hid]
      exact h.held hc' hs'
  peers := by
    intro hwg pk addr
    rw [hfoot.peers]
    · exact h.peers hwg pk addr
    · -- a WireGuard connection would be served
      by_contra hsome
      obtain ⟨wg, hwg'⟩ := Option.ne_none_iff_exists'.mp hsome
      rw [nodeServes, henv, Proto.eq_of_wg hwg'] at hserves
      simp [Proto.onNode, Proto.proto, hwg] at hserves
  users := by
    intro id' tag htag hxray
    rw [hfoot.users]
    · exact h.users id' tag htag hxray
    · intro heq
      obtain ⟨rfl, rfl⟩ := Prod.mk.inj heq
      rw [nodeServes, henv, Proto.onNode_eq htagged, hxray] at hserves
      simp [htag] at hserves

/-- What the node serves: its protocol is handled and has an inbound. -/
lemma serves_node (h : nodeServes inbounds env c = true) :
    c.env = env ∧ c.proto.onNode = true ∧ c.proto.proto ∈ inbounds := by
  simpa [nodeServes] using h

/-- The key of a connection that is not there is not on the interface. -/
lemma NodeMirror.peer_eq_none (h : NodeMirror ctx inbounds env there core s)
    (hkeys : (Service.node ctx inbounds env 0).KeysApart core) (hc : Known core id c)
    (hserves : nodeServes inbounds env c = true) (hthere : there id = false) {wg : WgParam}
    (hwg : c.proto.wg = some wg) {pk : String} (hpk : ctx.pubkey wg.keys = .ok pk) :
    s.peers pk = none := by
  cases hpeer : s.peers pk with
  | none => rfl
  | some addr =>
      have hin := (serves_node hserves).2.2
      rw [Proto.eq_of_wg hwg] at hin
      obtain ⟨id', c', wg', hthere', hc', hwg', hpk', -⟩ := (h.peers hin pk addr).mp hpeer
      have hsame := (hkeys hc ((Conn.core_wg c).trans hwg)).2 hc' hwg' (hpk.trans hpk'.symm)
      rw [hsame, hthere'] at hthere
      cases hthere

/-- A connection comes to the memory, to the users and, for WireGuard, to the peers. -/
lemma NodeMirror.appears (h : NodeMirror ctx inbounds env there core s) (hc : Known core id c)
    (hserves : nodeServes inbounds env c = true) {s' : NodeState}
    (hmem : ∀ id', s'.memory id' = if id' = id then some ((s.memory id).getD
      ((c.asMessage act id).toBase c.proto g.now)) else s.memory id')
    (hpeers : .wireguard ∈ inbounds → ∀ pk addr, s'.peers pk = some addr ↔ s.peers pk = some addr ∨
      ∃ wg, c.proto.wg = some wg ∧ ctx.pubkey wg.keys = .ok pk ∧ wg.address = addr)
    (husers : ∀ id' tag, tag ∈ inbounds → tag.isXray = true → s'.users (id', tag) =
      if id' = id ∧ tag = c.proto.proto then some c.proto.password else s.users (id', tag)) :
    NodeMirror ctx inbounds env (afterward id true there) core s' where
  real := by
    intro id' hthere'
    rw [afterward, Function.update_apply] at hthere'
    split_ifs at hthere' with hid
    · exact ⟨c.core, hid ▸ hc, (nodeServes_core inbounds env c).trans hserves⟩
    · exact h.real hthere'
  kept := by
    intro id' b hb
    rw [hmem] at hb
    split_ifs at hb with hid
    · subst hid
      cases hold : s.memory id' with
      | some b₀ =>
          rw [hold, Option.getD_some] at hb
          exact h.kept (hold.trans hb)
      | none =>
          rw [hold, Option.getD_none] at hb
          obtain ⟨henv, hnode, -⟩ := serves_node hserves
          refine ⟨c.core, hc, henv, (Conn.core_onNode c).trans hnode, ?_⟩
          rw [← Option.some.inj hb, kept_toBase,
            Conn.kept_core (Proto.token_of_onNode hnode).2]
    · exact h.kept hb
  held := by
    intro id' c' hc' hs'
    rw [hmem, afterward, Function.update_apply]
    split_ifs
    · simp
    · exact h.held hc' hs'
  peers := by
    intro hwg pk addr
    rw [hpeers hwg pk addr, h.peers hwg pk addr]
    constructor
    · rintro (⟨id', c', wg, hthere', hrest⟩ | ⟨wg, hwg', hpk, haddr⟩)
      · refine ⟨id', c', wg, ?_, hrest⟩
        rw [afterward, Function.update_apply, hthere', ite_self]
      · exact ⟨id, c.core, wg, Function.update_self .., hc, (Conn.core_wg c).trans hwg', hpk, haddr⟩
    · rintro ⟨id', c', wg, hthere', hc', hwg', hrest⟩
      rw [afterward, Function.update_apply] at hthere'
      split_ifs at hthere' with hid
      · subst hid
        obtain rfl := Option.some.inj (hc.symm.trans hc')
        exact .inr ⟨wg, (Conn.core_wg c).symm.trans hwg', hrest⟩
      · exact .inl ⟨id', c', wg, hthere', hc', hwg', hrest⟩
  users := by
    intro id' tag htag hxray
    rw [husers id' tag htag hxray, h.users id' tag htag hxray, afterward, Function.update_apply]
    by_cases hid : id' = id
    · subst hid
      rw [if_pos rfl, if_pos rfl, hc, Option.bind_some, Conn.xrayUser_core, Conn.xrayUser]
      by_cases htag' : tag = c.proto.proto
      · rw [if_pos ⟨rfl, htag'⟩, if_pos htag'.symm]
      · rw [if_neg (fun hand => htag' hand.2), if_neg (Ne.symm htag'), ite_self]
    · rw [if_neg (fun hand => hid hand.1), if_neg hid]

/-- A connection leaves the memory, the users and, for WireGuard, the peers. -/
lemma NodeMirror.leaves (h : NodeMirror ctx inbounds env there core s) (hc : Known core id c)
    {s' : NodeState} (hmem : ∀ id', s'.memory id' = if id' = id then none else s.memory id')
    (hpeers : .wireguard ∈ inbounds → ∀ pk addr, s'.peers pk = some addr ↔ s.peers pk = some addr ∧
      ∀ wg, c.proto.wg = some wg → ctx.pubkey wg.keys ≠ .ok pk)
    (husers : ∀ id' tag, tag ∈ inbounds → tag.isXray = true → s'.users (id', tag) =
      if id' = id ∧ tag = c.proto.proto then none else s.users (id', tag))
    (hkeys : (Service.node ctx inbounds env 0).KeysApart core) :
    NodeMirror ctx inbounds env (afterward id false there) core s' where
  real := by
    intro id' hthere'
    rw [afterward, Function.update_apply] at hthere'
    split_ifs at hthere'
    exact h.real hthere'
  kept := by
    intro id' b hb
    rw [hmem] at hb
    split_ifs at hb
    exact h.kept hb
  held := by
    intro id' c' hc' hs'
    rw [hmem, afterward, Function.update_apply]
    split_ifs
    · simp
    · exact h.held hc' hs'
  peers := by
    intro hwg pk addr
    rw [hpeers hwg pk addr, h.peers hwg pk addr]
    constructor
    · rintro ⟨⟨id', c', wg, hthere', hc', hwg', hpk, haddr⟩, hne⟩
      refine ⟨id', c', wg, ?_, hc', hwg', hpk, haddr⟩
      rw [afterward, Function.update_apply, if_neg, hthere']
      rintro rfl
      obtain rfl := Option.some.inj (hc.symm.trans hc')
      exact hne wg ((Conn.core_wg c).symm.trans hwg') hpk
    · rintro ⟨id', c', wg, hthere', hc', hwg', hpk, haddr⟩
      rw [afterward, Function.update_apply] at hthere'
      split_ifs at hthere' with hid
      refine ⟨⟨id', c', wg, hthere', hc', hwg', hpk, haddr⟩, fun wg' hwg'' hpk' => hid ?_⟩
      exact (hkeys hc' hwg').2 hc ((Conn.core_wg c).trans hwg'') (hpk.trans hpk'.symm)
  users := by
    intro id' tag htag hxray
    rw [husers id' tag htag hxray, h.users id' tag htag hxray, afterward, Function.update_apply]
    by_cases hid : id' = id
    · subst hid
      rw [if_pos rfl, hc, Option.bind_some, Conn.xrayUser_core, Conn.xrayUser]
      by_cases htag' : tag = c.proto.proto
      · rw [if_pos ⟨rfl, htag'⟩]
        rfl
      · rw [if_neg (fun hand => htag' hand.2), if_neg (Ne.symm htag'), ite_self]
        rfl
    · rw [if_neg (fun hand => hid hand.1), if_neg hid]

/-! ### Messages of connections that a node serves -/

/-- A creation with a client, for a key that can be derived. -/
lemma createWg_of_client {msg : Message} {wg : WgParam} {pk : String}
    (hclient : ctx.wgClient = true)
    (hwg : msg.wg = some wg) (hpk : ctx.pubkey wg.keys = .ok pk) (hok : g.ok = true) :
    createWg ctx msg g s = if (g.readable && (s.peers pk).isSome) = true then
        (s.add msg.connId (msg.toBase (.wireguard wg) g.now),
          .error (.custom "WG User already exist"))
      else ({ s.add msg.connId (msg.toBase (.wireguard wg) g.now) with
          peers := Function.update s.peers pk (some wg.address) }, .ok ()) := by
  have hpeers : (s.add msg.connId (msg.toBase (.wireguard wg) g.now)).peers = s.peers := rfl
  simp only [createWg, hwg, hclient, hpk, hok, hpeers, Bool.not_true, if_true]
  rfl

/-- A creation or an update of a WireGuard connection. -/
lemma NodeMirror.createWg (h : NodeMirror ctx inbounds env there core s)
    (hequip : Equipped ctx inbounds) (hkeys : (Service.node ctx inbounds env 0).KeysApart core)
    (hc : Known core id c) (hserves : nodeServes inbounds env c = true) {wg : WgParam}
    (hproto : c.proto = .wireguard wg) (hok : g.ok = true) :
    NodeMirror ctx inbounds env (afterward id true there) core
        (Fcore.createWg ctx (c.asMessage act id) g s).1 ∧
      (there id = false → (Fcore.createWg ctx (c.asMessage act id) g s).2.isOk = true) := by
  have hwg : c.proto.wg = some wg := by rw [hproto]; rfl
  have hin : .wireguard ∈ inbounds := by
    have hin := (serves_node hserves).2.2
    rwa [hproto] at hin
  obtain ⟨⟨pk, hpk⟩, -⟩ := hkeys hc ((Conn.core_wg c).trans hwg)
  -- on the interface the key belongs to this connection
  have hvalue : ∀ addr, s.peers pk = some addr → there id = true ∧ addr = wg.address := by
    intro addr hpeer
    cases hthere : there id with
    | false => rw [h.peer_eq_none hkeys hc hserves hthere hwg hpk] at hpeer; cases hpeer
    | true =>
        have hmine := (h.peers hin pk wg.address).mpr
          ⟨id, c.core, wg, hthere, hc, (Conn.core_wg c).trans hwg, hpk, rfl⟩
        rw [hmine] at hpeer
        exact ⟨rfl, (Option.some.inj hpeer).symm⟩
  have hmem : ∀ id', (s.add id ((c.asMessage act id).toBase (.wireguard wg) g.now)).memory id' =
      if id' = id then some ((s.memory id).getD ((c.asMessage act id).toBase c.proto g.now))
      else s.memory id' := by
    intro id'
    rw [NodeState.memory_add, hproto]
  have husers : ∀ id' tag, tag ∈ inbounds → tag.isXray = true → s.users (id', tag) =
      if id' = id ∧ tag = c.proto.proto then some c.proto.password else s.users (id', tag) := by
    intro id' tag _ hxray
    rw [if_neg]
    rintro ⟨-, rfl⟩
    rw [hproto] at hxray
    cases hxray
  have hkey : ∀ {pk' addr}, (∃ wg', c.proto.wg = some wg' ∧ ctx.pubkey wg'.keys = .ok pk' ∧
      wg'.address = addr) ↔ pk' = pk ∧ addr = wg.address := by
    intro pk' addr
    constructor
    · rintro ⟨wg', hwg', hpk', rfl⟩
      obtain rfl := Option.some.inj (hwg.symm.trans hwg')
      exact ⟨Except.ok.inj (hpk'.symm.trans hpk), rfl⟩
    · rintro ⟨rfl, rfl⟩
      exact ⟨wg, hwg, hpk, rfl⟩
  rw [createWg_of_client (hequip.wg hin) (show (c.asMessage act id).wg = some wg from hwg) hpk hok]
  split_ifs with hexists
  · obtain ⟨addr, hpeer⟩ := Option.isSome_iff_exists.mp (Bool.and_eq_true_iff.mp hexists).2
    obtain ⟨hthere, rfl⟩ := hvalue addr hpeer
    refine ⟨h.appears hc hserves hmem (fun _ pk' addr' => ?_) husers, fun hnot => ?_⟩
    · rw [hkey]
      constructor
      · exact .inl
      · rintro (hold | ⟨rfl, rfl⟩)
        · exact hold
        · exact hpeer
    · rw [hthere] at hnot
      cases hnot
  · refine ⟨h.appears hc hserves hmem (fun _ pk' addr' => ?_) husers, fun _ => rfl⟩
    rw [hkey]
    show Function.update s.peers pk (some wg.address) pk' = some addr' ↔ _
    rw [Function.update_apply]
    split_ifs with hpk'
    · subst hpk'
      constructor
      · intro haddr
        exact .inr ⟨rfl, (Option.some.inj haddr).symm⟩
      · rintro (hold | ⟨-, rfl⟩)
        · rw [(hvalue addr' hold).2]
        · rfl
    · simp [hpk']

/-- A creation or an update of an Xray connection. -/
lemma NodeMirror.createXray (h : NodeMirror ctx inbounds env there core s)
    (hequip : Equipped ctx inbounds) (hc : Known core id c)
    (hserves : nodeServes inbounds env c = true) (hxray : c.proto.proto.isXray = true)
    (hok : g.ok = true) :
    NodeMirror ctx inbounds env (afterward id true there) core
        (Fcore.createXray ctx (c.asMessage act id) c.proto c.proto.password g s).1 ∧
      (Fcore.createXray ctx (c.asMessage act id) c.proto c.proto.password g s).2.isOk = true := by
  have hclient := hequip.xray _ (serves_node hserves).2.2 hxray
  have hnone : c.proto.wg = none := by
    cases hwg : c.proto.wg with
    | none => rfl
    | some wg =>
        rw [Proto.eq_of_wg hwg] at hxray
        cases hxray
  rw [Fcore.createXray, hclient, hok]
  have hmem : ∀ id', (((Request.addUser id c.proto.proto c.proto.password).land s).add id
      ((c.asMessage act id).toBase c.proto g.now)).memory id' =
      if id' = id then some ((s.memory id).getD ((c.asMessage act id).toBase c.proto g.now))
      else s.memory id' := fun id' => NodeState.memory_add _ id _ id'
  refine ⟨h.appears hc hserves hmem (fun _ pk addr => ?_) fun id' tag _ _ => ?_, rfl⟩
  · rw [hnone]
    simp only [reduceCtorEq, false_and, exists_false, or_false]
    rfl
  · show Function.update s.users (id, c.proto.proto) (some c.proto.password) (id', tag) = _
    rw [Function.update_apply]
    simp only [Prod.mk.injEq]

/-- A deletion of a WireGuard connection. -/
lemma NodeMirror.deleteWg (h : NodeMirror ctx inbounds env there core s)
    (hequip : Equipped ctx inbounds) (hkeys : (Service.node ctx inbounds env 0).KeysApart core)
    (hc : Known core id c) (hserves : nodeServes inbounds env c = true) {wg : WgParam}
    (hproto : c.proto = .wireguard wg) (hok : g.ok = true) :
    NodeMirror ctx inbounds env (afterward id false there) core
      (Fcore.deleteWg ctx (c.asMessage act id) g s).1 := by
  have hwg : c.proto.wg = some wg := by rw [hproto]; rfl
  have hin : .wireguard ∈ inbounds := by
    have hin := (serves_node hserves).2.2
    rwa [hproto] at hin
  obtain ⟨⟨pk, hpk⟩, -⟩ := hkeys hc ((Conn.core_wg c).trans hwg)
  have hmsg : (c.asMessage act id).wg = some wg := hwg
  simp only [Fcore.deleteWg, hequip.wg hin, hmsg, hpk, hok, if_true]
  refine h.leaves hc (fun id' => Function.update_apply ..) (fun _ pk' addr => ?_)
    (fun id' tag _ hxray => ?_) hkeys
  · show Function.update s.peers pk none pk' = some addr ↔ _
    rw [Function.update_apply]
    split_ifs with hpk'
    · subst hpk'
      simp only [false_iff, not_and, not_forall, not_not]
      exact fun _ => ⟨wg, hwg, hpk⟩
    · refine ⟨fun hold => ⟨hold, fun wg' hwg' hpk'' => hpk' ?_⟩, fun hand => hand.1⟩
      obtain rfl := Option.some.inj (hwg.symm.trans hwg')
      exact Except.ok.inj (hpk''.symm.trans hpk)
  · refine Eq.symm (if_neg ?_)
    rintro ⟨-, rfl⟩
    rw [hproto] at hxray
    cases hxray

/-- A deletion of an Xray connection. -/
lemma NodeMirror.removeXray (h : NodeMirror ctx inbounds env there core s)
    (hequip : Equipped ctx inbounds) (hkeys : (Service.node ctx inbounds env 0).KeysApart core)
    (hc : Known core id c) (hserves : nodeServes inbounds env c = true)
    (hxray : c.proto.proto.isXray = true) (hok : g.ok = true) :
    NodeMirror ctx inbounds env (afterward id false there) core
      (Fcore.removeXray ctx (c.asMessage act id) g s).1 := by
  have hclient := hequip.xray _ (serves_node hserves).2.2 hxray
  have hnone : ∀ wg, c.proto.wg ≠ some wg := by
    intro wg hwg
    rw [Proto.eq_of_wg hwg] at hxray
    cases hxray
  rw [Fcore.removeXray, hclient, hok]
  refine h.leaves hc (fun id' => Function.update_apply ..) (fun _ pk addr => ?_)
    (fun id' tag _ _ => ?_) hkeys
  · exact ⟨fun hold => ⟨hold, fun wg hwg => absurd hwg (hnone wg)⟩, fun hand => hand.1⟩
  · show Function.update s.users (id, c.proto.proto) none (id', tag) = _
    rw [Function.update_apply]
    simp only [Prod.mk.injEq]

/-- The handling of the message of a served connection is that of its protocol. -/
lemma handleMessage_served (ctx : NodeCtx) (id : Uuid) (g : Given) (s : NodeState)
    (hnode : c.proto.onNode = true) (hact : act ≠ .resetStat) :
    (∃ wg, c.proto = .wireguard wg ∧ handleMessage ctx (c.asMessage act id) g s =
      if act = .delete then deleteWg ctx (c.asMessage act id) g s
      else createWg ctx (c.asMessage act id) g s) ∨
    c.proto.proto.isXray = true ∧ handleMessage ctx (c.asMessage act id) g s =
      if act = .delete then removeXray ctx (c.asMessage act id) g s
      else createXray ctx (c.asMessage act id) c.proto c.proto.password g s := by
  obtain ⟨env, proto, sub, created, modified, expires, del⟩ := c
  cases proto with
  | wireguard wg =>
      refine .inl ⟨wg, rfl, ?_⟩
      cases act with
      | resetStat => exact absurd rfl hact
      | create | update | delete => rfl
  | shadowsocks password =>
      refine .inr ⟨rfl, ?_⟩
      cases act with
      | resetStat => exact absurd rfl hact
      | create | update => rfl
      | delete => exact if_neg (by simp [Conn.asMessage, Proto.password])
  | xray tag =>
      refine .inr ?_
      cases tag with
      | shadowsocks | wireguard | hysteria2 | mtproto => exact absurd hnode Bool.false_ne_true
      | _ =>
          refine ⟨rfl, ?_⟩
          cases act with
          | resetStat => exact absurd rfl hact
          | create | update | delete => rfl
  | hysteria2 token => exact absurd hnode Bool.false_ne_true
  | mtproto secret => exact absurd hnode Bool.false_ne_true

/-- **A message keeps the mirror**, the connection being there afterwards or not as the
message tells. -/
lemma NodeMirror.told (h : NodeMirror ctx inbounds env there core s)
    (hequip : Equipped ctx inbounds) (hkeys : (Service.node ctx inbounds env 0).KeysApart core)
    (htagged : c.proto.wellTagged = true) (hc : Known core id c) (henv : c.env = env)
    (hact : act ≠ .resetStat) (hok : c.proto.proto ∈ inbounds → g.ok = true) :
    NodeMirror ctx inbounds env
        (fun id' => if id' = id ∧ nodeServes inbounds env c = true then act.tells (there id)
          else there id') core (handleMessage ctx (c.asMessage act id) g s).1 ∧
      (nodeServes inbounds env c = true → act = .create → there id = false →
        (handleMessage ctx (c.asMessage act id) g s).2.isOk = true) := by
  cases hserves : nodeServes inbounds env c with
  | false =>
      simp only [Bool.false_eq_true, and_false, if_false, false_implies, and_true]
      exact h.foreign htagged hc henv hserves (footprint_handleMessage hact htagged)
  | true =>
      have hok' := hok (serves_node hserves).2.2
      have hafter : ∀ v, act.tells (there id) = v →
          (fun id' => if id' = id ∧ true = true then act.tells (there id) else there id') =
            afterward id v there := by
        rintro v rfl
        funext id'
        simp only [and_true, afterward, Function.update_apply]
      rcases handleMessage_served ctx id g s (serves_node hserves).2.1 hact with
        ⟨wg, hproto, heq⟩ | ⟨hxray, heq⟩
      · cases act with
        | resetStat => exact absurd rfl hact
        | create =>
            rw [heq, if_neg (by decide), hafter true rfl]
            obtain ⟨hmirror, hfine⟩ := h.createWg hequip hkeys hc hserves hproto hok'
            exact ⟨hmirror, fun _ _ => hfine⟩
        | update =>
            rw [heq, if_neg (by decide), hafter true rfl]
            exact ⟨(h.createWg hequip hkeys hc hserves hproto hok').1, fun _ hne => by cases hne⟩
        | delete =>
            rw [heq, if_pos rfl, hafter false rfl]
            exact ⟨h.deleteWg hequip hkeys hc hserves hproto hok', fun _ hne => by cases hne⟩
      · cases act with
        | resetStat => exact absurd rfl hact
        | create =>
            rw [heq, if_neg (by decide), hafter true rfl]
            obtain ⟨hmirror, hfine⟩ := h.createXray hequip hc hserves hxray hok'
            exact ⟨hmirror, fun _ _ _ => hfine⟩
        | update =>
            rw [heq, if_neg (by decide), hafter true rfl]
            exact ⟨(h.createXray hequip hc hserves hxray hok').1, fun _ hne => by cases hne⟩
        | delete =>
            rw [heq, if_pos rfl, hafter false rfl]
            exact ⟨h.removeXray hequip hkeys hc hserves hxray hok', fun _ hne => by cases hne⟩

/-! ### Batches -/

/-- A batch of one message. -/
lemma handleMessagesBatch_singleton {it : Item} {s' : NodeState}
    (h : HandleMessagesBatch ctx [it] s s') (hact : it.1.action ≠ .resetStat) :
    s' = (handleMessage ctx it.1 it.2 s).1 := by
  have hreset : isReset it = false := by simpa [isReset] using hact
  have hresets : resets ctx [it] = [] :=
    List.filter_eq_nil_iff.mpr fun it' hit' => by
      rw [List.mem_singleton.mp (List.mem_of_mem_filter hit'), hreset]
      exact Bool.false_ne_true
  obtain ⟨reqs, hreqs, rfl⟩ := h
  cases hwaits : waits ctx it with
  | false =>
      have hstop : stop ctx [it] s = ⟨(handle ctx it s).1, inFlight ctx []⟩ ∨
          stop ctx [it] s = ⟨(handle ctx it s).1, [[]]⟩ := by
        cases hok : (handle ctx it s).2 with
        | false =>
            refine .inl ?_
            have hfirst : FirstFailure (handle ctx) (waits ctx) [it] s [] it [] :=
              ⟨rfl, hwaits, trivial, hok⟩
            rw [stop_of_firstPoll hfirst]
            rfl
        | true =>
            refine .inr ?_
            have himm : immediate ctx [it] = [it] := by simp [immediate, hwaits]
            have hhandlers : handlers ctx [it] = [] := by simp [handlers, waiting, hwaits]
            rw [stop_of_noFailure (by rw [himm]; exact ⟨hok, trivial⟩)
              (by rw [hhandlers]; exact trivial), himm, hhandlers, hresets]
            rfl
      rcases hstop with hstop | hstop
      · rw [hstop] at hreqs ⊢
        have hnil : reqs = [] := by simpa [inFlight, handlers, resets, waiting] using hreqs
        rw [hnil]
        rfl
      · rw [hstop] at hreqs ⊢
        rw [List.mem_singleton.mp hreqs]
        rfl
  | true =>
      have himm : immediate ctx [it] = [] := by simp [immediate, hwaits]
      have hhandlers : handlers ctx [it] = [it] := by simp [handlers, waiting, hwaits, hreset]
      have hstop : stop ctx [it] s = ⟨(handle ctx it s).1, [[]]⟩ := by
        cases hok : (handle ctx it s).2 with
        | false =>
            have hfirst : FirstFailure (handle ctx) (fun _ => false) (handlers ctx [it])
                (handleEach ctx (immediate ctx [it]) s) [] it [] := by
              rw [hhandlers, himm]
              exact ⟨rfl, rfl, trivial, hok⟩
            have hpartly : partlyReset ctx [it] = [[]] := by rw [partlyReset, hresets]; rfl
            rw [stop_of_answer (by rw [himm]; exact trivial) hfirst, himm, hpartly]
            rfl
        | true =>
            rw [stop_of_noFailure (by rw [himm]; exact trivial)
              (by rw [hhandlers, himm]; exact ⟨hok, trivial⟩), himm, hhandlers, hresets]
            rfl
      rw [hstop] at hreqs ⊢
      rw [List.mem_singleton.mp hreqs]
      rfl

/-- The creation of a connection that the node serves and that is not there, with calls that
go through. -/
structure Arrival (inbounds : List Tag) (env : Env) (core : Uuid → Option Conn)
    (there : Uuid → Bool) (it : Item) : Prop where
  conn : ∃ c, it.1 = c.asMessage .create it.1.connId ∧ Known core it.1.connId c ∧
    c.proto.wellTagged = true ∧ nodeServes inbounds env c = true
  new : there it.1.connId = false
  ok : it.2.ok = true

/-- Creations one after the other. -/
lemma NodeMirror.arrivals {items : List Item} (h : NodeMirror ctx inbounds env there core s)
    (hequip : Equipped ctx inbounds) (hkeys : (Service.node ctx inbounds env 0).KeysApart core)
    (hitems : ∀ it ∈ items, Arrival inbounds env core there it)
    (hnodup : (items.map fun it => it.1.connId).Nodup) :
    AllOk (handle ctx) items s ∧ NodeMirror ctx inbounds env
      (fun id => there id || (items.map fun it => it.1.connId).contains id) core
      (handleEach ctx items s) := by
  induction items generalizing there s with
  | nil =>
      refine ⟨trivial, ?_⟩
      have hsame :
          (fun id => there id || (List.map (fun it : Item => it.1.connId) []).contains id) =
          there := funext fun id => by simp
      rw [hsame]
      exact h
  | cons it items ih =>
      rw [List.map_cons, List.nodup_cons] at hnodup
      have harrival := hitems it List.mem_cons_self
      obtain ⟨c, hmsg, hc, htagged, hserves⟩ := harrival.conn
      obtain ⟨hmirror, hfine⟩ := h.told (g := it.2) hequip hkeys htagged hc (serves_node hserves).1
        (show Action.create ≠ .resetStat by decide) fun _ => harrival.ok
      rw [← hmsg] at hmirror hfine
      have hrest := ih hmirror (fun it' hit' => ?_) hnodup.2
      · refine ⟨⟨hfine hserves rfl harrival.new, hrest.1⟩, ?_⟩
        have hsame : (fun id => (if id = it.1.connId ∧ nodeServes inbounds env c = true then
            Action.create.tells (there it.1.connId) else there id) ||
              (items.map fun it => it.1.connId).contains id) =
            fun id => there id || ((it :: items).map fun it => it.1.connId).contains id := by
          funext id
          by_cases hid : id = it.1.connId
          · simp [hid, hserves, Action.tells]
          · have hbeq : (id == it.1.connId) = false := beq_eq_false_iff_ne.mpr hid
            simp [hid, hbeq]
        rw [hsame] at hrest
        exact hrest.2
      · have hother := hitems it' (List.mem_cons_of_mem it hit')
        refine ⟨hother.conn, ?_, hother.ok⟩
        rw [if_neg, hother.new]
        rintro ⟨heq, -⟩
        exact hnodup.1 (heq ▸ List.mem_map_of_mem hit')

/-- **A batch of creations** of connections that are not there brings all of them. -/
lemma NodeMirror.batch {items : List Item} (h : NodeMirror ctx inbounds env there core s)
    (hequip : Equipped ctx inbounds) (hkeys : (Service.node ctx inbounds env 0).KeysApart core)
    (hitems : ∀ it ∈ items, Arrival inbounds env core there it)
    (hnodup : (items.map fun it => it.1.connId).Nodup) {s' : NodeState}
    (hbatch : HandleMessagesBatch ctx items s s') :
    NodeMirror ctx inbounds env
      (fun id => there id || (items.map fun it => it.1.connId).contains id) core s' := by
  have hreset : ∀ it ∈ items, isReset it = false := by
    intro it hit
    obtain ⟨c, hmsg, -⟩ := (hitems it hit).conn
    rw [isReset, hmsg]
    rfl
  have hresets : resets ctx items = [] :=
    List.filter_eq_nil_iff.mpr fun it hit => by
      rw [hreset it (List.mem_of_mem_filter hit)]
      exact Bool.false_ne_true
  have hhandlers : handlers ctx items = waiting ctx items :=
    List.filter_eq_self.mpr fun it hit => by rw [hreset it (List.mem_of_mem_filter hit)]; rfl
  -- the messages at hand come first
  have hperm : (immediate ctx items ++ waiting ctx items).Perm items := by
    have hsplit := List.filter_append_perm (waits ctx) items
    exact List.perm_append_comm.trans hsplit
  have hids := hperm.map fun it => it.1.connId
  obtain ⟨hall, hmirror⟩ := h.arrivals hequip hkeys
    (fun it hit => hitems it (hperm.mem_iff.mp hit)) (hids.nodup_iff.mpr hnodup)
  obtain ⟨hpoll, hanswer⟩ := allOk_append.mp hall
  obtain ⟨reqs, hreqs, rfl⟩ := hbatch
  rw [← hhandlers] at hanswer
  rw [stop_of_noFailure hpoll hanswer] at hreqs ⊢
  rw [List.mem_singleton.mp hreqs, hhandlers, hresets, List.append_nil]
  have hsame : (fun id => there id || ((immediate ctx items ++ waiting ctx items).map
      fun it => it.1.connId).contains id) =
      fun id => there id || (items.map fun it => it.1.connId).contains id := by
    funext id
    congr 1
    rw [Bool.eq_iff_iff, List.contains_iff_mem, List.contains_iff_mem, hids.mem_iff]
  rw [hsame] at hmirror
  exact hmirror

end Node

end Fcore
