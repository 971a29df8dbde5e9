import Fcore.Runs.Mirrors

/-!
A reboot of a node: the host comes back without peers and users, and the node loads its
snapshot (`load_snapshot`, `restore_wg_connections`, `restore_xray_connections`).

* `Backed`: the peers and the users of a node are those of its memory;
* `NodeMirror.backed`: a node that follows the API is backed;
* `users_restoreConnections`, `peers_restoreConnections`: what the restoration does, its calls
  ending in any order;
* `reboot_restores_node`: after a reboot on a snapshot of its memory a node has the peers and
  users that it had, except of the connections whose calls fail.
-/

namespace Fcore

/-! ### Nodes whose backends follow the memory -/

/-- The user that Xray is given for a connection of the memory. -/
def Base.xrayUser (b : Base) (tag : Tag) : Option (Option String) :=
  if b.proto.proto = tag then some b.proto.password else none

/-- A connection of the memory has a public key and an address. -/
def PeerOf (ctx : NodeCtx) (b : Base) (pk : String) (addr : IpAddrMask) : Prop :=
  ∃ wg, b.proto.wg = some wg ∧ ctx.pubkey wg.keys = .ok pk ∧ wg.address = addr

/-- The peers and users of a node are those of its memory, as far as its inbounds go, and no two
connections of the memory share a key. -/
structure Backed (ctx : NodeCtx) (inbounds : List Tag) (s : NodeState) : Prop where
  users : ∀ id, ∀ tag ∈ inbounds, tag.isXray = true →
    s.users (id, tag) = (s.memory id).bind fun b => b.xrayUser tag
  peers : .wireguard ∈ inbounds → ∀ pk addr, s.peers pk = some addr ↔
    ∃ id b, s.memory id = some b ∧ PeerOf ctx b pk addr
  apart : ∀ {id id' b b' pk addr addr'}, s.memory id = some b → s.memory id' = some b' →
    PeerOf ctx b pk addr → PeerOf ctx b' pk addr' → id = id'

/-- **A node that follows the API is backed.** -/
lemma NodeMirror.backed {ctx : NodeCtx} {inbounds : List Tag} {env : Env} {there : Uuid → Bool}
    {core : Uuid → Option Conn} {s : NodeState} (h : NodeMirror ctx inbounds env there core s)
    (hkeys : (Service.node ctx inbounds env 0).KeysApart core) : Backed ctx inbounds s := by
  have hproto : ∀ {id b}, s.memory id = some b → ∃ c, core id = some c ∧ c.env = env ∧
      c.proto.onNode = true ∧ b.proto = c.proto := by
    intro id b hb
    obtain ⟨c, hc, henv, hnode, hsame⟩ := h.kept hb
    exact ⟨c, hc, henv, hnode, congrArg Kept.proto hsame⟩
  refine ⟨fun id tag htag hxray => ?_, fun hwg pk addr => ?_, ?_⟩
  · rw [h.users id tag htag hxray]
    cases hmem : s.memory id with
    | none =>
        rw [if_neg]
        · rfl
        · intro hthere
          obtain ⟨c, hc, hserves⟩ := h.real hthere
          have hsome := (h.held hc hserves).mpr hthere
          rw [hmem] at hsome
          cases hsome
    | some b =>
        obtain ⟨c, hc, henv, hnode, hb⟩ := hproto hmem
        rw [hc, Option.bind_some, Option.bind_some, Conn.xrayUser, Base.xrayUser, hb]
        by_cases hsame : c.proto.proto = tag
        · have hserves : nodeServes inbounds env c = true := by
            simp [nodeServes, henv, hnode, hsame, htag]
          have hthere := (h.held hc hserves).mp (by rw [hmem]; rfl)
          rw [if_pos hthere]
        · rw [if_neg hsame, ite_self]
  · rw [h.peers hwg pk addr]
    constructor
    · rintro ⟨id, c, wg, hthere, hc, hwg', hpk, haddr⟩
      obtain ⟨c', hc', hserves⟩ := h.real hthere
      obtain rfl := Option.some.inj (hc.symm.trans hc')
      obtain ⟨b, hb⟩ := Option.isSome_iff_exists.mp ((h.held hc hserves).mpr hthere)
      obtain ⟨c', hc', -, -, hsame⟩ := hproto hb
      obtain rfl := Option.some.inj (hc.symm.trans hc')
      exact ⟨id, b, hb, wg, hsame ▸ hwg', hpk, haddr⟩
    · rintro ⟨id, b, hb, wg, hwg', hpk, haddr⟩
      obtain ⟨c, hc, henv, hnode, hsame⟩ := hproto hb
      rw [hsame] at hwg'
      have hserves : nodeServes inbounds env c = true := by
        rw [nodeServes, henv, hnode, Proto.eq_of_wg hwg']
        simp [Proto.proto, hwg]
      exact ⟨id, c, wg, (h.held hc hserves).mp (by rw [hb]; rfl), hc, hwg', hpk, haddr⟩
  · rintro id id' b b' pk addr addr' hb hb' ⟨wg, hwg, hpk, -⟩ ⟨wg', hwg', hpk', -⟩
    obtain ⟨c, hc, -, -, hsame⟩ := hproto hb
    obtain ⟨c', hc', -, -, hsame'⟩ := hproto hb'
    exact (hkeys hc (hsame ▸ hwg)).2 hc' (hsame' ▸ hwg') (hpk.trans hpk'.symm)

/-! ### The restoration -/

section Restoration

variable {ctx : NodeCtx} {s : NodeState}

/-- Xray is given the password of a connection. -/
lemma password_of_isXray {p : Proto} (h : p.proto.isXray = true) :
    (if p.proto = .shadowsocks then p.password else none) = p.password := by
  cases p with
  | shadowsocks password => rfl
  | wireguard | xray | hysteria2 | mtproto => exact ite_self _

/-- One connection: its user is there after a call that goes through, and the others as before. -/
lemma users_restoreOne {id id' : Uuid} {b : Base} {ok : Bool} {tag : Tag}
    (hclient : ctx.handlerClient = true) (hxray : tag.isXray = true) :
    (restoreXrayConnection ctx id b ok (restoreWgConnection ctx b ok s)).users (id', tag) =
      if id' = id ∧ b.proto.proto = tag ∧ ok = true then some b.proto.password
      else s.users (id', tag) := by
  have hwg : (restoreWgConnection ctx b ok s).users = s.users := by
    rw [restoreWgConnection]
    cases b.proto.wg with
    | none => rfl
    | some wg =>
        cases hkey : ctx.pubkey wg.keys with
        | error e => simp only [hkey, ite_self]
        | ok pk =>
            simp only [hkey]
            split_ifs
            · rfl
            · rfl
            · rfl
  rw [restoreXrayConnection, hclient, Bool.and_true]
  by_cases hcall : (b.proto.proto.isXray && ok) = true
  · rw [if_pos hcall]
    by_cases hboth : id' = id ∧ b.proto.proto = tag ∧ ok = true
    · obtain ⟨rfl, rfl, hok⟩ := hboth
      rw [if_pos (And.intro rfl (And.intro rfl hok))]
      exact (Function.update_self (id', b.proto.proto) _ _).trans
        (congrArg some (password_of_isXray hxray))
    · rw [if_neg hboth, ← hwg]
      refine Function.update_of_ne (fun heq => hboth ?_) _ _
      obtain ⟨hid, htag⟩ := Prod.mk.inj heq
      exact ⟨hid, htag.symm, (Bool.and_eq_true_iff.mp hcall).2⟩
  · rw [if_neg hcall, if_neg, hwg]
    rintro ⟨-, htag, hok⟩
    rw [htag, hxray, hok] at hcall
    exact hcall rfl

/-- **The users after the restoration**: those of the connections whose call goes through, next
to what has been there. -/
lemma users_restoreConnections {calls : List (Uuid × Bool)} {id : Uuid} {tag : Tag}
    (hclient : ctx.handlerClient = true) (hxray : tag.isXray = true) :
    (restoreConnections ctx calls s).users (id, tag) =
      (if (id, true) ∈ calls then (s.memory id).bind fun b => b.xrayUser tag else none).or
        (s.users (id, tag)) := by
  rw [restoreConnections]
  induction calls generalizing s with
  | nil => rfl
  | cons call calls ih =>
      obtain ⟨id', ok⟩ := call
      rw [List.foldl_cons, ih]
      cases hmem : s.memory id' with
      | none =>
          -- nothing is listed under this id
          have hone : (if (id, true) ∈ (id', ok) :: calls then
              (s.memory id).bind fun b => b.xrayUser tag else none) =
              if (id, true) ∈ calls then (s.memory id).bind fun b => b.xrayUser tag else none := by
            by_cases hid : id = id'
            · subst hid
              rw [hmem, Option.bind_none, ite_self, ite_self]
            · simp [hid]
          rw [hone]
      | some b =>
          dsimp only
          rw [restoreXrayConnection_memory, restoreWgConnection_memory,
            users_restoreOne hclient hxray]
          by_cases hid : id = id'
          · subst hid
            rw [hmem, Option.bind_some, Base.xrayUser]
            by_cases htag : b.proto.proto = tag
            · cases ok with
              | true =>
                  by_cases hin : (id, true) ∈ calls
                  · simp [htag, hin]
                  · simp [htag, hin]
              | false => simp
            · simp [htag]
          · simp [hid]

/-- One connection: its peer is there after a call that goes through, and the others as
before. -/
lemma peers_restoreOne (id : Uuid) {b : Base} (ok : Bool) (hclient : ctx.wgClient = true)
    (pk : String) (addr : IpAddrMask)
    (hsame : ∀ {addr addr'}, PeerOf ctx b pk addr → s.peers pk = some addr' → addr = addr') :
    (restoreXrayConnection ctx id b ok (restoreWgConnection ctx b ok s)).peers pk = some addr ↔
      s.peers pk = some addr ∨ ok = true ∧ PeerOf ctx b pk addr := by
  have hxray : (restoreXrayConnection ctx id b ok (restoreWgConnection ctx b ok s)).peers =
      (restoreWgConnection ctx b ok s).peers := by
    rw [restoreXrayConnection]
    split <;> rfl
  rw [hxray, restoreWgConnection]
  cases hwg : b.proto.wg with
  | none => simp [PeerOf, hwg]
  | some wg =>
      cases hkey : ctx.pubkey wg.keys with
      | error e => simp [PeerOf, hwg, hkey]
      | ok pk' =>
          simp only [hclient, hkey, Bool.not_true, Bool.false_eq_true, if_false]
          have hpeer : ∀ addr, PeerOf ctx b pk addr ↔ pk' = pk ∧ wg.address = addr := by
            intro addr
            simp [PeerOf, hwg, hkey]
          cases ok with
          | false => simp
          | true =>
              rw [if_pos rfl]
              show Function.update s.peers pk' (some wg.address) pk = some addr ↔ _
              rw [Function.update_apply]
              split_ifs with hpk
              · -- what may have been there is the same peer
                have hnew : PeerOf ctx b pk wg.address := (hpeer _).mpr ⟨hpk.symm, rfl⟩
                constructor
                · rintro heq
                  obtain rfl := Option.some.inj heq
                  exact .inr ⟨rfl, hnew⟩
                · rintro (hold | ⟨-, haddr⟩)
                  · rw [hsame hnew hold]
                  · rw [((hpeer _).mp haddr).2]
              · constructor
                · exact .inl
                · rintro (hold | ⟨-, haddr⟩)
                  · exact hold
                  · exact absurd ((hpeer _).mp haddr).1.symm hpk

/-- **The peers after the restoration**, on an interface with peers of the memory at most. -/
lemma peers_restoreConnections {calls : List (Uuid × Bool)} (hclient : ctx.wgClient = true)
    (hapart : ∀ {id id' b b' pk addr addr'}, s.memory id = some b → s.memory id' = some b' →
      PeerOf ctx b pk addr → PeerOf ctx b' pk addr' → id = id')
    (hold : ∀ {pk addr}, s.peers pk = some addr →
      ∃ id b, s.memory id = some b ∧ PeerOf ctx b pk addr)
    (pk : String) (addr : IpAddrMask) :
    (restoreConnections ctx calls s).peers pk = some addr ↔ s.peers pk = some addr ∨
      ∃ id b, (id, true) ∈ calls ∧ s.memory id = some b ∧ PeerOf ctx b pk addr := by
  rw [restoreConnections]
  induction calls generalizing s with
  | nil => simp
  | cons call calls ih =>
      obtain ⟨id', ok⟩ := call
      rw [List.foldl_cons]
      cases hmem : s.memory id' with
      | none =>
          rw [ih hapart hold]
          refine or_congr_right ⟨?_, ?_⟩
          · rintro ⟨id, b, hin, hb, hpeer⟩
            exact ⟨id, b, List.mem_cons_of_mem _ hin, hb, hpeer⟩
          · rintro ⟨id, b, hin, hb, hpeer⟩
            rcases List.mem_cons.mp hin with heq | hin
            · rw [(Prod.mk.inj heq).1, hmem] at hb
              cases hb
            · exact ⟨id, b, hin, hb, hpeer⟩
      | some b =>
          dsimp only
          have hmem₁ :
              (restoreXrayConnection ctx id' b ok (restoreWgConnection ctx b ok s)).memory =
              s.memory := by
            rw [restoreXrayConnection_memory, restoreWgConnection_memory]
          -- a key belongs to one connection, and so to one address
          have hone : ∀ {pk addr addr'}, PeerOf ctx b pk addr → s.peers pk = some addr' →
              addr = addr' := by
            intro pk addr addr' hpeer hthere
            obtain ⟨id, b₁, hb₁, hpeer₁⟩ := hold hthere
            obtain rfl := hapart hmem hb₁ hpeer hpeer₁
            obtain rfl := Option.some.inj (hmem.symm.trans hb₁)
            obtain ⟨wg, hwg, -, rfl⟩ := hpeer
            obtain ⟨wg₁, hwg₁, -, rfl⟩ := hpeer₁
            rw [Option.some.inj (hwg.symm.trans hwg₁)]
          have hstep := fun pk addr => peers_restoreOne id' ok hclient pk addr
            (fun {_ _} => hone)
          rw [ih, hstep, hmem₁, or_assoc]
          · refine or_congr_right ⟨?_, ?_⟩
            · rintro (⟨rfl, hpeer⟩ | ⟨id, b₁, hin, hb₁, hpeer⟩)
              · exact ⟨id', b, List.mem_cons_self, hmem, hpeer⟩
              · exact ⟨id, b₁, List.mem_cons_of_mem _ hin, hb₁, hpeer⟩
            · rintro ⟨id, b₁, hin, hb₁, hpeer⟩
              rcases List.mem_cons.mp hin with heq | hin
              · obtain ⟨rfl, rfl⟩ := Prod.mk.inj heq
                obtain rfl := Option.some.inj (hmem.symm.trans hb₁)
                exact .inl ⟨rfl, hpeer⟩
              · exact .inr ⟨id, b₁, hin, hb₁, hpeer⟩
          · rw [hmem₁]
            exact hapart
          · intro pk addr hthere
            rw [hmem₁]
            rcases (hstep pk addr).mp hthere with hthere | ⟨-, hpeer⟩
            · exact hold hthere
            · exact ⟨id', b, hmem, hpeer⟩

end Restoration

/-! ### The reboot -/

/-- The backends of a node that has been rebooted on a snapshot of its memory: those that they
were, except of the connections without a call that has gone through. -/
lemma Backed.reboot {ctx : NodeCtx} {inbounds : List Tag} {s host : NodeState}
    (h : Backed ctx inbounds s) (hequip : Equipped ctx inbounds)
    (hpeers : host.peers = fun _ => none) (husers : host.users = fun _ => none)
    (calls : List (Uuid × Bool)) :
    (∀ id, ∀ tag ∈ inbounds, tag.isXray = true →
      (restoreConnections ctx calls { host with memory := s.memory }).users (id, tag) =
        if (id, true) ∈ calls then s.users (id, tag) else none) ∧
      (.wireguard ∈ inbounds → ∀ pk addr,
        (restoreConnections ctx calls { host with memory := s.memory }).peers pk = some addr ↔
          s.peers pk = some addr ∧ ∃ id b, (id, true) ∈ calls ∧ s.memory id = some b ∧
            PeerOf ctx b pk addr) := by
  refine ⟨fun id tag htag hxray => ?_, fun hwg pk addr => ?_⟩
  · rw [users_restoreConnections (hequip.xray tag htag hxray) hxray, husers, Option.or_none,
      h.users id tag htag hxray]
  · rw [peers_restoreConnections (s := { host with memory := s.memory }) (hequip.wg hwg) h.apart,
      hpeers, h.peers hwg]
    · constructor
      · rintro (hnone | ⟨id, b, hin, hb, hpeer⟩)
        · cases hnone
        · exact ⟨⟨id, b, hb, hpeer⟩, id, b, hin, hb, hpeer⟩
      · rintro ⟨-, hcalled⟩
        exact .inr hcalled
    · intro pk addr hthere
      rw [hpeers] at hthere
      cases hthere

/-- **A reboot on a snapshot brings the backends back**: let a node have followed the API, and
let its host come back without peers and users.  When it has loaded a snapshot of its memory and
the restoration has ended, in any order and with any failures, memory and backends are as they
were, except that the connections without a call that has gone through have no user and no
peer. -/
theorem reboot_restores_node {ctx : NodeCtx} {inbounds : List Tag} {env : Env} {uuid : Uuid}
    {lower : String → String} {before after : List ApiOp} {w : World}
    {s : (Service.node ctx inbounds env uuid).steady.State} (host : NodeState)
    (h : Follows (.node ctx inbounds env uuid) lower before after w s)
    (hpeers : host.peers = fun _ => none) (husers : host.users = fun _ => none)
    (calls : List (Uuid × Bool)) (now : DateTime) :
    let s' := restoreConnections ctx calls
      { host with memory := (createSnapshot (NodeState.memory s) now).memory }
    s'.memory = NodeState.memory s ∧
      (∀ id, ∀ tag ∈ inbounds, tag.isXray = true → s'.users (id, tag) =
        if (id, true) ∈ calls then NodeState.users s (id, tag) else none) ∧
      (.wireguard ∈ inbounds → ∀ pk addr, s'.peers pk = some addr ↔
        NodeState.peers s pk = some addr ∧ ∃ id b, (id, true) ∈ calls ∧
          NodeState.memory s id = some b ∧ PeerOf ctx b pk addr) := by
  obtain ⟨x, core, hlive, hmirror⟩ := h.mirrors
  have hbacked : Backed ctx inbounds s := NodeMirror.backed hmirror hlive.keys
  exact ⟨restoreConnections_memory ctx calls _,
    hbacked.reboot h.equipped hpeers husers calls⟩

/-- The node of two inbounds has its peer again. -/
theorem reboot_restores_two_inbounds : ∃ w s s',
    Follows twoInbounds id (beforeStart.map Prod.fst) (afterStart.map Prod.fst) w s ∧
      s' = restoreConnections sampleNode [(2, true)] { NodeState.empty with
        memory := (createSnapshot (NodeState.memory s) 40000000000).memory } ∧
      ∃ addr, s'.peers "pOCSkrZRwni5dyxWn1+puxPZBrRqtoyd+dwrRAn4ogk=" = some addr := by
  have hcourse : (twoInboundsCourse.map fun w =>
      (twoInbounds.wanted w.memory 2).any fun k => k.proto.wg.any fun wg =>
        wg.keys.privkey == "AQEBAQEBAQEBAQEBAQEBAQEBAQEBAQEBAQEBAQEBAQE=") = some true := by
    decide +kernel
  obtain ⟨w, hw, hseen⟩ := Option.map_eq_some_iff.mp hcourse
  obtain ⟨k, hk, hwg⟩ := (Option.any_eq_true _ _).mp hseen
  obtain ⟨wg, hwg, hkey⟩ := (Option.any_eq_true _ _).mp hwg
  obtain ⟨s, hfollows⟩ := follows_twoInbounds hw
  have hview : ((NodeState.memory s 2).filter fun b =>
      [.vlessTcpReality, .wireguard].contains b.proto.proto).map Base.kept = some k :=
    (hfollows.view_eq 2).trans hk
  obtain ⟨b, hb, rfl⟩ := Option.map_eq_some_iff.mp hview
  have hheld := (Option.filter_eq_some_iff.mp hb).1
  have hpeer : PeerOf sampleNode b "pOCSkrZRwni5dyxWn1+puxPZBrRqtoyd+dwrRAn4ogk=" wg.address :=
    ⟨wg, hwg, if_pos (beq_iff_eq.mp hkey), rfl⟩
  obtain ⟨-, -, hpeers⟩ := reboot_restores_node NodeState.empty hfollows rfl rfl
    [(2, true)] 40000000000
  obtain ⟨x, core, hlive, hmirror⟩ := hfollows.mirrors
  have hbacked : Backed sampleNode [.vlessTcpReality, .wireguard] s :=
    NodeMirror.backed hmirror hlive.keys
  refine ⟨w, s, _, hfollows, rfl, wg.address, (hpeers (by decide) _ _).mpr ⟨?_, ?_⟩⟩
  · exact (hbacked.peers (by decide) _ _).mpr ⟨2, b, hheld, hpeer⟩
  · exact ⟨2, b, List.mem_singleton_self _, hheld, hpeer⟩

end Fcore
