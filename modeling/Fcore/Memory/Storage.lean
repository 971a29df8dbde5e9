import Fcore.Calculus.Table
import Fcore.Memory.Types

/-!
The storages of the memory and the WireGuard address arithmetic
(`src/memory/storage`, `src/memory/connection/wireguard.rs`).

* `incrementIpv4`, `IpAddrMask.firstPeerIp`, `IpAddrMask.containsIpv4`: address
  arithmetic on 32-bit words;
* `Connections.add`, `Connections.remove`, `Connections.getBySubscriptionId`,
  `Connections.getLastWgAddr`, `Connections.validateToken`: the connection storage;
* `Subscriptions.add`, `Subscriptions.findByReferCode`: the subscription storage;
* `nextWgAddress`: the address computation that both creating handlers make;
* `nextWgAddress_gt`: the computed address lies above every address in the
  memory.

An iteration over a hash map takes its order as an argument.
-/

namespace Fcore

open Calculus

/-! ### Address arithmetic -/

/-- `IpAddrMask::as_ipv4`. -/
def IpAddrMask.asIpv4 (m : IpAddrMask) : Option (BitVec 32) :=
  match m.address with
  | .v4 ip => some ip
  | .v6 _ => none

/-- `IpAddrMask::increment_ipv4`: `None` after the last address. -/
def incrementIpv4 (ip : BitVec 32) : Option (BitVec 32) :=
  if ip.toNat + 1 < 2 ^ 32 then some (ip + 1) else none

lemma toNat_incrementIpv4 {ip next : BitVec 32} (h : incrementIpv4 ip = some next) :
    next.toNat = ip.toNat + 1 := by
  rw [incrementIpv4] at h
  split_ifs at h with hlt
  rw [← Option.some.inj h, BitVec.toNat_add]
  exact Nat.mod_eq_of_lt hlt

/-- `IpAddrMask::contains_ipv4`.  The subtraction is on bytes and the shift takes
its amount modulo the word width, as in a release build. -/
def IpAddrMask.containsIpv4 (m : IpAddrMask) (ip : BitVec 32) : Bool :=
  match m.address with
  | .v4 base =>
      let mask : BitVec 32 :=
        if m.cidr = 0 then 0 else BitVec.allOnes 32 <<< ((32 - m.cidr).toNat % 32)
      base &&& mask == ip &&& mask
  | .v6 _ => false

/-- `IpAddrMask::first_ipv4`. -/
def IpAddrMask.firstIpv4 (m : IpAddrMask) : Option (BitVec 32) := m.asIpv4.bind incrementIpv4

/-- `IpAddrMask::first_peer_ip`. -/
def IpAddrMask.firstPeerIp (m : IpAddrMask) : Option (BitVec 32) :=
  m.firstIpv4.bind fun base =>
    (incrementIpv4 base).bind fun ip => if m.containsIpv4 ip then some ip else none

/-! ### Connections -/

/-- `Connections<C>`. -/
abbrev Connections (α : Type) := Table Uuid α

namespace Connections

/-- `add`: an existing entry stays as it is. -/
def add {α : Type} (t : Connections α) (id : Uuid) (c : α) :
    Connections α × Except Error Status :=
  (t.vacant id c, .ok (if (t.get id).isSome then .alreadyExist id else .ok id))

/-- `remove`. -/
def remove {α : Type} (t : Connections α) (id : Uuid) : Except Error (Connections α) :=
  match t.get id with
  | some _ => .ok (t.drop id)
  | none => .error (.custom "Conn not found")

/-- `get_by_subscription_id`; no connection at all is `None`. -/
def getBySubscriptionId (t : Connections Conn) (order : List Uuid) (sub : Uuid) :
    Option (List (Uuid × Conn)) :=
  let conns := (t.iter order).filter fun e => e.2.subscriptionId == some sub
  if conns.isEmpty then none else some conns

lemma mem_getBySubscriptionId {t : Connections Conn} {order : List Uuid} {sub id : Uuid}
    {c : Conn} :
    (id, c) ∈ (getBySubscriptionId t order sub).getD [] ↔
      t.get id = some c ∧ c.subscriptionId = some sub := by
  rw [getBySubscriptionId]
  set conns := (t.iter order).filter fun e => e.2.subscriptionId == some sub with hconns
  have hmem : (id, c) ∈ conns ↔ t.get id = some c ∧ c.subscriptionId = some sub := by
    rw [hconns, List.mem_filter, Table.mem_iter, beq_iff_eq]
  cases h : conns with
  | nil => simpa [h] using hmem
  | cons e es => simpa [h] using hmem

/-- The key of `get_last_wg_addr`: the IPv4 address as a number, `0` without one. -/
def wgKey (c : Conn) : ℕ :=
  match c.proto.wg.bind fun p => p.address.asIpv4 with
  | some ip => ip.toNat
  | none => 0

/-- `get_last_wg_addr`; of several maxima `max_by_key` takes the last. -/
def getLastWgAddr (t : Connections Conn) (order : List Uuid) : Option IpAddrMask :=
  let wgs := (t.iter order).filter fun e => e.2.proto.proto == .wireguard
  (List.argmax (fun e => wgKey e.2) wgs.reverse).bind fun e => e.2.proto.wg.map (·.address)

/-- `validate_token`: the connection of a Hysteria2 token, the first hit of the
iteration. -/
def validateToken (t : Connections Base) (order : List Uuid) (token : Uuid) : Option Uuid :=
  ((t.iter order).find? fun e => e.2.proto == .hysteria2 token).map Prod.fst

lemma validateToken_some {t : Connections Base} {order : List Uuid} {token id : Uuid}
    (h : t.validateToken order token = some id) :
    ∃ c, t.get id = some c ∧ c.proto = .hysteria2 token := by
  obtain ⟨⟨id', c⟩, hfind, rfl⟩ := Option.map_eq_some_iff.mp h
  refine ⟨c, Table.mem_iter.mp (List.mem_of_find?_eq_some hfind), ?_⟩
  simpa using List.find?_some hfind

/-- A token of one connection only is validated to that connection, in every order. -/
lemma validateToken_iff {t : Connections Base} {order : List Uuid} {token id : Uuid}
    (huniq : ∀ {id₁ id₂ : Uuid} {c₁ c₂ : Base}, t.get id₁ = some c₁ → c₁.proto = .hysteria2 token →
      t.get id₂ = some c₂ → c₂.proto = .hysteria2 token → id₁ = id₂) :
    t.validateToken order token = some id ↔
      ∃ c, t.get id = some c ∧ c.proto = .hysteria2 token := by
  refine ⟨validateToken_some, ?_⟩
  rintro ⟨c, hget, hproto⟩
  cases hvalid : t.validateToken order token with
  | none =>
      have hnone : (t.iter order).find? (fun e => e.2.proto == .hysteria2 token) = none :=
        Option.map_eq_none_iff.mp hvalid
      have hmiss := List.find?_eq_none.mp hnone (id, c) (Table.mem_iter.mpr hget)
      exact absurd hproto (by simpa using hmiss)
  | some id' =>
      obtain ⟨c', hget', hproto'⟩ := validateToken_some hvalid
      rw [huniq hget' hproto' hget hproto]

end Connections

/-- The IPv4 address of a WireGuard connection. -/
def Conn.wgIpv4 (c : Conn) : Option (BitVec 32) :=
  c.proto.wg.bind fun p => p.address.asIpv4

lemma Conn.proto_eq_wireguard {c : Conn} {ip : BitVec 32} (h : c.wgIpv4 = some ip) :
    c.proto.proto = .wireguard := by
  obtain ⟨env, proto, _, _, _, _, _⟩ := c
  cases proto <;> simp_all [wgIpv4, Proto.wg, Proto.proto]

@[simp] lemma Conn.setDeleted_wgIpv4 (c : Conn) (v : Bool) (now : DateTime) :
    (c.setDeleted v now).wgIpv4 = c.wgIpv4 := rfl

/-! ### Subscriptions -/

/-- `Subscriptions<S>`. -/
abbrev Subscriptions := Table Uuid Subscription

namespace Subscriptions

/-- `add`: a new subscription is inserted, a different one of the same id
replaced. -/
def add (t : Subscriptions) (s : Subscription) : Subscriptions × Status :=
  match t.get s.id with
  | some existing =>
      if existing = s then (t, .alreadyExist s.id) else (t.put s.id s, .updated s.id)
  | none => (t.put s.id s, .ok s.id)

lemma get_add (t : Subscriptions) (s : Subscription) (id : Uuid) :
    (add t s).1.get id = if id = s.id then some s else t.get id := by
  rw [add]
  cases hget : t.get s.id with
  | none => exact Table.get_put t s.id id s
  | some existing =>
      by_cases hsame : existing = s
      · subst hsame
        simp only [if_true]
        by_cases hid : id = existing.id
        · rw [if_pos hid, hid, hget]
        · rw [if_neg hid]
      · simp only [if_neg hsame]
        exact Table.get_put t s.id id s

/-- Subscriptions of pairwise different ids that are added one after another are all
kept. -/
lemma get_foldl_add {subs : List Subscription} (hsubs : (subs.map Subscription.id).Nodup)
    (t : Subscriptions) {id : Uuid} {s : Subscription} :
    (subs.foldl (fun t s => (add t s).1) t).get id = some s ↔
      s ∈ subs ∧ s.id = id ∨ id ∉ subs.map Subscription.id ∧ t.get id = some s := by
  induction subs generalizing t with
  | nil => simp
  | cons s' subs ih =>
      rw [List.map_cons, List.nodup_cons] at hsubs
      rw [List.foldl_cons, ih hsubs.2, get_add, List.map_cons, List.mem_cons, List.mem_cons]
      by_cases hid : id = s'.id
      · subst hid
        simp only [if_true, hsubs.1, not_false_eq_true, true_and, not_true_eq_false,
          false_and, or_false, Option.some.injEq]
        constructor
        · rintro (⟨hmem, heq⟩ | rfl)
          · exact ⟨Or.inr hmem, heq⟩
          · exact ⟨Or.inl rfl, rfl⟩
        · rintro ⟨rfl | hmem, heq⟩
          · exact Or.inr rfl
          · exact Or.inl ⟨hmem, heq⟩
      · simp only [hid, false_or]
        have hne : s = s' → s.id ≠ id := by
          rintro rfl
          exact Ne.symm hid
        tauto

/-- `find_by_refer_code`: the first hit of the iteration. -/
def findByReferCode (t : Subscriptions) (order : List Uuid) (code : String) :
    Option Subscription :=
  ((t.iter order).find? fun e => e.2.referCodeTrimmed == code).map Prod.snd

lemma findByReferCode_some {t : Subscriptions} {order : List Uuid} {code : String}
    {s : Subscription} (h : findByReferCode t order code = some s) :
    ∃ id, t.get id = some s ∧ s.referCodeTrimmed = code := by
  obtain ⟨⟨id, s'⟩, hfind, rfl⟩ := Option.map_eq_some_iff.mp h
  refine ⟨id, Table.mem_iter.mp (List.mem_of_find?_eq_some hfind), ?_⟩
  simpa using List.find?_some hfind

end Subscriptions

/-! ### The next WireGuard address -/

/-- The address computation of the creating handlers: one above the largest
address in the memory, or the first peer address of the network; an address
outside the network is refused. -/
def nextWgAddress (net : IpAddrMask) (conns : Connections Conn) (order : List Uuid) :
    Except Reply (BitVec 32) :=
  let lastIp := (conns.getLastWgAddr order).bind IpAddrMask.asIpv4
  let next := match lastIp with
    | some ip => incrementIpv4 ip
    | none => net.firstPeerIp
  match next with
  | none => .error (internalError "Failed to allocate IP")
  | some ip => if net.containsIpv4 ip then .ok ip else .error (internalError "IP out of range")

/-- The first peer address is never the zero address. -/
lemma firstPeerIp_pos {net : IpAddrMask} {ip : BitVec 32} (h : net.firstPeerIp = some ip) :
    0 < ip.toNat := by
  obtain ⟨base, -, h⟩ := Option.bind_eq_some_iff.mp h
  obtain ⟨next, hnext, h⟩ := Option.bind_eq_some_iff.mp h
  split_ifs at h
  rw [← Option.some.inj h, toNat_incrementIpv4 hnext]
  exact Nat.succ_pos _

/-- The last WireGuard address dominates every IPv4 address in the memory; where
it has no IPv4 part, all of them are zero. -/
lemma le_lastIp {conns : Connections Conn} {order : List Uuid} {id : Uuid} {c : Conn}
    {ip : BitVec 32} (hc : conns.get id = some c) (hip : c.wgIpv4 = some ip) :
    match (conns.getLastWgAddr order).bind IpAddrMask.asIpv4 with
    | some last => ip.toNat ≤ last.toNat
    | none => ip.toNat = 0 := by
  rw [Connections.getLastWgAddr]
  set wgs := (conns.iter order).filter fun e => e.2.proto.proto == .wireguard with hwgs
  have hmem : (id, c) ∈ wgs.reverse := by
    rw [List.mem_reverse, hwgs, List.mem_filter, Table.mem_iter]
    exact ⟨hc, by rw [Conn.proto_eq_wireguard hip]; rfl⟩
  have hkey : ∀ {e : Conn} {a : Option (BitVec 32)}, e.wgIpv4 = a →
      Connections.wgKey e = (a.map BitVec.toNat).getD 0 := by
    intro e a ha
    rw [Connections.wgKey, show (e.proto.wg.bind fun p => p.address.asIpv4) = a from ha]
    cases a <;> rfl
  cases hmax : List.argmax (fun e : Uuid × Conn => Connections.wgKey e.2) wgs.reverse with
  | none =>
      rw [List.argmax_eq_none] at hmax
      exact absurd hmem (by rw [hmax]; exact List.not_mem_nil)
  | some e =>
      have hle : Connections.wgKey c ≤ Connections.wgKey e.2 :=
        List.le_of_mem_argmax (f := fun e : Uuid × Conn => Connections.wgKey e.2) hmem hmax
      rw [hkey hip] at hle
      have hlast : (e.2.proto.wg.map (·.address)).bind IpAddrMask.asIpv4 = e.2.wgIpv4 := by
        rw [Conn.wgIpv4, Option.bind_map]
        rfl
      simp only [Option.bind_some, hlast]
      cases hw : e.2.wgIpv4 with
      | some last => simpa [hkey hw] using hle
      | none => simpa [hkey hw] using hle

/-- **The computed address is new**: it lies above every IPv4 address of a
WireGuard connection in the memory. -/
lemma nextWgAddress_gt {net : IpAddrMask} {conns : Connections Conn} {order : List Uuid}
    {next : BitVec 32} (h : nextWgAddress net conns order = .ok next) {id : Uuid} {c : Conn}
    {ip : BitVec 32} (hc : conns.get id = some c) (hip : c.wgIpv4 = some ip) :
    ip.toNat < next.toNat := by
  have hle := @le_lastIp conns order id c ip hc hip
  rw [nextWgAddress] at h
  cases hlast : (conns.getLastWgAddr order).bind IpAddrMask.asIpv4 with
  | some last =>
      simp only [hlast] at h hle
      cases hinc : incrementIpv4 last with
      | none => simp [hinc] at h
      | some n =>
          simp only [hinc] at h
          split_ifs at h
          have hn : n = next := by simpa using h
          rw [← hn, toNat_incrementIpv4 hinc]
          omega
  | none =>
      simp only [hlast] at h hle
      cases hfirst : net.firstPeerIp with
      | none => simp [hfirst] at h
      | some n =>
          simp only [hfirst] at h
          split_ifs at h
          have hn : n = next := by simpa using h
          rw [hle, ← hn]
          exact firstPeerIp_pos hfirst

end Fcore
