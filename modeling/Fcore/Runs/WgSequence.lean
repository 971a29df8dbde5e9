import Fcore.Calculus.Trace
import Fcore.Runs.WgAddresses
import Fcore.Runs.DurableDeletes

/-!
WireGuard addresses of operations that follow one another
(`create_connection_handler`, `post_trial_handler`, `get_last_wg_addr`,
`IpAddrMask::first_peer_ip`).

Deleted connections stay in memory and database, so the largest address in memory is the
one that was stored last, and a reload finds it again.

* `IpAddrMask.peerIp`: the addresses of a network from the first peer address on;
  `nextWgAddress_eq_peerIp`: a memory that holds the first `k` of them is given the next one;
* `WgEvent`, `wgEvents`: the address computations and the stored rows, as notes of a run;
* `InOrder`: the addresses of such notes follow one another;
* `WgSequence`: the invariant between two operations: notes in order, and the rows and the
  memory hold what has been noted;
* `keepsSequence_op`: every operation keeps it;
* `wg_addresses_sequential`: stored addresses leave no gap, and one is refused only at the
  end of the network.
-/

namespace Fcore

open Calculus
open Calculus.Prog (perform)
open Machine (exec)

/-! ### The addresses of a network -/

/-- The peer address number `k` of a network: `k` above the first one, as long as it lies in
the network. -/
def IpAddrMask.peerIp (net : IpAddrMask) (k : ℕ) : Option (BitVec 32) :=
  net.firstPeerIp.bind fun first =>
    if first.toNat + k < 2 ^ 32 ∧ net.containsIpv4 (first + BitVec.ofNat 32 k) then
      some (first + BitVec.ofNat 32 k)
    else none

section Addresses

variable {net : IpAddrMask} {k : ℕ}

lemma peerIp_eq_some {ip : BitVec 32} : net.peerIp k = some ip ↔
    ∃ first, net.firstPeerIp = some first ∧ first.toNat + k < 2 ^ 32 ∧
      ip = first + BitVec.ofNat 32 k ∧ net.containsIpv4 ip = true := by
  rw [IpAddrMask.peerIp, Option.bind_eq_some_iff]
  refine exists_congr fun first => and_congr_right fun _ => ?_
  constructor
  · intro h
    split_ifs at h with hin
    obtain rfl := Option.some.inj h
    exact ⟨hin.1, rfl, hin.2⟩
  · rintro ⟨hlt, rfl, hin⟩
    rw [if_pos ⟨hlt, hin⟩]

lemma peerIp_eq_none : net.peerIp k = none ↔ net.firstPeerIp = none ∨
    ∃ first, net.firstPeerIp = some first ∧
      (2 ^ 32 ≤ first.toNat + k ∨ net.containsIpv4 (first + BitVec.ofNat 32 k) = false) := by
  rw [IpAddrMask.peerIp]
  cases net.firstPeerIp with
  | none => simp
  | some first =>
      rw [Option.bind_some, ite_eq_right_iff]
      simp only [reduceCtorEq, false_or, Option.some.injEq, exists_eq_left', imp_false,
        not_and_or, Bool.not_eq_true, Nat.not_lt]

/-- The number of an address can be read off it. -/
lemma toNat_of_peerIp {ip first : BitVec 32} (h : net.peerIp k = some ip)
    (hfirst : net.firstPeerIp = some first) : ip.toNat = first.toNat + k := by
  obtain ⟨first', hfirst', hlt, rfl, -⟩ := peerIp_eq_some.mp h
  obtain rfl := Option.some.inj (hfirst.symm.trans hfirst')
  rw [BitVec.toNat_add, BitVec.toNat_ofNat]
  omega

lemma peerIp_zero : net.peerIp 0 = net.firstPeerIp := by
  rw [IpAddrMask.peerIp]
  cases hfirst : net.firstPeerIp with
  | none => rfl
  | some first =>
      have hin : net.containsIpv4 first = true := by
        obtain ⟨base, -, h⟩ := Option.bind_eq_some_iff.mp hfirst
        obtain ⟨ip, -, h⟩ := Option.bind_eq_some_iff.mp h
        split_ifs at h with hin
        rwa [← Option.some.inj h]
      rw [Option.bind_some, BitVec.add_zero, if_pos ⟨first.isLt, hin⟩]

/-- The next address is one above, unless the address space or the network ends. -/
lemma peerIp_succ {ip : BitVec 32} (h : net.peerIp k = some ip) : net.peerIp (k + 1) =
    (incrementIpv4 ip).bind fun next => if net.containsIpv4 next then some next else none := by
  obtain ⟨first, hfirst, -, rfl, -⟩ := peerIp_eq_some.mp h
  have hnat := toNat_of_peerIp h hfirst
  have hnext : first + BitVec.ofNat 32 (k + 1) = first + BitVec.ofNat 32 k + 1 := by
    rw [BitVec.ofNat_add, ← BitVec.add_assoc]
    rfl
  rw [IpAddrMask.peerIp, hfirst, Option.bind_some, hnext, incrementIpv4, hnat, ← Nat.add_assoc]
  by_cases hlt : first.toNat + k + 1 < 2 ^ 32
  · simp only [hlt, true_and, if_true, Option.bind_some]
  · simp only [hlt, false_and, if_false, Option.bind_none]

/-- The last address is the address of a connection. -/
lemma exists_of_lastIp {conns : Connections Conn} {order : List Uuid} {ip : BitVec 32}
    (h : (conns.getLastWgAddr order).bind IpAddrMask.asIpv4 = some ip) :
    ∃ id c, conns.get id = some c ∧ c.wgIpv4 = some ip := by
  obtain ⟨mask, hmask, hip⟩ := Option.bind_eq_some_iff.mp h
  obtain ⟨⟨id, c⟩, hmax, hc⟩ := Option.bind_eq_some_iff.mp hmask
  obtain ⟨param, hparam, rfl⟩ := Option.map_eq_some_iff.mp hc
  have hmem := List.argmax_mem hmax
  rw [List.mem_reverse, List.mem_filter, Table.mem_iter] at hmem
  exact ⟨id, c, hmem.1, Option.bind_eq_some_iff.mpr ⟨param, hparam, hip⟩⟩

/-- An address is given out of the candidate that lies in the network. -/
lemma toOption_nextWgAddress (net : IpAddrMask) (conns : Connections Conn) (order : List Uuid) :
    (nextWgAddress net conns order).toOption =
      (((conns.getLastWgAddr order).bind IpAddrMask.asIpv4).elim net.firstPeerIp incrementIpv4).bind
        fun ip => if net.containsIpv4 ip then some ip else none := by
  have hcheck : ∀ {ip : BitVec 32}, Except.toOption (if net.containsIpv4 ip then Except.ok ip
      else .error (internalError "IP out of range")) =
      if net.containsIpv4 ip then some ip else none := by
    intro ip
    split_ifs <;> rfl
  rw [nextWgAddress]
  cases (conns.getLastWgAddr order).bind IpAddrMask.asIpv4 with
  | none =>
      cases hnext : net.firstPeerIp with
      | none => rfl
      | some ip => exact hcheck
  | some last =>
      cases hnext : incrementIpv4 last with
      | none =>
          simp only [hnext, Option.elim_some]
          rfl
      | some ip =>
          simp only [hnext, Option.elim_some]
          exact hcheck

/-- **The next address**: a memory that holds exactly the first `k` peer addresses is given
the peer address number `k`, and is refused one if there is none. -/
lemma nextWgAddress_eq_peerIp {conns : Connections Conn} (order : List Uuid)
    (hheld : ∀ ip, (∃ id c, conns.get id = some c ∧ c.wgIpv4 = some ip) ↔
      ∃ j < k, net.peerIp j = some ip)
    (hall : ∀ j < k, (net.peerIp j).isSome) :
    (nextWgAddress net conns order).toOption = net.peerIp k := by
  rw [toOption_nextWgAddress]
  cases hlast : (conns.getLastWgAddr order).bind IpAddrMask.asIpv4 with
  | none =>
      cases k with
      | zero =>
          rw [peerIp_zero]
          cases hfirst : net.firstPeerIp with
          | none => rfl
          | some first =>
              obtain ⟨-, -, -, -, hin⟩ := peerIp_eq_some.mp (peerIp_zero.trans hfirst)
              simp [hin]
      | succ k =>
          obtain ⟨ip, hip⟩ := Option.isSome_iff_exists.mp (hall k (Nat.lt_succ_self k))
          obtain ⟨id, c, hget, hc⟩ := (hheld ip).mpr ⟨k, Nat.lt_succ_self k, hip⟩
          obtain ⟨first, hfirst, -⟩ := peerIp_eq_some.mp hip
          have hpos := firstPeerIp_pos hfirst
          have hnat := toNat_of_peerIp hip hfirst
          have hzero := @le_lastIp conns order id c ip hget hc
          rw [hlast] at hzero
          simp only at hzero
          omega
  | some last =>
      obtain ⟨j, hj, hpeer⟩ := (hheld last).mp (exists_of_lastIp hlast)
      obtain ⟨first, hfirst, -⟩ := peerIp_eq_some.mp hpeer
      cases k with
      | zero => exact absurd hj (Nat.not_lt_zero j)
      | succ k =>
          obtain ⟨ip, hip⟩ := Option.isSome_iff_exists.mp (hall k (Nat.lt_succ_self k))
          obtain ⟨id, c, hget, hc⟩ := (hheld ip).mpr ⟨k, Nat.lt_succ_self k, hip⟩
          have hle := @le_lastIp conns order id c ip hget hc
          rw [hlast] at hle
          simp only at hle
          have hlastNat := toNat_of_peerIp hpeer hfirst
          have hipNat := toNat_of_peerIp hip hfirst
          obtain rfl : last = ip := BitVec.eq_of_toNat_eq (by omega)
          exact (peerIp_succ hip).symm

end Addresses

/-! ### Notes -/

/-- What is noted of a run. -/
inductive WgEvent where
  /-- An address computation, with the address if it is not refused. -/
  | allocation (o : Option (BitVec 32))
  /-- A WireGuard connection that is stored. -/
  | stored (id : Uuid) (ip : BitVec 32)
  deriving DecidableEq, Repr

/-- The address of the connection that a row converts to. -/
def ConnRow.wgIpv4 (r : ConnRow) : Option (BitVec 32) :=
  if r.proto = .wireguard then r.wg.bind fun p => p.address.asIpv4 else none

/-- The address that a computation has given. -/
def granted : Except Reply Proto → Option (BitVec 32)
  | .ok proto => proto.wgIpv4
  | .error _ => none

/-- The notes of a step.  `create_connection_handler` computes an address for WireGuard only,
and only for an active subscription. -/
def wgEvents : Watch Call Input World WgEvent
  | _, .look (.wgProto _), _, _, r => [.allocation (granted r)]
  | _, .look (.prepare _ req), i, s, r =>
      if req.proto = .wireguard ∧
          (checkSubscription s.memory.subscriptions req.subscriptionId i.now).isOk then
        [.allocation (granted r)]
      else []
  | _, .sql (.connInsert row), _, _, .ok () => (row.wgIpv4.map (.stored row.connId)).toList
  | _, _, _, _, _ => []

/-- The stored connections, in the order of their creation. -/
def storedIn (w : List WgEvent) : List (Uuid × BitVec 32) :=
  w.filterMap fun
    | .stored id ip => some (id, ip)
    | .allocation _ => none

@[simp] lemma storedIn_nil : storedIn [] = [] := rfl

@[simp] lemma storedIn_append (v w : List WgEvent) :
    storedIn (v ++ w) = storedIn v ++ storedIn w := List.filterMap_append

@[simp] lemma storedIn_allocation (o : Option (BitVec 32)) (w : List WgEvent) :
    storedIn (.allocation o :: w) = storedIn w := rfl

@[simp] lemma storedIn_stored (id : Uuid) (ip : BitVec 32) (w : List WgEvent) :
    storedIn (.stored id ip :: w) = (id, ip) :: storedIn w := rfl

/-- The notes of a run in which `k` connections have been stored before: every address that is
computed or stored is the next one. -/
def InOrder (net : IpAddrMask) : ℕ → List WgEvent → Prop
  | _, [] => True
  | k, .allocation o :: w => o = net.peerIp k ∧ InOrder net k w
  | k, .stored _ ip :: w => net.peerIp k = some ip ∧ InOrder net (k + 1) w

section InOrder

variable {net : IpAddrMask} {k : ℕ}

lemma inOrder_append {v w : List WgEvent} : InOrder net k (v ++ w) ↔
    InOrder net k v ∧ InOrder net (k + (storedIn v).length) w := by
  induction v generalizing k with
  | nil => simp [InOrder]
  | cons e v ih =>
      cases e with
      | allocation o => simp [InOrder, ih, and_assoc]
      | stored id ip =>
          have hlen : k + 1 + (storedIn v).length = k + ((storedIn v).length + 1) := by omega
          simp [InOrder, ih, and_assoc, hlen]

lemma InOrder.peerIp_of_getElem? {w : List WgEvent} (h : InOrder net k w) {j : ℕ}
    {e : Uuid × BitVec 32} (he : (storedIn w)[j]? = some e) : net.peerIp (k + j) = some e.2 := by
  induction w generalizing k j with
  | nil => cases he
  | cons x w ih =>
      cases x with
      | allocation o => exact ih h.2 he
      | stored id ip =>
          cases j with
          | zero =>
              obtain rfl : (id, ip) = e := Option.some.inj he
              exact h.1
          | succ j =>
              have hrest := ih h.2 he
              rwa [Nat.add_assoc, Nat.add_comm 1 j] at hrest

end InOrder

/-! ### The invariant -/

/-- The tag and the address of a connection in memory. -/
def memIp (id : Uuid) (m : Cache) : Option (Tag × Option (BitVec 32)) :=
  (m.connections.get id).map fun c => (c.proto.proto, c.wgIpv4)

/-- The tag and the address of a connection in the database. -/
def rowIp (id : Uuid) (db : Db) : Option (Tag × Option (BitVec 32)) :=
  (db.connections.get id).map fun r => (r.proto, r.wgIpv4)

/-- The invariant between two operations: the notes are in order, and the database and the
memory have the connections that have been noted. -/
structure WgSequence (net : IpAddrMask) (w : List WgEvent) (s : World) : Prop where
  inOrder : InOrder net 0 w
  rows : ∀ id ip, rowIp id s.db = some (.wireguard, some ip) ↔ (id, ip) ∈ storedIn w
  addressed : ∀ id, rowIp id s.db ≠ some (.wireguard, none)
  memory : ∀ id, memIp id s.memory = rowIp id s.db

lemma ConnRow.toConn_wgIpv4 {lower : String → String} {r : ConnRow} {c : Conn}
    (h : r.toConn lower = .ok c) : c.wgIpv4 = r.wgIpv4 := by
  rw [toConn] at h
  cases hproto : r.toProto with
  | error e => simp [hproto] at h
  | ok proto =>
      rw [hproto] at h
      rw [← Except.ok.inj h, wgIpv4, Conn.wgIpv4]
      rw [toProto] at hproto
      cases htag : r.proto <;> simp only [htag] at hproto
      all_goals first
        | (rw [← Except.ok.inj hproto]; rfl)
        | (split at hproto <;> first
            | (rw [← Except.ok.inj hproto]; simp_all [Proto.wg])
            | cases hproto)

/-- A row has the address of the connection that was stored. -/
lemma ConnRow.ofConn_wgIpv4 (id : Uuid) (c : Conn) :
    (ConnRow.ofConn id c).wgIpv4 = c.wgIpv4 := by
  show (if c.proto.proto = .wireguard then c.proto.wg.bind _ else none) = c.proto.wg.bind _
  cases c.proto with
  | xray tag => exact ite_self _
  | wireguard param => exact if_pos rfl
  | shadowsocks | hysteria2 | mtproto => exact if_neg (by simp [Proto.proto])

section Steps

variable {net : IpAddrMask} {w : List WgEvent} {s s' : World}

lemma WgSequence.frame (h : WgSequence net w s)
    (hmem : ∀ id, memIp id s'.memory = memIp id s.memory)
    (hdb : ∀ id, rowIp id s'.db = rowIp id s.db) : WgSequence net w s' where
  inOrder := h.inOrder
  rows id ip := by
    rw [hdb]
    exact h.rows id ip
  addressed id := by
    rw [hdb]
    exact h.addressed id
  memory id := by
    rw [hmem, hdb]
    exact h.memory id

/-- The memory holds exactly the addresses that have been stored. -/
lemma WgSequence.held_iff (h : WgSequence net w s) (ip : BitVec 32) :
    (∃ id c, s.memory.connections.get id = some c ∧ c.wgIpv4 = some ip) ↔
      ∃ j < (storedIn w).length, net.peerIp j = some ip := by
  have hmem : ∀ id, (id, ip) ∈ storedIn w ↔
      ∃ c, s.memory.connections.get id = some c ∧ c.wgIpv4 = some ip := by
    intro id
    rw [← h.rows, ← h.memory, memIp, Option.map_eq_some_iff]
    refine exists_congr fun c => and_congr_right fun _ => ?_
    rw [Prod.mk.injEq]
    exact and_iff_right_of_imp Conn.proto_eq_wireguard
  have hpeer : ∀ {j e}, (storedIn w)[j]? = some e → net.peerIp j = some e.2 := by
    intro j e he
    have hj := h.inOrder.peerIp_of_getElem? he
    rwa [Nat.zero_add] at hj
  simp only [← hmem]
  constructor
  · rintro ⟨id, hid⟩
    obtain ⟨j, hj⟩ := List.mem_iff_getElem?.mp hid
    exact ⟨j, (List.getElem?_eq_some_iff.mp hj).1, hpeer hj⟩
  · rintro ⟨j, hj, hip⟩
    have he := List.getElem?_eq_getElem hj
    rw [hpeer he, Option.some.injEq] at hip
    exact ⟨(storedIn w)[j].1, by rw [← hip]; exact List.getElem_mem hj⟩

/-- An address computation gives the next address. -/
lemma WgSequence.granted_eq (h : WgSequence net w s) (i : Input) :
    granted (newWgProto net s.memory.connections i) = net.peerIp (storedIn w).length := by
  have hnext := nextWgAddress_eq_peerIp i.order h.held_iff fun j hj => by
    have he := h.inOrder.peerIp_of_getElem? (List.getElem?_eq_getElem hj)
    rw [Nat.zero_add] at he
    rw [he]
    rfl
  rw [← hnext, newWgProto]
  cases nextWgAddress net s.memory.connections i.order <;> rfl

/-- The note of an address computation. -/
lemma WgSequence.allocate (h : WgSequence net w s) {o : Option (BitVec 32)}
    (ho : o = net.peerIp (storedIn w).length) : WgSequence net (w ++ [.allocation o]) s where
  inOrder := inOrder_append.mpr ⟨h.inOrder, by rw [Nat.zero_add]; exact ⟨ho, trivial⟩⟩
  rows id ip := by
    rw [h.rows]
    simp
  addressed := h.addressed
  memory := h.memory

/-- A connection that is stored in the database and in memory. -/
lemma WgSequence.store (h : WgSequence net w s) {id : Uuid} {c : Conn}
    (hnone : s.db.connections.get id = none)
    (hnext : ∀ ip, c.wgIpv4 = some ip → net.peerIp (storedIn w).length = some ip)
    (haddressed : c.proto.proto = .wireguard → c.wgIpv4 ≠ none) :
    WgSequence net (w ++ (c.wgIpv4.map (.stored id)).toList) { s with
      db := { s.db with connections := s.db.connections.put id (ConnRow.ofConn id c).stored }
      memory := { s.memory with connections := s.memory.connections.vacant id c } } := by
  have hrow : rowIp id s.db = none := by rw [rowIp, hnone, Option.map_none]
  have hget : s.memory.connections.get id = none := by
    have hmem := (h.memory id).trans hrow
    simpa [memIp] using hmem
  have hrow' : ∀ id', rowIp id'
      { s.db with connections := s.db.connections.put id (ConnRow.ofConn id c).stored } =
        if id' = id then some (c.proto.proto, c.wgIpv4) else rowIp id' s.db := by
    intro id'
    rw [rowIp, Table.get_put]
    split_ifs
    · rw [← ConnRow.ofConn_wgIpv4 id c]
      rfl
    · rfl
  have hmem' : ∀ id', memIp id'
      { s.memory with connections := s.memory.connections.vacant id c } =
        if id' = id then some (c.proto.proto, c.wgIpv4) else memIp id' s.memory := by
    intro id'
    rw [memIp, Table.get_vacant, hget]
    split_ifs <;> rfl
  constructor
  · refine inOrder_append.mpr ⟨h.inOrder, ?_⟩
    cases hip : c.wgIpv4 with
    | none => exact trivial
    | some ip =>
        rw [Nat.zero_add]
        exact ⟨hnext ip hip, trivial⟩
  · intro id' ip
    rw [hrow', storedIn_append, List.mem_append, ← h.rows]
    split_ifs with hid
    · subst hid
      cases hip : c.wgIpv4 with
      | none => simp [hrow]
      | some ip' => simp [hrow, Conn.proto_eq_wireguard hip, eq_comm]
    · cases c.wgIpv4 <;> simp [hid]
  · intro id'
    rw [hrow']
    split_ifs
    · intro heq
      obtain ⟨htag, hip⟩ := Prod.mk.inj (Option.some.inj heq)
      exact haddressed htag hip
    · exact h.addressed id'
  · intro id'
    rw [hmem', hrow', h.memory]

end Steps

/-! ### Operations without new connections -/

/-- The calls that neither compute nor store an address, and replace no memory. -/
def AddressQuiet : (β : Type) → Call β → Prop
  | _, .look (.prepare _ _) => False
  | _, .look (.wgProto _) => False
  | _, .edit (.connAdd _ _) => False
  | _, .edit (.install _) => False
  | _, .within (.connAdd _ _) => False
  | _, .within (.install _) => False
  | _, .sql (.connInsert _) => False
  | _, _ => True

/-- The program keeps the invariant, whatever fails. -/
def KeepsSequence (net : IpAddrMask) {α : Type} (p : Api α) : Prop :=
  TraceTriple Rule.any wgEvents (WgSequence net) p fun _ => WgSequence net

section Keeps

variable {net : IpAddrMask} {α β : Type}

lemma memIp_setDeleted (id id' : Uuid) (v : Bool) (i : Input) (m : Cache) :
    memIp id' (Edit.run (.setDeleted id v) i m).1 = memIp id' m := by
  show Option.map _ ((m.connections.change id _).get id') = _
  rw [Table.get_change, memIp]
  split_ifs with hid
  · rw [hid, Option.map_map]
    rfl
  · rfl

lemma rowIp_connSetDeleted (id id' : Uuid) (v : Bool) (db : Db) :
    rowIp id' (db.connSetDeleted id v) = rowIp id' db := by
  show Option.map _ ((db.connections.change id _).get id') = _
  rw [Table.get_change, rowIp]
  split_ifs with hid
  · rw [hid, Option.map_map]
    rfl
  · rfl

lemma wgEvents_of_quiet {c : Call β} (hc : AddressQuiet β c) (i : Input) (s : World) (b : β) :
    wgEvents β c i s b = [] := by
  cases c with
  | look r => cases r <;> first | rfl | exact hc.elim
  | sql q => cases q <;> first | rfl | exact hc.elim
  | _ => rfl

lemma memIp_of_quiet {c : Call β} (hc : AddressQuiet β c) {i : Input} {s s' : World} {b : β}
    (hexec : exec c i s = some (s', b)) (id : Uuid) : memIp id s'.memory = memIp id s.memory := by
  cases hwrites : c.writesConnections with
  | false => rw [memIp, memIp, connections_of_exec hexec hwrites]
  | true =>
      cases c with
      | edit w =>
          obtain ⟨-, rfl, -⟩ := exec_edit.mp hexec
          cases w with
          | setDeleted id' v => exact memIp_setDeleted id' id v i s.memory
          | connAdd | install => exact hc.elim
          | subAdd | credit | update => cases hwrites
      | within w =>
          obtain ⟨-, rfl, -⟩ := exec_within.mp hexec
          cases w with
          | setDeleted id' v => exact memIp_setDeleted id' id v i s.memory
          | connAdd | install => exact hc.elim
          | subAdd | credit | update => cases hwrites
      | _ => cases hwrites

lemma rowIp_of_quiet {c : Call β} (hc : AddressQuiet β c) {i : Input} {s s' : World} {b : β}
    (hexec : exec c i s = some (s', b)) (id : Uuid) : rowIp id s'.db = rowIp id s.db := by
  cases c with
  | sql q =>
      obtain ⟨rfl, -⟩ := exec_sql.mp hexec
      cases q with
      | connInsert row => exact hc.elim
      | connDelete id' | connRestore id' =>
          simp only [Sql.run]
          split_ifs
          · exact rowIp_connSetDeleted id' id _ s.db
          · rfl
      | _ => rw [rowIp, rowIp, Sql.run_connections rfl]
  | _ => rw [db_of_exec hexec (by simp)]

lemma KeepsSequence.of_quiet {p : Api α} (hp : Uses AddressQuiet p) : KeepsSequence net p :=
  TraceTriple.of_uses hp fun hc hexec h =>
    ⟨wgEvents_of_quiet hc _ _ _, h.frame (memIp_of_quiet hc hexec) (rowIp_of_quiet hc hexec)⟩

lemma KeepsSequence.pure {x : α} : KeepsSequence net (.pure x : Api α) :=
  TraceTriple.pure fun _ _ h => h

lemma KeepsSequence.bind {p : Api α} {f : α → Api β} (hp : KeepsSequence net p)
    (hf : ∀ x, KeepsSequence net (f x)) : KeepsSequence net (p >>= f) :=
  TraceTriple.bind hp hf

lemma addressQuiet_quiet {c : Call β} (hc : QuietCall β c) : AddressQuiet β c := by
  cases hc <;> exact trivial

lemma addressQuiet_restore {c : Call β} (hc : RestoreCall β c) : AddressQuiet β c := by
  cases hc <;> exact trivial

lemma addressQuiet_credit {c : Call β} (hc : AddDaysCall β c) : AddressQuiet β c := by
  cases hc with
  | restore h => exact addressQuiet_restore h
  | _ => exact trivial

lemma addressQuiet_mail {c : Call β} (hc : MailCall β c) : AddressQuiet β c := by
  cases hc
  exact trivial

lemma addressQuiet_delete {c : Call β} (hc : DeleteCall β c) : AddressQuiet β c := by
  cases hc <;> exact trivial

lemma addressQuiet_sub {c : Call β} (hc : SubCall β c) : AddressQuiet β c := by
  cases hc <;> exact trivial

lemma addressQuiet_key {c : Call β} (hc : KeyCall β c) : AddressQuiet β c := by
  cases hc <;> exact trivial

lemma addressQuiet_sync {c : Call β} (hc : SyncCall β c) : AddressQuiet β c := by
  cases hc <;> exact trivial

end Keeps

/-! #### The calls of these operations -/

lemma addressQuiet_restoreSubs (subs : List Uuid) : Uses AddressQuiet (restoreSubs subs) := by
  induction subs with
  | nil => exact trivial
  | cons sub subs ih =>
      have hrestore : Uses AddressQuiet (restoreConnectionsBySubscription sub) :=
        (uses_restoreConnectionsBySubscription sub).mono fun _ _ => addressQuiet_restore
      exact hrestore.bind fun _ => ih

lemma addressQuiet_addDays (subId : Uuid) (n : ℤ) : Uses AddressQuiet (addDays subId n) :=
  (uses_addDays subId n).mono fun _ _ => addressQuiet_credit

lemma addressQuiet_addSub (sub : Subscription) : Uses AddressQuiet (addSub sub) :=
  (uses_addSub sub).mono fun _ _ => addressQuiet_sub

lemma addressQuiet_referral (referredBy : Option String) (codes : List String) (bonus : ℤ)
    (missing : String) : Uses AddressQuiet (referral referredBy codes bonus missing) :=
  (uses_referral referredBy codes bonus missing).mono fun _ _ => addressQuiet_sub

lemma addressQuiet_postSubscriptionHandler (req : SubReq) (bonus : ℤ) (codes : List String) :
    Uses AddressQuiet (postSubscriptionHandler req bonus codes) := by
  refine ⟨trivial, fun subId => (addressQuiet_referral _ _ _ _).bind fun r => ?_⟩
  cases r with
  | error r => exact trivial
  | ok owner =>
      refine Uses.bind ?_ fun credited => ?_
      · cases owner with
        | none => exact trivial
        | some owner => exact addressQuiet_addDays owner.1 bonus
      · cases credited with
        | error e => exact trivial
        | ok st =>
            refine ⟨trivial, fun now => ⟨trivial, fun created => ?_⟩⟩
            refine (addressQuiet_addSub _).bind fun r => ?_
            rcases r with e | st
            · exact trivial
            · cases st <;> exact trivial

lemma addressQuiet_postActivateKeyHandler (req : ActivateKeyReq) :
    Uses AddressQuiet (postActivateKeyHandler req) := by
  refine ⟨trivial, fun key => ?_⟩
  cases key with
  | none => exact trivial
  | some key =>
      show Uses AddressQuiet (if key.activated then _ else _)
      split
      · exact trivial
      · refine (addressQuiet_addDays _ _).bind fun r => ?_
        rcases r with e | st
        · exact trivial
        · cases st with
          | updated id =>
              refine ⟨trivial, fun now => ⟨trivial, fun r => ?_⟩⟩
              cases r <;> exact trivial
          | _ => exact trivial

/-! ### Reloads -/

/-- A reload makes no notes, and reads the addresses from the rows. -/
lemma keepsSequence_getStateFromDb (net : IpAddrMask) (lower : String → String) :
    KeepsSequence net (getStateFromDb lower) := by
  intro v w s s' r htrace h
  have hnotes : w = [] := by
    refine htrace.notes_of_uses (S := fun β c => ∀ i s b, wgEvents β c i s b = []) ?_ id
    have hleave : ∀ e, Uses (fun β c => ∀ i s b, wgEvents β c i s b = [])
        (.call (.guard .unlockWrite) fun _ => .pure (.error e) : Api (Except Error Unit)) :=
      fun _ => ⟨fun _ _ _ => rfl, fun _ => trivial⟩
    simp only [getStateFromDb, Prog.perform_bind]
    refine ⟨fun _ _ _ => rfl, fun _ => ⟨fun _ _ _ => rfl, fun rows => ?_⟩⟩
    cases rows with
    | error e => exact hleave e
    | ok rows =>
        refine ⟨fun _ _ _ => rfl, fun subs => ?_⟩
        cases subs with
        | error e => exact hleave e
        | ok subs =>
            dsimp only
            cases buildCache lower rows subs with
            | error e => exact hleave e
            | ok cache => exact ⟨fun _ _ _ => rfl, fun _ => ⟨fun _ _ _ => rfl, fun _ => trivial⟩⟩
  rw [hnotes, List.append_nil]
  obtain ⟨hdb, -, ⟨-, hmem⟩ | ⟨-, i, order, l, -, hcache⟩⟩ := exec_getStateFromDb htrace.exec
  · exact h.frame (fun id => by rw [hmem]) fun id => by rw [hdb]
  · have hrows : ∀ id, memIp id s'.memory = rowIp id s.db :=
      map_get_buildCache hcache fun hconv => by
        rw [ConnRow.toConn_proto hconv, ConnRow.toConn_wgIpv4 hconv]
        rfl
    exact h.frame (fun id => (hrows id).trans (h.memory id).symm) fun id => by rw [hdb]

/-! ### Creations -/

/-- The invariant, and a WireGuard protocol has been given an address, the next one. -/
structure Prepared (net : IpAddrMask) (r : Except Reply Proto) (w : List WgEvent) (s : World) :
    Prop where
  sequence : WgSequence net w s
  next : ∀ ip, granted r = some ip → net.peerIp (storedIn w).length = some ip
  addressed : ∀ proto, r = .ok proto → proto.proto = .wireguard → proto.wgIpv4 ≠ none

section Creations

variable {net : IpAddrMask}

lemma traceTriple_ask {α : Type} {P : List WgEvent → World → Prop} (a : Ask α) :
    TraceTriple Rule.any wgEvents P (perform (.ask a)) fun _ => P := by
  refine TraceTriple.perform fun v i s s' b hexec _ h => ?_
  obtain ⟨rfl, -⟩ := exec_ask.mp hexec
  exact (List.append_nil v).symm ▸ h

lemma traceTriple_addConn {id : Uuid} {c : Conn} :
    TraceTriple Rule.any wgEvents (Prepared net (.ok c.proto)) (addConn id c)
      fun _ => WgSequence net := by
  rintro v w s s' r htrace ⟨h, hnext, haddressed⟩
  simp only [addConn, Prog.perform_bind] at htrace
  obtain ⟨i₁, s₁, r₁, w₁, hsql, -, rfl, htrace⟩ := htrace.of_call
  obtain ⟨rfl, rfl⟩ := exec_sql.mp hsql
  rcases connInsert_cases (ConnRow.ofConn id c) i₁ s.db with ⟨hdb, e, hr⟩ | ⟨hnone, hdb, hr⟩
  · rw [hr] at htrace ⊢
    obtain ⟨rfl, -, rfl⟩ := htrace.of_pure
    rw [hdb]
    exact (List.append_nil v).symm ▸ h
  · rw [hr] at htrace ⊢
    obtain ⟨i₂, s₂, r₂, w₂, hedit, -, hw₂, htrace⟩ := htrace.of_call
    obtain ⟨-, rfl, rfl⟩ := exec_edit.mp hedit
    have hend : w₂ = [] ∧ s' = { s with
        db := (Sql.run (.connInsert (ConnRow.ofConn id c)) i₁ s.db).1
        memory := (Edit.run (.connAdd id c) i₂ s.memory).1 } := by
      simp only [Edit.run, Connections.add] at htrace
      split_ifs at htrace
      · obtain ⟨hnotes, -, hs⟩ := htrace.of_pure
        exact ⟨hnotes, hs⟩
      · obtain ⟨hnotes, -, hs⟩ := htrace.of_pure
        exact ⟨hnotes, hs⟩
    obtain ⟨rfl, rfl⟩ := hend
    rw [hdb, hw₂]
    have hnotes : wgEvents _ (.sql (.connInsert (ConnRow.ofConn id c))) i₁ s (.ok ()) =
        (c.wgIpv4.map (.stored id)).toList := by
      show ((ConnRow.ofConn id c).wgIpv4.map _).toList = _
      rw [ConnRow.ofConn_wgIpv4]
      rfl
    rw [hnotes]
    exact (List.append_nil _).symm ▸ h.store hnone hnext (haddressed c.proto rfl)

/-- The creation of a connection, from its protocol on. -/
lemma keepsSequence_create {α : Type} {env : Env} {sub : Option Uuid} {proto : Proto}
    {expiresAt : Option DateTime} {f : DateTime → Uuid → Except SyncError Status → Api α}
    (hf : ∀ now id r, KeepsSequence net (f now id r)) :
    TraceTriple Rule.any wgEvents (Prepared net (.ok proto))
      (perform (.ask .now) >>= fun now => perform (.ask .uuid) >>= fun id =>
        addConn id (Conn.new env sub proto expiresAt now) >>= f now id) fun _ =>
          WgSequence net := by
  refine (traceTriple_ask .now).bind fun now => (traceTriple_ask .uuid).bind fun id => ?_
  exact (traceTriple_addConn (c := Conn.new env sub proto expiresAt now)).bind (hf now id)

lemma keepsSequence_publishCreated (id : Uuid) (c : Conn) :
    KeepsSequence net (publishCreated id c) :=
  .of_quiet ((uses_publishCreated id c).mono fun _ _ => addressQuiet_quiet)

/-- A WireGuard protocol gets the next address, or none. -/
lemma prepared_newWgProto {w : List WgEvent} {s : World} (h : WgSequence net w s) (i : Input) :
    Prepared net (newWgProto net s.memory.connections i)
      (w ++ [.allocation (granted (newWgProto net s.memory.connections i))]) s := by
  refine ⟨h.allocate (h.granted_eq i), fun ip hip => ?_, fun proto hproto _ => ?_⟩
  · rw [storedIn_append, storedIn_allocation, storedIn_nil, List.append_nil, ← h.granted_eq i]
    exact hip
  · rw [newWgProto] at hproto
    split at hproto
    · cases hproto
    · rw [← Except.ok.inj hproto]
      exact Option.some_ne_none _

/-- A protocol without an address. -/
lemma prepared_other {w : List WgEvent} {s : World} (h : WgSequence net w s) {proto : Proto}
    (hproto : proto.proto ≠ .wireguard) : Prepared net (.ok proto) w s := by
  refine ⟨h, fun ip hip => ?_, fun p hp htag => ?_⟩
  · cases proto with
    | wireguard param => exact absurd rfl hproto
    | _ => cases hip
  · rw [← Except.ok.inj hp] at htag
    exact absurd htag hproto

/-- The address computation of `create_connection_handler`. -/
lemma traceTriple_prepare (req : ConnCreateRequest) :
    TraceTriple Rule.any wgEvents (WgSequence net) (perform (.look (.prepare net req)))
      (Prepared net) := by
  refine TraceTriple.perform fun v i s s' r hexec _ h => ?_
  obtain ⟨-, rfl, rfl⟩ := exec_look.mp hexec
  simp only [wgEvents, Look.run]
  cases hsub : checkSubscription s'.memory.subscriptions req.subscriptionId i.now with
  | error e =>
      simp only [Except.isOk, Except.toBool, Bool.false_eq_true, and_false, if_false,
        List.append_nil]
      refine ⟨h, fun ip hip => ?_, fun proto hproto => ?_⟩
      · cases hip
      · cases hproto
  | ok u =>
      by_cases htag : req.proto = .wireguard
      · simp only [htag, newProto, Except.isOk, Except.toBool, and_self, if_true]
        exact prepared_newWgProto h i
      · simp only [htag, false_and, if_false, List.append_nil]
        cases hproto : req.proto with
        | wireguard => exact absurd hproto htag
        | _ => exact prepared_other h (by simp [Proto.proto])

lemma keepsSequence_createConnectionHandler (req : ConnCreateRequest) :
    KeepsSequence net (createConnectionHandler req net) := by
  have hexpiry : KeepsSequence net (expiryOf req.days) :=
    .of_quiet ((uses_expiryOf req.days).mono fun _ _ => addressQuiet_quiet)
  refine hexpiry.bind fun expiredAt => (traceTriple_prepare req).bind fun r => ?_
  cases r with
  | error r => exact TraceTriple.pure fun _ _ h => h.sequence
  | ok proto =>
      refine keepsSequence_create fun now id r => ?_
      rcases r with e | st
      · exact .pure
      · cases st with
        | ok _ => exact (keepsSequence_publishCreated _ _).bind fun _ => .pure
        | _ => exact .pure

lemma traceTriple_trialProto (tag : Tag) :
    TraceTriple Rule.any wgEvents (WgSequence net) (trialProto net tag) (Prepared net) := by
  cases tag with
  | wireguard =>
      refine TraceTriple.perform fun v i s s' r hexec _ h => ?_
      obtain ⟨-, rfl, rfl⟩ := exec_look.mp hexec
      exact prepared_newWgProto h i
  | shadowsocks | hysteria2 | mtproto =>
      refine (traceTriple_ask _).bind fun _ => TraceTriple.pure fun _ _ h => ?_
      exact prepared_other h (by simp [Proto.proto])
  | vlessTcpReality | vlessGrpcReality | vlessXhttpReality | vmess =>
      exact TraceTriple.pure fun _ _ h => prepared_other h (by simp [Proto.proto])

lemma keepsSequence_trialConns (subId : Uuid) (pairs : List (Env × Tag)) :
    KeepsSequence net (trialConns net subId pairs) := by
  induction pairs with
  | nil => exact .pure
  | cons pair rest ih =>
      obtain ⟨env, tag⟩ := pair
      refine (traceTriple_trialProto tag).bind fun r => ?_
      cases r with
      | error r => exact TraceTriple.pure fun _ _ h => h.sequence
      | ok proto =>
          refine keepsSequence_create fun now id r => ?_
          rcases r with e | st
          · exact ih
          · cases st with
            | ok _ => exact (keepsSequence_publishCreated _ _).bind fun _ => ih
            | _ => exact ih

lemma keepsSequence_createTrial (cfg : TrialConfig) (req : Trial) (subId : Uuid) :
    KeepsSequence cfg.net (createTrial cfg req subId) := by
  refine (traceTriple_ask .now).bind fun now => (traceTriple_ask .now).bind fun created => ?_
  refine (KeepsSequence.of_quiet (addressQuiet_addSub _)).bind fun r => ?_
  rcases r with e | st
  · exact .pure
  · cases st with
    | ok newSubId =>
        refine (keepsSequence_trialConns newSubId cfg.pairs).bind fun r => ?_
        cases r with
        | error r => exact .pure
        | ok u =>
            have hsave : ∀ email id time refBy,
                KeepsSequence cfg.net (saveTrialHmac cfg email id time refBy) :=
              fun email id time refBy =>
                .of_quiet ((uses_saveTrialHmac cfg email id time refBy).mono fun _ _ =>
                  addressQuiet_mail)
            exact (hsave _ _ _ _).bind fun _ => (hsave _ _ _ _).bind fun _ => .pure
    | _ => exact .pure

lemma keepsSequence_grantTrial (cfg : TrialConfig) (req : Trial) :
    KeepsSequence cfg.net (grantTrial cfg req) := by
  refine (traceTriple_ask .uuid).bind fun subId => ?_
  refine (KeepsSequence.of_quiet (addressQuiet_referral _ _ _ _)).bind fun r => ?_
  rcases r with r | owner
  · exact .pure
  · cases owner with
    | none => exact keepsSequence_createTrial cfg req subId
    | some owner =>
        refine (KeepsSequence.of_quiet (addressQuiet_addDays owner.1 owner.2)).bind fun r => ?_
        cases r with
        | error e => exact .pure
        | ok st => exact keepsSequence_createTrial cfg req subId

lemma keepsSequence_postTrialHandler (cfg : TrialConfig) (req : Trial) :
    KeepsSequence cfg.net (postTrialHandler cfg req) := by
  rw [postTrialHandler]
  cases req.validate with
  | error e => exact .pure
  | ok u =>
      have hcheck : ∀ email, KeepsSequence cfg.net (checkEmailHmac cfg.hmac email) := fun email =>
        .of_quiet ((uses_checkEmailHmac cfg.hmac email).mono fun _ _ => addressQuiet_mail)
      refine (hcheck req.user).bind fun known => ?_
      cases known with
      | true => exact .pure
      | false =>
          refine (hcheck req.email).bind fun known => ?_
          cases known with
          | true => exact .pure
          | false => exact (keepsSequence_grantTrial cfg req).bind fun _ => .pure

end Creations

/-! ### Sequences of operations -/

/-- The network that an operation takes its addresses from. -/
def ApiOp.network : ApiOp → Option IpAddrMask
  | createConnection _ net => some net
  | postTrial cfg _ => some cfg.net
  | _ => none

/-- Every operation keeps the invariant. -/
lemma keepsSequence_op {net : IpAddrMask} {op : ApiOp} (hnet : ∀ n ∈ op.network, n = net)
    (lower : String → String) : KeepsSequence net (op.prog lower) := by
  cases op with
  | createConnection req n =>
      obtain rfl := hnet n rfl
      exact (keepsSequence_createConnectionHandler req).forget
  | postTrial cfg req =>
      obtain rfl := hnet cfg.net rfl
      exact (keepsSequence_postTrialHandler cfg req).forget
  | deleteConnection connId =>
      exact (KeepsSequence.of_quiet
        ((uses_deleteConnectionHandler connId).mono fun _ _ => addressQuiet_delete)).forget
  | getConnections req =>
      exact (KeepsSequence.of_quiet
        ((uses_getConnectionsHandler req).mono fun _ _ => addressQuiet_sync)).forget
  | postSubscription req bonus codes =>
      exact (KeepsSequence.of_quiet (addressQuiet_postSubscriptionHandler req bonus codes)).forget
  | putSubscription subId req =>
      exact (KeepsSequence.of_quiet
        ((uses_putSubscriptionHandler subId req).mono fun _ _ => addressQuiet_sub)).forget
  | postKey crates T secret random req =>
      exact (KeepsSequence.of_quiet
        ((uses_postKeyHandler crates T secret random req).mono fun _ _ => addressQuiet_key)).forget
  | postActivateKey req =>
      exact (KeepsSequence.of_quiet (addressQuiet_postActivateKeyHandler req)).forget
  | cleanupExpiredConnections =>
      exact .of_quiet (uses_cleanupExpiredConnections.mono fun _ _ => addressQuiet_delete)
  | cleanupExpiredSubscriptions =>
      exact .of_quiet (uses_cleanupExpiredSubscriptions.mono fun _ _ => addressQuiet_delete)
  | restoreSubscriptions => exact .of_quiet ⟨trivial, addressQuiet_restoreSubs⟩
  | getStateFromDb => exact (keepsSequence_getStateFromDb net lower).forget

lemma wgSequence_empty (net : IpAddrMask) : WgSequence net [] World.empty where
  inOrder := trivial
  rows id ip := by
    constructor
    · intro h
      cases h
    · intro h
      cases h
  addressed id := by
    intro h
    cases h
  memory id := rfl

/-- **WireGuard addresses follow one another**: after every sequence of operations on one
network from an empty database, whatever fails on the way, the WireGuard rows of the database
are the noted ones, the memory has the same connections with the same addresses, the addresses
in the order of creation are the first peer address and those above it one by one, all in the
network, and an address is refused exactly when the network has no first peer address or the
next address lies outside the network or the address space. -/
theorem wg_addresses_sequential {lower : String → String} {net : IpAddrMask} {ops : List ApiOp}
    {w : List WgEvent} {s : World} (hnet : ∀ op ∈ ops, ∀ n ∈ op.network, n = net)
    (hrun : SerialTraced Rule.any wgEvents (ApiOp.prog lower) World.empty ops w s) :
    (∀ id o, (∃ r, s.db.connections.get id = some r ∧ r.proto = .wireguard ∧ r.wgIpv4 = o) ↔
      ∃ ip, o = some ip ∧ (id, ip) ∈ storedIn w) ∧
    (∀ id, (s.memory.connections.get id).map (fun c => (c.proto.proto, c.wgIpv4)) =
      (s.db.connections.get id).map fun r => (r.proto, r.wgIpv4)) ∧
    (∀ k id ip, (storedIn w)[k]? = some (id, ip) → ∃ first, net.firstPeerIp = some first ∧
      ip.toNat = first.toNat + k ∧ net.containsIpv4 ip = true) ∧
    ∀ v o v', w = v ++ .allocation o :: v' →
      (o = none ↔ net.firstPeerIp = none ∨ ∃ first, net.firstPeerIp = some first ∧
        (2 ^ 32 ≤ first.toNat + (storedIn v).length ∨
          net.containsIpv4 (first + BitVec.ofNat 32 (storedIn v).length) = false)) := by
  have h : WgSequence net w s :=
    hrun.of_triple (fun op hop => keepsSequence_op (hnet op hop) lower) (wgSequence_empty net)
  refine ⟨fun id o => ?_, h.memory, fun k id ip hk => ?_, ?_⟩
  · have hrow : (∃ r, s.db.connections.get id = some r ∧ r.proto = .wireguard ∧ r.wgIpv4 = o) ↔
        rowIp id s.db = some (.wireguard, o) := by
      rw [rowIp, Option.map_eq_some_iff]
      simp only [Prod.mk.injEq]
    rw [hrow]
    cases o with
    | none => simpa using h.addressed id
    | some ip => simpa using h.rows id ip
  · have hpeer := h.inOrder.peerIp_of_getElem? hk
    rw [Nat.zero_add] at hpeer
    obtain ⟨first, hfirst, -, -, hin⟩ := peerIp_eq_some.mp hpeer
    exact ⟨first, hfirst, toNat_of_peerIp hpeer hfirst, hin⟩
  · rintro v o v' rfl
    have ho := (inOrder_append.mp h.inOrder).2.1
    rw [Nat.zero_add] at ho
    rw [ho]
    exact peerIp_eq_none

/-- The network `10.0.0.0/30`, with two peer addresses. -/
def smallNet : IpAddrMask := ⟨.v4 0x0A000000, 30⟩

/-- A WireGuard connection is created, with the inputs of its steps; `ok` tells whether its
row is inserted. -/
def wgCreation (ok : Bool) (id : Uuid) : ApiOp × List Input :=
  (.createConnection wgRequest smallNet,
    [Input.at 0, Input.at 0, Input.drawing id, { Input.at 0 with ok := ok }, Input.at 0,
      Input.at 0])

/-- An insertion fails, two connections are created around a deletion and a reload, and a
third is refused. -/
def smallRun : List (ApiOp × List Input) :=
  [wgCreation false 3, wgCreation true 1,
    (.deleteConnection 1, List.replicate 5 (Input.at 0)),
    (.getStateFromDb, List.replicate 5 (Input.at 0)), wgCreation true 2, wgCreation true 4]

/-- The two addresses of the small network are given out in order, and the third is refused at
its end. -/
theorem wg_addresses_sequential_to_the_end :
    ∃ w s, SerialTraced Rule.any wgEvents (ApiOp.prog id) World.empty (smallRun.map Prod.fst) w s ∧
      w = [.allocation (some 0x0A000002), .allocation (some 0x0A000002), .stored 1 0x0A000002,
        .allocation (some 0x0A000003), .stored 2 0x0A000003, .allocation none] ∧
      (∃ r, s.db.connections.get 2 = some r ∧ r.proto = .wireguard ∧
        r.wgIpv4 = some 0x0A000003) := by
  have hnotes : (serialTraceWith Rule.any wgEvents (ApiOp.prog id) smallRun World.empty).map
      Prod.fst = some [.allocation (some 0x0A000002), .allocation (some 0x0A000002),
        .stored 1 0x0A000002, .allocation (some 0x0A000003), .stored 2 0x0A000003,
        .allocation none] := by
    decide +kernel
  obtain ⟨⟨w, s⟩, hrun, hw⟩ := Option.map_eq_some_iff.mp hnotes
  have htrace := serialTraced_of_serialTraceWith .nil hrun
  have hnet : ∀ op ∈ smallRun.map Prod.fst, ∀ n ∈ op.network, n = smallNet := by
    simp [smallRun, wgCreation, ApiOp.network]
  obtain ⟨hrows, -⟩ := wg_addresses_sequential hnet htrace
  refine ⟨w, s, htrace, hw, (hrows 2 (some 0x0A000003)).mpr ⟨_, rfl, ?_⟩⟩
  rw [show w = _ from hw]
  decide

end Fcore
