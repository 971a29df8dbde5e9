import Fcore.Api.Handlers
import Fcore.Runs.DeleteRestore

/-!
Revocations on the bus, when calls fail (`delete_connection`,
`restore_connections_by_subscription`, `restore_connection`,
`get_state_from_db`).

A deletion writes the database, the bus and the memory, a restoration the bus, the
database and the memory.  A restoration whose database call fails leaves a deleted
connection with an update as its last message.  A deletion whose publication fails
leaves a connection deleted in the database only, and the next reload copies that
to the memory.

* `lastAction`: the action of the last message for a connection;
* `Revoked`: every connection that the memory marks deleted has a deletion as its
  last message;
* `reviveProtocol`: the account of a restoration holds the connections whose
  update is out and whose flag is still set;
* `RevInv.create`, `RevInv.delete`, `RevInv.restore`, `RevInv.reload`: what each
  operation keeps;
* `revocation_overwritten`: a failing restoration breaks the property;
* `revocations_published`: the property after every sequence of operations in
  which no restoration fails at the database and no reload meets a connection that
  is deleted in the database only.
-/

namespace Fcore

open Calculus
open Calculus.Prog (perform)
open Machine (exec)

/-! ### Last messages -/

/-- The messages that went out, newest first. -/
def sent (bus : List (Topic × List Message)) : List Message := bus.flatMap fun e => e.2.reverse

/-- The action of the last message for a connection. -/
def lastAction (id : Uuid) (bus : List (Topic × List Message)) : Option Action :=
  ((sent bus).find? fun m => m.connId = id).map Message.action

lemma lastAction_cons_of_notMem {id : Uuid} {topic : Topic} {ms : List Message}
    {bus : List (Topic × List Message)} (h : ∀ m ∈ ms, m.connId ≠ id) :
    lastAction id ((topic, ms) :: bus) = lastAction id bus := by
  have hnone : ms.reverse.find? (fun m => m.connId = id) = none := by
    rw [List.find?_eq_none]
    intro m hm
    simpa using h m (List.mem_reverse.mp hm)
  rw [lastAction, sent, List.flatMap_cons, List.find?_append, hnone, Option.none_or]
  rfl

lemma lastAction_cons_self {m : Message} {topic : Topic} {bus : List (Topic × List Message)} :
    lastAction m.connId ((topic, [m]) :: bus) = some m.action := by
  simp [lastAction, sent]

/-! ### Operations -/

/-- The operations of the sequences. -/
inductive RevokeOp where
  | create (req : ConnCreateRequest) (net : IpAddrMask)
  | delete (connId : Uuid) (conn : Conn)
  | restore (subId : Uuid)
  | reload

/-- The program of an operation. -/
def RevokeOp.prog (lower : String → String) : RevokeOp → Prog Call Unit
  | create req net => (createConnectionHandler req net).forget
  | delete connId conn => (deleteConnection connId conn).forget
  | restore subId => (restoreConnectionsBySubscription subId).forget
  | reload => (getStateFromDb lower).forget

/-- The database marks a connection as deleted, the memory does not. -/
def halfDeleted (s : World) (r : ConnRow) : Bool :=
  r.isDeleted && r.proto != .mtproto && memFlag r.connId s != some true

/-- No restoration fails at the database, and no reload reads a connection that is
deleted in the database only. -/
def revocationsSafe : Rule Call Input World
  | _, _, .sql (.connRestore _), _, _, .error _ => false
  | _, _, .sql .connAll, i, s, .ok _ => (s.db.connAll i.order).all fun r => !halfDeleted s r
  | _, _, _, _, _, _ => true

/-- Connections that the memory marks deleted have a deletion as their last
message.  The creation of Mtproto connections is not published, so they are left
out. -/
def Revoked (s : World) : Prop :=
  ∀ ⦃id : Uuid⦄ ⦃c : Conn⦄, s.memory.connections.get id = some c → c.isDeleted = true →
    c.proto.proto ≠ .mtproto → lastAction id s.bus = some .delete

/-- The memory has only connections that the database has, with the same tag. -/
def KnownToDb (s : World) : Prop :=
  ∀ ⦃id : Uuid⦄ ⦃c : Conn⦄, s.memory.connections.get id = some c →
    ∃ r, s.db.connections.get id = some r ∧ r.proto = c.proto.proto

/-- The invariant between two operations. -/
structure RevInv (s : World) : Prop where
  known : KnownToDb s
  revoked : Revoked s

/-! ### Single steps -/

section Steps

variable {s s' : World} {id : Uuid} {v : Bool}

lemma KnownToDb.setDeleted (h : KnownToDb s) (i : Input) :
    KnownToDb { s with memory := (Edit.run (.setDeleted id v) i s.memory).1 } := by
  intro id' c hget
  change (s.memory.connections.change id _).get id' = some c at hget
  rw [Table.get_change] at hget
  split_ifs at hget with heq
  · obtain ⟨c', hget', rfl⟩ := Option.map_eq_some_iff.mp hget
    obtain ⟨r, hr, hproto⟩ := h hget'
    exact ⟨r, by rw [heq]; exact hr, hproto⟩
  · exact h hget

lemma KnownToDb.connSetDeleted (h : KnownToDb s) :
    KnownToDb { s with db := s.db.connSetDeleted id v } := by
  intro id' c hget
  obtain ⟨r, hr, hproto⟩ := h hget
  show ∃ r, (s.db.connections.change id _).get id' = some r ∧ _
  rw [Table.get_change]
  split_ifs with heq
  · rw [← heq, hr]
    exact ⟨_, rfl, hproto⟩
  · exact ⟨r, hr, hproto⟩

/-- A write of a flag to the database. -/
lemma RevInv.connSetDeleted (h : RevInv s) : RevInv { s with db := s.db.connSetDeleted id v } :=
  ⟨h.known.connSetDeleted, h.revoked⟩

/-- The publication of a deletion. -/
lemma RevInv.publishDelete (h : RevInv s) (c : Conn) (topic : Topic) :
    RevInv { s with bus := (topic, [c.asDeleteMessage id]) :: s.bus } := by
  refine ⟨h.known, fun id' c' hget hdel hproto => ?_⟩
  by_cases hid : id = id'
  · subst hid
    exact lastAction_cons_self (m := c.asDeleteMessage id)
  · rw [lastAction_cons_of_notMem (by simpa [Conn.asDeleteMessage, Conn.asMessage] using hid)]
    exact h.revoked hget hdel hproto

/-- A flag that is set in memory after the publication of the deletion. -/
lemma RevInv.setDeleted (h : RevInv s) (i : Input) (hlast : lastAction id s.bus = some .delete) :
    RevInv { s with memory := (Edit.run (.setDeleted id true) i s.memory).1 } := by
  refine ⟨h.known.setDeleted i, fun id' c' hget hdel hproto => ?_⟩
  change (s.memory.connections.change id _).get id' = some c' at hget
  rw [Table.get_change] at hget
  split_ifs at hget with heq
  · rw [heq]
    exact hlast
  · exact h.revoked hget hdel hproto

end Steps

/-! ### Deletions -/

/-- A deletion keeps the invariant, wherever it stops. -/
lemma RevInv.delete {rule : Rule Call Input World} {s s' : World} {connId : Uuid} {conn : Conn}
    {r : Except SyncError Status} (h : RevInv s)
    (hexec : Exec rule (deleteConnection connId conn) s r s') : RevInv s' := by
  rcases exec_deleteConnection hexec with ⟨rfl, -⟩ | ⟨rfl, -⟩ | ⟨i, -, -, rfl⟩
  · exact h
  · exact h.connSetDeleted
  · refine (h.connSetDeleted.publishDelete conn _).setDeleted i ?_
    exact lastAction_cons_self (m := conn.asDeleteMessage connId)

/-! ### Restorations -/

/-- The account of a restoration holds the connections whose update is out and
whose flag is still set. -/
def reviveProtocol : Protocol Call (Multiset Uuid) where
  admits
    | _, .sql (.connRestore _), r => r = .ok ()
    | _, _, _ => True
  may
    | _, .look _, _ => True
    | _, .bus _, _ => True
    | _, .ask _, _ => True
    | _, .sql (.connRestore _), _ => True
    | _, .edit (.setDeleted _ v), _ => v = false
    | _, _, _ => False
  moves
    | _, .bus (.publish _ ms), .ok _, a, a' => a' = a + (ms.map Message.connId : Multiset Uuid)
    | _, .look (.connection id), none, a, a' => a = a' + {id}
    | _, .edit (.setDeleted id _), _, a, a' => a = a' + {id}
    | _, _, _, a, a' => a' = a

lemma reviveProtocol_framed : Framed reviveProtocol where
  may := by
    intro β c a f h
    cases c with
    | edit w => cases w <;> exact h
    | sql q => cases q <;> exact h
    | _ => exact h
  moves := by
    intro β c b a a' f h
    have hsame : a' = a → a' + f = a + f := fun h => by rw [h]
    cases c with
    | edit w =>
        cases w with
        | setDeleted id v => exact add_frame f h
        | _ => exact hsame h
    | look r =>
        cases r with
        | connection id =>
            cases b with
            | none => exact add_frame f h
            | some c => exact hsame h
        | _ => exact hsame h
    | bus p =>
        cases p with
        | publish topic ms =>
            cases b with
            | error e => exact hsame h
            | ok u => exact add_frame f h
    | _ => exact hsame h

lemma reviveProtocol_pick : Free reviveProtocol (.ask .pick) :=
  fun _ => ⟨trivial, fun _ => rfl⟩

lemma reviveProtocol_restoreConnection (connId : Uuid) :
    Obeys reviveProtocol (fun _ a => a = 0) (restoreConnection connId) {connId} := by
  refine ⟨trivial, fun existing _ => ?_⟩
  cases existing with
  | none => exact ⟨0, (zero_add _).symm, rfl⟩
  | some c =>
      refine ⟨_, rfl, trivial, fun r hr => ⟨_, rfl, ?_⟩⟩
      obtain rfl : r = .ok () := hr
      exact ⟨rfl, fun _ _ => ⟨0, (zero_add _).symm, rfl⟩⟩

lemma reviveProtocol_restoreOne (e : Uuid × Conn) :
    Obeys reviveProtocol (fun _ a => a = 0) (restoreOne e) 0 := by
  refine ⟨trivial, fun r _ => ?_⟩
  cases r with
  | error err => exact ⟨0, rfl, rfl⟩
  | ok u =>
      refine ⟨{e.1}, (zero_add _).symm, ?_⟩
      refine (reviveProtocol_restoreConnection e.1).bind ?_
      rintro r a rfl
      rcases r with r | st
      · exact rfl
      · cases st <;> exact rfl

lemma reviveProtocol_restoreConnectionsBySubscription (subId : Uuid) :
    Obeys reviveProtocol (fun _ a => a = 0) (restoreConnectionsBySubscription subId) 0 := by
  refine ⟨trivial, fun es _ => ⟨0, rfl, ?_⟩⟩
  cases es with
  | nil => exact rfl
  | cons e es =>
      have hall : Obeys reviveProtocol (fun _ a => a = 0)
          (Prog.joinAll (.ask .pick) ((e :: es).map restoreOne)) 0 := by
        refine (Obeys.joinAll reviveProtocol_framed reviveProtocol_pick
          (G := fun _ _ => True) fun x _ => ?_).mono fun _ _ h => h.2
        exact (reviveProtocol_restoreOne x).mono fun _ _ h => ⟨trivial, h⟩
      exact hall.bind fun _ _ h => h

/-- The invariant in the course of a restoration. -/
structure ReviveInv (s : World) (t : Multiset Uuid) : Prop where
  known : KnownToDb s
  revoked : ∀ ⦃id : Uuid⦄ ⦃c : Conn⦄, s.memory.connections.get id = some c → c.isDeleted = true →
    c.proto.proto ≠ .mtproto → lastAction id s.bus = some .delete ∨ id ∈ t

/-- A publication puts its connections on the account. -/
lemma ReviveInv.publish {s : World} {t : Multiset Uuid} (h : ReviveInv s t) (topic : Topic)
    (ms : List Message) : ReviveInv { s with bus := (topic, ms) :: s.bus }
      (t + (ms.map Message.connId : Multiset Uuid)) := by
  refine ⟨h.known, fun id c hget hdel hproto => ?_⟩
  by_cases hid : id ∈ ms.map Message.connId
  · exact Or.inr (Multiset.mem_add.mpr (Or.inr hid))
  · have hother : ∀ m ∈ ms, m.connId ≠ id := fun m hm heq =>
      hid (List.mem_map.mpr ⟨m, hm, heq⟩)
    rcases h.revoked hget hdel hproto with hlast | hmem
    · exact Or.inl (by rw [lastAction_cons_of_notMem hother, hlast])
    · exact Or.inr (Multiset.mem_add.mpr (Or.inl hmem))

/-- A connection that is not deleted in memory may leave the account. -/
lemma ReviveInv.settle {s s' : World} {t : Multiset Uuid} {id : Uuid}
    (h : ReviveInv s (t + {id})) (hknown : KnownToDb s') (hbus : s'.bus = s.bus)
    (hself : ∀ c, s'.memory.connections.get id = some c → c.isDeleted = false)
    (hothers : ∀ id', id' ≠ id →
      s'.memory.connections.get id' = s.memory.connections.get id') : ReviveInv s' t := by
  refine ⟨hknown, fun id' c hget hdel hproto => ?_⟩
  by_cases hid : id' = id
  · rw [hid] at hget
    rw [hself c hget] at hdel
    cases hdel
  · rw [hothers id' hid] at hget
    rw [hbus]
    rcases h.revoked hget hdel hproto with hlast | hmem
    · exact Or.inl hlast
    · rcases Multiset.mem_add.mp hmem with hmem | hmem
      · exact Or.inr hmem
      · exact absurd (Multiset.mem_singleton.mp hmem) hid

lemma keeps_reviveInv : KeepsAlone revocationsSafe reviveProtocol ReviveInv := by
  intro β c i s s' b a hexec hrule hmay hinv
  cases c with
  | look r =>
      obtain ⟨-, rfl, hb⟩ := exec_look.mp hexec
      refine ⟨trivial, fun a' hm => ?_⟩
      cases r with
      | connection id =>
          cases b with
          | none =>
              obtain rfl : a = a' + {id} := hm
              refine hinv.settle hinv.known rfl (fun c hget => ?_) fun _ _ => rfl
              have hnone : s'.memory.connections.get id = none := hb.symm
              rw [hget] at hnone
              cases hnone
          | some c => rwa [show a' = a from hm]
      | _ => rwa [show a' = a from hm]
  | bus p =>
      obtain ⟨rfl, rfl⟩ := exec_bus.mp hexec
      cases p with
      | publish topic ms =>
          refine ⟨trivial, fun a' hm => ?_⟩
          rw [Call.execBus] at hm ⊢
          cases hok : i.ok with
          | false =>
              rw [hok] at hm
              rwa [show a' = a from hm]
          | true =>
              rw [hok] at hm
              rw [show a' = _ from hm]
              exact hinv.publish topic ms
  | ask q =>
      obtain ⟨rfl, -⟩ := exec_ask.mp hexec
      exact ⟨trivial, fun a' hm => by rwa [show a' = a from hm]⟩
  | sql q =>
      obtain ⟨rfl, rfl⟩ := exec_sql.mp hexec
      cases q with
      | connRestore id =>
          rw [Sql.run] at hrule ⊢
          cases hok : i.ok with
          | false =>
              rw [hok] at hrule
              cases hrule
          | true =>
              refine ⟨rfl, fun a' hm => ?_⟩
              rw [show a' = a from hm]
              exact ⟨hinv.known.connSetDeleted, hinv.revoked⟩
      | _ => exact hmay.elim
  | edit w =>
      cases w with
      | setDeleted id v =>
          obtain rfl : v = false := hmay
          obtain ⟨-, rfl, -⟩ := exec_edit.mp hexec
          refine ⟨trivial, fun a' hm => ?_⟩
          obtain rfl : a = a' + {id} := hm
          refine hinv.settle (hinv.known.setDeleted i) rfl (fun c hget => ?_) fun id' hid => ?_
          · change (s.memory.connections.change id _).get id = some c at hget
            rw [Table.get_change_self] at hget
            obtain ⟨c', -, rfl⟩ := Option.map_eq_some_iff.mp hget
            rfl
          · show (s.memory.connections.change id _).get id' = _
            rw [Table.get_change, if_neg hid]
      | _ => exact hmay.elim
  | _ => exact hmay.elim

/-- A restoration keeps the invariant when it does not fail at the database. -/
lemma RevInv.restore {s s' : World} {subId : Uuid} {r : List Uuid} (h : RevInv s)
    (hexec : Exec revocationsSafe (restoreConnectionsBySubscription subId) s r s') :
    RevInv s' := by
  have hinit : ReviveInv s 0 := ⟨h.known, fun _ _ hget hdel hproto =>
    Or.inl (h.revoked hget hdel hproto)⟩
  obtain ⟨a, rfl, hinv⟩ := Exec.sound keeps_reviveInv hexec
    (reviveProtocol_restoreConnectionsBySubscription subId) hinit
  refine ⟨hinv.known, fun id c hget hdel hproto => ?_⟩
  rcases hinv.revoked hget hdel hproto with hlast | hmem
  · exact hlast
  · exact absurd hmem (Multiset.notMem_zero _)

/-! ### Creations -/

/-- A connection that is new to the database is new to the memory. -/
lemma KnownToDb.get_connAdd {s : World} (h : KnownToDb s) {id : Uuid} (c : Conn) (i : Input)
    (hnone : s.db.connections.get id = none) (id' : Uuid) :
    Table.get (Edit.run (.connAdd id c) i s.memory).1.connections id' =
      if id' = id then some c else s.memory.connections.get id' := by
  have hmem : s.memory.connections.get id = none := by
    cases hget : s.memory.connections.get id with
    | none => rfl
    | some c' =>
        obtain ⟨r, hr, -⟩ := h hget
        rw [hnone] at hr
        cases hr
  show (s.memory.connections.vacant id c).get id' = _
  rw [Table.get_vacant, hmem]
  rfl

/-- A connection that is stored in database and memory. -/
lemma RevInv.store {s : World} (h : RevInv s) {id : Uuid} {c : Conn} {row : ConnRow} (i : Input)
    (hnone : s.db.connections.get id = none) (hc : c.isDeleted = false)
    (hrow : row.proto = c.proto.proto) :
    RevInv { s with
      db := { s.db with connections := s.db.connections.put id row }
      memory := (Edit.run (.connAdd id c) i s.memory).1 } := by
  have hget := h.known.get_connAdd c i hnone
  constructor
  · intro id' c' hget'
    change Table.get (Edit.run (.connAdd id c) i s.memory).1.connections id' = some c' at hget'
    show ∃ r, (s.db.connections.put id row).get id' = some r ∧ _
    rw [hget] at hget'
    rw [Table.get_put]
    split_ifs at hget' ⊢
    · rw [← Option.some.inj hget']
      exact ⟨row, rfl, hrow⟩
    · exact h.known hget'
  · intro id' c' hget' hdel hproto
    change Table.get (Edit.run (.connAdd id c) i s.memory).1.connections id' = some c' at hget'
    rw [hget] at hget'
    split_ifs at hget' with hid
    · rw [← Option.some.inj hget', hc] at hdel
      cases hdel
    · exact h.revoked hget' hdel hproto

/-- Messages for a connection that is not deleted in memory. -/
lemma RevInv.publish {s : World} (h : RevInv s) {topic : Topic} {m : Message}
    (hm : ∀ c, s.memory.connections.get m.connId = some c → c.isDeleted = false) :
    RevInv { s with bus := (topic, [m]) :: s.bus } := by
  refine ⟨h.known, fun id c hget hdel hproto => ?_⟩
  rw [lastAction_cons_of_notMem ?_]
  · exact h.revoked hget hdel hproto
  · intro m' hm' heq
    obtain rfl := List.mem_singleton.mp hm'
    rw [hm c (by rwa [heq])] at hdel
    cases hdel

/-- The announcement of a connection that is not deleted. -/
lemma RevInv.publishCreated {rule : Rule Call Input World} {s s' : World} {id : Uuid} {c : Conn}
    {u : Unit} (h : RevInv s)
    (halive : ∀ c', s.memory.connections.get id = some c' → c'.isDeleted = false)
    (hexec : Exec rule (publishCreated id c) s u s') : RevInv s' := by
  rcases exec_publishCreated hexec with rfl | ⟨rfl, -⟩
  · rw [announced]
    cases c.createTopic with
    | none => exact h
    | some topic => exact h.publish halive
  · exact h

/-- `add_conn` keeps the invariant, and leaves the connection alive if it
succeeds. -/
lemma RevInv.addConn {rule : Rule Call Input World} {s s' : World} {id : Uuid} {c : Conn}
    {r : Except SyncError Status} (h : RevInv s) (hc : c.isDeleted = false)
    (hexec : Exec rule (addConn id c) s r s') :
    RevInv s' ∧ ((∃ st, r = .ok st) →
      ∀ c', s'.memory.connections.get id = some c' → c'.isDeleted = false) := by
  rcases exec_addConn hexec with ⟨rfl, e, rfl⟩ | ⟨hnone, -, rfl⟩
  · exact ⟨h, fun hst => by obtain ⟨st, hst⟩ := hst; cases hst⟩
  · refine ⟨h.store default hnone hc rfl, fun _ c' hget => ?_⟩
    have hself := h.known.get_connAdd c default hnone id
    rw [if_pos rfl] at hself
    rw [Option.some.inj (hget.symm.trans hself), hc]

/-- A creation keeps the invariant. -/
lemma RevInv.create {rule : Rule Call Input World} {s s' : World} {req : ConnCreateRequest}
    {net : IpAddrMask} {r : Reply} (h : RevInv s)
    (hexec : Exec rule (createConnectionHandler req net) s r s') : RevInv s' := by
  simp only [createConnectionHandler, Prog.perform_bind] at hexec
  obtain ⟨expiredAt, s₁, hexpiry, hrest⟩ := hexec.of_bind
  obtain rfl : s₁ = s := state_of_expiryOf hexpiry
  obtain ⟨i₂, s₂, proto, hlook, -, hrest⟩ := hrest.of_call
  obtain ⟨-, hs₂, -⟩ := exec_look.mp hlook
  rw [hs₂] at hrest
  cases proto with
  | error r =>
      obtain ⟨-, rfl⟩ := hrest.of_pure
      exact h
  | ok proto =>
      obtain ⟨i₃, s₃, now, hask, -, hrest⟩ := hrest.of_call
      rw [(exec_ask.mp hask).1] at hrest
      obtain ⟨i₄, s₄, connId, hask, -, hrest⟩ := hrest.of_call
      rw [(exec_ask.mp hask).1] at hrest
      obtain ⟨st, s₅, hadd, hrest⟩ := hrest.of_bind
      obtain ⟨hinv, halive⟩ := h.addConn rfl hadd
      rcases st with e | st
      · obtain ⟨-, rfl⟩ := hrest.of_pure
        exact hinv
      · cases st with
        | ok id =>
            obtain ⟨u, s₆, hpub, hrest⟩ := hrest.of_bind
            obtain ⟨-, rfl⟩ := hrest.of_pure
            exact hinv.publishCreated (halive ⟨_, rfl⟩) hpub
        | _ =>
            obtain ⟨-, rfl⟩ := hrest.of_pure
            exact hinv

/-! ### Reloads -/

/-- The invariant is about the memory, the database and the bus only. -/
lemma RevInv.frame {s s' : World} (h : RevInv s) (hmem : s'.memory = s.memory)
    (hdb : s'.db = s.db) (hbus : s'.bus = s.bus) : RevInv s' := by
  refine ⟨fun id c hget => ?_, fun id c hget hdel hproto => ?_⟩
  · rw [hmem] at hget
    rw [hdb]
    exact h.known hget
  · rw [hmem] at hget
    rw [hbus]
    exact h.revoked hget hdel hproto

/-- The installation of the rows of the database. -/
lemma RevInv.install {lower : String → String} {s : World} (h : RevInv s) {order : List Uuid}
    {subs : List Subscription} {cache : Cache}
    (hcache : buildCache lower (s.db.connAll order) subs = .ok cache)
    (hsafe : ((s.db.connAll order).all fun r => !halfDeleted s r) = true) :
    RevInv { s with memory := cache } := by
  have hrow : ∀ {id : Uuid} {c : Conn}, cache.connections.get id = some c →
      ∃ r ∈ s.db.connAll order, r.connId = id ∧ r.toConn lower = .ok c := fun hget =>
    (buildCache_connections hcache (s.db.connAll_nodup order)).mp hget
  constructor
  · intro id c hget
    obtain ⟨r, hr, rfl, hconv⟩ := hrow hget
    obtain ⟨r', hr', heq⟩ := Db.mem_connAll.mp hr
    refine ⟨r', hr', ?_⟩
    rw [ConnRow.toConn_proto hconv, heq]
  · intro id c hget hdel hproto
    obtain ⟨r, hr, rfl, hconv⟩ := hrow hget
    obtain ⟨r', hr', heq⟩ := Db.mem_connAll.mp hr
    have hnot := List.all_eq_true.mp hsafe r hr
    rw [ConnRow.toConn_isDeleted hconv] at hdel
    rw [ConnRow.toConn_proto hconv] at hproto
    -- the connection is deleted in memory already
    have hflag : memFlag r.connId s = some true := by
      simpa [halfDeleted, hdel, hproto] using hnot
    obtain ⟨c₀, hget₀, hdel₀⟩ := Option.map_eq_some_iff.mp hflag
    refine h.revoked hget₀ hdel₀ ?_
    obtain ⟨r₀, hr₀, hproto₀⟩ := h.known hget₀
    rw [← hproto₀, ← Option.some.inj (hr'.symm.trans hr₀)]
    rwa [heq] at hproto

/-- A reload keeps the invariant when it meets no connection that is deleted in
the database only. -/
lemma RevInv.reload {lower : String → String} {s s' : World} {r : Except Error Unit}
    (h : RevInv s) (hexec : Exec revocationsSafe (getStateFromDb lower) s r s') : RevInv s' := by
  obtain ⟨hdb, hbus, ⟨-, hmem⟩ | ⟨-, i, order, l, hrule, hcache⟩⟩ := exec_getStateFromDb hexec
  · exact h.frame hmem hdb hbus
  · exact (h.install hcache hrule).frame rfl hdb hbus

/-! ### Sequences -/

/-- Every operation keeps the invariant. -/
lemma RevInv.op {lower : String → String} {op : RevokeOp} {s s' : World} {u : Unit}
    (hexec : Exec revocationsSafe (op.prog lower) s u s') (h : RevInv s) : RevInv s' := by
  cases op with
  | create req net =>
      obtain ⟨r, hexec⟩ := Exec.of_forget hexec
      exact h.create hexec
  | delete connId conn =>
      obtain ⟨r, hexec⟩ := Exec.of_forget hexec
      exact h.delete hexec
  | restore subId =>
      obtain ⟨r, hexec⟩ := Exec.of_forget hexec
      exact h.restore hexec
  | reload =>
      obtain ⟨r, hexec⟩ := Exec.of_forget hexec
      exact h.reload hexec

/-- **Revocations are published**: after every sequence of creations, deletions,
restorations and reloads, with any failures except restorations that fail at the
database and reloads of a connection that is deleted in the database only, every
connection that the memory marks deleted has a deletion as its last message. -/
theorem revocations_published {lower : String → String} {ops : List RevokeOp} {s₀ s : World}
    (hknown : KnownToDb s₀) (hrevoked : Revoked s₀)
    (hrun : Serial revocationsSafe (RevokeOp.prog lower) s₀ ops s) : Revoked s :=
  (hrun.sound RevInv.op ⟨hknown, hrevoked⟩).revoked

lemma sampleWorld_connection {id : Uuid} {c : Conn}
    (h : sampleWorld.memory.connections.get id = some c) : id = 1 ∧ c = sampleConn := by
  change ((∅ : Connections Conn).put 1 sampleConn).get id = some c at h
  rw [Table.get_put] at h
  split_ifs at h with hid
  · exact ⟨hid, (Option.some.inj h).symm⟩
  · cases h

lemma sampleWorld_knownToDb : KnownToDb sampleWorld := by
  intro id c hget
  obtain ⟨rfl, rfl⟩ := sampleWorld_connection hget
  exact ⟨_, rfl, rfl⟩

lemma sampleWorld_revoked : Revoked sampleWorld := by
  intro id c hget hdel
  obtain ⟨-, rfl⟩ := sampleWorld_connection hget
  cases hdel

/-- A deletion and a restoration that go through meet the condition. -/
theorem revocations_published_after_restore :
    ∃ s, Serial revocationsSafe (RevokeOp.prog id) sampleWorld
        [.delete 1 sampleConn, .restore 7] s ∧ Revoked s := by
  have hrun : ((execWith revocationsSafe (List.replicate 4 (Input.at 5))
      (RevokeOp.prog id (.delete 1 sampleConn)) sampleWorld).bind fun r =>
        execWith revocationsSafe (List.replicate 5 (Input.at 6))
          (RevokeOp.prog id (.restore 7)) r.1).isSome = true := by
    decide +kernel
  obtain ⟨⟨s', u'⟩, hboth⟩ := Option.isSome_iff_exists.mp hrun
  obtain ⟨⟨s, u⟩, hfirst, hsecond⟩ := Option.bind_eq_some_iff.mp hboth
  have hops : Serial revocationsSafe (RevokeOp.prog id) sampleWorld
      [.delete 1 sampleConn, .restore 7] s' :=
    .snoc (.snoc .nil (exec_of_execWith hfirst)) (exec_of_execWith hsecond)
  exact ⟨s', hops, revocations_published sampleWorld_knownToDb sampleWorld_revoked hops⟩

/-- A deletion goes through; the restoration publishes its update and then fails at
the database. -/
theorem revocation_overwritten :
    Revoked sampleWorld ∧ ∃ s, Serial Rule.any (RevokeOp.prog id) sampleWorld
      [.delete 1 sampleConn, .restore 7] s ∧ ¬ Revoked s := by
  refine ⟨sampleWorld_revoked, ?_⟩
  have hrun : ((execWith Rule.any (List.replicate 4 (Input.at 5))
      (RevokeOp.prog id (.delete 1 sampleConn)) sampleWorld).bind fun r =>
        execWith Rule.any [Input.at 6, Input.at 6, Input.at 6, { Input.at 6 with ok := false }]
          (RevokeOp.prog id (.restore 7)) r.1).map
      (fun r => ((r.1.memory.connections.get 1).map fun c => (c.isDeleted, c.proto.proto),
        lastAction 1 r.1.bus)) = some (some (true, .vmess), some .update) := by
    decide +kernel
  obtain ⟨⟨s', u'⟩, hboth, hstate⟩ := Option.map_eq_some_iff.mp hrun
  obtain ⟨⟨s, u⟩, hfirst, hsecond⟩ := Option.bind_eq_some_iff.mp hboth
  refine ⟨s', .snoc (.snoc .nil (exec_of_execWith hfirst)) (exec_of_execWith hsecond), ?_⟩
  obtain ⟨hconn, hlast⟩ : _ ∧ _ := Prod.mk.inj hstate
  obtain ⟨c, hget, hc⟩ := Option.map_eq_some_iff.mp hconn
  obtain ⟨hdel, hproto⟩ : _ ∧ _ := Prod.mk.inj hc
  intro hrevoked
  have hdelete := hrevoked hget hdel (by rw [hproto]; decide)
  rw [show lastAction 1 s'.bus = some .update from hlast] at hdelete
  cases hdelete

end Fcore
