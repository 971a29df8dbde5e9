import Fcore.Api.Handlers
import Fcore.Runs.DeleteRestore

/-!
Explicit deletions and what comes after them (`delete_connection_handler`,
`restore_subscriptions`, `restore_connections_by_subscription`).

The deleted flag does not tell why a connection was deleted.  The tick
`restore_subscriptions` takes every deleted connection of an active subscription
for one that had expired together with it, and restores it.

* `ApiOp`: the requests that write connections, subscriptions or keys, and the
  background ticks;
* `durableProtocol`: the steps that leave a deleted connection of an active
  subscription alone;
* `Gone`: the connection is deleted in memory and in the database;
* `deletion_undone`: the tick that restores an explicitly deleted connection;
* `deletion_durable`: without that tick a deletion lasts, in every interleaving,
  as long as the subscription is active.

Requests that only read, and those on nodes and metrics, touch none of this.
-/

namespace Fcore

open Calculus
open Machine (exec)

/-! ### Requests and ticks -/

/-- The requests and ticks. -/
inductive ApiOp where
  | createConnection (req : ConnCreateRequest) (net : IpAddrMask)
  | deleteConnection (connId : Uuid)
  | getConnections (req : ConnType)
  | postSubscription (req : SubReq) (bonus : ℤ) (systemReferCodes : List String)
  | putSubscription (subId : Uuid) (req : SubReq)
  | postTrial (cfg : TrialConfig) (req : Trial)
  | postKey (crates : CodeCrates) (T : CaseTable) (secret : List UInt8) (random : Vector UInt8 6)
      (req : KeyReq)
  | postActivateKey (req : ActivateKeyReq)
  | cleanupExpiredConnections
  | cleanupExpiredSubscriptions
  | restoreSubscriptions
  | getStateFromDb

/-- The program of a request or tick. -/
def ApiOp.prog (lower : String → String) : ApiOp → Prog Call Unit
  | createConnection req net => (createConnectionHandler req net).forget
  | deleteConnection connId => (deleteConnectionHandler connId).forget
  | getConnections req => (getConnectionsHandler req).forget
  | postSubscription req bonus codes => (postSubscriptionHandler req bonus codes).forget
  | putSubscription subId req => (putSubscriptionHandler subId req).forget
  | postTrial cfg req => (postTrialHandler cfg req).forget
  | postKey crates T secret random req => (postKeyHandler crates T secret random req).forget
  | postActivateKey req => (postActivateKeyHandler req).forget
  | cleanupExpiredConnections => Fcore.cleanupExpiredConnections
  | cleanupExpiredSubscriptions => Fcore.cleanupExpiredSubscriptions
  | restoreSubscriptions => Fcore.restoreSubscriptions
  | getStateFromDb => (Fcore.getStateFromDb lower).forget

/-- The subscription is active in memory at a given time. -/
def activeAt (sid : Uuid) (s : World) (now : DateTime) : Bool :=
  (s.memory.subscriptions.get sid).any fun sub => sub.isActive now

/-- Nothing fails, and the subscription is active at every step. -/
def activeThroughout (sid : Uuid) : Rule Call Input World := fun _ _ _ i s _ =>
  i.ok && activeAt sid s i.now

/-- The subscription of a connection in memory. -/
def memSub (cid : Uuid) (s : World) : Option Uuid :=
  (s.memory.connections.get cid).bind Conn.subscriptionId

/-- The subscription of a connection in the database. -/
def dbSub (cid : Uuid) (s : World) : Option Uuid :=
  (s.db.connections.get cid).bind ConnRow.subscriptionId

/-- A connection of the memory that is deleted and belongs to the subscription. -/
def GoneConn (sid : Uuid) (c : Conn) : Prop := c.isDeleted = true ∧ c.subscriptionId = some sid

/-- A row that is deleted and belongs to the subscription. -/
def GoneRow (sid : Uuid) (r : ConnRow) : Prop := r.isDeleted = true ∧ r.subscriptionId = some sid

/-- The connection is deleted in memory and in the database, and both have it with
the subscription. -/
structure Gone (cid sid : Uuid) (s : World) : Prop where
  memory : ∃ c, s.memory.connections.get cid = some c ∧ GoneConn sid c
  db : ∃ r, s.db.connections.get cid = some r ∧ GoneRow sid r

/-! ### The protocol -/

/-- Nobody restores the connection.  What is read tells that the subscription is
active and that the rows have the connection as deleted. -/
def durableProtocol (cid sid : Uuid) : Protocol Call Unit where
  admits
    | _, .look (.wasInactive sub), b => sub = sid → b = false
    | _, .look (.toRestore sub), es => ∀ e ∈ es, e.1 = cid → sub = sid
    | _, .sql .connAll, .ok rows =>
        (rows.map ConnRow.connId).Nodup ∧ ∃ r ∈ rows, r.connId = cid ∧ GoneRow sid r
    | _, _, _ => True
  may
    | _, .sql (.connRestore id), _ => id ≠ cid
    | _, .edit (.setDeleted id v), _ => v = false → id ≠ cid
    | _, .edit (.install _), _ => False
    | _, .within (.setDeleted _ _), _ => False
    | _, .within (.install cache), _ => ∃ c, cache.connections.get cid = some c ∧ GoneConn sid c
    | _, _, _ => True
  moves _ _ _ _ _ := True

/-- The steps that can never restore a connection. -/
def harmless : (β : Type) → Call β → Prop
  | _, .sql (.connRestore _) => False
  | _, .edit (.setDeleted _ v) => v = true
  | _, .edit (.install _) => False
  | _, .within (.setDeleted _ _) => False
  | _, .within (.install _) => False
  | _, _ => True

section Programs

variable {cid sid : Uuid} {α : Type}

/-- The program restores nothing that it should not. -/
def Durable (cid sid : Uuid) (p : Api α) : Prop :=
  Obeys (durableProtocol cid sid) (fun _ _ => True) p ()

lemma Durable.bind {γ : Type} {p : Api α} {f : α → Api γ} (hp : Durable cid sid p)
    (hf : ∀ x, Durable cid sid (f x)) : Durable cid sid (p >>= f) :=
  Obeys.bind hp fun x _ _ => hf x

lemma Durable.of_may {p : Api α} (hp : Uses (fun β c => (durableProtocol cid sid).may β c ()) p) :
    Durable cid sid p :=
  (Obeys.of_uses hp fun _ _ hc => ⟨hc, fun _ => trivial⟩).mono fun _ _ _ => trivial

lemma may_of_harmless {β : Type} {c : Call β} (hc : harmless β c) :
    (durableProtocol cid sid).may β c () := by
  cases c with
  | sql q => cases q <;> first | exact trivial | exact hc.elim
  | edit w =>
      cases w with
      | setDeleted id v =>
          intro hv
          rw [show v = true from hc] at hv
          cases hv
      | install cache => exact hc.elim
      | _ => exact trivial
  | within w => cases w <;> first | exact trivial | exact hc.elim
  | _ => exact trivial

lemma Durable.of_harmless {p : Api α} (hp : Uses harmless p) : Durable cid sid p :=
  Durable.of_may (hp.mono fun _ _ => may_of_harmless)

/-! #### Requests without restorations -/

lemma harmless_quiet {β : Type} {c : Call β} (hc : QuietCall β c) : harmless β c := by
  cases hc <;> exact trivial

lemma harmless_trial {β : Type} {c : Call β} (hc : TrialCall β c) : harmless β c := by
  cases hc with
  | quiet hquiet => exact harmless_quiet hquiet
  | _ => exact trivial

lemma harmless_mail {β : Type} {c : Call β} (hc : MailCall β c) : harmless β c := by
  cases hc
  exact trivial

lemma harmless_delete {β : Type} {c : Call β} (hc : DeleteCall β c) : harmless β c := by
  cases hc with
  | mark => exact rfl
  | _ => exact trivial

lemma harmless_sub {β : Type} {c : Call β} (hc : SubCall β c) : harmless β c := by
  cases hc <;> exact trivial

lemma harmless_key {β : Type} {c : Call β} (hc : KeyCall β c) : harmless β c := by
  cases hc <;> exact trivial

lemma harmless_sync {β : Type} {c : Call β} (hc : SyncCall β c) : harmless β c := by
  cases hc <;> exact trivial

lemma harmless_addSub (sub : Subscription) : Uses harmless (addSub sub) :=
  (uses_addSub sub).mono fun _ _ => harmless_sub

lemma harmless_createConnectionHandler (req : ConnCreateRequest) (net : IpAddrMask) :
    Uses harmless (createConnectionHandler req net) := by
  have hexpiry : Uses harmless (expiryOf req.days) :=
    (uses_expiryOf req.days).mono fun _ _ => harmless_quiet
  refine hexpiry.bind fun expiredAt => ⟨trivial, fun r => ?_⟩
  cases r with
  | error r => exact trivial
  | ok proto =>
      refine ⟨trivial, fun now => ⟨trivial, fun connId => ?_⟩⟩
      have hadd : ∀ conn, Uses harmless (addConn connId conn) := fun conn =>
        (uses_addConn connId conn).mono fun _ _ => harmless_trial
      refine (hadd _).bind fun r => ?_
      rcases r with e | st
      · exact trivial
      · cases st with
        | ok id =>
            have hpublish : ∀ conn, Uses harmless (publishCreated connId conn) := fun conn =>
              (uses_publishCreated connId conn).mono fun _ _ => harmless_quiet
            exact (hpublish _).bind fun _ => trivial
        | _ => exact trivial

/-! #### Restorations and reloads -/

lemma durable_restoreConnectionsBySubscription {subId : Uuid} (hsub : subId ≠ sid) :
    Durable cid sid (restoreConnectionsBySubscription subId) := by
  refine ⟨trivial, fun es hes => ⟨(), trivial, ?_⟩⟩
  have hother : ∀ e ∈ es, e.1 ≠ cid := fun e he heq => hsub (hes e he heq)
  cases es with
  | nil => exact trivial
  | cons e es =>
      refine Durable.bind (p := Prog.joinAll (.ask .pick) ((e :: es).map restoreOne))
        (Durable.of_may ?_) fun _ => trivial
      have hpick : (durableProtocol cid sid).may _ (.ask .pick) () := trivial
      refine Uses.joinAll hpick fun p hp => ?_
      obtain ⟨e', he', rfl⟩ := List.mem_map.mp hp
      have hne := hother e' he'
      refine ⟨trivial, fun r => ?_⟩
      cases r with
      | error err => exact trivial
      | ok u =>
          refine Uses.bind (p := restoreConnection e'.1) ⟨trivial, fun existing => ?_⟩ fun r => ?_
          · cases existing with
            | none => exact trivial
            | some c =>
                refine ⟨hne, fun r => ?_⟩
                cases r with
                | error err => exact trivial
                | ok u => exact ⟨fun _ => hne, fun _ => trivial⟩
          · rcases r with r | st
            · exact trivial
            · cases st <;> exact trivial

/-- A day credit restores connections of subscriptions that were inactive, so not of
this one. -/
lemma durable_addDays (subId : Uuid) (n : ℤ) : Durable cid sid (addDays subId n) := by
  refine ⟨trivial, fun wasInactive hactive => ⟨(), trivial, trivial, fun found _ =>
    ⟨(), trivial, ?_⟩⟩⟩
  cases found with
  | false => exact trivial
  | true =>
      refine ⟨trivial, fun r _ => ⟨(), trivial, ?_⟩⟩
      cases r with
      | error e => exact trivial
      | ok row =>
          cases wasInactive with
          | false => exact trivial
          | true =>
              have hsub : subId ≠ sid := fun heq => by cases hactive heq
              exact Durable.bind (p := restoreConnectionsBySubscription subId)
                (durable_restoreConnectionsBySubscription hsub) fun _ => trivial

lemma durable_getStateFromDb (lower : String → String) :
    Durable cid sid (getStateFromDb lower) := by
  rw [Durable]
  simp only [getStateFromDb, Prog.perform_bind]
  refine ⟨trivial, fun _ _ => ⟨(), trivial, trivial, fun r hrows => ⟨(), trivial, ?_⟩⟩⟩
  cases r with
  | error e => exact ⟨trivial, fun _ _ => ⟨(), trivial, trivial⟩⟩
  | ok rows =>
      refine ⟨trivial, fun r _ => ⟨(), trivial, ?_⟩⟩
      cases r with
      | error e => exact ⟨trivial, fun _ _ => ⟨(), trivial, trivial⟩⟩
      | ok subs =>
          dsimp only
          cases hcache : buildCache lower rows subs with
          | error e => exact ⟨trivial, fun _ _ => ⟨(), trivial, trivial⟩⟩
          | ok cache =>
              obtain ⟨hnodup, r, hr, rfl, hdel, hsub⟩ := hrows
              obtain ⟨c, hget, hconv⟩ := buildCache_connections_of_mem hcache hnodup hr
              refine ⟨⟨c, hget, ?_, ?_⟩, fun _ _ => ⟨(), trivial, trivial, fun _ _ =>
                ⟨(), trivial, trivial⟩⟩⟩
              · rw [ConnRow.toConn_isDeleted hconv, hdel]
              · rw [ConnRow.toConn_subscriptionId hconv, hsub]

/-! #### Requests with day credits -/

lemma harmless_referral (referredBy : Option String) (codes : List String) (bonus : ℤ)
    (missing : String) : Uses harmless (referral referredBy codes bonus missing) :=
  (uses_referral referredBy codes bonus missing).mono fun _ _ => harmless_sub

lemma durable_postSubscriptionHandler (req : SubReq) (bonus : ℤ) (codes : List String) :
    Durable cid sid (postSubscriptionHandler req bonus codes) := by
  refine ⟨trivial, fun subId _ => ⟨(), trivial, ?_⟩⟩
  refine Durable.bind (p := referral req.referredBy codes bonus "Refer code no found")
    (Durable.of_harmless (harmless_referral _ _ _ _)) fun owner => ?_
  cases owner with
  | error r => exact trivial
  | ok owner =>
      refine Durable.bind ?_ fun credited => ?_
      · rcases owner with _ | ⟨id, n⟩
        · exact trivial
        · exact durable_addDays id bonus
      · cases credited with
        | error e => exact trivial
        | ok st =>
            refine ⟨trivial, fun now _ => ⟨(), trivial, trivial, fun created _ =>
              ⟨(), trivial, ?_⟩⟩⟩
            refine Durable.bind (p := addSub _)
              (Durable.of_harmless (harmless_addSub _)) fun r => ?_
            rcases r with e | st
            · exact trivial
            · cases st <;> exact trivial

lemma harmless_saveTrialHmac (cfg : TrialConfig) (email : Option String) (subId : Uuid)
    (time : DateTime) (refBy : String) : Uses harmless (saveTrialHmac cfg email subId time refBy) :=
  (uses_saveTrialHmac cfg email subId time refBy).mono fun _ _ => harmless_mail

lemma harmless_createTrial (cfg : TrialConfig) (req : Trial) (subId : Uuid) :
    Uses harmless (createTrial cfg req subId) := by
  refine ⟨trivial, fun now => ⟨trivial, fun created => ?_⟩⟩
  refine (harmless_addSub _).bind fun r => ?_
  rcases r with e | st
  · exact trivial
  · cases st with
    | ok id =>
        have hconns : Uses harmless (trialConns cfg.net id cfg.pairs) :=
          (uses_trialConns _ _ _).mono fun _ _ => harmless_trial
        refine hconns.bind fun r => ?_
        cases r with
        | error r => exact trivial
        | ok u =>
            exact (harmless_saveTrialHmac _ _ _ _ _).bind fun _ =>
              (harmless_saveTrialHmac _ _ _ _ _).bind fun _ => trivial
    | _ => exact trivial

lemma durable_grantTrial (cfg : TrialConfig) (req : Trial) :
    Durable cid sid (grantTrial cfg req) := by
  refine ⟨trivial, fun subId _ => ⟨(), trivial, ?_⟩⟩
  refine Durable.bind
    (p := referral req.referredBy cfg.systemReferCodes cfg.bonus "Refer code not found")
    (Durable.of_harmless (harmless_referral _ _ _ _)) fun owner => ?_
  have hcreate : Durable cid sid (createTrial cfg req subId) :=
    Durable.of_harmless (harmless_createTrial cfg req subId)
  rcases owner with r | _ | ⟨id, n⟩
  · exact trivial
  · exact hcreate
  · refine Durable.bind (durable_addDays id n) fun r => ?_
    cases r with
    | error e => exact trivial
    | ok st => exact hcreate

lemma harmless_checkEmailHmac (hmac : String → String) (email : Option String) :
    Uses harmless (checkEmailHmac hmac email) :=
  (uses_checkEmailHmac hmac email).mono fun _ _ => harmless_mail

lemma durable_postTrialHandler (cfg : TrialConfig) (req : Trial) :
    Durable cid sid (postTrialHandler cfg req) := by
  rw [postTrialHandler]
  cases req.validate with
  | error e => exact trivial
  | ok u =>
      refine Durable.bind (Durable.of_harmless (harmless_checkEmailHmac _ _)) fun known => ?_
      cases known with
      | true => exact trivial
      | false =>
          refine Durable.bind (Durable.of_harmless (harmless_checkEmailHmac _ _)) fun known => ?_
          cases known with
          | true => exact trivial
          | false => exact Durable.bind (durable_grantTrial cfg req) fun _ => trivial

lemma durable_postActivateKeyHandler (req : ActivateKeyReq) :
    Durable cid sid (postActivateKeyHandler req) := by
  rw [Durable]
  simp only [postActivateKeyHandler, Prog.perform_bind]
  refine ⟨trivial, fun key _ => ⟨(), trivial, ?_⟩⟩
  cases key with
  | none => exact trivial
  | some key =>
      show Obeys _ _ (if key.activated then _ else _) _
      split
      · exact trivial
      · refine Durable.bind (durable_addDays req.subscriptionId key.days) fun r => ?_
        rcases r with e | st
        · exact trivial
        · cases st with
          | updated id =>
              refine ⟨trivial, fun now _ => ⟨(), trivial, trivial, fun r _ => ⟨(), trivial, ?_⟩⟩⟩
              cases r <;> exact trivial
          | _ => exact trivial

/-- Every request and every other tick is durable. -/
lemma durable_prog (lower : String → String) {op : ApiOp} (hop : op ≠ .restoreSubscriptions) :
    Durable cid sid (op.prog lower) := by
  cases op with
  | createConnection req net =>
      exact obeys_forget.mpr (Durable.of_harmless (harmless_createConnectionHandler req net))
  | deleteConnection connId =>
      exact obeys_forget.mpr (Durable.of_harmless
        ((uses_deleteConnectionHandler connId).mono fun _ _ => harmless_delete))
  | getConnections req =>
      exact obeys_forget.mpr (Durable.of_harmless
        ((uses_getConnectionsHandler req).mono fun _ _ => harmless_sync))
  | postSubscription req bonus codes =>
      exact obeys_forget.mpr (durable_postSubscriptionHandler req bonus codes)
  | putSubscription subId req =>
      exact obeys_forget.mpr (Durable.of_harmless
        ((uses_putSubscriptionHandler subId req).mono fun _ _ => harmless_sub))
  | postTrial cfg req => exact obeys_forget.mpr (durable_postTrialHandler cfg req)
  | postKey crates T secret random req =>
      exact obeys_forget.mpr (Durable.of_harmless
        ((uses_postKeyHandler crates T secret random req).mono fun _ _ => harmless_key))
  | postActivateKey req => exact obeys_forget.mpr (durable_postActivateKeyHandler req)
  | cleanupExpiredConnections =>
      exact Durable.of_harmless (uses_cleanupExpiredConnections.mono fun _ _ => harmless_delete)
  | cleanupExpiredSubscriptions =>
      exact Durable.of_harmless (uses_cleanupExpiredSubscriptions.mono fun _ _ => harmless_delete)
  | restoreSubscriptions => exact absurd rfl hop
  | getStateFromDb => exact obeys_forget.mpr (durable_getStateFromDb lower)

end Programs

/-! ### Steps -/

section Steps

variable {cid sid : Uuid} {s s' : World}

lemma Gone.frame (h : Gone cid sid s) (hmem : s'.memory.connections = s.memory.connections)
    (hdb : s'.db.connections = s.db.connections) : Gone cid sid s' := by
  refine ⟨?_, ?_⟩
  · rw [hmem]
    exact h.memory
  · rw [hdb]
    exact h.db

/-- A flag that is set in memory. -/
lemma Gone.setDeleted (h : Gone cid sid s) {id : Uuid} {v : Bool} (hv : v = false → id ≠ cid)
    (i : Input) : Gone cid sid { s with memory := (Edit.run (.setDeleted id v) i s.memory).1 } := by
  obtain ⟨c, hget, hdel, hsub⟩ := h.memory
  refine ⟨?_, h.db⟩
  show ∃ c, (s.memory.connections.change id _).get cid = some c ∧ _
  rw [Table.get_change]
  split_ifs with hid
  · rw [← hid, hget]
    refine ⟨_, rfl, ?_, hsub⟩
    cases v with
    | true => rfl
    | false => exact absurd hid.symm (hv rfl)
  · exact ⟨c, hget, hdel, hsub⟩

/-- A flag that is set in the database. -/
lemma Gone.connSetDeleted (h : Gone cid sid s) {id : Uuid} {v : Bool} (hv : v = false → id ≠ cid) :
    Gone cid sid { s with db := s.db.connSetDeleted id v } := by
  obtain ⟨r, hget, hdel, hsub⟩ := h.db
  refine ⟨h.memory, ?_⟩
  show ∃ r, (s.db.connections.change id _).get cid = some r ∧ _
  rw [Table.get_change]
  split_ifs with hid
  · rw [← hid, hget]
    refine ⟨_, rfl, ?_, hsub⟩
    cases v with
    | true => rfl
    | false => exact absurd hid.symm (hv rfl)
  · exact ⟨r, hget, hdel, hsub⟩

/-- An insertion into the memory does not replace a connection. -/
lemma Gone.connAdd (h : Gone cid sid s) (id : Uuid) (c : Conn) (i : Input) :
    Gone cid sid { s with memory := (Edit.run (.connAdd id c) i s.memory).1 } := by
  obtain ⟨c₀, hget, hgone⟩ := h.memory
  refine ⟨⟨c₀, ?_, hgone⟩, h.db⟩
  exact Table.get_vacant_eq_some.mpr (Or.inl hget)

/-- Neither does an insertion into the database. -/
lemma Gone.connInsert (h : Gone cid sid s) (row : ConnRow) (i : Input) :
    Gone cid sid { s with db := (Sql.run (.connInsert row) i s.db).1 } := by
  obtain ⟨r, hget, hgone⟩ := h.db
  refine ⟨h.memory, ?_⟩
  rcases connInsert_cases row i s.db with ⟨hdb, -⟩ | ⟨hnone, hdb, -⟩
  · rw [hdb]
    exact h.db
  · rw [hdb]
    have hid : cid ≠ row.connId := by
      rintro rfl
      rw [hget] at hnone
      cases hnone
    exact ⟨r, by rw [Table.get_put_of_ne _ _ hid, hget], hgone⟩

/-- What is read of a deleted connection of an active subscription. -/
lemma Gone.admits_look (h : Gone cid sid s) {β : Type} {r : Look β} {i : Input}
    (hactive : activeAt sid s i.now = true) :
    (durableProtocol cid sid).admits β (.look r) (r.run i s.memory) := by
  cases r with
  | wasInactive sub =>
      rintro rfl
      rw [activeAt] at hactive
      rw [Look.run]
      cases hget : s.memory.subscriptions.get sub with
      | none => rfl
      | some x =>
          rw [hget] at hactive
          exact (congrArg (! ·) hactive : _)
  | toRestore sub =>
      rintro ⟨id, c⟩ he rfl
      obtain ⟨hmem, -⟩ := List.mem_filter.mp he
      obtain ⟨hget, hsub⟩ := Connections.mem_getBySubscriptionId.mp hmem
      obtain ⟨c₀, hget₀, -, hsub₀⟩ := h.memory
      rw [Option.some.inj (hget.symm.trans hget₀), hsub₀] at hsub
      exact (Option.some.inj hsub).symm
  | _ => exact trivial

end Steps

/-- The accounts of these runs hold nothing. -/
local instance unitAddCommMonoid : AddCommMonoid Unit := PUnit.addCommGroup.toAddCommMonoid

/-- The invariant of the runs; accounts play no part in it. -/
def GoneInv (cid sid : Uuid) (s : World) (_ : Unit) : Prop := Gone cid sid s

/-- One step of one request keeps the connection deleted. -/
lemma keeps_goneInv (cid sid : Uuid) (Q : Unit → Unit → Prop) :
    Keeps (activeThroughout sid) (durableProtocol cid sid) Q (GoneInv cid sid) := by
  intro β c i s s' b a others gs _ hexec hrule hmay hinv
  change Gone cid sid s at hinv
  obtain ⟨-, hactive⟩ : _ ∧ _ := Bool.and_eq_true_iff.mp hrule
  cases c with
  | look r =>
      obtain ⟨-, rfl, rfl⟩ := exec_look.mp hexec
      exact ⟨hinv.admits_look hactive, fun _ _ => hinv⟩
  | edit w =>
      cases w with
      | setDeleted id v =>
          obtain ⟨-, rfl, -⟩ := exec_edit.mp hexec
          exact ⟨trivial, fun _ _ => hinv.setDeleted hmay i⟩
      | connAdd id c =>
          obtain ⟨-, rfl, -⟩ := exec_edit.mp hexec
          exact ⟨trivial, fun _ _ => hinv.connAdd id c i⟩
      | install cache => exact hmay.elim
      | _ =>
          have hdb := db_of_exec hexec (by simp)
          exact ⟨trivial, fun _ _ => hinv.frame (connections_of_exec hexec rfl) (by rw [hdb])⟩
  | within w =>
      cases w with
      | setDeleted id v => exact hmay.elim
      | connAdd id c =>
          obtain ⟨-, rfl, -⟩ := exec_within.mp hexec
          exact ⟨trivial, fun _ _ => hinv.connAdd id c i⟩
      | install cache =>
          obtain ⟨-, rfl, -⟩ := exec_within.mp hexec
          exact ⟨trivial, fun _ _ => ⟨hmay, hinv.db⟩⟩
      | _ =>
          have hdb := db_of_exec hexec (by simp)
          exact ⟨trivial, fun _ _ => hinv.frame (connections_of_exec hexec rfl) (by rw [hdb])⟩
  | sql q =>
      obtain ⟨rfl, rfl⟩ := exec_sql.mp hexec
      cases q with
      | connInsert row => exact ⟨trivial, fun _ _ => hinv.connInsert row i⟩
      | connDelete id =>
          refine ⟨trivial, fun _ _ => ?_⟩
          rw [Sql.run]
          cases i.ok with
          | false => exact hinv
          | true => exact hinv.connSetDeleted (by simp)
      | connRestore id =>
          refine ⟨trivial, fun _ _ => ?_⟩
          rw [Sql.run]
          cases i.ok with
          | false => exact hinv
          | true => exact hinv.connSetDeleted fun _ => hmay
      | connAll =>
          rw [Sql.run]
          cases i.ok with
          | false => exact ⟨trivial, fun _ _ => hinv⟩
          | true =>
              obtain ⟨r, hget, hgone⟩ := hinv.db
              refine ⟨⟨s.db.connAll_nodup i.order, { r with connId := cid }, ?_, rfl, hgone⟩,
                fun _ _ => hinv⟩
              exact Db.mem_connAll.mpr ⟨r, hget, rfl⟩
      | _ => exact ⟨trivial, fun _ _ => hinv.frame rfl (Sql.run_connections rfl i s.db)⟩
  | _ =>
      have hdb := db_of_exec hexec (by simp)
      exact ⟨trivial, fun _ _ => hinv.frame (connections_of_exec hexec rfl) (by rw [hdb])⟩

/-! ### The deletion -/

/-- A deletion that reports success has set both flags. -/
lemma flags_of_deleteConnection {rule : Rule Call Input World} {s s' : World} {cid id : Uuid}
    {conn : Conn} (hexec : Exec rule (deleteConnection cid conn) s (.ok (.ok id)) s') :
    ∃ i : Input, s'.db = s.db.connSetDeleted cid true ∧
      s'.memory = (Edit.run (.setDeleted cid true) i s.memory).1 := by
  rcases exec_deleteConnection hexec with ⟨-, hr, -⟩ | ⟨-, ⟨e, he⟩, -⟩ | ⟨i, -, -, rfl⟩
  · exact absurd rfl (hr id)
  · cases he
  · exact ⟨i, rfl, rfl⟩

/-- A `DELETE` that answers success leaves the connection deleted in memory and
database. -/
lemma gone_of_deleteConnectionHandler {rule : Rule Call Input World} {s s' : World}
    {cid sid : Uuid} {r : Reply} (hmem : memSub cid s = some sid) (hdb : dbSub cid s = some sid)
    (hexec : Exec rule (deleteConnectionHandler cid) s r s') (hr : r.status = 200) :
    Gone cid sid s' := by
  simp only [deleteConnectionHandler, Prog.perform_bind] at hexec
  obtain ⟨i₁, s₁, existing, hlook, -, hrest⟩ := hexec.of_call
  rw [(exec_look.mp hlook).2.1] at hrest
  cases existing with
  | none =>
      rw [hrest.of_pure.1] at hr
      cases hr
  | some conn =>
      change Exec rule (if conn.isDeleted then _ else _) _ _ _ at hrest
      split at hrest
      · rw [hrest.of_pure.1] at hr
        cases hr
      · obtain ⟨st, s₂, hdel, hrest⟩ := hrest.of_bind
        rcases st with e | st
        · rw [hrest.of_pure.1] at hr
          cases hr
        · cases st with
          | ok id =>
              obtain ⟨i, hdb', hmem'⟩ := flags_of_deleteConnection hdel
              obtain ⟨-, rfl⟩ := hrest.of_pure
              obtain ⟨c, hc, hsub⟩ := Option.bind_eq_some_iff.mp hmem
              obtain ⟨row, hrow, hsub'⟩ := Option.bind_eq_some_iff.mp hdb
              refine ⟨⟨c.setDeleted true i.now, ?_, rfl, hsub⟩, ?_⟩
              · rw [hmem']
                show (s.memory.connections.change cid _).get cid = _
                rw [Table.get_change_self, hc]
                rfl
              · rw [hdb', Db.connSetDeleted, Table.get_change_self, hrow]
                exact ⟨_, rfl, rfl, hsub'⟩
          | _ =>
              rw [hrest.of_pure.1] at hr
              cases hr

/-! ### Runs -/

/-- **An explicit deletion lasts**: after a `DELETE` that answered success the
connection is deleted in memory and database in every state of every interleaving
of requests and ticks that goes through while the subscription is active, as long
as `restore_subscriptions` does not run. -/
theorem deletion_durable {lower : String → String} {cid sid : Uuid} {ops : List ApiOp}
    {s₀ s₁ : World} {r : Reply} {p : Pool Call World} (hmem : memSub cid s₀ = some sid)
    (hdb : dbSub cid s₀ = some sid)
    (hdelete : Exec nothingFails (deleteConnectionHandler cid) s₀ r s₁) (hr : r.status = 200)
    (hops : ApiOp.restoreSubscriptions ∉ ops)
    (h : Reach (activeThroughout sid) ⟨s₁, ops.map (ApiOp.prog lower)⟩ p) :
    memFlag cid p.state = some true ∧ dbFlag cid p.state = some true := by
  have hobey : AllObey (durableProtocol cid sid) (fun _ _ => True) (ops.map fun _ => ())
      (ops.map (ApiOp.prog lower)) := by
    rw [AllObey, List.forall₂_map_right_iff, List.forall₂_map_left_iff]
    refine List.forall₂_same.mpr fun op hop => durable_prog lower ?_
    rintro rfl
    exact hops hop
  have hinit : GoneInv cid sid s₁ (ops.map fun _ => ()).sum :=
    gone_of_deleteConnectionHandler hmem hdb hdelete hr
  obtain ⟨gs, -, hinv⟩ := Reach.sound (keeps_goneInv cid sid _) h hobey hinit
  obtain ⟨c, hget, hdel, -⟩ := hinv.memory
  obtain ⟨row, hrow, hdel', -⟩ := hinv.db
  rw [memFlag, dbFlag, hget, hrow, Option.map_some, Option.map_some, hdel, hdel']
  exact ⟨rfl, rfl⟩

/-- A subscription that expires at 100. -/
def activeSub : Subscription := { (default : Subscription) with id := 7, expiresAt := some 100 }

/-- The state of a service with that subscription and its connection 1. -/
def activeWorld : World :=
  { sampleWorld with
    memory := ⟨sampleWorld.memory.connections, (∅ : Table Uuid Subscription).put 7 activeSub⟩
    db := { sampleWorld.db with subscriptions := (∅ : Table Uuid Subscription).put 7 activeSub } }

/-- The deletion lasts through a cleanup and a reload. -/
theorem deletion_durable_over_reload :
    ∃ r s₁ p, Exec nothingFails (deleteConnectionHandler 1) activeWorld r s₁ ∧ r.status = 200 ∧
      Reach (activeThroughout 7) ⟨s₁, [ApiOp.cleanupExpiredConnections, .getStateFromDb].map
        (ApiOp.prog id)⟩ p ∧ p.finished = true ∧
      memFlag 1 p.state = some true ∧ dbFlag 1 p.state = some true := by
  have hrun : ((execWith nothingFails (List.replicate 5 (Input.at 5))
      (deleteConnectionHandler 1) activeWorld).bind fun x =>
        (runWith (activeThroughout 7)
          (List.replicate 2 (0, Input.at 6) ++ List.replicate 5 (1, Input.at 7))
          ⟨x.1, [ApiOp.cleanupExpiredConnections, .getStateFromDb].map (ApiOp.prog id)⟩).map
        fun p => (x.2.status, p.finished)) = some (200, true) := by
    decide +kernel
  obtain ⟨⟨s₁, r⟩, hdelete, hticks⟩ := Option.bind_eq_some_iff.mp hrun
  obtain ⟨p, hp, hout⟩ := exists_reach_of_runWith hticks
  obtain ⟨hr, hfin⟩ : _ ∧ _ := Prod.mk.inj hout
  have hexec := exec_of_execWith hdelete
  refine ⟨r, s₁, p, hexec, hr, hp, hfin, ?_⟩
  refine deletion_durable rfl rfl hexec hr ?_ hp
  simp

/-- The tick `restore_subscriptions` restores the connection. -/
theorem deletion_undone :
    memSub 1 activeWorld = some 7 ∧ dbSub 1 activeWorld = some 7 ∧
      ∃ r s₁ p, Exec nothingFails (deleteConnectionHandler 1) activeWorld r s₁ ∧
        r.status = 200 ∧
        Reach (activeThroughout 7) ⟨s₁, [ApiOp.restoreSubscriptions].map (ApiOp.prog id)⟩ p ∧
        ¬ (memFlag 1 p.state = some true ∧ dbFlag 1 p.state = some true) := by
  refine ⟨rfl, rfl, ?_⟩
  have hrun : ((execWith nothingFails (List.replicate 5 (Input.at 5))
      (deleteConnectionHandler 1) activeWorld).bind fun x =>
        (runWith (activeThroughout 7) (List.replicate 6 (0, Input.at 6))
          ⟨x.1, [ApiOp.restoreSubscriptions].map (ApiOp.prog id)⟩).map
        fun p => (x.2.status, memFlag 1 p.state)) = some (200, some false) := by
    decide +kernel
  obtain ⟨⟨s₁, r⟩, hdelete, htick⟩ := Option.bind_eq_some_iff.mp hrun
  obtain ⟨p, hp, hout⟩ := exists_reach_of_runWith htick
  obtain ⟨hr, hflag⟩ : _ ∧ _ := Prod.mk.inj hout
  refine ⟨r, s₁, p, exec_of_execWith hdelete, hr, hp, fun hkept => ?_⟩
  rw [hkept.1] at hflag
  cases hflag

end Fcore
