import Fcore.Calculus.Protocol
import Fcore.Api.World

/-!
The synchronising operations of the API (`src/bin/api/sync/tasks.rs`), each as
the program of its atomic steps.

* `addConn`, `addSub`: insert into the database, then into the memory;
* `deleteConnection`: check, database, bus, memory;
* `restoreConnection`, `restoreOne`, `restoreConnectionsBySubscription`: bus,
  check, database, memory, for all deleted connections of a subscription at once;
* `updateSub`: memory and database under one write guard;
* `addDays`: check, memory, database, and the restoration that may follow;
* `exec_addConn`, `exec_addSub`, `exec_deleteConnection`, `exec_restoreConnectionsBySubscription`,
  `exec_updateSub`, `exec_addDays`: what additions, a deletion, a restoration, an update and a day
  credit can do;
* `uses_restoreConnectionsBySubscription`, `uses_addDays`, `uses_deleteConnection`,
  `uses_addSub`, `uses_updateSub`: the calls that the operations make.

Serialising a message cannot fail, and log output is left out.
-/

namespace Fcore

open Calculus
open Calculus.Prog (perform)

/-- The programs of the API. -/
abbrev Api := Prog Call

/-- `add_conn`. -/
def addConn (connId : Uuid) (conn : Conn) : Api (Except SyncError Status) := do
  match ← perform (.sql (.connInsert (ConnRow.ofConn connId conn))) with
  | .error e => return .error (.database e)
  | .ok () =>
      match ← perform (.edit (.connAdd connId conn)) with
      | .ok (.ok id) => return .ok (.ok id)
      | .ok (.alreadyExist id) => return .ok (.ok id)
      | .ok (.badRequest id msg) => return .ok (.badRequest id msg)
      | .ok other => return .error (.memory ("Unexpected operation status: " ++ other.toText))
      | .error e => return .error (.memory e.toText)

/-- `add_sub`. -/
def addSub (sub : Subscription) : Api (Except SyncError Status) := do
  match ← perform (.sql (.subCreate sub)) with
  | .error e => return .error (.database e)
  | .ok _ =>
      match ← perform (.edit (.subAdd sub)) with
      | .ok id => return .ok (.ok id)
      | .updated id => return .ok (.updated id)
      | .alreadyExist id => return .ok (.alreadyExist id)
      | .badRequest id msg => return .ok (.badRequest id msg)
      | other => return .error (.memory ("Unexpected operation status: " ++ other.toText))

/-- `delete_connection`; `conn` is the record that the caller has read. -/
def deleteConnection (connId : Uuid) (conn : Conn) : Api (Except SyncError Status) := do
  match ← perform (.look (.connection connId)) with
  | none => return .ok (.notFound connId)
  | some existing =>
      if existing.isDeleted then return .ok (.notModified connId)
      else
        match ← perform (.sql (.connDelete connId)) with
        | .error e => return .error (.database e)
        | .ok () =>
            match ← perform (.bus (.publish conn.topic [conn.asDeleteMessage connId])) with
            | .error e => return .error (.zmq e.toText)
            | .ok () => do
                perform (.edit (.setDeleted connId true))
                return .ok (.ok connId)

/-- `restore_connection`. -/
def restoreConnection (connId : Uuid) : Api (Except SyncError Status) := do
  match ← perform (.look (.connection connId)) with
  | none => return .ok (.notFound connId)
  | some _ =>
      match ← perform (.sql (.connRestore connId)) with
      | .error e => return .error (.database e)
      | .ok () => do
          perform (.edit (.setDeleted connId false))
          return .ok (.ok connId)

/-- One of the futures of `restore_connections_by_subscription`. -/
def restoreOne (e : Uuid × Conn) : Api (Option Uuid) := do
  match ← perform (.bus (.publish e.2.topic [e.2.asUpdateMessage e.1])) with
  | .error _ => return none
  | .ok () =>
      match ← restoreConnection e.1 with
      | .ok (.ok _) => return some e.1
      | .ok (.updated _) => return some e.1
      | _ => return none

/-- `restore_connections_by_subscription`: the deleted connections of the
subscription are restored concurrently (`join_all`). -/
def restoreConnectionsBySubscription (subId : Uuid) : Api (List Uuid) := do
  match ← perform (.look (.toRestore subId)) with
  | [] => return []
  | e :: es => do
      let results ← Prog.joinAll (.ask .pick) ((e :: es).map restoreOne)
      return results.reduceOption

/-- `update_sub`: the write guard is held over the database call. -/
def updateSub (subId : Uuid) (req : SubReq) : Api (Except SyncError Status) := do
  perform (.guard .lockWrite)
  match ← perform (.within (.update subId req)) with
  | none => do
      perform (.guard .unlockWrite)
      return .ok (.notFound subId)
  | some sub =>
      match sub.expiresAt with
      | none => do
          perform (.guard .unlockWrite)
          return .error (.inconsistentState "Subscription" subId)
      | some expiresAt =>
          match ← perform (.sql (.subUpdate subId expiresAt sub.referredByTrimmed
              sub.referCodeTrimmed)) with
          | .error e => do
              perform (.guard .unlockWrite)
              return .error (.database e)
          | .ok _ => do
              perform (.guard .unlockWrite)
              return .ok (.updated subId)

/-- `add_days`. -/
def addDays (subId : Uuid) (n : ℤ) : Api (Except SyncError Status) := do
  let wasInactive ← perform (.look (.wasInactive subId))
  match ← perform (.edit (.credit subId n)) with
  | false => return .ok (.notFound subId)
  | true =>
      match ← perform (.sql (.subAddDays subId n)) with
      | .error e => return .error (.database e)
      | .ok sub =>
          if wasInactive then do
            let _ ← restoreConnectionsBySubscription subId
            return .ok (.updated sub.id)
          else return .ok (.updated sub.id)

/-! ### What additions and deletions do -/

section Exec

variable {rule : Rule Call Input World} {s s' : World}

/-- `add_conn` inserts a new row and then the connection, or changes nothing. -/
lemma exec_addConn {connId : Uuid} {conn : Conn} {r : Except SyncError Status}
    (h : Exec rule (addConn connId conn) s r s') :
    (s' = s ∧ ∃ e, r = .error e) ∨
      (s.db.connections.get connId = none ∧ r = .ok (.ok connId) ∧
        s' = { s with
          db := { s.db with
            connections := s.db.connections.put connId (ConnRow.ofConn connId conn).stored }
          memory := { s.memory with
            connections := s.memory.connections.vacant connId conn } }) := by
  simp only [addConn, Prog.perform_bind] at h
  obtain ⟨i₁, s₁, r₁, hsql, -, h⟩ := h.of_call
  obtain ⟨rfl, rfl⟩ := exec_sql.mp hsql
  rcases connInsert_cases (ConnRow.ofConn connId conn) i₁ s.db with ⟨hdb, e, hr⟩ | ⟨hnone, hdb, hr⟩
  · rw [hr] at h
    obtain ⟨rfl, rfl⟩ := h.of_pure
    rw [hdb]
    exact .inl ⟨rfl, _, rfl⟩
  · rw [hr] at h
    obtain ⟨i₂, s₂, r₂, hedit, -, h⟩ := h.of_call
    obtain ⟨-, rfl, rfl⟩ := exec_edit.mp hedit
    change Exec rule (match (Except.ok (if (s.memory.connections.get connId).isSome = true then
      Status.alreadyExist connId else .ok connId) : Except Error Status) with
      | .ok (.ok id) => _
      | .ok (.alreadyExist id) => _
      | .ok (.badRequest id msg) => _
      | .ok other => _
      | .error e => _) _ _ _ at h
    have hend : r = .ok (.ok connId) ∧ s' = { s with
        db := (Sql.run (.connInsert (ConnRow.ofConn connId conn)) i₁ s.db).1
        memory := (Edit.run (.connAdd connId conn) i₂ s.memory).1 } := by
      split_ifs at h
      · exact h.of_pure
      · exact h.of_pure
    rw [hdb] at hend
    exact .inr ⟨hnone, hend.1, hend.2⟩

/-- `add_sub` inserts a row and then the subscription, or changes nothing. -/
lemma exec_addSub {sub : Subscription} {r : Except SyncError Status}
    (h : Exec rule (addSub sub) s r s') :
    ∃ i, rule _ [] (.sql (.subCreate sub)) i s (Sql.run (.subCreate sub) i s.db).2 = true ∧
      ((∃ e, (Sql.run (.subCreate sub) i s.db).2 = .error e ∧ r = .error (.database e) ∧ s' = s) ∨
        ∃ row, (Sql.run (.subCreate sub) i s.db).2 = .ok row ∧
          r = .ok (s.memory.subscriptions.add sub).2 ∧ s' = { s with
            db := (Sql.run (.subCreate sub) i s.db).1
            memory := { s.memory with subscriptions := (s.memory.subscriptions.add sub).1 } }) := by
  simp only [addSub, Prog.perform_bind] at h
  obtain ⟨i, s₁, reply, hsql, hrule, h⟩ := h.of_call
  obtain ⟨rfl, rfl⟩ := exec_sql.mp hsql
  refine ⟨i, hrule, ?_⟩
  cases hreply : (Sql.run (.subCreate sub) i s.db).2 with
  | error e =>
      rw [hreply] at h
      obtain ⟨rfl, rfl⟩ := h.of_pure
      have hdb : (Sql.run (.subCreate sub) i s.db).1 = s.db := by
        rcases subCreate_cases sub i s.db with ⟨hdb, -⟩ | ⟨-, row, -, hok⟩
        · exact hdb
        · rw [hok] at hreply
          cases hreply
      rw [hdb]
      exact .inl ⟨e, rfl, rfl, rfl⟩
  | ok row =>
      rw [hreply] at h
      obtain ⟨j, s₂, status, hedit, -, h⟩ := h.of_call
      obtain ⟨-, rfl, hstatus⟩ := exec_edit.mp hedit
      have hadd : status = (s.memory.subscriptions.add sub).2 := hstatus
      have hcases : (∃ id, status = .ok id) ∨ (∃ id, status = .updated id) ∨
          ∃ id, status = .alreadyExist id := by
        rw [hadd, Subscriptions.add]
        split
        · split_ifs
          · exact .inr (.inr ⟨_, rfl⟩)
          · exact .inr (.inl ⟨_, rfl⟩)
        · exact .inl ⟨_, rfl⟩
      refine .inr ⟨row, rfl, ?_⟩
      rw [← hadd]
      rcases hcases with ⟨id, hid⟩ | ⟨id, hid⟩ | ⟨id, hid⟩
      · rw [hid] at h ⊢
        exact h.of_pure
      · rw [hid] at h ⊢
        exact h.of_pure
      · rw [hid] at h ⊢
        exact h.of_pure

/-- `delete_connection` finds no live connection, or it sets the flag in the database, announces the
deletion and sets the flag in memory; only a failed call keeps it from the end. -/
lemma exec_deleteConnection {connId : Uuid} {conn : Conn} {r : Except SyncError Status}
    (h : Exec rule (deleteConnection connId conn) s r s') :
    (s' = s ∧ (∀ id, r ≠ .ok (.ok id)) ∧
        ((∀ c, s.memory.connections.get connId = some c → c.isDeleted = true) ∨ MayFail rule)) ∨
      (s' = { s with db := s.db.connSetDeleted connId true } ∧ (∃ e, r = .error e) ∧
        MayFail rule) ∨
      (∃ i, (∃ c, s.memory.connections.get connId = some c ∧ c.isDeleted = false) ∧
        r = .ok (.ok connId) ∧ s' = { s with
          db := s.db.connSetDeleted connId true
          bus := (conn.topic, [conn.asDeleteMessage connId]) :: s.bus
          memory := (Edit.run (.setDeleted connId true) i s.memory).1 }) := by
  simp only [deleteConnection, Prog.perform_bind] at h
  obtain ⟨i₁, s₁, existing, hlook, -, h⟩ := h.of_call
  obtain ⟨-, hs₁, hexisting⟩ := exec_look.mp hlook
  rw [hs₁] at h
  change existing = s.memory.connections.get connId at hexisting
  rw [← hexisting]
  cases existing with
  | none =>
      obtain ⟨rfl, rfl⟩ := h.of_pure
      exact .inl ⟨rfl, by simp, .inl (by simp)⟩
  | some c =>
      change Exec rule (if c.isDeleted then _ else _) _ _ _ at h
      cases hdeleted : c.isDeleted with
      | true =>
          rw [hdeleted] at h
          obtain ⟨rfl, rfl⟩ := h.of_pure
          exact .inl ⟨rfl, by simp, .inl (by simp [hdeleted])⟩
      | false =>
          rw [hdeleted] at h
          obtain ⟨i₂, s₂, r₂, hsql, hrule₂, h⟩ := Exec.of_call h
          obtain ⟨rfl, rfl⟩ := exec_sql.mp hsql
          rw [Sql.run] at h
          cases hok₂ : i₂.ok with
          | false =>
              rw [hok₂] at h
              obtain ⟨rfl, rfl⟩ := h.of_pure
              exact .inl ⟨rfl, by simp, .inr ⟨_, _, i₂, _, _, hok₂, hrule₂⟩⟩
          | true =>
              rw [hok₂] at h
              obtain ⟨i₃, s₃, r₃, hbus, hrule₃, h⟩ := h.of_call
              obtain ⟨rfl, rfl⟩ := exec_bus.mp hbus
              rw [Call.execBus] at h
              cases hok₃ : i₃.ok with
              | false =>
                  rw [hok₃] at h
                  obtain ⟨rfl, rfl⟩ := h.of_pure
                  exact .inr (.inl ⟨rfl, ⟨_, rfl⟩, _, _, i₃, _, _, hok₃, hrule₃⟩)
              | true =>
                  rw [hok₃] at h
                  obtain ⟨i₄, s₄, r₄, hedit, -, h⟩ := h.of_call
                  obtain ⟨-, rfl, -⟩ := exec_edit.mp hedit
                  exact .inr (.inr ⟨i₄, ⟨c, rfl, hdeleted⟩, h.of_pure⟩)

/-- The connections to restore are different ones. -/
lemma nodup_toRestore (subId : Uuid) (i : Input) (m : Cache) :
    ((Look.run (.toRestore subId) i m).map Prod.fst).Nodup := by
  have hsub : (Look.run (.toRestore subId) i m).Sublist (m.connections.iter i.order) := by
    refine List.filter_sublist.trans ?_
    rw [Connections.getBySubscriptionId]
    split
    · exact List.nil_sublist _
    · exact List.filter_sublist
  exact (hsub.map Prod.fst).nodup (Table.iter_keys_nodup _ _)

/-- `restore_connections_by_subscription` restores the deleted connections of the subscription. -/
lemma exec_restoreConnectionsBySubscription {subId : Uuid} {ids : List Uuid}
    (h : Exec rule (restoreConnectionsBySubscription subId) s ids s') :
    ∃ (es : List (Uuid × Conn)) (ys : List (Option Uuid)),
      (∀ id c, (id, c) ∈ es ↔ s.memory.connections.get id = some c ∧
        c.subscriptionId = some subId ∧ c.isDeleted = true) ∧
      (es.map Prod.fst).Nodup ∧ Exec rule (Prog.joinAll (.ask .pick) (es.map restoreOne)) s ys s' ∧
      ids = ys.reduceOption := by
  simp only [restoreConnectionsBySubscription, Prog.perform_bind] at h
  obtain ⟨i, s₁, es, hlook, -, h⟩ := h.of_call
  obtain ⟨-, hs₁, hes⟩ := exec_look.mp hlook
  rw [hs₁] at h
  obtain ⟨ys, hjoin, hids⟩ : ∃ ys : List (Option Uuid),
      Exec rule (Prog.joinAll (.ask .pick) (es.map restoreOne)) s ys s' ∧
        ids = ys.reduceOption := by
    cases es with
    | nil =>
        obtain ⟨rfl, rfl⟩ := h.of_pure
        exact ⟨[], .pure [] s', rfl⟩
    | cons e es =>
        obtain ⟨ys, s₂, hjoin, h⟩ := h.of_bind
        obtain ⟨rfl, rfl⟩ := h.of_pure
        exact ⟨ys, hjoin, rfl⟩
  refine ⟨es, ys, fun id c => ?_, hes ▸ nodup_toRestore subId i s.memory, hjoin, hids⟩
  rw [hes, ← and_assoc]
  exact List.mem_filter.trans (and_congr_left' Connections.mem_getBySubscriptionId)

/-- The state of `update_sub` after its section in memory. -/
def updatedIn (subId : Uuid) (req : SubReq) (i : Input) (s : World) : World :=
  { s with memory := (Edit.run (.update subId req) i s.memory).1 }

/-- `update_sub` updates the memory, whatever it returns, and then the row of a subscription that
has an expiry. -/
lemma exec_updateSub {subId : Uuid} {req : SubReq} {r : Except SyncError Status}
    (h : Exec rule (updateSub subId req) s r s') :
    ∃ i, rule _ [] (.within (.update subId req)) i { s with lock := { s.lock with writer := true } }
        ((s.memory.subscriptions.get subId).map fun sub => sub.update req i.now) = true ∧
      ((s.memory.subscriptions.get subId = none ∧ r = .ok (.notFound subId) ∧
          s' = updatedIn subId req i s) ∨
        ∃ sub, s.memory.subscriptions.get subId = some sub ∧
          (((sub.update req i.now).expiresAt = none ∧
              r = .error (.inconsistentState "Subscription" subId) ∧ s' = updatedIn subId req i s) ∨
            ∃ v j q, (sub.update req i.now).expiresAt = some v ∧
              q = .subUpdate subId v (sub.update req i.now).referredByTrimmed
                (sub.update req i.now).referCodeTrimmed ∧
              s' = { updatedIn subId req i s with db := (Sql.run q j s.db).1 } ∧
              ((∃ e, (Sql.run q j s.db).2 = .error e ∧ r = .error (.database e)) ∨
                ∃ row, (Sql.run q j s.db).2 = .ok row ∧ r = .ok (.updated subId)))) := by
  simp only [updateSub, Prog.perform_bind] at h
  obtain ⟨i₁, s₁, u₁, hlock, -, h⟩ := h.of_call
  obtain ⟨hfree, rfl⟩ := exec_lockWrite.mp hlock
  obtain ⟨i, s₂, found, hwithin, hrule, h⟩ := h.of_call
  obtain ⟨-, rfl, hfound⟩ := exec_within.mp hwithin
  change found = (s.memory.subscriptions.get subId).map fun sub => sub.update req i.now at hfound
  -- the guard is given back in the end
  have hunlock : ∀ {t : World} {x : Except SyncError Status},
      Exec rule (.call (.guard .unlockWrite) fun _ => .pure x)
        { t with lock := { s.lock with writer := true } } r s' →
          t.lock = s.lock → r = x ∧ s' = t := by
    intro t x h ht
    obtain ⟨i', t₁, u, hlock, -, h⟩ := h.of_call
    obtain ⟨-, rfl⟩ := exec_unlockWrite.mp hlock
    obtain ⟨rfl, rfl⟩ := h.of_pure
    refine ⟨rfl, ?_⟩
    have hwriter : { s.lock with writer := false } = t.lock := by
      rw [ht, ← Lock.writer_of_free hfree]
    simp only [hwriter]
  refine ⟨i, hfound ▸ hrule, ?_⟩
  cases hsub : s.memory.subscriptions.get subId with
  | none =>
      rw [hsub] at hfound
      subst hfound
      obtain ⟨rfl, rfl⟩ := hunlock (t := updatedIn subId req i s) h rfl
      exact .inl ⟨rfl, rfl, rfl⟩
  | some sub =>
      rw [hsub] at hfound
      subst hfound
      refine .inr ⟨sub, rfl, ?_⟩
      change Exec rule (match (sub.update req i.now).expiresAt with
        | none => _
        | some _ => _) _ _ _ at h
      cases hv : (sub.update req i.now).expiresAt with
      | none =>
          rw [hv] at h
          obtain ⟨rfl, rfl⟩ := hunlock (t := updatedIn subId req i s) h rfl
          exact .inl ⟨rfl, rfl, rfl⟩
      | some v =>
          rw [hv] at h
          obtain ⟨j, s₃, reply, hsql, -, h⟩ := Exec.of_call h
          obtain ⟨rfl, hreply⟩ := exec_sql.mp hsql
          refine .inr ⟨v, j, _, rfl, rfl, ?_⟩
          rw [← show reply = _ from hreply]
          cases reply with
          | error e =>
              obtain ⟨rfl, rfl⟩ := hunlock (t := { updatedIn subId req i s with db := _ }) h rfl
              exact ⟨rfl, .inl ⟨e, rfl, rfl⟩⟩
          | ok row =>
              obtain ⟨rfl, rfl⟩ := hunlock (t := { updatedIn subId req i s with db := _ }) h rfl
              exact ⟨rfl, .inr ⟨row, rfl, rfl⟩⟩

/-- The state of `add_days` after its section in memory and its statement. -/
def credited (subId : Uuid) (n : ℤ) (i j : Input) (s : World) : World :=
  { s with
    memory := (Edit.run (.credit subId n) i s.memory).1
    db := (Sql.run (.subAddDays subId n) j s.db).1 }

/-- `add_days` finds no subscription, or it credits the days in memory and in the database and
restores the connections of a subscription that was inactive. -/
lemma exec_addDays {subId : Uuid} {n : ℤ} {r : Except SyncError Status}
    (h : Exec rule (addDays subId n) s r s') :
    (s' = s ∧ s.memory.subscriptions.get subId = none ∧ r = .ok (.notFound subId)) ∨
    ∃ (sub : Subscription) (k i j : Input) (s₁ : World),
      s.memory.subscriptions.get subId = some sub ∧
      rule _ [] (.look (.wasInactive subId)) k s (!sub.isActive k.now) = true ∧
      rule _ [] (.edit (.credit subId n)) i s true = true ∧ s₁.db = s.db ∧
      rule _ [] (.sql (.subAddDays subId n)) j s₁ (Sql.run (.subAddDays subId n) j s.db).2 = true ∧
      ((∃ e, (Sql.run (.subAddDays subId n) j s.db).2 = .error e ∧ r = .error (.database e) ∧
          s' = credited subId n i j s) ∨
        ∃ row, (Sql.run (.subAddDays subId n) j s.db).2 = .ok row ∧ r = .ok (.updated row.id) ∧
          ((sub.isActive k.now = true ∧ s' = credited subId n i j s) ∨
            sub.isActive k.now = false ∧ ∃ ids,
              Exec rule (restoreConnectionsBySubscription subId)
                (credited subId n i j s) ids s')) := by
  simp only [addDays, Prog.perform_bind] at h
  obtain ⟨k, s₀, was, hlook, hruleLook, h⟩ := h.of_call
  obtain ⟨-, hs₀, hwas⟩ := exec_look.mp hlook
  rw [hs₀] at h
  obtain ⟨i, s₁, found, hedit, hruleEdit, h⟩ := h.of_call
  obtain ⟨-, hs₁, hfound⟩ := exec_edit.mp hedit
  cases hget : s.memory.subscriptions.get subId with
  | none =>
      have hnone : found = false := hfound.trans (by rw [Edit.run, hget]; rfl)
      subst hnone
      obtain ⟨rfl, rfl⟩ := h.of_pure
      refine .inl ⟨?_, rfl, rfl⟩
      rw [hs₁, Edit.run, Table.change, hget]
  | some sub =>
      have hsome : found = true := hfound.trans (by rw [Edit.run, hget]; rfl)
      subst hsome
      have hinactive : was = !sub.isActive k.now := hwas.trans (by rw [Look.run, hget])
      subst hinactive
      obtain ⟨j, s₂, reply, hsql, hruleSql, h⟩ := h.of_call
      obtain ⟨hs₂, hreply⟩ := exec_sql.mp hsql
      have hdb : s₁.db = s.db := by rw [hs₁]
      rw [hdb] at hreply
      have hcredited : s₂ = credited subId n i j s := by rw [hs₂, hs₁, credited]
      rw [hreply] at hruleSql
      refine .inr ⟨sub, k, i, j, s₁, rfl, hruleLook, hruleEdit, hdb, hruleSql, ?_⟩
      rw [← hreply]
      cases reply with
      | error e =>
          obtain ⟨rfl, rfl⟩ := h.of_pure
          exact .inl ⟨e, rfl, rfl, hcredited⟩
      | ok row =>
          refine .inr ⟨row, rfl, ?_⟩
          change Exec rule (if (!sub.isActive k.now) = true then _ else _) _ _ _ at h
          cases hactive : sub.isActive k.now with
          | true =>
              rw [hactive] at h
              obtain ⟨rfl, rfl⟩ := Exec.of_pure h
              exact ⟨rfl, .inl ⟨rfl, hcredited⟩⟩
          | false =>
              rw [hactive] at h
              obtain ⟨ids, s₃, hrestore, h⟩ := Exec.of_bind h
              obtain ⟨rfl, rfl⟩ := h.of_pure
              rw [hcredited] at hrestore
              exact ⟨rfl, .inr ⟨rfl, ids, hrestore⟩⟩

end Exec

/-! ### The calls of restorations and day credits -/

/-- The calls that restorations make. -/
inductive RestoreCall : (β : Type) → Call β → Prop where
  | connection (id : Uuid) : RestoreCall _ (.look (.connection id))
  | toRestore (sub : Uuid) : RestoreCall _ (.look (.toRestore sub))
  | bus {β : Type} (p : Bus β) : RestoreCall β (.bus p)
  | ask {β : Type} (a : Ask β) : RestoreCall β (.ask a)
  | restore (id : Uuid) : RestoreCall _ (.sql (.connRestore id))
  | undelete (id : Uuid) : RestoreCall _ (.edit (.setDeleted id false))

lemma uses_restoreConnection (connId : Uuid) : Uses RestoreCall (restoreConnection connId) := by
  refine ⟨.connection _, fun c => ?_⟩
  cases c with
  | none => exact trivial
  | some c =>
      refine ⟨.restore _, fun r => ?_⟩
      cases r with
      | error e => exact trivial
      | ok u => exact ⟨.undelete _, fun _ => trivial⟩

lemma uses_restoreOne (e : Uuid × Conn) : Uses RestoreCall (restoreOne e) := by
  refine ⟨.bus _, fun r => ?_⟩
  cases r with
  | error e => exact trivial
  | ok u =>
      refine (uses_restoreConnection e.1).bind fun x => ?_
      rcases x with x | x
      · exact trivial
      · cases x <;> exact trivial

lemma uses_restoreConnectionsBySubscription (subId : Uuid) :
    Uses RestoreCall (restoreConnectionsBySubscription subId) := by
  refine ⟨.toRestore _, fun es => ?_⟩
  cases es with
  | nil => exact trivial
  | cons e es =>
      refine (Uses.joinAll (.ask .pick) fun p hp => ?_).bind fun _ => trivial
      obtain ⟨e', -, rfl⟩ := List.mem_map.mp hp
      exact uses_restoreOne e'

/-- The calls that day credits make. -/
inductive AddDaysCall : (β : Type) → Call β → Prop where
  | wasInactive (sub : Uuid) : AddDaysCall _ (.look (.wasInactive sub))
  | credit (id : Uuid) (n : ℤ) : AddDaysCall _ (.edit (.credit id n))
  | addDays (id : Uuid) (n : ℤ) : AddDaysCall _ (.sql (.subAddDays id n))
  | restore {β : Type} {c : Call β} (h : RestoreCall β c) : AddDaysCall β c

lemma uses_addDays (subId : Uuid) (n : ℤ) : Uses AddDaysCall (addDays subId n) := by
  refine ⟨.wasInactive _, fun wasInactive => ⟨.credit _ _, fun found => ?_⟩⟩
  cases found with
  | false => exact trivial
  | true =>
      refine ⟨.addDays _ _, fun r => ?_⟩
      cases r with
      | error e => exact trivial
      | ok row =>
          cases wasInactive with
          | false => exact trivial
          | true =>
              have h : Uses AddDaysCall (restoreConnectionsBySubscription subId) :=
                (uses_restoreConnectionsBySubscription subId).mono fun _ _ h => .restore h
              exact h.bind fun _ => trivial

/-! ### The calls of deletions and of changes to subscriptions -/

/-- The calls that deletions make, with the selections that come before them. -/
inductive DeleteCall : (β : Type) → Call β → Prop where
  | connection (id : Uuid) : DeleteCall _ (.look (.connection id))
  | toDelete (sub : Uuid) : DeleteCall _ (.look (.toDelete sub))
  | expiredConns (now : DateTime) : DeleteCall _ (.look (.expiredConns now))
  | expiredSubs : DeleteCall _ (.look .expiredSubs)
  | delete (id : Uuid) : DeleteCall _ (.sql (.connDelete id))
  | mark (id : Uuid) : DeleteCall _ (.edit (.setDeleted id true))
  | bus {β : Type} (p : Bus β) : DeleteCall β (.bus p)
  | ask {β : Type} (a : Ask β) : DeleteCall β (.ask a)

lemma uses_deleteConnection (connId : Uuid) (conn : Conn) :
    Uses DeleteCall (deleteConnection connId conn) := by
  refine ⟨.connection _, fun existing => ?_⟩
  cases existing with
  | none => exact trivial
  | some c =>
      show Uses DeleteCall (if c.isDeleted then _ else _)
      split
      · exact trivial
      · refine ⟨.delete _, fun r => ?_⟩
        cases r with
        | error e => exact trivial
        | ok u =>
            refine ⟨.bus _, fun r => ?_⟩
            cases r with
            | error e => exact trivial
            | ok u => exact ⟨.mark _, fun _ => trivial⟩

/-- The calls that write a subscription, and the search for the owner of a refer code. -/
inductive SubCall : (β : Type) → Call β → Prop where
  | referrer (code : String) : SubCall _ (.look (.referrer code))
  | create (sub : Subscription) : SubCall _ (.sql (.subCreate sub))
  | add (sub : Subscription) : SubCall _ (.edit (.subAdd sub))
  | update (id : Uuid) (req : SubReq) : SubCall _ (.within (.update id req))
  | write (id : Uuid) (expiresAt : DateTime) (referredBy : Option String) (refCode : String) :
      SubCall _ (.sql (.subUpdate id expiresAt referredBy refCode))
  | guard {β : Type} (g : Guard β) : SubCall β (.guard g)

lemma uses_addSub (sub : Subscription) : Uses SubCall (addSub sub) := by
  refine ⟨.create _, fun r => ?_⟩
  cases r with
  | error e => exact trivial
  | ok row =>
      refine ⟨.add _, fun st => ?_⟩
      cases st <;> exact trivial

lemma uses_updateSub (subId : Uuid) (req : SubReq) : Uses SubCall (updateSub subId req) := by
  refine ⟨.guard _, fun _ => ⟨.update _ _, fun sub => ?_⟩⟩
  cases sub with
  | none => exact ⟨.guard _, fun _ => trivial⟩
  | some sub =>
      show Uses SubCall (match sub.expiresAt with
        | none => _
        | some expiresAt => _)
      cases sub.expiresAt with
      | none => exact ⟨.guard _, fun _ => trivial⟩
      | some expiresAt =>
          refine ⟨.write _ _ _ _, fun r => ?_⟩
          cases r with
          | error e => exact ⟨.guard _, fun _ => trivial⟩
          | ok row => exact ⟨.guard _, fun _ => trivial⟩

end Fcore
