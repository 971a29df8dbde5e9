import Fcore.Api.Sync

/-!
The background tasks of the API (`src/bin/api/tasks.rs`,
`src/bin/api/postgres/pg.rs`), one tick of each as a program.

* `cleanupExpiredConnections`, `cleanupExpiredSubscriptions`: deletions by expiry;
* `restoreSubscriptions`: restorations for active subscriptions;
* `getStateFromDb`: the reload, under one write guard; `buildCache` is the memory
  that it builds from the rows;
* `buildCache_connections`: the rebuilt memory holds the converted rows;
  `map_get_buildCache`: what it agrees on with the database.

Nodes are not part of the modelled memory, so the reload reads the two other
tables.
-/

namespace Fcore

open Calculus
open Calculus.Prog (perform)

/-! ### Expiry -/

/-- The loop over connections to delete; their results are only logged. -/
def deleteAll : List (Uuid × Conn) → Api Unit
  | [] => return ()
  | e :: rest => do
      let _ ← deleteConnection e.1 e.2
      deleteAll rest

/-- One tick of `cleanup_expired_connections`. -/
def cleanupExpiredConnections : Api Unit := do
  let now ← perform (.ask .now)
  let expired ← perform (.look (.expiredConns now))
  deleteAll expired

/-- The loop of `cleanup_expired_subscriptions`. -/
def cleanupSubs : List Uuid → Api Unit
  | [] => return ()
  | sub :: rest => do
      let conns ← perform (.look (.toDelete sub))
      deleteAll conns
      cleanupSubs rest

/-- One tick of `cleanup_expired_subscriptions`. -/
def cleanupExpiredSubscriptions : Api Unit := do
  let subs ← perform (.look .expiredSubs)
  cleanupSubs subs

lemma uses_deleteAll (es : List (Uuid × Conn)) : Uses DeleteCall (deleteAll es) := by
  induction es with
  | nil => exact trivial
  | cons e es ih => exact (uses_deleteConnection e.1 e.2).bind fun _ => ih

lemma uses_cleanupExpiredConnections : Uses DeleteCall cleanupExpiredConnections :=
  ⟨.ask _, fun _ => ⟨.expiredConns _, uses_deleteAll⟩⟩

lemma uses_cleanupSubs (subs : List Uuid) : Uses DeleteCall (cleanupSubs subs) := by
  induction subs with
  | nil => exact trivial
  | cons sub subs ih => exact ⟨.toDelete _, fun es => (uses_deleteAll es).bind fun _ => ih⟩

lemma uses_cleanupExpiredSubscriptions : Uses DeleteCall cleanupExpiredSubscriptions :=
  ⟨.expiredSubs, uses_cleanupSubs⟩

/-! ### Restoration -/

/-- The loop of `restore_subscriptions`. -/
def restoreSubs : List Uuid → Api Unit
  | [] => return ()
  | sub :: rest => do
      let _ ← restoreConnectionsBySubscription sub
      restoreSubs rest

/-- One tick of `restore_subscriptions`. -/
def restoreSubscriptions : Api Unit := do
  let subs ← perform (.look .activeSubs)
  restoreSubs subs

/-! ### Reload -/

/-- The connections of the rows; the first row that does not convert ends the
reload. -/
def convertRows (lower : String → String) : List ConnRow → Except Error (List (Uuid × Conn))
  | [] => .ok []
  | r :: rows => match r.toConn lower with
      | .error e => .error e
      | .ok c => match convertRows lower rows with
          | .error e => .error e
          | .ok cs => .ok ((r.connId, c) :: cs)

/-- The memory that a reload builds. -/
def buildCache (lower : String → String) (rows : List ConnRow) (subs : List Subscription) :
    Except Error Cache :=
  match convertRows lower rows with
  | .error e => .error e
  | .ok conns => .ok
      { connections := Table.load conns
        subscriptions := subs.foldl (fun t s => (Subscriptions.add t s).1) ∅ }

/-- `get_state_from_db`. -/
def getStateFromDb (lower : String → String) : Api (Except Error Unit) := do
  perform (.guard .lockWrite)
  match ← perform (.sql .connAll) with
  | .error e => do
      perform (.guard .unlockWrite)
      return .error e
  | .ok rows =>
      match ← perform (.sql .subAll) with
      | .error e => do
          perform (.guard .unlockWrite)
          return .error e
      | .ok subs =>
          match buildCache lower rows subs with
          | .error e => do
              perform (.guard .unlockWrite)
              return .error e
          | .ok cache => do
              perform (.within (.install cache))
              perform (.guard .unlockWrite)
              return .ok ()

/-- Converted rows keep their keys, in order. -/
lemma convertRows_keys {lower : String → String} {rows : List ConnRow}
    {conns : List (Uuid × Conn)} (h : convertRows lower rows = .ok conns) :
    conns.map Prod.fst = rows.map ConnRow.connId := by
  induction rows generalizing conns with
  | nil => rw [← Except.ok.inj h]; rfl
  | cons r rows ih =>
      rw [convertRows] at h
      split at h
      · cases h
      · split at h
        · cases h
        · next cs hcs =>
            rw [← Except.ok.inj h, List.map_cons, List.map_cons, ih hcs]

/-- A converted connection comes from a row. -/
lemma mem_convertRows {lower : String → String} {rows : List ConnRow}
    {conns : List (Uuid × Conn)} (h : convertRows lower rows = .ok conns) {id : Uuid} {c : Conn} :
    (id, c) ∈ conns → ∃ r ∈ rows, r.connId = id ∧ r.toConn lower = .ok c := by
  induction rows generalizing conns with
  | nil =>
      rw [← Except.ok.inj h]
      exact fun hmem => absurd hmem List.not_mem_nil
  | cons r rows ih =>
      rw [convertRows] at h
      split at h
      · cases h
      · next c' hc' =>
          split at h
          · cases h
          · next cs hcs =>
              rw [← Except.ok.inj h]
              intro hmem
              rcases List.mem_cons.mp hmem with heq | htail
              · obtain ⟨rfl, rfl⟩ := Prod.mk.inj heq
                exact ⟨r, by simp, rfl, hc'⟩
              · obtain ⟨r', hr', hid, hconv⟩ := ih hcs htail
                exact ⟨r', by simp [hr'], hid, hconv⟩

/-- Every row is converted. -/
lemma convertRows_of_mem {lower : String → String} {rows : List ConnRow}
    {conns : List (Uuid × Conn)} (h : convertRows lower rows = .ok conns) {r : ConnRow}
    (hr : r ∈ rows) : ∃ c, (r.connId, c) ∈ conns ∧ r.toConn lower = .ok c := by
  induction rows generalizing conns with
  | nil => exact absurd hr List.not_mem_nil
  | cons r' rows ih =>
      rw [convertRows] at h
      split at h
      · cases h
      · next c' hc' =>
          split at h
          · cases h
          · next cs hcs =>
              rw [← Except.ok.inj h]
              rcases List.mem_cons.mp hr with rfl | htail
              · exact ⟨c', by simp, hc'⟩
              · obtain ⟨c, hc, hconv⟩ := ih hcs htail
                exact ⟨c, by simp [hc], hconv⟩

/-- **The rebuilt memory holds the converted rows** and nothing else. -/
lemma buildCache_connections {lower : String → String} {rows : List ConnRow}
    {subs : List Subscription} {cache : Cache} (h : buildCache lower rows subs = .ok cache)
    (hrows : (rows.map ConnRow.connId).Nodup) {id : Uuid} {c : Conn} :
    cache.connections.get id = some c ↔ ∃ r ∈ rows, r.connId = id ∧ r.toConn lower = .ok c := by
  rw [buildCache] at h
  split at h
  · cases h
  · next conns hconns =>
      rw [← Except.ok.inj h]
      have hkeys : (conns.map Prod.fst).Nodup := by rw [convertRows_keys hconns]; exact hrows
      rw [Table.get_load_of_nodup hkeys]
      constructor
      · exact mem_convertRows hconns
      · rintro ⟨r, hr, rfl, hconv⟩
        obtain ⟨c', hc', hconv'⟩ := convertRows_of_mem hconns hr
        rwa [Except.ok.inj (hconv.symm.trans hconv')]

/-- Every row is in the rebuilt memory. -/
lemma buildCache_connections_of_mem {lower : String → String} {rows : List ConnRow}
    {subs : List Subscription} {cache : Cache} (h : buildCache lower rows subs = .ok cache)
    (hrows : (rows.map ConnRow.connId).Nodup) {r : ConnRow} (hr : r ∈ rows) :
    ∃ c, cache.connections.get r.connId = some c ∧ r.toConn lower = .ok c := by
  have hconv : ∃ c, r.toConn lower = .ok c := by
    rw [buildCache] at h
    split at h
    · cases h
    · next conns hconns =>
        obtain ⟨c, -, hc⟩ := convertRows_of_mem hconns hr
        exact ⟨c, hc⟩
  obtain ⟨c, hc⟩ := hconv
  exact ⟨c, (buildCache_connections h hrows).mpr ⟨r, hr, rfl, hc⟩, hc⟩

/-- What a connection takes from its row is the same in the rebuilt memory and in the
database. -/
lemma map_get_buildCache {γ : Type} {f : Conn → γ} {g : ConnRow → γ} {lower : String → String}
    {db : Db} {order : List Uuid} {subs : List Subscription} {m : Cache}
    (h : buildCache lower (db.connAll order) subs = .ok m)
    (hfg : ∀ {r : ConnRow} {id : Uuid} {c : Conn}, { r with connId := id }.toConn lower = .ok c →
      f c = g r) (id : Uuid) :
    (m.connections.get id).map f = (db.connections.get id).map g := by
  have hnodup := db.connAll_nodup order
  cases hrow : db.connections.get id with
  | none =>
      cases hget : m.connections.get id with
      | none => rfl
      | some c =>
          obtain ⟨r, hr, rfl, -⟩ := (buildCache_connections h hnodup).mp hget
          obtain ⟨r', hr', -⟩ := Db.mem_connAll.mp hr
          rw [hrow] at hr'
          cases hr'
  | some r =>
      have hmem : { r with connId := id } ∈ db.connAll order := Db.mem_connAll.mpr ⟨r, hrow, rfl⟩
      obtain ⟨c, hget, hconv⟩ := buildCache_connections_of_mem h hnodup hmem
      rw [hget, Option.map_some, Option.map_some, hfg hconv]

/-- The rebuilt memory holds the subscriptions that have been read. -/
lemma buildCache_subscriptions {lower : String → String} {rows : List ConnRow}
    {subs : List Subscription} {cache : Cache} (h : buildCache lower rows subs = .ok cache)
    (hsubs : (subs.map Subscription.id).Nodup) {id : Uuid} {sub : Subscription} :
    cache.subscriptions.get id = some sub ↔ sub ∈ subs ∧ sub.id = id := by
  rw [buildCache] at h
  split at h
  · cases h
  · rw [← Except.ok.inj h, Subscriptions.get_foldl_add hsubs]
    simp

/-- **A reload** that succeeds replaces the memory by what it has read, under its write
guard, and nothing else; one that fails changes nothing. -/
lemma exec_getStateFromDb {rule : Rule Call Input World} {lower : String → String} {s s' : World}
    {r : Except Error Unit} (h : Exec rule (getStateFromDb lower) s r s') :
    s'.db = s.db ∧ s'.bus = s.bus ∧
      ((∃ e, r = .error e) ∧ s'.memory = s.memory ∨
        r = .ok () ∧ ∃ i order l,
          rule _ [] (.sql .connAll) i { s with lock := l } (.ok (s.db.connAll i.order)) = true ∧
          buildCache lower (s.db.connAll i.order) (s.db.subAll order) = .ok s'.memory) := by
  -- the way out that leaves the memory alone
  have hleave : ∀ {s₁ : World} {e : Error},
      Exec rule (.call (.guard .unlockWrite) fun _ => .pure (.error e)) s₁ r s' →
      (∃ e, r = .error e) ∧ ∃ l, s' = { s₁ with lock := l } := by
    intro s₁ e hexec
    obtain ⟨i, s₂, u, hlock, -, hrest⟩ := hexec.of_call
    obtain ⟨-, rfl⟩ := exec_unlockWrite.mp hlock
    obtain ⟨rfl, rfl⟩ := hrest.of_pure
    exact ⟨⟨e, rfl⟩, _, rfl⟩
  simp only [getStateFromDb, Prog.perform_bind] at h
  obtain ⟨i₁, s₁, u₁, hlock, -, hrest⟩ := h.of_call
  obtain ⟨-, rfl⟩ := exec_lockWrite.mp hlock
  obtain ⟨i₂, s₂, r₂, hsql, hrule, hrest⟩ := hrest.of_call
  obtain ⟨rfl, rfl⟩ := exec_sql.mp hsql
  simp only [Sql.run] at hrule hrest
  split_ifs at hrule hrest
  · obtain ⟨i₃, s₃, r₃, hsql, -, hrest⟩ := hrest.of_call
    obtain ⟨rfl, rfl⟩ := exec_sql.mp hsql
    simp only [Sql.run] at hrest
    split_ifs at hrest
    · change Exec rule (match buildCache lower (s.db.connAll i₂.order) (s.db.subAll i₃.order) with
        | .error _ => _
        | .ok _ => _) _ _ _ at hrest
      cases hcache : buildCache lower (s.db.connAll i₂.order) (s.db.subAll i₃.order) with
      | error e =>
          rw [hcache] at hrest
          obtain ⟨he, l, rfl⟩ := hleave hrest
          exact ⟨rfl, rfl, .inl ⟨he, rfl⟩⟩
      | ok cache =>
          rw [hcache] at hrest
          obtain ⟨i₄, s₄, u₄, hedit, -, hrest⟩ := hrest.of_call
          obtain ⟨-, rfl, -⟩ := exec_within.mp hedit
          obtain ⟨i₅, s₅, u₅, hlock, -, hrest⟩ := hrest.of_call
          obtain ⟨-, rfl⟩ := exec_unlockWrite.mp hlock
          obtain ⟨rfl, rfl⟩ := hrest.of_pure
          exact ⟨rfl, rfl, .inr ⟨rfl, i₂, i₃.order, _, hrule, hcache⟩⟩
    · obtain ⟨he, l, rfl⟩ := hleave hrest
      exact ⟨rfl, rfl, .inl ⟨he, rfl⟩⟩
  · obtain ⟨he, l, rfl⟩ := hleave hrest
    exact ⟨rfl, rfl, .inl ⟨he, rfl⟩⟩

end Fcore
