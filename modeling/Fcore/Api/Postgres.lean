import Fcore.Memory.Storage

/-!
The database of the API (`src/bin/api/postgres`, `dev/dev.sql`).

* `pgRound`, `fitVarchar`, `fitChar`: what a column of type `timestamptz`,
  `varchar(n)` or `char(n)` stores;
* `ConnRow`, `ConnRow.ofConn`, `ConnRow.toConn`: connection rows and their
  conversions;
* `Sql`, `Sql.run`: the methods of the repositories.  Each of them holds the
  client mutex from its first to its last statement, so each is one step; a
  failing one changes nothing.

The texts of WireGuard addresses are assumed to parse back, so a row carries the
parameters themselves.
-/

namespace Fcore

open Calculus

/-- What one atomic step receives from outside. -/
structure Input where
  /-- Whether a call to the database, the bus or the disk goes through. -/
  ok : Bool
  /-- The clock. -/
  now : DateTime
  /-- A random identifier. -/
  uuid : Uuid
  /-- A random text, or the text of a foreign error. -/
  text : String
  /-- The iteration order of hash maps. -/
  order : List Uuid
  /-- The draw of a scheduler. -/
  pick : Bool
  deriving Inhabited

/-! ### Columns -/

/-- 2000-01-01, the origin of the timestamps of the wire protocol. -/
def pgEpoch : DateTime := 946684800000000000

/-- A `timestamptz` column keeps whole microseconds, counted from `pgEpoch` and
cut towards it. -/
def pgRound (t : DateTime) : DateTime := pgEpoch + 1000 * Int.tdiv (t - pgEpoch) 1000

lemma pgRound_idem (t : DateTime) : pgRound (pgRound t) = pgRound t := by
  rw [pgRound, pgRound, add_sub_cancel_left, Int.mul_tdiv_cancel_left _ (by norm_num)]

/-- Whole microseconds stay whole when a whole number of them is added. -/
lemma pgRound_add {t : DateTime} (ht : pgRound t = t) (d : ℤ) :
    pgRound (t + 1000 * d) = t + 1000 * d := by
  have hsplit : t + 1000 * d - pgEpoch = 1000 * (Int.tdiv (t - pgEpoch) 1000 + d) := by
    have h := ht
    rw [pgRound] at h
    linear_combination -h
  rw [pgRound, hsplit, Int.mul_tdiv_cancel_left _ (by norm_num)]
  linear_combination -hsplit

/-- Days are whole microseconds. -/
lemma pgRound_add_days {t : DateTime} (ht : pgRound t = t) (n : ℤ) :
    pgRound (t + days n) = t + days n := by
  have h := pgRound_add ht (n * 86400000000)
  rwa [show (1000 : ℤ) * (n * 86400000000) = days n by rw [days]; ring] at h

/-- A `varchar(n)` column refuses a text of more than `n` characters, unless the
excess is blank. -/
def fitVarchar (n : ℕ) (s : String) : Except String String :=
  if (s.toList.drop n).all (· == ' ') then .ok (String.ofList (s.toList.take n))
  else .error "value too long for type character varying"

/-- A `char(n)` column moreover pads a shorter text with blanks. -/
def fitChar (n : ℕ) (s : String) : Except String String :=
  if (s.toList.drop n).all (· == ' ') then
    .ok (String.ofList (s.toList.take n ++ List.replicate (n - s.toList.length) ' '))
  else .error "value too long for type character"

/-! ### Rows -/

/-- `connection::ConnRow`. -/
structure ConnRow where
  connId : Uuid
  password : Option String
  env : String
  createdAt : DateTime
  modifiedAt : DateTime
  expiresAt : Option DateTime
  subscriptionId : Option Uuid
  wg : Option WgParam
  proto : Tag
  token : Option Uuid
  isDeleted : Bool
  deriving DecidableEq, Repr

/-- `ConnRow::from`. -/
def ConnRow.ofConn (id : Uuid) (c : Conn) : ConnRow where
  connId := id
  password := c.proto.password
  env := c.env.toText
  createdAt := c.createdAt
  modifiedAt := c.modifiedAt
  expiresAt := c.expiresAt
  subscriptionId := c.subscriptionId
  wg := c.proto.wg
  proto := c.proto.proto
  token := c.proto.token
  isDeleted := c.isDeleted

/-- The protocol of a row, in `Connection::try_from`. -/
def ConnRow.toProto (r : ConnRow) : Except Error Proto :=
  match r.proto with
  | .wireguard => match r.wg with
      | some wg => .ok (.wireguard wg)
      | none => .error (.custom "Missing Wireguard param")
  | .shadowsocks => match r.password with
      | some password => .ok (.shadowsocks password)
      | none => .error (.custom "Missing Shadowsocks password")
  | .hysteria2 => match r.token with
      | some token => .ok (.hysteria2 token)
      | none => .error (.custom "Missing Hysteria2 token")
  | tag => .ok (.xray tag)

/-- `Connection::try_from`. -/
def ConnRow.toConn (lower : String → String) (r : ConnRow) : Except Error Conn :=
  match r.toProto with
  | .error e => .error e
  | .ok proto => .ok
      { env := Env.fromText lower r.env
        proto := proto
        subscriptionId := r.subscriptionId
        createdAt := r.createdAt
        modifiedAt := r.modifiedAt
        expiresAt := r.expiresAt
        isDeleted := r.isDeleted }

/-- What the columns keep of a row. -/
def ConnRow.stored (r : ConnRow) : ConnRow :=
  { r with
    createdAt := pgRound r.createdAt
    modifiedAt := pgRound r.modifiedAt
    expiresAt := r.expiresAt.map pgRound }

@[simp] lemma ConnRow.stored_isDeleted (r : ConnRow) : r.stored.isDeleted = r.isDeleted := rfl

@[simp] lemma ConnRow.ofConn_isDeleted (id : Uuid) (c : Conn) :
    (ConnRow.ofConn id c).isDeleted = c.isDeleted := rfl

/-- A converted row keeps its deleted flag. -/
lemma ConnRow.toConn_isDeleted {lower : String → String} {r : ConnRow} {c : Conn}
    (h : r.toConn lower = .ok c) : c.isDeleted = r.isDeleted := by
  rw [toConn] at h
  split at h
  · exact absurd h (by simp)
  · rw [← Except.ok.inj h]

/-- A converted row keeps its subscription. -/
lemma ConnRow.toConn_subscriptionId {lower : String → String} {r : ConnRow} {c : Conn}
    (h : r.toConn lower = .ok c) : c.subscriptionId = r.subscriptionId := by
  rw [toConn] at h
  split at h
  · exact absurd h (by simp)
  · rw [← Except.ok.inj h]

/-- A converted row keeps its tag. -/
lemma ConnRow.toConn_proto {lower : String → String} {r : ConnRow} {c : Conn}
    (h : r.toConn lower = .ok c) : c.proto.proto = r.proto := by
  rw [toConn] at h
  split at h
  · exact absurd h (by simp)
  · next proto hproto =>
      rw [← Except.ok.inj h]
      rw [toProto] at hproto
      cases htag : r.proto <;> simp only [htag] at hproto
      all_goals first
        | (rw [← Except.ok.inj hproto]; rfl)
        | (split at hproto <;> first | (rw [← Except.ok.inj hproto]; rfl) | cases hproto)

/-- What the columns keep of a key. -/
def Key.stored (k : Key) : Key :=
  { k with createdAt := pgRound k.createdAt, modifiedAt := pgRound k.modifiedAt }

/-! ### Tables and methods -/

/-- The tables, by their primary keys.  A subscription row has the columns of the
record, so it is one, and so is a key row.  `credits` records the executed day
credits, oldest first, and no method reads it. -/
structure Db where
  connections : Table Uuid ConnRow
  subscriptions : Table Uuid Subscription
  keys : Table Uuid Key
  credits : List (Uuid × ℤ)

/-- The methods of the repositories `PgConn`, `PgSubscription` and `PgKey`. -/
inductive Sql : Type → Type where
  | connInsert (row : ConnRow) : Sql (Except Error Unit)
  | connDelete (id : Uuid) : Sql (Except Error Unit)
  | connRestore (id : Uuid) : Sql (Except Error Unit)
  | connAll : Sql (Except Error (List ConnRow))
  | subCreate (sub : Subscription) : Sql (Except Error Subscription)
  | subUpdate (id : Uuid) (expiresAt : DateTime) (referredBy : Option String)
      (refCode : String) : Sql (Except Error Subscription)
  | subAddDays (id : Uuid) (n : ℤ) : Sql (Except Error Subscription)
  | subAll : Sql (Except Error (List Subscription))
  | keyGet (code : String) : Sql (Option Key)
  | keyInsert (key : Key) : Sql (Except Error Unit)
  | keyActivate (key : Key) : Sql (Except Error Unit)

namespace Db

/-- The row that `INSERT INTO subscriptions` writes: the columns that are not
listed take their defaults. -/
def subRow (sub : Subscription) (now : DateTime) : Except String Subscription := do
  let referredBy ← match sub.referredBy with
    | some s => (fitVarchar 13 s).map some
    | none => .ok none
  let referCode ← fitChar 13 sub.referCode
  return { id := sub.id, expiresAt := sub.expiresAt.map pgRound, referredBy := referredBy,
           referCode := referCode, createdAt := pgRound now, updatedAt := pgRound now,
           isDeleted := false, limitBytes := none, downlinkBytes := none }

/-- The columns that `UPDATE subscriptions` writes in `update_subscription`. -/
def subRowUpdate (row : Subscription) (expiresAt : DateTime) (referredBy : Option String)
    (refCode : String) (now : DateTime) : Except String Subscription := do
  let referredBy ← match referredBy with
    | some s => (fitVarchar 13 s).map some
    | none => .ok none
  let referCode ← fitChar 13 refCode
  return { row with expiresAt := some (pgRound expiresAt), referredBy := referredBy,
                    updatedAt := pgRound now, referCode := referCode }

/-- The columns that `PgSubscription::add_days` writes. -/
def subRowCredit (row : Subscription) (n : ℤ) (now : DateTime) : Subscription :=
  let base := match row.expiresAt with
    | some e => if now < e then e else now
    | none => now
  { row with expiresAt := some (pgRound (base + days n)), updatedAt := pgRound now }

/-- `PgConn::insert`: the primary key and the reference to the subscription are
checked. -/
def connInsert (db : Db) (row : ConnRow) : Db × Except Error Unit :=
  if (db.connections.get row.connId).isSome then
    (db, .error (.custom ("Connection " ++ row.connId.asHyphenated ++ " already exists")))
  else if row.subscriptionId.any fun sub => (db.subscriptions.get sub).isNone then
    (db, .error (.database "insert or update violates foreign key constraint"))
  else ({ db with connections := db.connections.put row.connId row.stored }, .ok ())

/-- `PgConn::delete` and `PgConn::restore`; no row is no error. -/
def connSetDeleted (db : Db) (id : Uuid) (v : Bool) : Db :=
  { db with connections := db.connections.change id fun r => { r with isDeleted := v } }

/-- `PgConn::all`; the key of a row is its `id` column. -/
def connAll (db : Db) (order : List Uuid) : List ConnRow :=
  (db.connections.iter order).map fun e => { e.2 with connId := e.1 }

/-- `PgSubscription::create`. -/
def subCreate (db : Db) (sub : Subscription) (now : DateTime) : Db × Except Error Subscription :=
  if (db.subscriptions.get sub.id).isSome then
    (db, .error (.database "duplicate key value violates unique constraint"))
  else match subRow sub now with
    | .error text => (db, .error (.database text))
    | .ok row => ({ db with subscriptions := db.subscriptions.put sub.id row }, .ok row)

/-- `PgSubscription::update_subscription`; no row is an error. -/
def subUpdate (db : Db) (id : Uuid) (expiresAt : DateTime) (referredBy : Option String)
    (refCode : String) (now : DateTime) : Db × Except Error Subscription :=
  match db.subscriptions.get id with
  | none => (db, .error (.database "query returned an unexpected number of rows"))
  | some row => match subRowUpdate row expiresAt referredBy refCode now with
      | .error text => (db, .error (.database text))
      | .ok row => ({ db with subscriptions := db.subscriptions.put id row }, .ok row)

/-- `PgSubscription::add_days`; no row is an error. -/
def subAddDays (db : Db) (id : Uuid) (n : ℤ) (now : DateTime) : Db × Except Error Subscription :=
  match db.subscriptions.get id with
  | none => (db, .error (.database "query returned an unexpected number of rows"))
  | some row =>
      let row := subRowCredit row n now
      ({ db with subscriptions := db.subscriptions.put id row,
                 credits := db.credits ++ [(id, n)] }, .ok row)

/-- `PgSubscription::all`. -/
def subAll (db : Db) (order : List Uuid) : List Subscription :=
  (((db.subscriptions.iter order).map fun e => { e.2 with id := e.1 }).filter
    fun s => !s.isDeleted).insertionSort fun a b => b.createdAt ≤ a.createdAt

/-- `PgKey::get`. -/
def keyGet (db : Db) (order : List Uuid) (code : String) : Option Key :=
  ((db.keys.iter order).find? fun e => e.2.code == code).map fun e => { e.2 with id := e.1 }

/-- `PgKey::insert`: the id and the code are unique. -/
def keyInsert (db : Db) (key : Key) : Db × Except Error Unit :=
  if (db.keys.get key.id).isSome || (db.keys.iter []).any fun e => e.2.code == key.code then
    (db, .error (.database "duplicate key value violates unique constraint"))
  else ({ db with keys := db.keys.put key.id key.stored }, .ok ())

/-- `PgKey::activate`; no row is no error. -/
def keyActivate (db : Db) (key : Key) (now : DateTime) : Db :=
  { db with keys := db.keys.change key.id fun k =>
      { k with
        activated := true, subscriptionId := key.subscriptionId, modifiedAt := pgRound now } }

end Db

/-- One method on the tables.  A call that does not go through changes
nothing. -/
def Sql.run {β : Type} (q : Sql β) (i : Input) (db : Db) : Db × β :=
  match q with
  | .connInsert row => if i.ok then db.connInsert row else (db, .error (.database i.text))
  | .connDelete id =>
      if i.ok then (db.connSetDeleted id true, .ok ()) else (db, .error (.database i.text))
  | .connRestore id =>
      if i.ok then (db.connSetDeleted id false, .ok ()) else (db, .error (.database i.text))
  | .connAll =>
      if i.ok then (db, .ok (db.connAll i.order)) else (db, .error (.database i.text))
  | .subCreate sub => if i.ok then db.subCreate sub i.now else (db, .error (.database i.text))
  | .subUpdate id e r c =>
      if i.ok then db.subUpdate id e r c i.now else (db, .error (.database i.text))
  | .subAddDays id n =>
      if i.ok then db.subAddDays id n i.now else (db, .error (.database i.text))
  | .subAll => if i.ok then (db, .ok (db.subAll i.order)) else (db, .error (.database i.text))
  | .keyGet code => if i.ok then (db, db.keyGet i.order code) else (db, none)
  | .keyInsert key => if i.ok then db.keyInsert key else (db, .error (.database i.text))
  | .keyActivate key =>
      if i.ok then (db.keyActivate key i.now, .ok ()) else (db, .error (.database i.text))

/-! ### What the methods read -/

lemma Db.mem_connAll {db : Db} {order : List Uuid} {r : ConnRow} :
    r ∈ db.connAll order ↔ ∃ r', db.connections.get r.connId = some r' ∧
      r = { r' with connId := r.connId } := by
  rw [connAll, List.mem_map]
  constructor
  · rintro ⟨⟨id, r'⟩, hmem, rfl⟩
    exact ⟨r', Table.mem_iter.mp hmem, rfl⟩
  · rintro ⟨r', hget, hr⟩
    exact ⟨(r.connId, r'), Table.mem_iter.mpr hget, hr.symm⟩

lemma Db.connAll_nodup (db : Db) (order : List Uuid) :
    ((db.connAll order).map ConnRow.connId).Nodup := by
  have hkeys :
      (db.connAll order).map ConnRow.connId = (db.connections.iter order).map Prod.fst := by
    rw [connAll, List.map_map]
    rfl
  rw [hkeys]
  exact Table.iter_keys_nodup db.connections order

/-- The subscriptions that are not deleted are read. -/
lemma Db.mem_subAll {db : Db} {order : List Uuid} {sub : Subscription} :
    sub ∈ db.subAll order ↔ ∃ row, db.subscriptions.get sub.id = some row ∧
      row.isDeleted = false ∧ sub = { row with id := sub.id } := by
  rw [subAll, List.mem_insertionSort, List.mem_filter, List.mem_map]
  constructor
  · rintro ⟨⟨⟨id, row⟩, hmem, rfl⟩, hlive⟩
    exact ⟨row, Table.mem_iter.mp hmem, by simpa using hlive, rfl⟩
  · rintro ⟨row, hget, hlive, hsub⟩
    refine ⟨⟨(sub.id, row), Table.mem_iter.mpr hget, hsub.symm⟩, ?_⟩
    rw [hsub]
    simpa using hlive

lemma Db.subAll_nodup (db : Db) (order : List Uuid) :
    ((db.subAll order).map Subscription.id).Nodup := by
  have hkeys : ((db.subscriptions.iter order).map fun e =>
      ({ e.2 with id := e.1 } : Subscription)).map Subscription.id =
        (db.subscriptions.iter order).map Prod.fst := by
    rw [List.map_map]
    rfl
  rw [subAll, ((List.perm_insertionSort _ _).map Subscription.id).nodup_iff]
  refine List.Nodup.sublist (List.filter_sublist.map Subscription.id) ?_
  rw [hkeys]
  exact Table.iter_keys_nodup db.subscriptions order

/-- A key found by its code is a row of that code. -/
lemma Db.keyGet_some {db : Db} {order : List Uuid} {code : String} {k : Key}
    (h : db.keyGet order code = some k) :
    ∃ k', db.keys.get k.id = some k' ∧ k'.code = code ∧ k.activated = k'.activated := by
  obtain ⟨⟨id, k'⟩, hfind, rfl⟩ := Option.map_eq_some_iff.mp h
  refine ⟨k', Table.mem_iter.mp (List.mem_of_find?_eq_some hfind), ?_, rfl⟩
  simpa using List.find?_some hfind

/-- The parts of a result that went through. -/
lemma of_bind_eq_ok {ε α β : Type} {x : Except ε α} {f : α → Except ε β} {y : β}
    (h : (x >>= f) = .ok y) : ∃ a, x = .ok a ∧ f a = .ok y := by
  cases x with
  | error e => cases h
  | ok a => exact ⟨a, rfl, h⟩

/-- The column of the referrer takes nothing, or a text that fits. -/
lemma referrer_of_bind_eq_ok {β : Type} {r : Option String} {k : Option String → Except String β}
    {y : β} (h : (match r with
      | some s => (fitVarchar 13 s).map some >>= k
      | none => (.ok none : Except String (Option String)) >>= k) = .ok y) :
    ∃ r', Option.Rel (fun s s' => fitVarchar 13 s = .ok s') r r' ∧ k r' = .ok y := by
  cases r with
  | none => exact ⟨none, .none, h⟩
  | some s =>
      obtain ⟨r', hr', hk⟩ := of_bind_eq_ok h
      cases hfit : fitVarchar 13 s with
      | error text =>
          rw [hfit] at hr'
          cases hr'
      | ok s' =>
          rw [hfit] at hr'
          rw [← Except.ok.inj hr'] at hk
          exact ⟨some s', .some hfit, hk⟩

/-- An updated row has the expiry that was given, as the column keeps it. -/
lemma expiresAt_of_subRowUpdate {row row' : Subscription} {v : DateTime} {r : Option String}
    {c : String} {now : DateTime} (h : Db.subRowUpdate row v r c now = .ok row') :
    row'.expiresAt = some (pgRound v) := by
  obtain ⟨r', -, h⟩ := referrer_of_bind_eq_ok h
  obtain ⟨c', -, h⟩ := of_bind_eq_ok h
  rw [← Except.ok.inj h]

/-! ### What a method leaves alone -/

namespace Sql

variable {β : Type}

/-- The methods that write the table of connections. -/
def writesConnections : Sql β → Bool
  | connInsert _ => true
  | connDelete _ => true
  | connRestore _ => true
  | _ => false

/-- The methods that write the table of subscriptions. -/
def writesSubscriptions : Sql β → Bool
  | subCreate _ => true
  | subUpdate _ _ _ _ => true
  | subAddDays _ _ => true
  | _ => false

/-- The method that adds a row to the table of subscriptions. -/
def createsSubscription : Sql β → Bool
  | subCreate _ => true
  | _ => false

/-- The methods that write the table of keys. -/
def writesKeys : Sql β → Bool
  | keyInsert _ => true
  | keyActivate _ => true
  | _ => false

/-- The methods that credit days. -/
def writesCredits : Sql β → Bool
  | subAddDays _ _ => true
  | _ => false

lemma run_connections {q : Sql β} (h : q.writesConnections = false) (i : Input) (db : Db) :
    (q.run i db).1.connections = db.connections := by
  cases q with
  | connInsert | connDelete | connRestore => exact absurd h (by simp [writesConnections])
  | subCreate sub =>
      simp only [run, Db.subCreate]
      (repeat' split) <;> rfl
  | subUpdate id e r c =>
      simp only [run, Db.subUpdate]
      (repeat' split) <;> rfl
  | subAddDays id n =>
      simp only [run, Db.subAddDays]
      (repeat' split) <;> rfl
  | keyInsert key =>
      simp only [run, Db.keyInsert]
      (repeat' split) <;> rfl
  | connAll | subAll | keyGet | keyActivate =>
      simp only [run, Db.keyActivate]
      split <;> rfl

lemma run_subscriptions {q : Sql β} (h : q.writesSubscriptions = false) (i : Input) (db : Db) :
    (q.run i db).1.subscriptions = db.subscriptions := by
  cases q with
  | subCreate | subUpdate | subAddDays => exact absurd h (by simp [writesSubscriptions])
  | connInsert row =>
      simp only [run, Db.connInsert]
      (repeat' split) <;> rfl
  | keyInsert key =>
      simp only [run, Db.keyInsert]
      (repeat' split) <;> rfl
  | connDelete | connRestore | connAll | subAll | keyGet | keyActivate =>
      simp only [run, Db.keyActivate, Db.connSetDeleted]
      split <;> rfl

lemma run_keys {q : Sql β} (h : q.writesKeys = false) (i : Input) (db : Db) :
    (q.run i db).1.keys = db.keys := by
  cases q with
  | keyInsert | keyActivate => exact absurd h (by simp [writesKeys])
  | connInsert row =>
      simp only [run, Db.connInsert]
      (repeat' split) <;> rfl
  | subCreate sub =>
      simp only [run, Db.subCreate]
      (repeat' split) <;> rfl
  | subUpdate id e r c =>
      simp only [run, Db.subUpdate]
      (repeat' split) <;> rfl
  | subAddDays id n =>
      simp only [run, Db.subAddDays]
      (repeat' split) <;> rfl
  | connDelete | connRestore | connAll | subAll | keyGet =>
      simp only [run, Db.connSetDeleted]
      split <;> rfl

lemma run_credits {q : Sql β} (h : q.writesCredits = false) (i : Input) (db : Db) :
    (q.run i db).1.credits = db.credits := by
  cases q with
  | subAddDays => exact absurd h (by simp [writesCredits])
  | connInsert row =>
      simp only [run, Db.connInsert]
      (repeat' split) <;> rfl
  | subCreate sub =>
      simp only [run, Db.subCreate]
      (repeat' split) <;> rfl
  | subUpdate id e r c =>
      simp only [run, Db.subUpdate]
      (repeat' split) <;> rfl
  | keyInsert key =>
      simp only [run, Db.keyInsert]
      (repeat' split) <;> rfl
  | connDelete | connRestore | connAll | subAll | keyGet | keyActivate =>
      simp only [run, Db.keyActivate, Db.connSetDeleted]
      split <;> rfl

end Sql

/-- A day credit fails without an effect, or is executed and recorded. -/
lemma subAddDays_cases (id : Uuid) (n : ℤ) (i : Input) (db : Db) :
    ((Sql.run (.subAddDays id n) i db).1 = db ∧
        ∃ e, (Sql.run (.subAddDays id n) i db).2 = .error e) ∨
      ((Sql.run (.subAddDays id n) i db).1.credits = db.credits ++ [(id, n)] ∧
        ∃ row, (Sql.run (.subAddDays id n) i db).2 = .ok row) := by
  simp only [Sql.run, Db.subAddDays]
  split
  · split
    · exact Or.inl ⟨rfl, _, rfl⟩
    · exact Or.inr ⟨rfl, _, rfl⟩
  · exact Or.inl ⟨rfl, _, rfl⟩

/-- A connection row is inserted under a new key or nothing changes. -/
lemma connInsert_cases (row : ConnRow) (i : Input) (db : Db) :
    ((Sql.run (.connInsert row) i db).1 = db ∧
        ∃ e, (Sql.run (.connInsert row) i db).2 = .error e) ∨
      (db.connections.get row.connId = none ∧
        (Sql.run (.connInsert row) i db).1 =
          { db with connections := db.connections.put row.connId row.stored } ∧
        (Sql.run (.connInsert row) i db).2 = .ok ()) := by
  simp only [Sql.run, Db.connInsert]
  split
  · split
    · exact Or.inl ⟨rfl, _, rfl⟩
    · next hnone =>
        rw [Bool.not_eq_true, Option.isSome_eq_false_iff, Option.isNone_iff_eq_none] at hnone
        split
        · exact Or.inl ⟨rfl, _, rfl⟩
        · exact Or.inr ⟨hnone, rfl, rfl⟩
  · exact Or.inl ⟨rfl, _, rfl⟩

/-- A subscription row is created or nothing changes. -/
lemma subCreate_cases (sub : Subscription) (i : Input) (db : Db) :
    ((Sql.run (.subCreate sub) i db).1 = db ∧
        ∃ e, (Sql.run (.subCreate sub) i db).2 = .error e) ∨
      (db.subscriptions.get sub.id = none ∧ ∃ row,
        (Sql.run (.subCreate sub) i db).1 =
          { db with subscriptions := db.subscriptions.put sub.id row } ∧
        (Sql.run (.subCreate sub) i db).2 = .ok row) := by
  simp only [Sql.run, Db.subCreate]
  split
  · split
    · exact Or.inl ⟨rfl, _, rfl⟩
    · next hnone =>
        rw [Bool.not_eq_true, Option.isSome_eq_false_iff, Option.isNone_iff_eq_none] at hnone
        split
        · exact Or.inl ⟨rfl, _, rfl⟩
        · exact Or.inr ⟨hnone, _, rfl, rfl⟩
  · exact Or.inl ⟨rfl, _, rfl⟩

/-- Only the creation of a subscription changes the number of subscription
rows. -/
lemma subscriptions_size_run {β : Type} {q : Sql β} (h : q.createsSubscription = false)
    (i : Input) (db : Db) :
    (q.run i db).1.subscriptions.size = db.subscriptions.size := by
  cases q with
  | subCreate sub => exact absurd h (by simp [Sql.createsSubscription])
  | subUpdate id e r c =>
      simp only [Sql.run, Db.subUpdate]
      split
      · split
        · rfl
        · next row hrow =>
            split
            · rfl
            · exact Table.size_put_of_some _ hrow
      · rfl
  | subAddDays id n =>
      simp only [Sql.run, Db.subAddDays]
      split
      · split
        · rfl
        · next row hrow => exact Table.size_put_of_some _ hrow
      · rfl
  | _ => rw [Sql.run_subscriptions rfl]

end Fcore
