import Fcore.Calculus.Prog
import Fcore.Api.Postgres
import Fcore.Zmq.Message

/-!
The state that the requests and background tasks of the API share, and its
atomic steps (`src/bin/api/service.rs`, `src/bin/api/sync/mod.rs`,
`src/bin/api/email.rs`).

* `Cache`, `Lock`, `World`: the memory behind its read-write lock, the database,
  the log of the bus and the store of trial identities;
* `Look`, `Edit`: what a read section and a write section of the memory lock
  computes;
* `Guard`: lock operations of the sections that last over other steps;
* `Call`, `Call.exec`: one atomic step is a lock section, a method of the
  database, a publication, a step on the identity store or a draw from outside;
* `exec_look`, `exec_edit`, `exec_within`, `exec_sql` and so on: what one step
  can do.
-/

namespace Fcore

open Calculus

/-! ### Requests -/

/-- `request::ConnCreateRequest`. -/
structure ConnCreateRequest where
  env : Env
  subscriptionId : Option Uuid
  proto : Tag
  days : Option ℕ

/-- `request::Subscription`, the body of `POST` and `PUT /subscription`. -/
structure SubReq where
  referredBy : Option String
  referCode : Option String
  days : Option ℤ
  limitBytes : Option ℤ

/-- `http::request::ConnType`, the body of `POST /connections/sync`. -/
structure ConnType where
  proto : Tag
  lastUpdate : Option ℕ
  env : Env
  topic : Topic

/-! ### The state -/

/-- `service::Cache`. -/
structure Cache where
  connections : Connections Conn
  subscriptions : Subscriptions

/-- The read-write lock of the memory. -/
structure Lock where
  writer : Bool
  readers : ℕ
  deriving DecidableEq

/-- Neither a writer nor a reader holds the lock. -/
def Lock.free (l : Lock) : Bool := !l.writer && l.readers == 0

/-- The state shared by all tasks.  `bus` holds the publications that went out,
newest first. -/
structure World where
  memory : Cache
  lock : Lock
  db : Db
  bus : List (Topic × List Message)
  store : Table String DateTime
  file : List String

/-- The state of a service with nothing in it. -/
def World.empty : World where
  memory := ⟨∅, ∅⟩
  lock := ⟨false, 0⟩
  db := ⟨∅, ∅, ∅, []⟩
  bus := []
  store := ∅
  file := []

/-- The input of a step that goes through, at a given time. -/
def Input.at (now : DateTime) : Input where
  ok := true
  now := now
  uuid := 0
  text := ""
  order := []
  pick := true

/-! ### Read sections -/

/-- The results of the read sections of the memory lock. -/
inductive Look : Type → Type where
  /-- `memory.connections.get(conn_id)`. -/
  | connection (id : Uuid) : Look (Option Conn)
  /-- The first section of `add_days`. -/
  | wasInactive (sub : Uuid) : Look Bool
  /-- The first section of `restore_connections_by_subscription`. -/
  | toRestore (sub : Uuid) : Look (List (Uuid × Conn))
  /-- The inner section of `cleanup_expired_subscriptions`. -/
  | toDelete (sub : Uuid) : Look (List (Uuid × Conn))
  /-- The section of `cleanup_expired_connections`. -/
  | expiredConns (now : DateTime) : Look (List (Uuid × Conn))
  /-- The outer section of `cleanup_expired_subscriptions`. -/
  | expiredSubs : Look (List Uuid)
  /-- The section of `restore_subscriptions`. -/
  | activeSubs : Look (List Uuid)
  /-- The owner of a refer code, in `post_trial_handler` and
  `post_subscription_handler`. -/
  | referrer (code : String) : Look (Option Uuid)
  /-- The section of `create_connection_handler`: the subscription is checked and
  the protocol built. -/
  | prepare (net : IpAddrMask) (req : ConnCreateRequest) : Look (Except Reply Proto)
  /-- The section of `post_trial_handler` that builds a WireGuard protocol. -/
  | wgProto (net : IpAddrMask) : Look (Except Reply Proto)
  /-- The selection of `get_connections_handler`. -/
  | toSync (req : ConnType) : Look (List (Uuid × Conn))

/-- A WireGuard protocol with a fresh key and the next address. -/
def newWgProto (net : IpAddrMask) (conns : Connections Conn) (i : Input) : Except Reply Proto :=
  match nextWgAddress net conns i.order with
  | .error r => .error r
  | .ok ip => .ok (.wireguard { keys := { privkey := i.text }, address := ⟨.v4 ip, 32⟩ })

/-- The protocol of a new connection, in `create_connection_handler`. -/
def newProto (net : IpAddrMask) (conns : Connections Conn) (tag : Tag) (i : Input) :
    Except Reply Proto :=
  match tag with
  | .wireguard => newWgProto net conns i
  | .shadowsocks => .ok (.shadowsocks i.text)
  | .hysteria2 => .ok (.hysteria2 i.uuid)
  | .mtproto => .ok (.mtproto i.text)
  | tag => .ok (.xray tag)

/-- The subscription check of `create_connection_handler`. -/
def checkSubscription (subs : Subscriptions) (sub : Option Uuid) (now : DateTime) :
    Except Reply Unit :=
  match sub with
  | none => .ok ()
  | some id => match subs.get id with
      | none => .error (badRequest ("Subscription " ++ id.asHyphenated ++ " not found"))
      | some s =>
          if s.isActive now then .ok ()
          else .error (badRequest ("Subscription is not active " ++ id.asHyphenated ++ " "))

/-- The filter of `get_connections_handler`.  The timestamp of the last change is
cast to an unsigned word. -/
def syncs (req : ConnType) (c : Conn) : Bool :=
  !c.isDeleted && c.proto.proto == req.proto && (req.proto == .hysteria2 || c.env == req.env) &&
    match req.lastUpdate with
    | none => true
    | some ts => decide (ts ≤ (c.modifiedAt.timestamp % 2 ^ 64).toNat)

/-- The result of a read section. -/
def Look.run {β : Type} (r : Look β) (i : Input) (m : Cache) : β :=
  match r with
  | .connection id => m.connections.get id
  | .wasInactive sub => match m.subscriptions.get sub with
      | some s => !s.isActive i.now
      | none => false
  | .toRestore sub =>
      ((m.connections.getBySubscriptionId i.order sub).getD []).filter fun e => e.2.isDeleted
  | .toDelete sub =>
      ((m.connections.getBySubscriptionId i.order sub).getD []).filter fun e => !e.2.isDeleted
  | .expiredConns now => (m.connections.iter i.order).filter fun e =>
      match e.2.expiresAt with
      | some t => decide (t ≤ now) && !e.2.isDeleted
      | none => false
  | .expiredSubs =>
      ((m.subscriptions.iter i.order).filter fun e => !e.2.isActive i.now).map Prod.fst
  | .activeSubs =>
      ((m.subscriptions.iter i.order).filter fun e => e.2.isActive i.now).map Prod.fst
  | .referrer code => (m.subscriptions.findByReferCode i.order code).map (·.id)
  | .prepare net req => match checkSubscription m.subscriptions req.subscriptionId i.now with
      | .error r => .error r
      | .ok () => newProto net m.connections req.proto i
  | .wgProto net => newWgProto net m.connections i
  | .toSync req => (m.connections.iter i.order).filter fun e => syncs req e.2

/-! ### Write sections -/

/-- The write sections of the memory lock. -/
inductive Edit : Type → Type where
  /-- `memory.connections.add`. -/
  | connAdd (id : Uuid) (c : Conn) : Edit (Except Error Status)
  /-- `set_deleted` and `set_modified_at` on `get_mut`. -/
  | setDeleted (id : Uuid) (v : Bool) : Edit Unit
  /-- `memory.subscriptions.add`. -/
  | subAdd (s : Subscription) : Edit Status
  /-- The second section of `add_days`; tells whether the subscription exists. -/
  | credit (id : Uuid) (n : ℤ) : Edit Bool
  /-- The changes of `update_sub`; the changed subscription, if it exists. -/
  | update (id : Uuid) (req : SubReq) : Edit (Option Subscription)
  /-- `*mem = tmp_mem` in `get_state_from_db`. -/
  | install (c : Cache) : Edit Unit

/-- The change that `add_days` makes to a subscription in memory.  A refused
expiry is ignored. -/
def Subscription.credit (s : Subscription) (n : ℤ) (now : DateTime) : Subscription :=
  let newExpires := match s.expiresAt with
    | some e => if now < e then e + days n else now + days n
    | none => now + days n
  match s.setExpiresAt newExpires now with
  | .ok s => s
  | .error _ => s

@[simp] lemma Subscription.credit_id (s : Subscription) (n : ℤ) (now : DateTime) :
    (s.credit n now).id = s.id := by
  simp only [credit, setExpiresAt]
  split_ifs <;> rfl

@[simp] lemma Subscription.credit_referCode (s : Subscription) (n : ℤ) (now : DateTime) :
    (s.credit n now).referCode = s.referCode := by
  simp only [credit, setExpiresAt]
  split_ifs <;> rfl

/-- The changes that `update_sub` makes to a subscription in memory. -/
def Subscription.update (s : Subscription) (req : SubReq) (now : DateTime) : Subscription :=
  let s := match req.days with
    | some n => s.extend n now
    | none => s
  let s := match req.referredBy with
    | some r => { s with referredBy := some r }
    | none => s
  let s := match req.referCode with
    | some r => { s with referCode := r }
    | none => s
  match req.limitBytes with
  | some n => { s with limitBytes := some n }
  | none => s

/-- The memory after a write section, and its result. -/
def Edit.run {β : Type} (w : Edit β) (i : Input) (m : Cache) : Cache × β :=
  match w with
  | .connAdd id c =>
      let r := Connections.add m.connections id c
      ({ m with connections := r.1 }, r.2)
  | .setDeleted id v =>
      ({ m with connections := m.connections.change id fun c => c.setDeleted v i.now }, ())
  | .subAdd s =>
      let r := m.subscriptions.add s
      ({ m with subscriptions := r.1 }, r.2)
  | .credit id n =>
      ({ m with subscriptions := m.subscriptions.change id fun s => s.credit n i.now },
        (m.subscriptions.get id).isSome)
  | .update id req =>
      ({ m with subscriptions := m.subscriptions.change id fun s => s.update req i.now },
        (m.subscriptions.get id).map fun s => s.update req i.now)
  | .install c => (c, ())

/-! ### Calls -/

/-- Lock operations of the sections that last over other steps. -/
inductive Guard : Type → Type where
  | lockWrite : Guard Unit
  | unlockWrite : Guard Unit
  | lockRead : Guard Unit
  | unlockRead : Guard Unit

/-- The lock after an operation; `none` while it has to wait. -/
def Guard.run {β : Type} (g : Guard β) (l : Lock) : Option (Lock × β) :=
  match g with
  | .lockWrite => if l.free then some ({ l with writer := true }, ()) else none
  | .unlockWrite => if l.writer then some ({ l with writer := false }, ()) else none
  | .lockRead => if l.writer then none else some ({ l with readers := l.readers + 1 }, ())
  | .unlockRead => some ({ l with readers := l.readers - 1 }, ())

/-- Steps on the store of trial identities (`EmailStore`). -/
inductive Mail : Type → Type where
  /-- `store.contains_key`. -/
  | has (hmac : String) : Mail Bool
  /-- `store.insert`. -/
  | save (hmac : String) (time : DateTime) : Mail Unit
  /-- Opening the file and writing a line. -/
  | append (line : String) : Mail (Except Error Unit)

/-- Draws from outside that change nothing. -/
inductive Ask : Type → Type where
  | now : Ask DateTime
  | uuid : Ask Uuid
  | password : Ask String
  | pick : Ask Bool

/-- The result of a draw. -/
def Ask.run {β : Type} (a : Ask β) (i : Input) : β :=
  match a with
  | .now => i.now
  | .uuid => i.uuid
  | .password => i.text
  | .pick => i.pick

/-- A publication on the bus (`send_binary`). -/
inductive Bus : Type → Type where
  | publish (topic : Topic) (messages : List Message) : Bus (Except Error Unit)

/-- The atomic steps of the API. -/
inductive Call (β : Type) : Type where
  | look (r : Look β)
  | edit (w : Edit β)
  | within (w : Edit β)
  | guard (g : Guard β)
  | sql (q : Sql β)
  | bus (p : Bus β)
  | mail (m : Mail β)
  | ask (a : Ask β)

namespace Call

/-- A publication that goes out is logged. -/
def execBus {β : Type} (p : Bus β) (i : Input) (s : World) : World × β :=
  match p with
  | .publish topic messages =>
      if i.ok then ({ s with bus := (topic, messages) :: s.bus }, .ok ())
      else (s, .error (.zmq i.text))

/-- A step on the identity store. -/
def execMail {β : Type} (m : Mail β) (i : Input) (s : World) : World × β :=
  match m with
  | .has h => (s, (s.store.get h).isSome)
  | .save h time => ({ s with store := s.store.put h time }, ())
  | .append line =>
      if i.ok then ({ s with file := s.file ++ [line] }, .ok ()) else (s, .error (.io i.text))

/-- One atomic step; `none` while it waits for the memory lock. -/
def exec {β : Type} (c : Call β) (i : Input) (s : World) : Option (World × β) :=
  match c with
  | look r => if s.lock.writer then none else some (s, r.run i s.memory)
  | edit w =>
      if s.lock.free then
        some ({ s with memory := (w.run i s.memory).1 }, (w.run i s.memory).2)
      else none
  | within w =>
      if s.lock.writer then
        some ({ s with memory := (w.run i s.memory).1 }, (w.run i s.memory).2)
      else none
  | guard g => (g.run s.lock).map fun r => ({ s with lock := r.1 }, r.2)
  | sql q => some ({ s with db := (q.run i s.db).1 }, (q.run i s.db).2)
  | bus p => some (execBus p i s)
  | mail m => some (execMail m i s)
  | ask a => some (s, a.run i)

end Call

instance : Machine Call Input World where
  exec := Call.exec

/-! ### What one step can do -/

/-- The write sections that touch the connections of the memory. -/
def Edit.writesConnections {β : Type} : Edit β → Bool
  | connAdd _ _ => true
  | setDeleted _ _ => true
  | install _ => true
  | _ => false

/-- The steps that touch the connections of the memory. -/
def Call.writesConnections {β : Type} : Call β → Bool
  | edit w => w.writesConnections
  | within w => w.writesConnections
  | _ => false

/-- The write sections that touch the subscriptions of the memory. -/
def Edit.writesSubscriptions {β : Type} : Edit β → Bool
  | subAdd _ => true
  | credit _ _ => true
  | update _ _ => true
  | install _ => true
  | _ => false

/-- The steps that touch the subscriptions of the memory. -/
def Call.writesSubscriptions {β : Type} : Call β → Bool
  | edit w => w.writesSubscriptions
  | within w => w.writesSubscriptions
  | _ => false

section Steps

open Machine (exec)

variable {β : Type} {i : Input} {s s' : World} {b : β}

lemma exec_look {r : Look β} : exec (Call.look r) i s = some (s', b) ↔
    s.lock.writer = false ∧ s' = s ∧ b = r.run i s.memory := by
  show (if s.lock.writer then none else some (s, r.run i s.memory)) = some (s', b) ↔ _
  cases s.lock.writer <;> simp [eq_comm]

lemma exec_edit {w : Edit β} : exec (Call.edit w) i s = some (s', b) ↔
    s.lock.free = true ∧ s' = { s with memory := (w.run i s.memory).1 } ∧
      b = (w.run i s.memory).2 := by
  show (if s.lock.free then _ else none) = some (s', b) ↔ _
  cases s.lock.free <;> simp [eq_comm]

lemma exec_within {w : Edit β} : exec (Call.within w) i s = some (s', b) ↔
    s.lock.writer = true ∧ s' = { s with memory := (w.run i s.memory).1 } ∧
      b = (w.run i s.memory).2 := by
  show (if s.lock.writer then _ else none) = some (s', b) ↔ _
  cases s.lock.writer <;> simp [eq_comm]

lemma exec_guard {g : Guard β} : exec (Call.guard g) i s = some (s', b) ↔
    ∃ l, g.run s.lock = some (l, b) ∧ s' = { s with lock := l } := by
  show (g.run s.lock).map _ = some (s', b) ↔ _
  rw [Option.map_eq_some_iff]
  constructor
  · rintro ⟨⟨l, b'⟩, hrun, heq⟩
    obtain ⟨rfl, rfl⟩ := Prod.mk.inj heq
    exact ⟨l, hrun, rfl⟩
  · rintro ⟨l, hrun, rfl⟩
    exact ⟨(l, b), hrun, rfl⟩

lemma exec_sql {q : Sql β} : exec (Call.sql q) i s = some (s', b) ↔
    s' = { s with db := (q.run i s.db).1 } ∧ b = (q.run i s.db).2 := by
  show some (_, _) = some (s', b) ↔ _
  simp [eq_comm]

lemma exec_bus {p : Bus β} : exec (Call.bus p) i s = some (s', b) ↔
    s' = (Call.execBus p i s).1 ∧ b = (Call.execBus p i s).2 := by
  show some _ = some (s', b) ↔ _
  rw [Option.some.injEq, Prod.ext_iff]
  simp [eq_comm]

lemma exec_mail {m : Mail β} : exec (Call.mail m) i s = some (s', b) ↔
    s' = (Call.execMail m i s).1 ∧ b = (Call.execMail m i s).2 := by
  show some _ = some (s', b) ↔ _
  rw [Option.some.injEq, Prod.ext_iff]
  simp [eq_comm]

lemma exec_ask {a : Ask β} : exec (Call.ask a) i s = some (s', b) ↔ s' = s ∧ b = a.run i := by
  show some (_, _) = some (s', b) ↔ _
  simp [eq_comm]

/-- A publication touches the log only. -/
lemma execBus_eq (p : Bus β) (i : Input) (s : World) :
    (Call.execBus p i s).1 = { s with bus := (Call.execBus p i s).1.bus } := by
  cases p with
  | publish topic messages =>
      rw [Call.execBus]
      split <;> rfl

/-- A step on the identity store touches nothing else. -/
lemma execMail_eq (m : Mail β) (i : Input) (s : World) :
    (Call.execMail m i s).1 =
      { s with store := (Call.execMail m i s).1.store, file := (Call.execMail m i s).1.file } := by
  cases m with
  | has h => rfl
  | save h time => rfl
  | append line =>
      rw [Call.execMail]
      split <;> rfl

/-- Only a method of the database changes the database. -/
lemma db_of_exec {c : Call β} (h : exec c i s = some (s', b)) (hc : ∀ q, c ≠ .sql q) :
    s'.db = s.db := by
  cases c with
  | look r => rw [(exec_look.mp h).2.1]
  | edit w => rw [(exec_edit.mp h).2.1]
  | within w => rw [(exec_within.mp h).2.1]
  | guard g =>
      obtain ⟨l, -, rfl⟩ := exec_guard.mp h
      rfl
  | sql q => exact absurd rfl (hc q)
  | bus p => rw [(exec_bus.mp h).1, execBus_eq]
  | mail m => rw [(exec_mail.mp h).1, execMail_eq]
  | ask a => rw [(exec_ask.mp h).1]

/-- Only a step on the identity store changes the store and its file. -/
lemma identities_of_exec {c : Call β} (h : exec c i s = some (s', b)) (hc : ∀ m, c ≠ .mail m) :
    s'.store = s.store ∧ s'.file = s.file := by
  cases c with
  | look r => exact ⟨by rw [(exec_look.mp h).2.1], by rw [(exec_look.mp h).2.1]⟩
  | edit w => exact ⟨by rw [(exec_edit.mp h).2.1], by rw [(exec_edit.mp h).2.1]⟩
  | within w => exact ⟨by rw [(exec_within.mp h).2.1], by rw [(exec_within.mp h).2.1]⟩
  | guard g =>
      obtain ⟨l, -, rfl⟩ := exec_guard.mp h
      exact ⟨rfl, rfl⟩
  | sql q => exact ⟨by rw [(exec_sql.mp h).1], by rw [(exec_sql.mp h).1]⟩
  | bus p => exact ⟨by rw [(exec_bus.mp h).1, execBus_eq], by rw [(exec_bus.mp h).1, execBus_eq]⟩
  | mail m => exact absurd rfl (hc m)
  | ask a => exact ⟨by rw [(exec_ask.mp h).1], by rw [(exec_ask.mp h).1]⟩

lemma store_of_exec {c : Call β} (h : exec c i s = some (s', b)) (hc : ∀ m, c ≠ .mail m) :
    s'.store = s.store := (identities_of_exec h hc).1

lemma file_of_exec {c : Call β} (h : exec c i s = some (s', b)) (hc : ∀ m, c ≠ .mail m) :
    s'.file = s.file := (identities_of_exec h hc).2

/-- Only a lock operation changes the lock. -/
lemma lock_of_exec {c : Call β} (h : exec c i s = some (s', b)) (hc : ∀ g, c ≠ .guard g) :
    s'.lock = s.lock := by
  cases c with
  | look r => rw [(exec_look.mp h).2.1]
  | edit w => rw [(exec_edit.mp h).2.1]
  | within w => rw [(exec_within.mp h).2.1]
  | guard g => exact absurd rfl (hc g)
  | sql q => rw [(exec_sql.mp h).1]
  | bus p => rw [(exec_bus.mp h).1, execBus_eq]
  | mail m => rw [(exec_mail.mp h).1, execMail_eq]
  | ask a => rw [(exec_ask.mp h).1]

lemma Lock.writer_of_free {l : Lock} (h : l.free = true) : l.writer = false := by
  rw [Lock.free, Bool.and_eq_true] at h
  simpa using h.1

lemma exec_lockWrite {u : Unit} : exec (Call.guard .lockWrite) i s = some (s', u) ↔
    s.lock.free = true ∧ s' = { s with lock := { s.lock with writer := true } } := by
  rw [exec_guard]
  simp only [Guard.run]
  split_ifs with hfree
  · simp [hfree, eq_comm]
  · simp [hfree]

lemma exec_unlockWrite {u : Unit} : exec (Call.guard .unlockWrite) i s = some (s', u) ↔
    s.lock.writer = true ∧ s' = { s with lock := { s.lock with writer := false } } := by
  rw [exec_guard]
  simp only [Guard.run]
  split_ifs with hwriter
  · simp [hwriter, eq_comm]
  · simp [hwriter]

lemma writer_of_exec_lockRead {u : Unit} (h : exec (Call.guard .lockRead) i s = some (s', u)) :
    s'.lock.writer = s.lock.writer := by
  obtain ⟨l, hl, rfl⟩ := exec_guard.mp h
  simp only [Guard.run] at hl
  split_ifs at hl
  obtain ⟨rfl, -⟩ := Prod.mk.inj (Option.some.inj hl)
  rfl

lemma writer_of_exec_unlockRead {u : Unit}
    (h : exec (Call.guard .unlockRead) i s = some (s', u)) : s'.lock.writer = s.lock.writer := by
  obtain ⟨l, hl, rfl⟩ := exec_guard.mp h
  obtain ⟨rfl, -⟩ := Prod.mk.inj (Option.some.inj hl)
  rfl

lemma Edit.run_connections {w : Edit β} (h : w.writesConnections = false) (i : Input) (m : Cache) :
    (w.run i m).1.connections = m.connections := by
  cases w with
  | connAdd | setDeleted | install => exact absurd h (by simp [writesConnections])
  | subAdd | credit | update => rfl

/-- The other steps leave the connections of the memory alone. -/
lemma connections_of_exec {c : Call β} (h : exec c i s = some (s', b))
    (hc : c.writesConnections = false) : s'.memory.connections = s.memory.connections := by
  cases c with
  | look r => rw [(exec_look.mp h).2.1]
  | edit w =>
      rw [(exec_edit.mp h).2.1]
      exact Edit.run_connections hc i s.memory
  | within w =>
      rw [(exec_within.mp h).2.1]
      exact Edit.run_connections hc i s.memory
  | guard g =>
      obtain ⟨l, -, rfl⟩ := exec_guard.mp h
      rfl
  | sql q => rw [(exec_sql.mp h).1]
  | bus p => rw [(exec_bus.mp h).1, execBus_eq]
  | mail m => rw [(exec_mail.mp h).1, execMail_eq]
  | ask a => rw [(exec_ask.mp h).1]

lemma Edit.run_subscriptions {w : Edit β} (h : w.writesSubscriptions = false) (i : Input)
    (m : Cache) : (w.run i m).1.subscriptions = m.subscriptions := by
  cases w with
  | subAdd | credit | update | install => exact absurd h (by simp [writesSubscriptions])
  | connAdd | setDeleted => rfl

/-- The other steps leave the subscriptions of the memory alone. -/
lemma subscriptions_of_exec {c : Call β} (h : exec c i s = some (s', b))
    (hc : c.writesSubscriptions = false) :
    s'.memory.subscriptions = s.memory.subscriptions := by
  cases c with
  | look r => rw [(exec_look.mp h).2.1]
  | edit w =>
      rw [(exec_edit.mp h).2.1]
      exact Edit.run_subscriptions hc i s.memory
  | within w =>
      rw [(exec_within.mp h).2.1]
      exact Edit.run_subscriptions hc i s.memory
  | guard g =>
      obtain ⟨l, -, rfl⟩ := exec_guard.mp h
      rfl
  | sql q => rw [(exec_sql.mp h).1]
  | bus p => rw [(exec_bus.mp h).1, execBus_eq]
  | mail m => rw [(exec_mail.mp h).1, execMail_eq]
  | ask a => rw [(exec_ask.mp h).1]

end Steps

/-! ### Filters on steps -/

/-- Every call to the database, the bus and the disk goes through. -/
def nothingFails : Rule Call Input World := fun _ _ _ i _ _ => i.ok

/-- The rule allows a call that does not go through. -/
def MayFail (rule : Rule Call Input World) : Prop :=
  ∃ (β : Type) (c : Call β) (i : Input) (s : World) (b : β), i.ok = false ∧ rule β [] c i s b = true

/-- A test on the next step of a program that is more than a draw. -/
def ahead (t : (β : Type) → Call β → Bool) {α : Type} : Prog Call α → Bool
  | .pure _ => false
  | .call (.ask a) k => ahead t (k (a.run default))
  | @Prog.call _ _ β c _ => t β c

end Fcore
