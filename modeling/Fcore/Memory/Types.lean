import Mathlib.Tactic

/-!
The data model of the service (`src/memory`, `src/error.rs`,
`src/http/response.rs`).

* `Uuid`, `DateTime`, `Env`, `Tag`: identifiers, instants, environments and
  protocol tags, with the texts the source gives them;
* `Proto`, `Conn`, `Base`, `Subscription`, `Key`: the records of the memory;
* `Status`, `Error`, `SyncError`: the results of storage operations;
* `Instance`, `Reply`: what a request handler answers.

Instants are integers: nanoseconds since the Unix epoch.  Random draws and clock
readings are arguments of the functions that make them.
-/

namespace Fcore

/-! ### Identifiers and instants -/

/-- `uuid::Uuid`: 128 bits. -/
abbrev Uuid := BitVec 128

/-- The 32 hexadecimal digits of an identifier. -/
def Uuid.digits (u : Uuid) : List Char :=
  (List.range 32).map fun i => Nat.digitChar (u.toNat / 16 ^ (31 - i) % 16)

/-- `Uuid::as_hyphenated`: groups of 8, 4, 4, 4 and 12 digits. -/
def Uuid.asHyphenated (u : Uuid) : String :=
  let d := u.digits
  String.ofList (d.take 8 ++ '-' :: (d.drop 8).take 4 ++ '-' :: (d.drop 12).take 4 ++
    '-' :: (d.drop 16).take 4 ++ '-' :: d.drop 20)

/-- `utils::get_uuid_last_octet_simple`: the text from its 24th byte on. -/
def getUuidLastOctetSimple (u : Uuid) : String :=
  String.ofList (u.asHyphenated.toList.drop 24)

/-- `DateTime<Utc>`: nanoseconds since the Unix epoch. -/
abbrev DateTime := ℤ

/-- `DateTime::timestamp`: whole seconds. -/
def DateTime.timestamp (t : DateTime) : ℤ := Int.fdiv t 1000000000

/-- `DateTime::timestamp_subsec_nanos`. -/
def DateTime.subsecNanos (t : DateTime) : ℕ := (Int.fmod t 1000000000).toNat

/-- `chrono::Duration::days`, in nanoseconds. -/
def days (n : ℤ) : ℤ := n * 86400000000000

lemma days_add (m n : ℤ) : days (m + n) = days m + days n := add_mul m n _

lemma days_pos {n : ℤ} (hn : 0 < n) : 0 < days n := Int.mul_pos hn (by norm_num)

/-! ### Errors -/

/-- The part of `error::Error` that the modelled functions return.  The texts of
foreign errors come from outside. -/
inductive Error where
  | database (text : String)
  | io (text : String)
  | zmq (text : String)
  | grpc (text : String)
  | custom (text : String)
  deriving DecidableEq, Repr

/-- The text of an error (`Display`). -/
def Error.toText : Error → String
  | .database text => text
  | .io text => text
  | .zmq text => text
  | .grpc text => text
  | .custom text => "Error: " ++ text

/-! ### Environments and tags -/

/-- `memory::env::Env`. -/
inductive Env where
  | production
  | experimental
  | dev
  | ru
  | wl
  | custom (name : String)
  deriving DecidableEq, Repr, Inhabited

/-- The text of an environment (`Display`, `as_str`). -/
def Env.toText : Env → String
  | .dev => "dev"
  | .ru => "ru"
  | .wl => "wl"
  | .experimental => "experimental"
  | .production => "production"
  | .custom name => "custom" ++ name

/-- `Env::from_str`, on the text already in lower case. -/
def Env.fromLower (s : String) : Option Env :=
  if s = "experimental" ∨ s = "exp" then some .experimental
  else if s = "development" ∨ s = "dev" then some .dev
  else if s = "production" ∨ s = "prod" then some .production
  else if s = "ru" then some .ru
  else if s = "wl" then some .wl
  else if "custom".toList.isPrefixOf s.toList then
    some (.custom (String.ofList (s.toList.drop 6)))
  else none

/-- `Env::from`: a text that is no environment is the experimental one.  The
argument `lower` is `str::to_lowercase`. -/
def Env.fromText (lower : String → String) (s : String) : Env :=
  (Env.fromLower (lower s)).getD .experimental

/-- `Env::from_str`. -/
def Env.fromStr (lower : String → String) (s : String) : Except Error Env :=
  match Env.fromLower (lower s) with
  | some env => .ok env
  | none => .error (.custom "Wrong Env string")

/-- `Env::deserialize`, from a string: the names of the first five variants are written in
lower case, and every other string is the untagged variant. -/
def Env.deserialize (s : String) : Env :=
  if s = "production" then .production
  else if s = "experimental" then .experimental
  else if s = "dev" then .dev
  else if s = "ru" then .ru
  else if s = "wl" then .wl
  else .custom s

/-- `memory::tag::ProtoTag`. -/
inductive Tag where
  | vlessTcpReality
  | vlessGrpcReality
  | vlessXhttpReality
  | vmess
  | shadowsocks
  | wireguard
  | hysteria2
  | mtproto
  deriving DecidableEq, Repr, Inhabited

/-! ### WireGuard parameters -/

/-- `std::net::IpAddr`. -/
inductive IpAddr where
  | v4 (ip : BitVec 32)
  | v6 (ip : BitVec 128)
  deriving DecidableEq, Repr, Inhabited

/-- `wireguard::IpAddrMask`. -/
structure IpAddrMask where
  address : IpAddr
  cidr : UInt8
  deriving DecidableEq, Repr, Inhabited

/-- `wireguard::Keys`. -/
structure WgKeys where
  privkey : String
  deriving DecidableEq, Repr, Inhabited

/-- `wireguard::Param`. -/
structure WgParam where
  keys : WgKeys
  address : IpAddrMask
  deriving DecidableEq, Repr, Inhabited

/-! ### Connections -/

/-- `connection::proto::Proto`. -/
inductive Proto where
  | wireguard (param : WgParam)
  | shadowsocks (password : String)
  | xray (tag : Tag)
  | hysteria2 (token : Uuid)
  | mtproto (secret : String)
  deriving DecidableEq, Repr, Inhabited

/-- `Proto::proto`: the tag of a protocol. -/
def Proto.proto : Proto → Tag
  | .wireguard _ => .wireguard
  | .shadowsocks _ => .shadowsocks
  | .hysteria2 _ => .hysteria2
  | .xray tag => tag
  | .mtproto _ => .mtproto

/-- `Proto::token`. -/
def Proto.token : Proto → Option Uuid
  | .hysteria2 token => some token
  | _ => none

/-- `Proto::is_mtproto`. -/
def Proto.isMtproto : Proto → Bool
  | .mtproto _ => true
  | _ => false

/-- The password of a Shadowsocks protocol (`get_password`). -/
def Proto.password : Proto → Option String
  | .shadowsocks password => some password
  | _ => none

/-- The parameters of a WireGuard protocol (`get_wireguard`). -/
def Proto.wg : Proto → Option WgParam
  | .wireguard param => some param
  | _ => none

/-- `connection::conn::Conn`, the connection record of the API. -/
structure Conn where
  env : Env
  proto : Proto
  subscriptionId : Option Uuid
  createdAt : DateTime
  modifiedAt : DateTime
  expiresAt : Option DateTime
  isDeleted : Bool
  deriving DecidableEq, Repr, Inhabited

/-- `Conn::new`. -/
def Conn.new (env : Env) (subscriptionId : Option Uuid) (proto : Proto)
    (expiresAt : Option DateTime) (now : DateTime) : Conn where
  env := env
  proto := proto
  subscriptionId := subscriptionId
  createdAt := now
  modifiedAt := now
  expiresAt := expiresAt
  isDeleted := false

/-- `set_deleted` followed by `set_modified_at`. -/
def Conn.setDeleted (c : Conn) (v : Bool) (now : DateTime) : Conn :=
  { c with isDeleted := v, modifiedAt := now }

@[simp] lemma Conn.setDeleted_isDeleted (c : Conn) (v : Bool) (now : DateTime) :
    (c.setDeleted v now).isDeleted = v := rfl

@[simp] lemma Conn.setDeleted_proto (c : Conn) (v : Bool) (now : DateTime) :
    (c.setDeleted v now).proto = c.proto := rfl

@[simp] lemma Conn.setDeleted_env (c : Conn) (v : Bool) (now : DateTime) :
    (c.setDeleted v now).env = c.env := rfl

@[simp] lemma Conn.setDeleted_subscriptionId (c : Conn) (v : Bool) (now : DateTime) :
    (c.setDeleted v now).subscriptionId = c.subscriptionId := rfl

/-- `connection::base::Base`, the connection record of a node. -/
structure Base where
  createdAt : DateTime
  modifiedAt : DateTime
  expiresAt : Option DateTime
  proto : Proto
  subscriptionId : Option Uuid
  isDeleted : Bool
  deriving DecidableEq, Repr, Inhabited

/-- `Base::new`. -/
def Base.new (proto : Proto) (expiresAt : Option DateTime) (subId : Option Uuid)
    (now : DateTime) : Base where
  createdAt := now
  modifiedAt := now
  expiresAt := expiresAt
  proto := proto
  subscriptionId := subId
  isDeleted := false

/-- `Base::from`: the record of an API connection without its environment. -/
def Base.ofConn (c : Conn) : Base where
  createdAt := c.createdAt
  modifiedAt := c.modifiedAt
  expiresAt := c.expiresAt
  proto := c.proto
  subscriptionId := c.subscriptionId
  isDeleted := c.isDeleted

/-! ### Subscriptions and keys -/

/-- `memory::subscription::Subscription`. -/
structure Subscription where
  id : Uuid
  expiresAt : Option DateTime
  referredBy : Option String
  referCode : String
  createdAt : DateTime
  updatedAt : DateTime
  isDeleted : Bool
  limitBytes : Option ℤ
  downlinkBytes : Option ℤ
  deriving DecidableEq, Repr, Inhabited

/-- `char::is_whitespace` (the Unicode property `White_Space`). -/
def isWhitespace (c : Char) : Bool :=
  let n := c.toNat
  (9 ≤ n && n ≤ 13) || n == 32 || n == 0x85 || n == 0xA0 || n == 0x1680 ||
    (0x2000 ≤ n && n ≤ 0x200A) || n == 0x2028 || n == 0x2029 || n == 0x202F || n == 0x205F ||
    n == 0x3000

/-- `str::trim`. -/
def trim (s : String) : String :=
  String.ofList (((s.toList.dropWhile isWhitespace).reverse.dropWhile isWhitespace).reverse)

namespace Subscription

/-- `Subscription::new`. -/
def new (id : Uuid) (refBy : Option String) (refCode : String) (expAt : Option DateTime)
    (limitBytes : Option ℤ) (now : DateTime) : Subscription where
  id := id
  expiresAt := expAt
  referredBy := refBy
  referCode := refCode
  createdAt := now
  updatedAt := now
  isDeleted := false
  limitBytes := limitBytes
  downlinkBytes := some 0

/-- `refer_code`. -/
def referCodeTrimmed (s : Subscription) : String := trim s.referCode

/-- `referred_by`. -/
def referredByTrimmed (s : Subscription) : Option String := s.referredBy.map trim

/-- `is_active`: not deleted, and an expiry that lies after the clock; no expiry
is not active (`None > Some(now)` is false). -/
def isActive (s : Subscription) (now : DateTime) : Bool :=
  !s.isDeleted && match s.expiresAt with
    | some e => decide (now < e)
    | none => false

/-- `extend`: a subscription without an expiry is not extended. -/
def extend (s : Subscription) (n : ℤ) (now : DateTime) : Subscription :=
  { s with expiresAt := s.expiresAt.map (· + days n), updatedAt := now }

/-- `set_expires_at`: an expiry that is not in the future is refused. -/
def setExpiresAt (s : Subscription) (e now : DateTime) : Except String Subscription :=
  if e ≤ now then .error "Expiration date must be in the future"
  else .ok { s with expiresAt := some e, updatedAt := now }

end Subscription

/-- `memory::key::Key`. -/
structure Key where
  id : Uuid
  code : String
  days : ℤ
  activated : Bool
  subscriptionId : Option Uuid
  createdAt : DateTime
  modifiedAt : DateTime
  distributor : String
  deriving DecidableEq, Repr, Inhabited

/-- `Key::activate`. -/
def Key.activate (k : Key) (subId : Uuid) (now : DateTime) : Key :=
  { k with activated := true, subscriptionId := some subId, modifiedAt := now }

/-! ### Results -/

/-- `memory::storage::Status`. -/
inductive Status where
  | alreadyExist (id : Uuid)
  | notModified (id : Uuid)
  | updated (id : Uuid)
  | updatedStat (id : Uuid)
  | notFound (id : Uuid)
  | badRequest (id : Uuid) (msg : String)
  | ok (id : Uuid)
  | deletedPreviously (id : Uuid)
  deriving DecidableEq, Repr

/-- The text of a status (`Display`). -/
def Status.toText : Status → String
  | .alreadyExist id => "AlreadyExist: " ++ id.asHyphenated
  | .notModified id => "NotModified: " ++ id.asHyphenated
  | .updated id => "Updated: " ++ id.asHyphenated
  | .ok id => "Ok: " ++ id.asHyphenated
  | .notFound id => "NotFound: " ++ id.asHyphenated
  | .updatedStat id => "UpdatedStat: " ++ id.asHyphenated
  | .badRequest id msg => "BadRequest: " ++ id.asHyphenated ++ " " ++ msg
  | .deletedPreviously id => "DeletedPreviously: " ++ id.asHyphenated

/-- The part of `error::SyncError` that the modelled functions return. -/
inductive SyncError where
  | database (e : Error)
  | memory (text : String)
  | zmq (text : String)
  | inconsistentState (resource : String) (id : Uuid)
  deriving DecidableEq, Repr

/-- The text of a synchronisation error (`Display`). -/
def SyncError.toText : SyncError → String
  | .database e => "Database operation failed: " ++ e.toText
  | .memory text => "Memory operation failed: " ++ text
  | .zmq text => text
  | .inconsistentState resource id =>
      "Inconsistent state between database and memory for " ++ resource ++ " " ++ id.asHyphenated

/-- `http::response::Instance`, as far as the modelled handlers answer it. -/
inductive Instance where
  | connection (c : Conn)
  | subscription (s : Subscription)
  | key (k : Key)
  | count (n : ℕ)
  | none
  deriving DecidableEq, Repr

/-- A reply of a request handler: the status code, the message and, on success,
the identifier with the instance. -/
structure Reply where
  status : ℕ
  message : String
  response : Option (Uuid × Instance)
  deriving DecidableEq, Repr

/-- A reply without a body (`http::helpers`). -/
def Reply.plain (status : ℕ) (message : String) : Reply := ⟨status, message, .none⟩

/-- `http::bad_request`. -/
def badRequest (message : String) : Reply := Reply.plain 400 message

/-- `http::not_found`. -/
def notFound (message : String) : Reply := Reply.plain 404 message

/-- `http::not_modified`. -/
def notModified (message : String) : Reply := Reply.plain 304 message

/-- `http::internal_error`. -/
def internalError (message : String) : Reply := Reply.plain 500 message

/-- `http::success_response`; a missing identifier is the nil one. -/
def successResponse (message : String) (id : Option Uuid) (inst : Instance) : Reply :=
  ⟨200, message, some (id.getD 0, inst)⟩

@[simp] lemma status_badRequest (m : String) : (badRequest m).status = 400 := rfl

@[simp] lemma status_notFound (m : String) : (notFound m).status = 404 := rfl

@[simp] lemma status_notModified (m : String) : (notModified m).status = 304 := rfl

@[simp] lemma status_internalError (m : String) : (internalError m).status = 500 := rfl

@[simp] lemma status_successResponse (m : String) (id : Option Uuid) (inst : Instance) :
    (successResponse m id inst).status = 200 := rfl

end Fcore
