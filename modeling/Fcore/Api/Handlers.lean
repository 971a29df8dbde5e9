import Fcore.Api.ConnRows
import Fcore.Api.Sync
import Fcore.Memory.Code

/-!
The request handlers of the API (`src/bin/api/http/handlers`) as programs.

* `createConnectionHandler`, `deleteConnectionHandler`, `getConnectionsHandler`:
  `POST` and `DELETE /connection`, `POST /connections/sync`;
* `postSubscriptionHandler`, `putSubscriptionHandler`: `POST` and `PUT
  /subscription`;
* `postTrialHandler`: `POST /trial`, with its loop `trialConns` over the enabled
  environments and protocols;
* `postKeyHandler`, `getKeyValidateHandler`, `postActivateKeyHandler`: `POST /key`, `GET
  /key/validate` and `POST /key/activate`;
* `survives_trialProto`: of the connections of a trial all survive the table but those of
  Mtproto;
* `CreditPhase`, `exec_postSubscriptionHandler`, `exec_postTrialHandler`, `exec_grantTrial`,
  `exec_createTrial`: what registrations can do.

A handler that leaves through `?` returns the rejection as an error.
-/

namespace Fcore

open Calculus
open Calculus.Prog (perform)

/-! ### Connections -/

/-- The announcement of a new connection; its failure is ignored. -/
def publishCreated (connId : Uuid) (conn : Conn) : Api Unit := do
  match conn.createTopic with
  | some topic => do
      let _ ← perform (.bus (.publish topic [conn.asCreateMessage connId]))
      return ()
  | none => return ()

/-- The expiry of a new connection. -/
def expiryOf (n : Option ℕ) : Api (Option DateTime) := do
  match n with
  | some n => do
      let now ← perform (.ask .now)
      return some (now + days n)
  | none => return none

/-- `create_connection_handler`. -/
def createConnectionHandler (req : ConnCreateRequest) (net : IpAddrMask) : Api Reply := do
  let expiredAt ← expiryOf req.days
  match ← perform (.look (.prepare net req)) with
  | .error r => return r
  | .ok proto => do
      let now ← perform (.ask .now)
      let conn := Conn.new req.env req.subscriptionId proto expiredAt now
      let connId ← perform (.ask .uuid)
      match ← addConn connId conn with
      | .ok (.ok id) => do
          publishCreated connId conn
          return successResponse ("Connection " ++ id.asHyphenated ++ " has been created")
            (some id) (.connection conn)
      | .ok (.alreadyExist id) =>
          return notModified ("Connection " ++ id.asHyphenated ++ " already exists")
      | .ok (.badRequest id msg) =>
          return badRequest ("BadRequest " ++ id.asHyphenated ++ " " ++ msg)
      | .ok status => return badRequest ("Unsupported operation status: " ++ status.toText)
      | .error e =>
          return internalError ("Internal error while processing connection " ++
            connId.asHyphenated ++ ": " ++ e.toText)

/-- `delete_connection_handler`. -/
def deleteConnectionHandler (connId : Uuid) : Api Reply := do
  match ← perform (.look (.connection connId)) with
  | none => return notFound ("Connection " ++ connId.asHyphenated ++ " not found")
  | some conn =>
      if conn.isDeleted then
        return notFound ("Connection " ++ connId.asHyphenated ++ " already is deleted")
      else
        match ← deleteConnection connId conn with
        | .ok (.ok id) =>
            return successResponse ("Connection " ++ id.asHyphenated ++ " has been deleted")
              (some id) (.connection conn)
        | .ok (.notFound id) => return notFound ("Connection " ++ id.asHyphenated ++ " not found")
        | .ok status => return badRequest ("Unsupported operation status: " ++ status.toText)
        | .error e =>
            return internalError ("Internal error while deleting connection " ++
              connId.asHyphenated ++ ": " ++ e.toText)

/-- `get_connections_handler`: the read guard is held over the publication. -/
def getConnectionsHandler (req : ConnType) : Api (Except Error Reply) := do
  perform (.guard .lockRead)
  match ← perform (.look (.toSync req)) with
  | [] => do
      perform (.guard .unlockRead)
      return .ok (notModified "")
  | e :: es => do
      let messages := (e :: es).map fun e => e.2.asCreateMessage e.1
      match ← perform (.bus (.publish req.topic messages)) with
      | .error err => do
          perform (.guard .unlockRead)
          return .error err
      | .ok () => do
          perform (.guard .unlockRead)
          return .ok (successResponse "Ok" none (.count messages.length))

/-! ### Subscriptions -/

/-- The owner of the refer code of a request with the bonus it earns: no bonus
for a system code.  `missing` is the answer for a code that nobody owns. -/
def referral (referredBy : Option String) (systemReferCodes : List String) (bonus : ℤ)
    (missing : String) : Api (Except Reply (Option (Uuid × ℤ))) := do
  match referredBy with
  | none => return .ok none
  | some code =>
      match ← perform (.look (.referrer code)) with
      | some id => return .ok (some (id, if systemReferCodes.contains code then 0 else bonus))
      | none => return .error (badRequest missing)

/-- `post_subscription_handler`.  The owner of the code is credited with the
configured bonus, the new subscription with the bonus that the code earns. -/
def postSubscriptionHandler (req : SubReq) (bonus : ℤ) (systemReferCodes : List String) :
    Api Reply := do
  let subId ← perform (.ask .uuid)
  let refCode := req.referCode.getD (getUuidLastOctetSimple subId)
  match ← referral req.referredBy systemReferCodes bonus "Refer code no found" with
  | .error r => return r
  | .ok owner => do
      let credited ← (match owner with
        | some (id, _) => addDays id bonus
        | none => return .ok (.notModified subId))
      match credited with
      | .error e => return internalError ("Couldn't create subscription: " ++ e.toText)
      | .ok _ => do
          let now ← perform (.ask .now)
          let bonusDays := (owner.map Prod.snd).getD 0
          let expiresAt := req.days.map fun n => now + days (n + bonusDays)
          let created ← perform (.ask .now)
          let sub := Subscription.new subId req.referredBy refCode expiresAt req.limitBytes created
          match ← addSub sub with
          | .ok (.ok id) =>
              return successResponse ("Subscription " ++ id.asHyphenated ++ " has been created")
                (some subId) (.subscription sub)
          | .ok (.alreadyExist id) =>
              return notModified ("Subscription " ++ id.asHyphenated ++ " already exists")
          | .ok (.notFound id) =>
              return notFound ("Subscription " ++ id.asHyphenated ++ " is not found")
          | .error e =>
              return internalError ("Internal error while processing subscription " ++
                subId.asHyphenated ++ ": " ++ e.toText)
          | _ => return notModified ""

/-- `put_subscription_handler`. -/
def putSubscriptionHandler (subId : Uuid) (req : SubReq) : Api Reply := do
  match ← updateSub subId req with
  | .ok (.updated id) =>
      return successResponse ("Subscription " ++ id.asHyphenated ++ " has been updated")
        (some subId) .none
  | .ok (.notFound id) => return notFound ("Subscription " ++ id.asHyphenated ++ " is not found")
  | .error e =>
      return internalError ("Internal error while processing subscription " ++
        subId.asHyphenated ++ ": " ++ e.toText)
  | _ => return notModified ""

/-! ### Trials -/

/-- `request::Trial`. -/
structure Trial where
  user : Option String
  email : Option String
  referredBy : Option String
  deriving DecidableEq

/-- `Trial::validate`. -/
def Trial.validate (req : Trial) : Except Error Unit :=
  if req.user.isSome && req.email.isSome then .error (.custom "Only one param is allowed")
  else .ok ()

/-- The configuration of `post_trial_handler`, with the keyed hash of identities
and the text of an instant. -/
structure TrialConfig where
  net : IpAddrMask
  systemReferCodes : List String
  envs : List Env
  protos : List Tag
  trialDays : ℤ
  bonus : ℤ
  limitBytes : ℤ
  hmac : String → String
  rfc3339 : DateTime → String

/-- `check_email_hmac`, for an identity that a request may leave out. -/
def checkEmailHmac (hmac : String → String) (email : Option String) : Api Bool := do
  match email with
  | some email => perform (.mail (.has (hmac email)))
  | none => return false

/-- `save_trial_hmac`, for an identity that a request may leave out; its result
is ignored. -/
def saveTrialHmac (cfg : TrialConfig) (email : Option String) (subId : Uuid) (time : DateTime)
    (refBy : String) : Api Unit := do
  match email with
  | some email => do
      let hmac := cfg.hmac email
      perform (.mail (.save hmac time))
      let _ ← perform (.mail (.append (cfg.rfc3339 time ++ "," ++ hmac ++ "," ++
        subId.asHyphenated ++ "," ++ refBy ++ "\n")))
      return ()
  | none => return ()

/-- The protocol of a trial connection; only a WireGuard address needs the
memory. -/
def trialProto (net : IpAddrMask) (tag : Tag) : Api (Except Reply Proto) := do
  match tag with
  | .wireguard => perform (.look (.wgProto net))
  | .shadowsocks => do
      let password ← perform (.ask .password)
      return .ok (.shadowsocks password)
  | .hysteria2 => do
      let token ← perform (.ask .uuid)
      return .ok (.hysteria2 token)
  | .mtproto => do
      let secret ← perform (.ask .password)
      return .ok (.mtproto secret)
  | tag => return .ok (.xray tag)

/-- The loops of `post_trial_handler` over environments and protocols; a refused
address ends them with its answer, a refused connection does not. -/
def trialConns (net : IpAddrMask) (subId : Uuid) : List (Env × Tag) → Api (Except Reply Unit)
  | [] => return .ok ()
  | (env, tag) :: rest => do
      match ← trialProto net tag with
      | .error r => return .error r
      | .ok proto => do
          let now ← perform (.ask .now)
          let conn := Conn.new env (some subId) proto none now
          let connId ← perform (.ask .uuid)
          match ← addConn connId conn with
          | .ok (.ok _) => do
              publishCreated connId conn
              trialConns net subId rest
          | _ => trialConns net subId rest

/-- The pairs that the two loops run through. -/
def TrialConfig.pairs (cfg : TrialConfig) : List (Env × Tag) :=
  cfg.envs.flatMap fun env => cfg.protos.map fun tag => (env, tag)

/-- `post_trial_handler` after the referral credit. -/
def createTrial (cfg : TrialConfig) (req : Trial) (subId : Uuid) : Api Reply := do
  let now ← perform (.ask .now)
  let created ← perform (.ask .now)
  let sub := Subscription.new subId req.referredBy (getUuidLastOctetSimple subId)
    (some (now + days cfg.trialDays)) (some cfg.limitBytes) created
  match ← addSub sub with
  | .ok (.ok newSubId) => do
      match ← trialConns cfg.net newSubId cfg.pairs with
      | .error r => return r
      | .ok () => do
          let refBy := req.referredBy.getD "WEB"
          saveTrialHmac cfg req.user sub.id now refBy
          saveTrialHmac cfg req.email sub.id now refBy
          return successResponse "Trial activated. Check email" (some sub.id) .none
  | _ => return internalError "Failed to add sub"

/-- `post_trial_handler` after its identity checks. -/
def grantTrial (cfg : TrialConfig) (req : Trial) : Api Reply := do
  let subId ← perform (.ask .uuid)
  match ← referral req.referredBy cfg.systemReferCodes cfg.bonus "Refer code not found" with
  | .error r => return r
  | .ok none => createTrial cfg req subId
  | .ok (some (id, bonusDays)) =>
      match ← addDays id bonusDays with
      | .error e => return internalError ("Couldn't add bonus days: " ++ e.toText)
      | .ok _ => createTrial cfg req subId

/-- `post_trial_handler`. -/
def postTrialHandler (cfg : TrialConfig) (req : Trial) : Api (Except Error Reply) := do
  match req.validate with
  | .error e => return .error e
  | .ok () =>
      if ← checkEmailHmac cfg.hmac req.user then
        return .ok (badRequest "Trial already requested")
      else if ← checkEmailHmac cfg.hmac req.email then
        return .ok (badRequest "Trial already requested")
      else do
        let r ← grantTrial cfg req
        return .ok r

/-! ### Keys -/

/-- `Distributor::new`. -/
def distributorNew (s : String) : Except Error (Vector UInt8 4) :=
  let bytes := s.toUTF8.data.toList
  match toArray4 bytes with
  | none => .error (.custom "Distributor must be exactly 4 characters")
  | some array =>
      if bytes.all fun b => (65 ≤ b && b ≤ 90) || (48 ≤ b && b ≤ 57) then .ok array
      else .error (.custom "Distributor must be uppercase ASCII letters or digits")

/-- `request::KeyReq`. -/
structure KeyReq where
  days : Int16
  distributor : Option String

section

variable (crates : CodeCrates) (T : CaseTable) (secret : List UInt8)

/-- `Key::new`, with the identifier, the clock and the random bytes drawn before; `name` is the
text of the distributor. -/
def Key.new (id : Uuid) (now : DateTime) (random : Vector UInt8 6) (days : Int16) (name : String)
    (distributor : Vector UInt8 4) : Key where
  id := id
  code := (Code.new crates T random days distributor secret).text
  days := days.toInt
  activated := false
  subscriptionId := none
  createdAt := now
  modifiedAt := now
  distributor := name

/-- `post_key_handler`; a distributor that is not accepted rejects the request. -/
def postKeyHandler (random : Vector UInt8 6) (req : KeyReq) : Api (Except Error Reply) := do
  let name := req.distributor.getD "FRKN"
  match distributorNew name with
  | .error _ => return .error (.custom "invalid distributor")
  | .ok distributor =>
      let id ← perform (.ask .uuid)
      let now ← perform (.ask .now)
      let key := Key.new crates T secret id now random req.days name distributor
      match ← perform (.sql (.keyInsert key)) with
      | .ok () =>
          return .ok (successResponse ("Key " ++ key.id.asHyphenated ++ " is created") (some key.id)
            (.key key))
      | .error _ => return .ok (badRequest "Key create error")

/-- `get_key_validate_handler`; the parameter is taken as it is, not through `from_str`. -/
def getKeyValidateHandler (code : Code) : Api Reply := do
  if (Code.parse crates T code.text secret).isNone then return badRequest "Key is not valid"
  else
    match ← perform (.sql (.keyGet code.text)) with
    | some key =>
        if key.activated then
          return successResponse "Key is valid and already activated" (some key.id) (.key key)
        else return successResponse "Key is valid" (some key.id) (.key key)
    | none => return notFound "Key is not found"

end

/-- `request::ActivateKeyReq`. -/
structure ActivateKeyReq where
  code : String
  subscriptionId : Uuid
  deriving DecidableEq

/-- `post_activate_key_handler`. -/
def postActivateKeyHandler (req : ActivateKeyReq) : Api Reply := do
  match ← perform (.sql (.keyGet req.code)) with
  | none => return notFound "Key not found"
  | some key =>
      if key.activated then return badRequest "Key already activated"
      else
        match ← addDays req.subscriptionId key.days with
        | .ok (.updated _) => do
            let now ← perform (.ask .now)
            let key := key.activate req.subscriptionId now
            match ← perform (.sql (.keyActivate key)) with
            | .error e => return badRequest ("Key activation failed: " ++ e.toText)
            | .ok () =>
                return successResponse ("Key " ++ key.id.asHyphenated ++ " activated") (some key.id)
                  (.key key)
        | .ok (.notFound _) => return notFound "Subscription not found"
        | .error e => return badRequest ("Failed to add days: " ++ e.toText)
        | _ => return notModified ""

/-! ### Announcements -/

/-- The state after the announcement of a new connection. -/
def announced (connId : Uuid) (conn : Conn) (s : World) : World :=
  match conn.createTopic with
  | some topic => { s with bus := (topic, [conn.asCreateMessage connId]) :: s.bus }
  | none => s

@[simp] lemma announced_memory (id : Uuid) (c : Conn) (s : World) :
    (announced id c s).memory = s.memory := by
  rw [announced]
  cases c.createTopic <;> rfl

@[simp] lemma announced_db (id : Uuid) (c : Conn) (s : World) : (announced id c s).db = s.db := by
  rw [announced]
  cases c.createTopic <;> rfl

/-- A new connection is announced, or the publication fails. -/
lemma exec_publishCreated {rule : Rule Call Input World} {s s' : World} {connId : Uuid}
    {conn : Conn} {u : Unit} (h : Exec rule (publishCreated connId conn) s u s') :
    s' = announced connId conn s ∨ s' = s ∧ MayFail rule := by
  rw [publishCreated] at h
  rw [announced]
  cases htopic : conn.createTopic with
  | none =>
      rw [htopic] at h
      exact .inl h.of_pure.2
  | some topic =>
      rw [htopic] at h
      obtain ⟨i, s₁, r, hbus, hrule, h⟩ := Exec.of_call h
      obtain ⟨rfl, rfl⟩ := exec_bus.mp hbus
      obtain ⟨-, rfl⟩ := h.of_pure
      cases hok : i.ok with
      | false =>
          refine .inr ⟨?_, _, _, i, _, _, hok, hrule⟩
          simp [Call.execBus, hok]
      | true =>
          left
          simp [Call.execBus, hok]

/-! ### Parts that only draw and publish -/

/-- Draws and publications. -/
inductive QuietCall : (β : Type) → Call β → Prop where
  | bus {β : Type} (p : Bus β) : QuietCall β (.bus p)
  | ask {β : Type} (a : Ask β) : QuietCall β (.ask a)

lemma uses_publishCreated (connId : Uuid) (conn : Conn) :
    Uses QuietCall (publishCreated connId conn) := by
  rw [publishCreated]
  cases conn.createTopic with
  | none => exact trivial
  | some topic => exact ⟨.bus _, fun _ => trivial⟩

lemma uses_expiryOf (n : Option ℕ) : Uses QuietCall (expiryOf n) := by
  cases n with
  | none => exact trivial
  | some n => exact ⟨.ask _, fun _ => trivial⟩

/-- An expiry is computed without a change of the state. -/
lemma state_of_expiryOf {rule : Rule Call Input World} {s s' : World} {n : Option ℕ}
    {r : Option DateTime} (h : Exec rule (expiryOf n) s r s') : s' = s := by
  cases n with
  | none => exact h.of_pure.2
  | some n =>
      obtain ⟨i, s₁, now, hask, -, hrest⟩ := Exec.of_call h
      obtain ⟨rfl, -⟩ := exec_ask.mp hask
      exact hrest.of_pure.2

/-! ### The loop of a trial -/

/-- The calls that the loop of a trial makes. -/
inductive TrialCall : (β : Type) → Call β → Prop where
  | wgProto (net : IpAddrMask) : TrialCall _ (.look (.wgProto net))
  | connInsert (row : ConnRow) : TrialCall _ (.sql (.connInsert row))
  | connAdd (id : Uuid) (c : Conn) : TrialCall _ (.edit (.connAdd id c))
  | quiet {β : Type} {c : Call β} (h : QuietCall β c) : TrialCall β c

section TrialConns

variable {A : Type} {P : Protocol Call A} {a : A}

lemma uses_addConn (connId : Uuid) (conn : Conn) : Uses TrialCall (addConn connId conn) := by
  refine ⟨.connInsert _, fun r => ?_⟩
  cases r with
  | error e => exact trivial
  | ok u =>
      refine ⟨.connAdd _ _, fun r => ?_⟩
      rcases r with e | st
      · exact trivial
      · cases st <;> exact trivial

lemma uses_trialProto (net : IpAddrMask) (tag : Tag) : Uses TrialCall (trialProto net tag) := by
  cases tag with
  | wireguard => exact ⟨.wgProto net, fun _ => trivial⟩
  | shadowsocks | mtproto | hysteria2 => exact ⟨.quiet (.ask _), fun _ => trivial⟩
  | vlessTcpReality | vlessGrpcReality | vlessXhttpReality | vmess => exact trivial

lemma uses_trialConns (net : IpAddrMask) (subId : Uuid) (pairs : List (Env × Tag)) :
    Uses TrialCall (trialConns net subId pairs) := by
  induction pairs with
  | nil => exact trivial
  | cons pair rest ih =>
      refine (uses_trialProto net pair.2).bind fun r => ?_
      cases r with
      | error r => exact trivial
      | ok proto =>
          refine ⟨.quiet (.ask _), fun now => ⟨.quiet (.ask _), fun connId => ?_⟩⟩
          refine (uses_addConn connId _).bind fun r => ?_
          rcases r with e | st
          · exact ih
          · cases st with
            | ok id =>
                have hpublish : ∀ conn, Uses TrialCall (publishCreated connId conn) := fun conn =>
                  (uses_publishCreated connId conn).mono fun _ _ h => .quiet h
                exact (hpublish _).bind fun _ => ih
            | _ => exact ih

lemma obeys_trialProto_of_calls (net : IpAddrMask) (tag : Tag)
    (hcall : ∀ β c, TrialCall β c → P.may β c a ∧ ∀ b, P.moves β c b a a)
    (hadm : ∀ net r, ¬ P.admits _ (.look (.wgProto net)) (.error r)) :
    Obeys P (fun r a' => (∃ proto, r = .ok proto) ∧ a' = a) (trialProto net tag) a := by
  cases tag with
  | wireguard =>
      obtain ⟨hmay, hmoves⟩ := hcall _ _ (.wgProto net)
      refine ⟨hmay, fun r hr => ⟨a, hmoves r, ?_⟩⟩
      cases r with
      | error r => exact absurd hr (hadm net r)
      | ok proto => exact ⟨⟨proto, rfl⟩, rfl⟩
  | shadowsocks | mtproto =>
      obtain ⟨hmay, hmoves⟩ := hcall _ _ (.quiet (.ask .password))
      exact ⟨hmay, fun x _ => ⟨a, hmoves x, ⟨_, rfl⟩, rfl⟩⟩
  | hysteria2 =>
      obtain ⟨hmay, hmoves⟩ := hcall _ _ (.quiet (.ask .uuid))
      exact ⟨hmay, fun x _ => ⟨a, hmoves x, ⟨_, rfl⟩, rfl⟩⟩
  | vlessTcpReality | vlessGrpcReality | vlessXhttpReality | vmess => exact ⟨⟨_, rfl⟩, rfl⟩

/-- A loop whose calls leave the account alone and whose address computations are
not refused runs to its end. -/
lemma obeys_trialConns_of_calls (net : IpAddrMask) (subId : Uuid) (pairs : List (Env × Tag))
    (hcall : ∀ β c, TrialCall β c → P.may β c a ∧ ∀ b, P.moves β c b a a)
    (hadm : ∀ net r, ¬ P.admits _ (.look (.wgProto net)) (.error r)) :
    Obeys P (fun r a' => r = .ok () ∧ a' = a) (trialConns net subId pairs) a := by
  induction pairs with
  | nil => exact ⟨rfl, rfl⟩
  | cons pair rest ih =>
      obtain ⟨env, tag⟩ := pair
      refine (obeys_trialProto_of_calls net tag hcall hadm).bind ?_
      rintro r a' ⟨⟨proto, rfl⟩, rfl⟩
      obtain ⟨hnow, hnow'⟩ := hcall _ _ (.quiet (.ask .now))
      obtain ⟨huuid, huuid'⟩ := hcall _ _ (.quiet (.ask .uuid))
      refine ⟨hnow, fun now _ => ⟨a', hnow' now, huuid, fun connId _ => ⟨a', huuid' connId, ?_⟩⟩⟩
      refine (Obeys.of_uses (uses_addConn connId _) hcall).bind ?_
      rintro r a rfl
      rcases r with e | st
      · exact ih
      · cases st with
        | ok id =>
            refine (Obeys.of_uses (uses_publishCreated _ _)
              fun _ _ h => hcall _ _ (.quiet h)).bind ?_
            rintro _ _ rfl
            exact ih
        | _ => exact ih

end TrialConns

/-- **The connections of `post_trial_handler`**: all but those of Mtproto survive the table, if
what is drawn and the text of their environment fit a column. -/
lemma survives_trialProto {ip : IpText} {lower : String → String} {id : Uuid} {net : IpAddrMask}
    {tag : Tag} {rule : Rule Call Input World} {s s' : World} {proto : Proto}
    (h : Exec rule (trialProto net tag) s (.ok proto) s')
    (htexts : ∀ {β ps c i s b}, rule β ps c i s b = true → IsPgText i.text) {env : Env}
    (henv : Env.fromText lower env.toText = env) (subId : Uuid) (now : DateTime) :
    (Conn.new env (some subId) proto none now).Survives ip lower id ↔
      tag ≠ .mtproto ∧ IsPgText env.toText := by
  refine survives_new ?_ henv (some subId) none now
  cases tag with
  | wireguard =>
      obtain ⟨i, s₁, r, hlook, hrule, h⟩ := h.of_call
      obtain ⟨rfl, -⟩ := h.of_pure
      obtain ⟨-, -, hproto⟩ := exec_look.mp hlook
      exact generated_newWgProto hproto.symm (htexts hrule)
  | shadowsocks =>
      obtain ⟨i, s₁, password, hask, hrule, h⟩ := h.of_call
      obtain ⟨hproto, -⟩ := h.of_pure
      obtain ⟨-, rfl⟩ := exec_ask.mp hask
      rw [Except.ok.inj hproto]
      exact ⟨htexts hrule, rfl⟩
  | hysteria2 =>
      obtain ⟨i, s₁, token, -, -, h⟩ := h.of_call
      obtain ⟨hproto, -⟩ := h.of_pure
      rw [Except.ok.inj hproto]
      exact ⟨trivial, rfl⟩
  | mtproto =>
      obtain ⟨i, s₁, secret, -, -, h⟩ := h.of_call
      obtain ⟨hproto, -⟩ := h.of_pure
      rw [Except.ok.inj hproto]
      exact ⟨trivial, rfl⟩
  | vlessTcpReality | vlessGrpcReality | vlessXhttpReality | vmess =>
      obtain ⟨hproto, -⟩ := h.of_pure
      rw [Except.ok.inj hproto]
      exact ⟨by simp [Proto.Generated], rfl⟩

/-! ### New keys -/

/-- The calls of `post_key_handler`. -/
inductive KeyCall : (β : Type) → Call β → Prop where
  | ask {β : Type} (a : Ask β) : KeyCall β (.ask a)
  | insert (key : Key) : KeyCall _ (.sql (.keyInsert key))

lemma uses_postKeyHandler (crates : CodeCrates) (T : CaseTable) (secret : List UInt8)
    (random : Vector UInt8 6) (req : KeyReq) :
    Uses KeyCall (postKeyHandler crates T secret random req) := by
  rw [postKeyHandler]
  cases distributorNew (req.distributor.getD "FRKN") with
  | error e => exact trivial
  | ok distributor =>
      refine ⟨.ask _, fun id => ⟨.ask _, fun now => ⟨.insert _, fun r => ?_⟩⟩⟩
      cases r <;> exact trivial

/-! ### Identities -/

/-- Steps on the store of identities. -/
inductive MailCall : (β : Type) → Call β → Prop where
  | mail {β : Type} (m : Mail β) : MailCall β (.mail m)

lemma uses_checkEmailHmac (hmac : String → String) (email : Option String) :
    Uses MailCall (checkEmailHmac hmac email) := by
  cases email with
  | none => exact trivial
  | some email => exact ⟨.mail _, fun _ => trivial⟩

lemma uses_saveTrialHmac (cfg : TrialConfig) (email : Option String) (subId : Uuid)
    (time : DateTime) (refBy : String) :
    Uses MailCall (saveTrialHmac cfg email subId time refBy) := by
  cases email with
  | none => exact trivial
  | some email => exact ⟨.mail _, fun _ => ⟨.mail _, fun _ => trivial⟩⟩

/-! ### Deletions, synchronisations and subscriptions -/

lemma uses_deleteConnectionHandler (connId : Uuid) :
    Uses DeleteCall (deleteConnectionHandler connId) := by
  refine ⟨.connection _, fun existing => ?_⟩
  cases existing with
  | none => exact trivial
  | some c =>
      show Uses DeleteCall (if c.isDeleted then _ else _)
      split
      · exact trivial
      · refine (uses_deleteConnection connId c).bind fun r => ?_
        rcases r with e | st
        · exact trivial
        · cases st <;> exact trivial

/-- The calls of `get_connections_handler`. -/
inductive SyncCall : (β : Type) → Call β → Prop where
  | toSync (req : ConnType) : SyncCall _ (.look (.toSync req))
  | guard {β : Type} (g : Guard β) : SyncCall β (.guard g)
  | bus {β : Type} (p : Bus β) : SyncCall β (.bus p)

lemma uses_getConnectionsHandler (req : ConnType) : Uses SyncCall (getConnectionsHandler req) := by
  refine ⟨.guard _, fun _ => ⟨.toSync _, fun es => ?_⟩⟩
  cases es with
  | nil => exact ⟨.guard _, fun _ => trivial⟩
  | cons e es =>
      refine ⟨.bus _, fun r => ?_⟩
      cases r with
      | error e => exact ⟨.guard _, fun _ => trivial⟩
      | ok u => exact ⟨.guard _, fun _ => trivial⟩

lemma uses_referral (referredBy : Option String) (codes : List String) (bonus : ℤ)
    (missing : String) : Uses SubCall (referral referredBy codes bonus missing) := by
  cases referredBy with
  | none => exact trivial
  | some code =>
      refine ⟨.referrer _, fun owner => ?_⟩
      cases owner <;> exact trivial

lemma uses_putSubscriptionHandler (subId : Uuid) (req : SubReq) :
    Uses SubCall (putSubscriptionHandler subId req) := by
  refine (uses_updateSub subId req).bind fun r => ?_
  rcases r with e | st
  · exact trivial
  · cases st <;> exact trivial

/-! ### What registrations can do -/

/-- The search for the owner of the refer code and the credit of `n` days for it; the handler then
goes on (`true`) or returns (`false`). -/
inductive CreditPhase (rule : Rule Call Input World) (referredBy : Option String) (n : String → ℤ)
    (s : World) : Bool → World → Prop
  | nobody (hby : referredBy = none) : CreditPhase rule referredBy n s true s
  | unknown (code : String) (i : Input) (hby : referredBy = some code)
      (hlook : Look.run (.referrer code) i s.memory = none)
      (hrule : rule _ [] (.look (.referrer code)) i s none = true) :
      CreditPhase rule referredBy n s false s
  | credit (code : String) (i : Input) (id : Uuid) (r : Except SyncError Status) (s₁ : World)
      (hby : referredBy = some code) (hlook : Look.run (.referrer code) i s.memory = some id)
      (hrule : rule _ [] (.look (.referrer code)) i s (some id) = true)
      (hcredit : Exec rule (addDays id (n code)) s r s₁) :
      CreditPhase rule referredBy n s r.isOk s₁

/-- The bonus that the code of a request earns for the new subscription. -/
def SubReq.earned (req : SubReq) (codes : List String) (bonus : ℤ) : ℤ :=
  match req.referredBy with
  | none => 0
  | some code => if codes.contains code then 0 else bonus

/-- The subscription that `POST /subscription` inserts. -/
def SubReq.newSub (req : SubReq) (bonusDays : ℤ) (subId : Uuid) (now created : DateTime) :
    Subscription :=
  .new subId req.referredBy (req.referCode.getD (getUuidLastOctetSimple subId))
    (req.days.map fun n => now + Fcore.days (n + bonusDays)) req.limitBytes created

/-- The bonus for the owner of a code that a trial names. -/
def TrialConfig.earned (cfg : TrialConfig) (code : String) : ℤ :=
  if cfg.systemReferCodes.contains code then 0 else cfg.bonus

/-- The trial requests that are refused at once: two identities, or one that is known. -/
def TrialConfig.rejects (cfg : TrialConfig) (req : Trial) (s : World) : Bool :=
  (req.user.isSome && req.email.isSome) ||
    (req.user.any fun e => (s.store.get (cfg.hmac e)).isSome) ||
      req.email.any fun e => (s.store.get (cfg.hmac e)).isSome

/-- The calls of a trial behind its subscription. -/
inductive TrialEndCall : (β : Type) → Call β → Prop where
  | trial {β : Type} {c : Call β} (h : TrialCall β c) : TrialEndCall β c
  | mail {β : Type} {c : Call β} (h : MailCall β c) : TrialEndCall β c

section Registrations

variable {rule : Rule Call Input World} {s s' : World} {r : Reply}

/-- A referral finds the owner of the code with the bonus that it earns. -/
lemma exec_referral {referredBy : Option String} {codes : List String} {bonus : ℤ}
    {missing : String} {found : Except Reply (Option (Uuid × ℤ))}
    (h : Exec rule (referral referredBy codes bonus missing) s found s') :
    s' = s ∧ ((referredBy = none ∧ found = .ok none) ∨ ∃ code i, referredBy = some code ∧
      ((Look.run (.referrer code) i s.memory = none ∧
          rule _ [] (.look (.referrer code)) i s none = true ∧
          found = .error (badRequest missing)) ∨
        ∃ id, Look.run (.referrer code) i s.memory = some id ∧
          rule _ [] (.look (.referrer code)) i s (some id) = true ∧
          found = .ok (some (id, if codes.contains code then 0 else bonus)))) := by
  cases referredBy with
  | none =>
      obtain ⟨rfl, rfl⟩ := h.of_pure
      exact ⟨rfl, .inl ⟨rfl, rfl⟩⟩
  | some code =>
      obtain ⟨i, s₁, owner, hlook, hrule, h⟩ := h.of_call
      obtain ⟨-, hs₁, howner⟩ := exec_look.mp hlook
      rw [hs₁] at h
      cases owner with
      | none =>
          obtain ⟨rfl, rfl⟩ := h.of_pure
          exact ⟨rfl, .inr ⟨code, i, rfl, .inl ⟨howner.symm, hrule, rfl⟩⟩⟩
      | some id =>
          obtain ⟨rfl, rfl⟩ := h.of_pure
          exact ⟨rfl, .inr ⟨code, i, rfl, .inr ⟨id, howner.symm, hrule, rfl⟩⟩⟩

/-- `POST /subscription` returns in the credit phase, or it inserts the subscription and succeeds
if that does. -/
lemma exec_postSubscriptionHandler {req : SubReq} {bonus : ℤ} {codes : List String}
    (h : Exec rule (postSubscriptionHandler req bonus codes) s r s') :
    ∃ subId i, rule _ [] (.ask .uuid) i s subId = true ∧
      ((r.status ≠ 200 ∧ CreditPhase rule req.referredBy (fun _ => bonus) s false s') ∨
        ∃ s₁ now created added, CreditPhase rule req.referredBy (fun _ => bonus) s true s₁ ∧
          Exec rule (addSub (req.newSub (req.earned codes bonus) subId now created)) s₁ added s' ∧
          (r.status = 200 ↔ ∃ id, added = .ok (.ok id))) := by
  simp only [postSubscriptionHandler, Prog.perform_bind] at h
  obtain ⟨i, s₁, subId, hask, hrule, h⟩ := h.of_call
  rw [(exec_ask.mp hask).1] at h
  refine ⟨subId, i, hrule, ?_⟩
  obtain ⟨found, s₂, hreferral, h⟩ := Exec.of_bind h
  obtain ⟨hs₂, hcases⟩ := exec_referral hreferral
  rw [hs₂] at h
  cases found with
  | error reply =>
      obtain ⟨rfl, rfl⟩ := h.of_pure
      rcases hcases with ⟨-, hfound⟩ | ⟨code, j, hby, ⟨hnone, hlook, hfound⟩ | ⟨id, -, -, hfound⟩⟩
      · cases hfound
      · rw [Except.error.inj hfound]
        exact .inl ⟨by simp, .unknown code j hby hnone hlook⟩
      · cases hfound
  | ok owner =>
      obtain ⟨credited, s₃, hcredit, h⟩ := Exec.of_bind h
      -- whether the credit goes through or nobody is to be credited
      have hphase : CreditPhase rule req.referredBy (fun _ => bonus) s credited.isOk s₃ := by
        rcases hcases with ⟨hby, hfound⟩ | ⟨code, j, hby, ⟨-, -, hfound⟩ | ⟨id, hid, hlook, hfound⟩⟩
        · rw [Except.ok.inj hfound] at hcredit
          obtain ⟨rfl, rfl⟩ := hcredit.of_pure
          exact .nobody hby
        · cases hfound
        · rw [Except.ok.inj hfound] at hcredit
          exact .credit code j id credited s₃ hby hid hlook hcredit
      have hearned : (owner.map Prod.snd).getD 0 = req.earned codes bonus := by
        rcases hcases with ⟨hby, hfound⟩ | ⟨code, j, hby, ⟨-, -, hfound⟩ | ⟨id, -, -, hfound⟩⟩
        · rw [Except.ok.inj hfound, SubReq.earned, hby]
          rfl
        · cases hfound
        · rw [Except.ok.inj hfound, SubReq.earned, hby]
          rfl
      rw [hearned] at h
      cases credited with
      | error e =>
          obtain ⟨rfl, rfl⟩ := h.of_pure
          exact .inl ⟨by simp, hphase⟩
      | ok status =>
          obtain ⟨i₄, s₄, now, hask, -, h⟩ := h.of_call
          rw [(exec_ask.mp hask).1] at h
          obtain ⟨i₅, s₅, created, hask, -, h⟩ := h.of_call
          rw [(exec_ask.mp hask).1] at h
          obtain ⟨added, s₆, hadd, h⟩ := Exec.of_bind h
          have hend : s' = s₆ ∧ (r.status = 200 ↔ ∃ id, added = .ok (.ok id)) := by
            rcases added with e | status
            · obtain ⟨rfl, rfl⟩ := h.of_pure
              exact ⟨rfl, by simp⟩
            · cases status with
              | ok id =>
                  obtain ⟨rfl, rfl⟩ := h.of_pure
                  exact ⟨rfl, by simp⟩
              | _ =>
                  obtain ⟨rfl, rfl⟩ := h.of_pure
                  exact ⟨rfl, by simp⟩
          rw [hend.1]
          exact .inr ⟨s₃, now, created, added, hphase, hadd, hend.2⟩

/-- A trial inserts its subscription and, if that succeeds, goes on to the connections. -/
lemma exec_createTrial {cfg : TrialConfig} {req : Trial} {subId : Uuid}
    (h : Exec rule (createTrial cfg req subId) s r s') :
    ∃ sub added s₁, sub.id = subId ∧ sub.limitBytes = some cfg.limitBytes ∧
      Exec rule (addSub sub) s added s₁ ∧
      (((∀ id, added ≠ .ok (.ok id)) ∧ r.status ≠ 200 ∧ s' = s₁) ∨
        (∃ id, added = .ok (.ok id)) ∧ ∃ prog : Api Reply, Uses TrialEndCall prog ∧
          Exec rule prog s₁ r s') := by
  simp only [createTrial, Prog.perform_bind] at h
  obtain ⟨i₁, s₁, now, hask, -, h⟩ := h.of_call
  rw [(exec_ask.mp hask).1] at h
  obtain ⟨i₂, s₂, created, hask, -, h⟩ := h.of_call
  rw [(exec_ask.mp hask).1] at h
  obtain ⟨added, s₃, hadd, h⟩ := Exec.of_bind h
  refine ⟨_, added, s₃, rfl, rfl, hadd, ?_⟩
  rcases added with e | status
  · obtain ⟨rfl, rfl⟩ := h.of_pure
    exact .inl ⟨by simp, by simp, rfl⟩
  · cases status with
    | ok newSubId =>
        refine .inr ⟨⟨newSubId, rfl⟩, _, ?_, h⟩
        refine ((uses_trialConns cfg.net newSubId cfg.pairs).mono fun _ _ => .trial).bind
          fun looped => ?_
        cases looped with
        | error reply => exact trivial
        | ok u =>
            have hsave :
                ∀ email refBy, Uses TrialEndCall (saveTrialHmac cfg email subId now refBy) :=
              fun email refBy =>
                (uses_saveTrialHmac cfg email subId now refBy).mono fun _ _ => .mail
            exact (hsave _ _).bind fun _ => (hsave _ _).bind fun _ => trivial
    | _ =>
        obtain ⟨rfl, rfl⟩ := h.of_pure
        exact .inl ⟨by simp, by simp, rfl⟩

/-- A trial returns in the credit phase, or it is created. -/
lemma exec_grantTrial {cfg : TrialConfig} {req : Trial}
    (h : Exec rule (grantTrial cfg req) s r s') :
    ∃ subId i, rule _ [] (.ask .uuid) i s subId = true ∧
      ((r.status ≠ 200 ∧ CreditPhase rule req.referredBy cfg.earned s false s') ∨
        ∃ s₁, CreditPhase rule req.referredBy cfg.earned s true s₁ ∧
          Exec rule (createTrial cfg req subId) s₁ r s') := by
  simp only [grantTrial, Prog.perform_bind] at h
  obtain ⟨i, s₁, subId, hask, hrule, h⟩ := h.of_call
  rw [(exec_ask.mp hask).1] at h
  refine ⟨subId, i, hrule, ?_⟩
  obtain ⟨found, s₂, hreferral, h⟩ := Exec.of_bind h
  obtain ⟨hs₂, hcases⟩ := exec_referral hreferral
  rw [hs₂] at h
  rcases hcases with ⟨hby, rfl⟩ | ⟨code, j, hby, ⟨hnone, hlook, rfl⟩ | ⟨id, hid, hlook, rfl⟩⟩
  · exact .inr ⟨s, .nobody hby, h⟩
  · obtain ⟨rfl, rfl⟩ := h.of_pure
    exact .inl ⟨by simp, .unknown code j hby hnone hlook⟩
  · obtain ⟨credited, s₃, hcredit, h⟩ := Exec.of_bind h
    have hphase : CreditPhase rule req.referredBy cfg.earned s credited.isOk s₃ :=
      .credit code j id credited s₃ hby hid hlook hcredit
    cases credited with
    | error e =>
        obtain ⟨rfl, rfl⟩ := h.of_pure
        exact .inl ⟨by simp, hphase⟩
    | ok status => exact .inr ⟨s₃, hphase, h⟩

/-- An identity is looked up. -/
lemma exec_checkEmailHmac {hmac : String → String} {email : Option String} {b : Bool}
    (h : Exec rule (checkEmailHmac hmac email) s b s') :
    s' = s ∧ b = email.any fun e => (s.store.get (hmac e)).isSome := by
  cases email with
  | none =>
      obtain ⟨rfl, rfl⟩ := h.of_pure
      exact ⟨rfl, rfl⟩
  | some e =>
      obtain ⟨i, s₁, known, hmail, -, h⟩ := Exec.of_call h
      obtain ⟨rfl, rfl⟩ := exec_mail.mp hmail
      obtain ⟨rfl, rfl⟩ := h.of_pure
      exact ⟨rfl, rfl⟩

/-- `POST /trial` rejects the request and changes nothing, or it grants the trial. -/
lemma exec_postTrialHandler {cfg : TrialConfig} {req : Trial} {r : Except Error Reply}
    (h : Exec rule (postTrialHandler cfg req) s r s') :
    (cfg.rejects req s = true ∧ s' = s ∧ ∀ reply, r = .ok reply → reply.status ≠ 200) ∨
      cfg.rejects req s = false ∧ ∃ reply, r = .ok reply ∧
        Exec rule (grantTrial cfg req) s reply s' := by
  rw [postTrialHandler, Trial.validate] at h
  rw [TrialConfig.rejects]
  cases hboth : req.user.isSome && req.email.isSome with
  | true =>
      rw [hboth] at h
      obtain ⟨rfl, rfl⟩ := h.of_pure
      exact .inl ⟨rfl, rfl, fun reply hreply => nomatch hreply⟩
  | false =>
      rw [hboth] at h
      obtain ⟨known, s₁, hcheck, h⟩ := Exec.of_bind h
      obtain ⟨rfl, rfl⟩ := exec_checkEmailHmac hcheck
      cases huser : req.user.any fun e => (s₁.store.get (cfg.hmac e)).isSome with
      | true =>
          rw [huser] at h
          obtain ⟨rfl, rfl⟩ := h.of_pure
          refine .inl ⟨rfl, rfl, fun reply hreply => ?_⟩
          rw [← Except.ok.inj hreply]
          simp
      | false =>
          rw [huser] at h
          obtain ⟨known, s₂, hcheck, h⟩ := Exec.of_bind h
          obtain ⟨rfl, rfl⟩ := exec_checkEmailHmac hcheck
          cases hemail : req.email.any fun e => (s₂.store.get (cfg.hmac e)).isSome with
          | true =>
              rw [hemail] at h
              obtain ⟨rfl, rfl⟩ := h.of_pure
              refine .inl ⟨rfl, rfl, fun reply hreply => ?_⟩
              rw [← Except.ok.inj hreply]
              simp
          | false =>
              rw [hemail] at h
              obtain ⟨reply, s₃, hgrant, h⟩ := Exec.of_bind h
              obtain ⟨rfl, rfl⟩ := h.of_pure
              exact .inr ⟨rfl, reply, rfl, hgrant⟩

end Registrations

end Fcore
