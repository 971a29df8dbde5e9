import Fcore.Api.Links
import Fcore.Runs.KeySpellings
import Fcore.Zmq.Topic

/-!
The routes of the API (`src/bin/api/http/routes.rs`, `src/http/filters.rs`).

* `RouteFilter`: a filter of `warp`, with the few that the routes are built from; `auth` lets a
  request with the token of the service through;
* `routes`: the chain of routes in the order of the source, each with its own filters;
* `Endpoint.prog`, `serve`: what a request makes the service do; a handler that rejects hands
  the request to the rest of the chain;
* `isOpen_of_taken`: without the token a request is taken by an open endpoint only.
-/

namespace Fcore

open Calculus
open Calculus.Prog (perform)

/-! ### Requests and filters -/

/-- `http::Method`. -/
inductive Method where
  | get
  | post
  | put
  | delete
  | other (name : String)
  deriving DecidableEq, Repr

/-- What the filters read of a request: the parts of the path between its slashes (one at the
end counts for nothing), the authorization header, whether it asks for a websocket, the query
and the body. -/
structure HttpRequest where
  method : Method
  segments : List String
  authorization : Option String
  upgrade : Bool
  query : String
  body : String

/-- The token follows `Bearer`, in `auth`. -/
def HttpRequest.authorized (rq : HttpRequest) (token : String) : Bool :=
  rq.authorization.any fun header => (stripPrefix "Bearer " header).any fun t => t == token

/-- `warp::Filter`: what is extracted of a request and of the parts of its path that are left, and
what is left then; `none` is a rejection. -/
def RouteFilter (α : Type) : Type := HttpRequest → List String → Option (α × List String)

namespace RouteFilter

variable {α β : Type}

instance : Monad RouteFilter where
  pure x := fun _ segments => some (x, segments)
  bind f g := fun rq segments => (f rq segments).bind fun r => g r.1 rq r.2

/-- `warp::get`, `warp::post` and so on. -/
def method (m : Method) : RouteFilter Unit := fun rq segments =>
  if rq.method = m then some ((), segments) else none

/-- `warp::path`. -/
def path (name : String) : RouteFilter Unit := fun _ segments =>
  match segments with
  | segment :: rest => if segment = name then some ((), rest) else none
  | [] => none

/-- `warp::path::param`. -/
def param (decode : String → Option α) : RouteFilter α := fun _ segments =>
  match segments with
  | segment :: rest => (decode segment).map fun x => (x, rest)
  | [] => none

/-- `warp::path::end`. -/
def pathEnd : RouteFilter Unit := fun _ segments => if segments = [] then some ((), []) else none

/-- `auth`. -/
def auth (token : String) : RouteFilter Unit := fun rq segments =>
  if rq.authorized token then some ((), segments) else none

/-- `warp::query`. -/
def query (decode : String → Option α) : RouteFilter α := fun rq segments =>
  (decode rq.query).map fun x => (x, segments)

/-- `warp::body::json`. -/
def json (decode : String → Option α) : RouteFilter α := fun rq segments =>
  (decode rq.body).map fun x => (x, segments)

/-- `warp::ws`. -/
def ws : RouteFilter Unit := fun rq segments =>
  if rq.method = .get ∧ rq.upgrade = true then some ((), segments) else none

lemma run_bind {f : RouteFilter α} {g : α → RouteFilter β} {rq : HttpRequest}
    {segments rest : List String} {y : β} (h : (f >>= g) rq segments = some (y, rest)) :
    ∃ x left, f rq segments = some (x, left) ∧ g x rq left = some (y, rest) := by
  obtain ⟨⟨x, left⟩, hf, hg⟩ := Option.bind_eq_some_iff.mp h
  exact ⟨x, left, hf, hg⟩

lemma run_pure {x y : α} {rq : HttpRequest} {segments rest : List String}
    (h : (pure x : RouteFilter α) rq segments = some (y, rest)) : y = x := by
  have heq : some (x, segments) = some (y, rest) := h
  exact (congrArg Prod.fst (Option.some.inj heq)).symm

lemma run_auth {token : String} {rq : HttpRequest} {segments rest : List String} {u : Unit}
    (h : auth token rq segments = some (u, rest)) : rq.authorized token = true := by
  rw [auth] at h
  split_ifs at h with hauth
  exact hauth

end RouteFilter

/-! ### The chain -/

/-- The handlers, with what the filters have extracted for them. -/
inductive Endpoint where
  | healthcheck
  | subscriptionLink (req : SubscriptionInfoRequest)
  | subscriptionInfo (id : Uuid)
  | postSubscription (req : SubReq)
  | putSubscription (id : Uuid) (req : SubReq)
  | getNodes (env : Option String)
  | getNode (id : Uuid)
  | postNode (body : NodeRequest)
  | createConnection (req : ConnCreateRequest)
  | getConnections (req : ConnType)
  | deleteConnection (id : Uuid)
  | mtprotoConnections (req : ConnectionInfoRequest)
  | wireguardConnections (req : ConnectionInfoRequest)
  | getConnection (id : Uuid)
  | validateKey (code : Code)
  | postKey (req : KeyReq)
  | activateKey (req : ActivateKeyReq)
  | trial (req : Trial)
  | wsAll (node : Uuid) (series : UInt64)
  | wsAggregate (key value metric : String)

/-- What `serde` and `FromStr` make of queries, bodies and parts of a path. -/
structure Decoding where
  uuid : String → Option Uuid
  series : String → Option UInt64
  nodesQuery : String → Option (Option String)
  idQuery : String → Option Uuid
  subInfoQuery : String → Option SubscriptionInfoRequest
  connInfoQuery : String → Option ConnectionInfoRequest
  keyQuery : String → Option Code
  nodeRequest : String → Option NodeRequest
  subReq : String → Option SubReq
  connCreateRequest : String → Option ConnCreateRequest
  connType : String → Option ConnType
  keyReq : String → Option KeyReq
  activateKeyReq : String → Option ActivateKeyReq
  trial : String → Option Trial

section Routes

open RouteFilter

variable (d : Decoding) (token : String)

def getHealthcheckRoute : RouteFilter Endpoint := do
  method .get
  path "healthcheck"
  pathEnd
  return .healthcheck

def getNodesRoute : RouteFilter Endpoint := do
  method .get
  path "nodes"
  pathEnd
  let env ← query d.nodesQuery
  return .getNodes env

def postNodeRegisterRoute : RouteFilter Endpoint := do
  method .post
  path "node"
  pathEnd
  auth token
  let req ← json d.nodeRequest
  return .postNode req

def getNodeRoute : RouteFilter Endpoint := do
  method .get
  path "node"
  pathEnd
  auth token
  let id ← query d.idQuery
  return .getNode id

def getSubscriptionRoute : RouteFilter Endpoint := do
  method .get
  path "sub"
  pathEnd
  let req ← query d.subInfoQuery
  return .subscriptionLink req

def getSubscriptionInfoRoute : RouteFilter Endpoint := do
  method .get
  path "subscription"
  let id ← param d.uuid
  pathEnd
  return .subscriptionInfo id

def postSubscriptionRoute : RouteFilter Endpoint := do
  method .post
  path "subscription"
  pathEnd
  auth token
  let req ← json d.subReq
  return .postSubscription req

def putSubscriptionRoute : RouteFilter Endpoint := do
  method .put
  path "subscription"
  pathEnd
  auth token
  let id ← query d.idQuery
  let req ← json d.subReq
  return .putSubscription id req

def getAConnectionRoute : RouteFilter Endpoint := do
  path "connection"
  pathEnd
  method .get
  auth token
  let id ← query d.idQuery
  return .getConnection id

def getWgConnectionsInfoRoute : RouteFilter Endpoint := do
  path "info"
  path "connections"
  path "wireguard"
  pathEnd
  method .get
  let req ← query d.connInfoQuery
  return .wireguardConnections req

def getMtprotoConnectionsInfoRoute : RouteFilter Endpoint := do
  path "info"
  path "connections"
  path "mtproto"
  pathEnd
  method .get
  let req ← query d.connInfoQuery
  return .mtprotoConnections req

/-- The path of this one may go on. -/
def postConnectionsSyncRoute : RouteFilter Endpoint := do
  path "connections"
  path "sync"
  method .post
  auth token
  let req ← json d.connType
  return .getConnections req

def postConnectionRoute : RouteFilter Endpoint := do
  method .post
  path "connection"
  pathEnd
  auth token
  let req ← json d.connCreateRequest
  return .createConnection req

def deleteConnectionRoute : RouteFilter Endpoint := do
  method .delete
  path "connection"
  pathEnd
  auth token
  let id ← query d.idQuery
  return .deleteConnection id

def getKeyValidationRoute : RouteFilter Endpoint := do
  method .get
  path "key"
  path "validate"
  pathEnd
  let code ← query d.keyQuery
  return .validateKey code

def postKeyRoute : RouteFilter Endpoint := do
  method .post
  path "key"
  pathEnd
  auth token
  let req ← json d.keyReq
  return .postKey req

def postActivateKeyRoute : RouteFilter Endpoint := do
  method .post
  path "key"
  path "activate"
  pathEnd
  let req ← json d.activateKeyReq
  return .activateKey req

def postTrialRoute : RouteFilter Endpoint := do
  method .post
  path "trial"
  pathEnd
  let req ← json d.trial
  return .trial req

def wsAllMetricsRoute : RouteFilter Endpoint := do
  path "metrics"
  path "all"
  let node ← param d.uuid
  let series ← param d.series
  path "ws"
  pathEnd
  ws
  return .wsAll node series

def wsAggregateRoute : RouteFilter Endpoint := do
  path "metrics"
  path "aggregate"
  let key ← param some
  let value ← param some
  let metric ← param some
  path "ws"
  pathEnd
  ws
  return .wsAggregate key value metric

/-- The chain of `run`, in its order. -/
def routes : List (RouteFilter Endpoint) :=
  [getHealthcheckRoute, getSubscriptionRoute d, getSubscriptionInfoRoute d,
    postSubscriptionRoute d token, putSubscriptionRoute d token, getNodesRoute d,
    getNodeRoute d token, postNodeRegisterRoute d token, postConnectionRoute d token,
    postConnectionsSyncRoute d token, deleteConnectionRoute d token,
    getMtprotoConnectionsInfoRoute d, getWgConnectionsInfoRoute d, getAConnectionRoute d token,
    getKeyValidationRoute d, postKeyRoute d token, postActivateKeyRoute d, postTrialRoute d,
    wsAllMetricsRoute d, wsAggregateRoute]

/-- The endpoints whose routes take a request, in the order of the chain. -/
def taken (rq : HttpRequest) : List Endpoint :=
  (routes d token).filterMap fun route => (route rq rq.segments).map Prod.fst

end Routes

/-! ### Without the token -/

/-- The endpoints whose routes do not ask for the token. -/
def Endpoint.isOpen : Endpoint → Bool
  | healthcheck | subscriptionLink _ | subscriptionInfo _ | getNodes _ => true
  | mtprotoConnections _ | wireguardConnections _ => true
  | validateKey _ | activateKey _ | trial _ => true
  | wsAll _ _ | wsAggregate _ _ _ => true
  | _ => false

/-- Without the token the filter lets requests through to open endpoints only. -/
def Guards (token : String) (f : RouteFilter Endpoint) : Prop :=
  ∀ {rq segments e rest}, f rq segments = some (e, rest) → rq.authorized token = false →
    e.isOpen = true

lemma guards_pure {token : String} {e : Endpoint} (h : e.isOpen = true) :
    Guards token (pure e) := by
  intro rq segments e' rest hrun _
  rw [RouteFilter.run_pure hrun, h]

lemma guards_auth {token : String} {g : Unit → RouteFilter Endpoint} :
    Guards token (RouteFilter.auth token >>= g) := by
  intro rq segments e rest hrun hno
  obtain ⟨u, left, hauth, -⟩ := RouteFilter.run_bind hrun
  rw [RouteFilter.run_auth hauth] at hno
  cases hno

lemma Guards.bind {α : Type} {token : String} {f : RouteFilter α} {g : α → RouteFilter Endpoint}
    (h : ∀ x, Guards token (g x)) : Guards token (f >>= g) := by
  intro rq segments e rest hrun hno
  obtain ⟨x, left, -, hg⟩ := RouteFilter.run_bind hrun
  exact h x hg hno

/-- Every route of the chain is open, or asks for the token before it hands a request on. -/
lemma guards_routes (d : Decoding) (token : String) :
    ∀ route ∈ routes d token, Guards token route := by
  intro route hroute
  simp only [routes, List.mem_cons, List.not_mem_nil, or_false] at hroute
  rcases hroute with rfl | rfl | rfl | rfl | rfl | rfl | rfl | rfl | rfl | rfl | rfl | rfl | rfl |
    rfl | rfl | rfl | rfl | rfl | rfl | rfl
  all_goals repeat' first
    | exact guards_auth
    | exact guards_pure rfl
    | refine Guards.bind fun _ => ?_

/-- **Without the token a request is taken by open endpoints only.** -/
lemma isOpen_of_taken {d : Decoding} {token : String} {rq : HttpRequest} {e : Endpoint}
    (h : e ∈ taken d token rq) (hno : rq.authorized token = false) : e.isOpen = true := by
  obtain ⟨route, hroute, hrun⟩ := List.mem_filterMap.mp h
  obtain ⟨⟨e', rest⟩, htaken, rfl⟩ := Option.map_eq_some_iff.mp hrun
  exact guards_routes d token route hroute htaken hno

/-! ### What a request makes the service do -/

/-- The configuration of the service that the routes hand to the handlers. -/
structure RouteConfig where
  token : String
  trial : TrialConfig
  keySignToken : List UInt8
  crates : CodeCrates
  cases : CaseTable

/-- The handler of an endpoint, with the random bytes of a new key; the result tells whether it
has answered and not rejected.  Of the handlers that only read it is left open whether they
reject, and of the registration of a node, which touches the nodes only. -/
def Endpoint.prog (cfg : RouteConfig) (random : Vector UInt8 6) : Endpoint → Api Bool
  | healthcheck | subscriptionLink _ | subscriptionInfo _ | getNodes _ | getNode _ | postNode _
  | mtprotoConnections _ | wireguardConnections _ | getConnection _ | wsAll _ _
  | wsAggregate _ _ _ => perform (.ask .pick)
  | postSubscription req => do
      let _ ← postSubscriptionHandler req cfg.trial.bonus cfg.trial.systemReferCodes
      return true
  | putSubscription id req => do
      let _ ← putSubscriptionHandler id req
      return true
  | createConnection req => do
      let _ ← createConnectionHandler req cfg.trial.net
      return true
  | getConnections req => do
      let r ← getConnectionsHandler req
      return r.isOk
  | deleteConnection id => do
      let _ ← deleteConnectionHandler id
      return true
  | validateKey code => do
      let _ ← getKeyValidateHandler cfg.crates cfg.cases cfg.keySignToken code
      return true
  | postKey req => do
      let r ← postKeyHandler cfg.crates cfg.cases cfg.keySignToken random req
      return r.isOk
  | activateKey req => do
      let _ ← postActivateKeyHandler req
      return true
  | trial req => do
      let r ← postTrialHandler cfg.trial req
      return r.isOk

/-- The endpoints that take a request, one after another until one does not reject. -/
def serve (cfg : RouteConfig) (random : Vector UInt8 6) : List Endpoint → Api Unit
  | [] => return ()
  | e :: rest => do
      if ← e.prog cfg random then return ()
      else serve cfg random rest

/-- What a request makes the service do. -/
def HttpRequest.prog (cfg : RouteConfig) (d : Decoding) (random : Vector UInt8 6)
    (rq : HttpRequest) : Api Unit :=
  serve cfg random (taken d cfg.token rq)

end Fcore
