import Fcore.Zmq.Message

/-!
The messages that a node handles (`src/bin/node/tasks.rs`,
`src/proto/wireguard.rs`, `src/proto/xray/client.rs`).

* `NodeState`: the connection memory of a node and its backends, the WireGuard
  peers and the users and counters of Xray; a hash map is the function of its
  lookups;
* `Given`: what one message meets outside, the outcome of its backend calls and the
  clock;
* `Request`: the calls to Xray, the only ones that a message waits for;
* `handleMessage`: `handle_message`, from its first to its last step;
* `suspends`, `requests`: the messages that wait for Xray, and the requests of
  theirs that go through;
* `refused_keeps_memory_iff`: the messages whose error comes with the memory as it
  was.

The node is built with both features, `xray` and `wireguard`.  The derivation of a
public key is a parameter.
-/

namespace Fcore

/-- The statistics of a connection that are reset. -/
inductive StatKind where
  | downlink
  | uplink
  | online
  deriving DecidableEq, Repr

/-- The memory of a node and the state of its backends. -/
@[ext]
structure NodeState where
  memory : Uuid → Option Base
  peers : String → Option IpAddrMask
  users : Uuid × Tag → Option (Option String)
  counters : Uuid × StatKind → ℕ

/-- A node with nothing in it. -/
def NodeState.empty : NodeState := ⟨fun _ => none, fun _ => none, fun _ => none, fun _ => 0⟩

/-- The clients that a node has, and `Keys::pubkey`. -/
structure NodeCtx where
  wgClient : Bool
  handlerClient : Bool
  statsClient : Bool
  pubkey : WgKeys → Except Error String

/-- What a message meets outside. -/
structure Given where
  /-- The backend call goes through. -/
  ok : Bool
  /-- The WireGuard interface can be read. -/
  readable : Bool
  /-- The reset of a statistic goes through. -/
  statOk : StatKind → Bool
  /-- The clock. -/
  now : DateTime
  /-- The text of a foreign error. -/
  text : String

/-- `mem.add`: an existing entry stays as it is. -/
def NodeState.add (s : NodeState) (id : Uuid) (c : Base) : NodeState :=
  { s with memory := Function.update s.memory id (some ((s.memory id).getD c)) }

lemma NodeState.memory_add (s : NodeState) (id : Uuid) (c : Base) (id' : Uuid) :
    (s.add id c).memory id' = if id' = id then some ((s.memory id).getD c) else s.memory id' :=
  Function.update_apply ..

/-- `mem.remove`, its error ignored. -/
def NodeState.remove (s : NodeState) (id : Uuid) : NodeState :=
  { s with memory := Function.update s.memory id none }

/-! ### Requests to Xray -/

/-- The calls to Xray. -/
inductive Request where
  | addUser (id : Uuid) (tag : Tag) (password : Option String)
  | removeUser (id : Uuid) (tag : Tag)
  | resetStat (id : Uuid) (kind : StatKind)
  deriving DecidableEq, Repr

/-- The effect of a call that goes through. -/
def Request.land (r : Request) (s : NodeState) : NodeState :=
  match r with
  | addUser id tag password => { s with users := Function.update s.users (id, tag) (some password) }
  | removeUser id tag => { s with users := Function.update s.users (id, tag) none }
  | resetStat id kind => { s with counters := Function.update s.counters (id, kind) 0 }

/-- Several calls that go through. -/
def landAll (rs : List Request) (s : NodeState) : NodeState := rs.foldl (fun s r => r.land s) s

/-- `StatsOp::reset`: three calls, the failing ones ignored. -/
def resetRequests (id : Uuid) (g : Given) : List Request :=
  ([.downlink, .uplink, .online].filter g.statOk).map fun kind => .resetStat id kind

/-! ### Handling -/

/-- The connection of a message. -/
def Message.toBase (msg : Message) (proto : Proto) (now : DateTime) : Base :=
  Base.new proto (msg.expiresAt.map RkyvDateTime.toDateTime) msg.subscriptionId now

/-- The answer for other tags. -/
def unsupported : Error := .custom "Is not supported, or built without support the proto"

/-- `Create` and `Update` of a WireGuard connection.  The memory comes first, and an
existing peer is an error. -/
def createWg (ctx : NodeCtx) (msg : Message) (g : Given) (s : NodeState) :
    NodeState × Except Error Unit :=
  match msg.wg with
  | none => (s, .error (.custom "Missing WireGuard keys"))
  | some wg =>
      let s := s.add msg.connId (msg.toBase (.wireguard wg) g.now)
      if !ctx.wgClient then (s, .error (.custom "WireGuard API is unavailable"))
      else match ctx.pubkey wg.keys with
        | .error _ => (s, .ok ())
        | .ok pubkey =>
            if g.readable && (s.peers pubkey).isSome then
              (s, .error (.custom "WG User already exist"))
            else if g.ok then
              ({ s with peers := Function.update s.peers pubkey (some wg.address) }, .ok ())
            else (s, .error (.custom ("Failed to create WireGuard peer: " ++ g.text)))

/-- `Delete` of a WireGuard connection. -/
def deleteWg (ctx : NodeCtx) (msg : Message) (g : Given) (s : NodeState) :
    NodeState × Except Error Unit :=
  if !ctx.wgClient then (s, .error (.custom "WireGuard API is unavailable"))
  else match msg.wg with
    | none => (s, .error (.custom "Missing WireGuard keys in message"))
    | some wg => match ctx.pubkey wg.keys with
        | .error e => (s, .error e)
        | .ok pubkey =>
            if g.ok then
              (({ s with peers := Function.update s.peers pubkey none } : NodeState).remove
                msg.connId, .ok ())
            else (s, .error (.custom ("Failed to delete WireGuard peer: " ++ g.text)))

/-- `Create` and `Update` of an Xray connection: the user is added to Xray and then the
connection to the memory. -/
def createXray (ctx : NodeCtx) (msg : Message) (proto : Proto) (password : Option String)
    (g : Given) (s : NodeState) : NodeState × Except Error Unit :=
  if !ctx.handlerClient then (s, .error (.grpc "Xray handler unavailable"))
  else if g.ok then
    (((Request.addUser msg.connId msg.tag password).land s).add msg.connId
      (msg.toBase proto g.now), .ok ())
  else
    (s, .error (.custom ("Failed to create conn " ++ msg.connId.asHyphenated ++ ": " ++ g.text)))

/-- `Delete` of an Xray connection; a failing call to Xray is ignored. -/
def removeXray (ctx : NodeCtx) (msg : Message) (g : Given) (s : NodeState) :
    NodeState × Except Error Unit :=
  if !ctx.handlerClient then (s, .error (.grpc "Xray handler unavailable"))
  else
    let s := if g.ok then (Request.removeUser msg.connId msg.tag).land s else s
    (s.remove msg.connId, .ok ())

/-- `handle_message`. -/
def handleMessage (ctx : NodeCtx) (msg : Message) (g : Given) (s : NodeState) :
    NodeState × Except Error Unit :=
  match msg.action with
  | .create | .update => match msg.tag with
      | .wireguard => createWg ctx msg g s
      | .shadowsocks => match msg.password with
          | some password => createXray ctx msg (.shadowsocks password) (some password) g s
          | none => (s, .error (.custom "Password not provided for Shadowsocks user"))
      | .hysteria2 | .mtproto => (s, .error unsupported)
      | tag => createXray ctx msg (.xray tag) none g s
  | .delete => match msg.tag with
      | .wireguard => deleteWg ctx msg g s
      | .shadowsocks =>
          if ctx.handlerClient && msg.password.isNone then
            (s, .error (.custom ("Couldn't remove connection from Xray: " ++
              "Error: Remove SS user error, password not provided")))
          else removeXray ctx msg g s
      | .hysteria2 | .mtproto => (s, .error unsupported)
      | _ => removeXray ctx msg g s
  | .resetStat =>
      (if ctx.statsClient then landAll (resetRequests msg.connId g) s else s, .ok ())

/-! ### Refused messages -/

/-- An error comes with the memory as it was. -/
def KeepsOnError (r : NodeState × Except Error Unit) (s : NodeState) : Prop :=
  ∀ e, r.2 = .error e → r.1.memory = s.memory

/-- The node takes a WireGuard connection once it is in the memory: there is a client, and the
key is one that cannot be read, or its peer is not there and gets created. -/
def takesWg (ctx : NodeCtx) (wg : WgParam) (g : Given) (s : NodeState) : Bool :=
  ctx.wgClient && match ctx.pubkey wg.keys with
    | .error _ => true
    | .ok pubkey => !(g.readable && (s.peers pubkey).isSome) && g.ok

lemma keepsOnError_same (e : Error) (s : NodeState) : KeepsOnError (s, .error e) s :=
  fun _ _ => rfl

lemma keepsOnError_ok (s s' : NodeState) : KeepsOnError (s', .ok ()) s := by
  rintro e ⟨⟩

lemma keepsOnError_deleteWg (ctx : NodeCtx) (msg : Message) (g : Given) (s : NodeState) :
    KeepsOnError (deleteWg ctx msg g s) s := by
  unfold deleteWg
  split
  · exact keepsOnError_same _ s
  · split
    · exact keepsOnError_same _ s
    · split
      · exact keepsOnError_same _ s
      · split
        · exact keepsOnError_ok s _
        · exact keepsOnError_same _ s

lemma keepsOnError_createXray (ctx : NodeCtx) (msg : Message) (proto : Proto)
    (password : Option String) (g : Given) (s : NodeState) :
    KeepsOnError (createXray ctx msg proto password g s) s := by
  unfold createXray
  split
  · exact keepsOnError_same _ s
  · split
    · exact keepsOnError_ok s _
    · exact keepsOnError_same _ s

lemma keepsOnError_removeXray (ctx : NodeCtx) (msg : Message) (g : Given) (s : NodeState) :
    KeepsOnError (removeXray ctx msg g s) s := by
  unfold removeXray
  split
  · exact keepsOnError_same _ s
  · exact keepsOnError_ok s _

/-- An entry that was there stays as it was, a new one makes a difference. -/
lemma NodeState.memory_add_eq_iff (s : NodeState) (id : Uuid) (c : Base) :
    (s.add id c).memory = s.memory ↔ s.memory id ≠ none := by
  constructor
  · intro h hnone
    have hid := congrFun h id
    rw [memory_add, if_pos rfl, hnone] at hid
    cases hid
  · intro h
    obtain ⟨b, hb⟩ := Option.ne_none_iff_exists'.mp h
    funext id'
    rw [memory_add]
    split
    next hid => rw [hid, hb, Option.getD_some]
    next => rfl

/-- A WireGuard connection that is not taken has been put into the memory already. -/
lemma createWg_eq {ctx : NodeCtx} {msg : Message} {wg : WgParam} (hwg : msg.wg = some wg)
    (g : Given)
    (s : NodeState) :
    (takesWg ctx wg g s = true ∧ ∃ s', createWg ctx msg g s = (s', .ok ())) ∨
      (takesWg ctx wg g s = false ∧ ∃ e, createWg ctx msg g s =
        (s.add msg.connId (msg.toBase (.wireguard wg) g.now), .error e)) := by
  -- the peers are those from before
  have hpeers : (s.add msg.connId (msg.toBase (.wireguard wg) g.now)).peers = s.peers := rfl
  simp only [createWg, hwg, takesWg, hpeers]
  cases ctx.wgClient with
  | false => exact .inr ⟨rfl, _, rfl⟩
  | true =>
      cases ctx.pubkey wg.keys with
      | error e => exact .inl ⟨rfl, _, rfl⟩
      | ok pubkey =>
          dsimp only
          cases g.readable && (s.peers pubkey).isSome with
          | true => exact .inr ⟨rfl, _, rfl⟩
          | false =>
              cases g.ok with
              | true => exact .inl ⟨rfl, _, rfl⟩
              | false => exact .inr ⟨rfl, _, rfl⟩

lemma keepsOnError_createWg_iff (ctx : NodeCtx) (msg : Message) (g : Given) (s : NodeState) :
    KeepsOnError (createWg ctx msg g s) s ↔
      ∀ wg, msg.wg = some wg → s.memory msg.connId = none → takesWg ctx wg g s = true := by
  cases hwg : msg.wg with
  | none =>
      refine iff_of_true ?_ (by simp)
      rw [createWg, hwg]
      exact keepsOnError_same _ s
  | some wg =>
      simp only [Option.some.injEq, forall_eq']
      rcases createWg_eq hwg g s with ⟨htakes, s', hresult⟩ | ⟨htakes, e, hresult⟩
      · rw [hresult]
        exact iff_of_true (keepsOnError_ok s s') fun _ => htakes
      · rw [hresult, htakes]
        constructor
        · intro h hnone
          exact absurd hnone ((s.memory_add_eq_iff _ _).mp (h e rfl))
        · intro h _ _
          exact (s.memory_add_eq_iff _ _).mpr fun hnone => Bool.noConfusion (h hnone)

/-- Every other message leaves the memory as it was if it is refused. -/
lemma keepsOnError_handleMessage (ctx : NodeCtx) {msg : Message} (g : Given) (s : NodeState)
    (h : ¬((msg.action = .create ∨ msg.action = .update) ∧ msg.tag = .wireguard)) :
    KeepsOnError (handleMessage ctx msg g s) s := by
  have hcreate : msg.action = .create ∨ msg.action = .update →
      KeepsOnError (handleMessage ctx msg g s) s := by
    intro haction
    have htag : msg.tag ≠ .wireguard := fun htag => h ⟨haction, htag⟩
    rcases haction with haction | haction <;> rw [handleMessage, haction] <;>
      cases hcase : msg.tag with
      | wireguard => exact absurd hcase htag
      | shadowsocks =>
          cases msg.password with
          | none => exact keepsOnError_same _ s
          | some password => exact keepsOnError_createXray ctx msg _ _ g s
      | hysteria2 => exact keepsOnError_same _ s
      | mtproto => exact keepsOnError_same _ s
      | _ => exact keepsOnError_createXray ctx msg _ _ g s
  cases haction : msg.action with
  | create => exact hcreate (.inl haction)
  | update => exact hcreate (.inr haction)
  | delete =>
      rw [handleMessage, haction]
      cases msg.tag with
      | wireguard => exact keepsOnError_deleteWg ctx msg g s
      | shadowsocks =>
          simp only
          split
          · exact keepsOnError_same _ s
          · exact keepsOnError_removeXray ctx msg g s
      | hysteria2 => exact keepsOnError_same _ s
      | mtproto => exact keepsOnError_same _ s
      | _ => exact keepsOnError_removeXray ctx msg g s
  | resetStat =>
      rw [handleMessage, haction]
      exact keepsOnError_ok s _

/-- A refused message has left the memory as it was, except one that brings a WireGuard
connection new to the node which the node then does not take. -/
theorem refused_keeps_memory_iff (ctx : NodeCtx) (msg : Message) (g : Given) (s : NodeState) :
    KeepsOnError (handleMessage ctx msg g s) s ↔
      ∀ wg, msg.action = .create ∨ msg.action = .update → msg.tag = .wireguard →
        msg.wg = some wg → s.memory msg.connId = none → takesWg ctx wg g s = true := by
  by_cases hcreate : (msg.action = .create ∨ msg.action = .update) ∧ msg.tag = .wireguard
  · have hhandle : handleMessage ctx msg g s = createWg ctx msg g s := by
      rcases hcreate with ⟨haction | haction, htag⟩ <;> rw [handleMessage, haction, htag]
    rw [hhandle, keepsOnError_createWg_iff]
    exact forall_congr' fun wg =>
      ⟨fun h _ _ => h, fun h => h hcreate.1 hcreate.2⟩
  · refine iff_of_true ?_ fun wg haction htag => absurd ⟨haction, htag⟩ hcreate
    exact keepsOnError_handleMessage ctx g s hcreate

/-- A node without a WireGuard client refuses a connection and keeps it. -/
theorem refused_wg_stays :
    ∃ (ctx : NodeCtx) (msg : Message) (g : Given), ¬KeepsOnError (handleMessage ctx msg g .empty) .empty := by
  refine ⟨⟨false, true, true, fun _ => .ok "pOCSkrZRwni5dyxWn1+puxPZBrRqtoyd+dwrRAn4ogk="⟩,
    ⟨1, .create, .wireguard, some ⟨⟨"AQEBAQEBAQEBAQEBAQEBAQEBAQEBAQEBAQEBAQEBAQE="⟩,
      ⟨.v4 0x0A000002, 32⟩⟩, none, none, none, some 7⟩, ⟨true, true, fun _ => true, 0, ""⟩,
    fun hkeeps => ?_⟩
  have hmemory := hkeeps (.custom "WireGuard API is unavailable") rfl
  exact absurd (congrArg (fun memory => (memory 1).isSome) hmemory) (by decide)

/-! ### Waiting -/

/-- The protocols of Xray. -/
def Tag.isXray : Tag → Bool
  | .vlessTcpReality | .vlessGrpcReality | .vlessXhttpReality | .vmess | .shadowsocks => true
  | _ => false

/-- The messages that wait for the handler client of Xray: they touch nothing before
they do. -/
def waitsForHandler (ctx : NodeCtx) (msg : Message) : Bool :=
  msg.action != .resetStat && msg.tag.isXray && ctx.handlerClient &&
    (msg.tag != .shadowsocks || msg.password.isSome)

/-- The messages that wait for the statistics client of Xray. -/
def waitsForStats (ctx : NodeCtx) (msg : Message) : Bool :=
  msg.action == .resetStat && ctx.statsClient

/-- The messages that wait. -/
def suspends (ctx : NodeCtx) (msg : Message) : Bool :=
  waitsForHandler ctx msg || waitsForStats ctx msg

/-- The requests of a waiting message that go through. -/
def requests (msg : Message) (g : Given) : List Request :=
  match msg.action with
  | .create | .update =>
      if g.ok then
        [.addUser msg.connId msg.tag (if msg.tag = .shadowsocks then msg.password else none)]
      else []
  | .delete => if g.ok then [.removeUser msg.connId msg.tag] else []
  | .resetStat => resetRequests msg.connId g

end Fcore
