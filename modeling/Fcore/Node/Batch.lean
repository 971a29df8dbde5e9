import Fcore.Calculus.TryJoin
import Fcore.Node.Handle

/-!
Batches of messages on a node (`handle_messages_batch`).

The messages of a batch are futures that `try_join_all` polls in order and drops at
the first error.  Messages for WireGuard, malformed ones and those that the node has
no client for are finished at their first poll.  The others wait for Xray: those for
the handler client take its mutex in order, those for the statistics client that of
the other client.  A message that fails therefore cuts off every later message that
is not finished, and at the first poll also earlier ones that wait.

* `handleEach`: the messages handled in order, errors ignored;
* `stop`: the state in which a batch ends, and which requests may still have reached
  Xray; `HandleMessagesBatch`: the states in which it can end;
* `Effect`: what a message does, component by component, and `EntryOp`: what it does to
  the memory, which is the same in every state;
* `SameLanes`: lists whose messages stand in the same order in front of each backend, so
  that they leave the same backends;
* `Harmless`, `HarmlessEnd`: the messages that a failure cuts off would change no backend,
  and the order in which the others are finished leaves the same records;
* `batch_complete_iff`: a batch ends as its messages handled in order exactly when its end
  is harmless;
* `harmlessEnd_iff_of_tagsAgree`: the order never matters when the messages for one
  connection carry one tag, as those of the API do;
* `batch_loses_messages`: a peer that exists already costs the rest of its batch.
-/

namespace Fcore

open Calculus

/-! ### Batches -/

/-- A message with what it meets outside. -/
abbrev Item := Message × Given

/-- `handle_message`: the state after it and whether it succeeded. -/
def handle (ctx : NodeCtx) (it : Item) (s : NodeState) : NodeState × Bool :=
  ((handleMessage ctx it.1 it.2 s).1, (handleMessage ctx it.1 it.2 s).2.isOk)

/-- The messages handled in order, errors ignored. -/
def handleEach (ctx : NodeCtx) (items : List Item) (s : NodeState) : NodeState :=
  runAll (handle ctx) items s

/-- The messages that wait for Xray; all others are finished at their first poll. -/
def waits (ctx : NodeCtx) (it : Item) : Bool := suspends ctx it.1

/-- The resets of statistics, which wait for the statistics client. -/
def isReset (it : Item) : Bool := it.1.action == .resetStat

/-- The messages at hand, the waiting ones, and of these the ones that wait for the
handler client and for the statistics client. -/
def immediate (ctx : NodeCtx) (items : List Item) : List Item :=
  items.filter fun it => !waits ctx it
def waiting (ctx : NodeCtx) (items : List Item) : List Item := items.filter (waits ctx)
def handlers (ctx : NodeCtx) (items : List Item) : List Item :=
  (waiting ctx items).filter fun it => !isReset it
def resets (ctx : NodeCtx) (items : List Item) : List Item := (waiting ctx items).filter isReset

/-- The request that a waiting message sends at its first poll, if it goes
through. -/
def firstRequest (it : Item) : List Request :=
  match it.1.action with
  | .resetStat => if it.2.statOk .downlink then [.resetStat it.1.connId .downlink] else []
  | _ => requests it.1 it.2

/-- What may have reached Xray of the polled messages at the end of the first poll: each
client has sent one request, and the others wait for its mutex. -/
def inFlight (ctx : NodeCtx) (items : List Item) : List (List Request) :=
  (((handlers ctx items).take 1).flatMap firstRequest ++
    ((resets ctx items).take 1).flatMap firstRequest).sublists

/-- What may have reached the statistics client when the handler client reports a
failure: it has come to some point. -/
def partlyReset (ctx : NodeCtx) (items : List Item) : List (List Request) :=
  ((resets ctx items).flatMap fun it => requests it.1 it.2).inits

/-- The end of a batch. -/
structure Stop where
  state : NodeState
  /-- The requests of dropped messages that may have reached Xray, one list for each
  possibility. -/
  landings : List (List Request)

/-- `try_join_all` on the messages.  At the first poll every message is polled in
order.  Then the handler client answers in order, and the statistics client on its
own. -/
def stop (ctx : NodeCtx) (items : List Item) (s : NodeState) : Stop :=
  let p := pass (handle ctx) (waits ctx) items s
  if p.failed then ⟨p.state, inFlight ctx p.waiting⟩
  else
    let q := pass (handle ctx) (fun _ => false) (handlers ctx p.waiting) p.state
    if q.failed then ⟨q.state, partlyReset ctx p.waiting⟩
    else ⟨handleEach ctx (resets ctx p.waiting) q.state, [[]]⟩

/-- `handle_messages_batch`: the states in which it can end. -/
def HandleMessagesBatch (ctx : NodeCtx) (items : List Item) (s s' : NodeState) : Prop :=
  ∃ reqs ∈ (stop ctx items s).landings, s' = landAll reqs (stop ctx items s).state

/-- `handle_messages_batch` returns `Ok`. -/
def succeeds (ctx : NodeCtx) (items : List Item) (s : NodeState) : Bool :=
  let p := pass (handle ctx) (waits ctx) items s
  !p.failed && !(pass (handle ctx) (fun _ => false) (handlers ctx p.waiting) p.state).failed

/-- Messages for one connection carry one tag: a connection keeps its protocol. -/
def TagsAgree (items : List Item) : Prop :=
  items.Pairwise fun it it' => it.1.connId = it'.1.connId → it.1.tag = it'.1.tag

instance : DecidablePred TagsAgree := fun items =>
  inferInstanceAs (Decidable (items.Pairwise fun it it' =>
    it.1.connId = it'.1.connId → it.1.tag = it'.1.tag))

/-! ### What one message does -/

/-- What becomes of the memory entry of a connection. -/
inductive EntryOp where
  | keep
  /-- The record is added if there is none. -/
  | enter (c : Base)
  | remove

/-- The entry after it. -/
def EntryOp.apply (op : EntryOp) (o : Option Base) : Option Base :=
  match op with
  | keep => o
  | enter c => some (o.getD c)
  | remove => none

lemma EntryOp.apply_keep : EntryOp.keep.apply = id := rfl

/-- A creation of a WireGuard connection comes to the memory first. -/
def createWgEntry (msg : Message) (g : Given) : EntryOp :=
  match msg.wg with
  | none => .keep
  | some wg => .enter (msg.toBase (.wireguard wg) g.now)

/-- A deletion of one comes to the memory last. -/
def deleteWgEntry (ctx : NodeCtx) (msg : Message) (g : Given) : EntryOp :=
  if ctx.wgClient && g.ok && msg.wg.any fun wg => (ctx.pubkey wg.keys).isOk then .remove else .keep

/-- A creation of an Xray connection comes to the memory when Xray has taken it. -/
def createXrayEntry (ctx : NodeCtx) (msg : Message) (proto : Proto) (g : Given) : EntryOp :=
  if ctx.handlerClient && g.ok then .enter (msg.toBase proto g.now) else .keep

/-- A deletion of one comes there also when Xray fails. -/
def removeXrayEntry (ctx : NodeCtx) : EntryOp := if ctx.handlerClient then .remove else .keep

/-- What a message does to the entry of its connection.  This depends on the message and on
the outcome of its calls, and not on the state. -/
def entryOp (ctx : NodeCtx) (it : Item) : EntryOp :=
  match it.1.action with
  | .create | .update => match it.1.tag with
      | .wireguard => createWgEntry it.1 it.2
      | .shadowsocks => match it.1.password with
          | some password => createXrayEntry ctx it.1 (.shadowsocks password) it.2
          | none => .keep
      | .hysteria2 | .mtproto => .keep
      | tag => createXrayEntry ctx it.1 (.xray tag) it.2
  | .delete => match it.1.tag with
      | .wireguard => deleteWgEntry ctx it.1 it.2
      | .shadowsocks => if it.1.password.isSome then removeXrayEntry ctx else .keep
      | .hysteria2 | .mtproto => .keep
      | _ => removeXrayEntry ctx
  | .resetStat => .keep

/-- The peers, users and counters of a node. -/
abbrev Peers := String → Option IpAddrMask
abbrev Users := Uuid × Tag → Option (Option String)
abbrev Counters := Uuid × StatKind → ℕ

/-- What a message does, component by component; the memory is touched at its
connection only, and success depends on the peers only. -/
structure Effect where
  entry : Option Base → Option Base
  peers : Peers → Peers
  users : Users → Users
  counters : Counters → Counters
  ok : Peers → Bool

/-- The state after an effect. -/
def Effect.apply (e : Effect) (id : Uuid) (s : NodeState) : NodeState where
  memory := Function.update s.memory id (e.entry (s.memory id))
  peers := e.peers s.peers
  users := e.users s.users
  counters := e.counters s.counters

/-- A handling has the effect on a connection, in every state. -/
def Does (f : NodeState → NodeState × Except Error Unit) (id : Uuid) (e : Effect) : Prop :=
  ∀ s, (f s).1 = e.apply id s ∧ (f s).2.isOk = e.ok s.peers

/-- The message has the effect. -/
def HasEffect (ctx : NodeCtx) (it : Item) (e : Effect) : Prop :=
  ∀ s, handle ctx it s = (e.apply it.1.connId s, e.ok s.peers)

lemma Does.hasEffect {ctx : NodeCtx} {it : Item} {e : Effect}
    (h : Does (handleMessage ctx it.1 it.2) it.1.connId e) : HasEffect ctx it e :=
  fun s => Prod.ext (h s).1 (h s).2

/-- No effect. -/
def Effect.idle (ok : Bool) : Effect :=
  ⟨fun o => o, fun p => p, fun u => u, fun c => c, fun _ => ok⟩

@[simp] lemma Effect.apply_idle (ok : Bool) (id : Uuid) (s : NodeState) :
    (Effect.idle ok).apply id s = s := by
  rw [apply, idle, Function.update_eq_self]

lemma Effect.entry_idle (ok : Bool) {op : EntryOp} (h : op = .keep) :
    (Effect.idle ok).entry = op.apply := by
  rw [h]
  rfl

/-- An error without a trace. -/
lemma does_error (err : Error) (id : Uuid) : Does (fun s => (s, .error err)) id (.idle false) :=
  fun s => ⟨(Effect.apply_idle false id s).symm, rfl⟩

/-! ### The effect of each message -/

/-- A creation touches memory and peers; an existing peer is the only state that makes it
fail. -/
lemma exists_does_createWg (ctx : NodeCtx) (msg : Message) (g : Given) :
    ∃ e, Does (createWg ctx msg g) msg.connId e ∧ e.users = id ∧ e.counters = id ∧
      e.entry = (createWgEntry msg g).apply := by
  cases hwg : msg.wg with
  | none =>
      refine ⟨.idle false, fun s => ?_, rfl, rfl, Effect.entry_idle _ (by rw [createWgEntry, hwg])⟩
      rw [createWg, hwg]
      exact does_error _ _ s
  | some wg =>
      let enter := (EntryOp.enter (msg.toBase (.wireguard wg) g.now)).apply
      have henter : enter = (createWgEntry msg g).apply := by rw [createWgEntry, hwg]
      by_cases hclient : ctx.wgClient = true
      · cases hkey : ctx.pubkey wg.keys with
        | error err =>
            refine ⟨⟨enter, id, id, id, fun _ => true⟩, fun s => ?_, rfl, rfl, henter⟩
            simp only [createWg, hwg, hclient, hkey]
            exact ⟨rfl, rfl⟩
        | ok pubkey =>
            refine ⟨⟨enter, fun p => if g.readable && (p pubkey).isSome then p
              else if g.ok then Function.update p pubkey (some wg.address) else p, id, id,
              fun p => !(g.readable && (p pubkey).isSome) && g.ok⟩, fun s => ?_, rfl, rfl, henter⟩
            have hpeers : ∀ c : Base, (s.add msg.connId c).peers = s.peers := fun c => rfl
            simp only [createWg, hwg, hclient, hkey, hpeers, Effect.apply]
            by_cases hexists : (g.readable && (s.peers pubkey).isSome) = true
            · simp only [hexists]
              exact ⟨rfl, rfl⟩
            · have hfree : (g.readable && (s.peers pubkey).isSome) = false := by simpa using hexists
              by_cases hok : g.ok = true
              · simp only [hfree, hok]
                exact ⟨rfl, rfl⟩
              · simp only [hfree, hok]
                exact ⟨rfl, rfl⟩
      · refine ⟨⟨enter, id, id, id, fun _ => false⟩, fun s => ?_, rfl, rfl, henter⟩
        simp only [createWg, hwg, hclient]
        exact ⟨rfl, rfl⟩

/-- A deletion touches memory and peers. -/
lemma exists_does_deleteWg (ctx : NodeCtx) (msg : Message) (g : Given) :
    ∃ e, Does (deleteWg ctx msg g) msg.connId e ∧ e.users = id ∧ e.counters = id ∧
      e.entry = (deleteWgEntry ctx msg g).apply := by
  by_cases hclient : ctx.wgClient = true
  · cases hwg : msg.wg with
    | none =>
        have hkeep : deleteWgEntry ctx msg g = .keep := by simp [deleteWgEntry, hwg]
        refine ⟨.idle false, fun s => ?_, rfl, rfl, Effect.entry_idle _ hkeep⟩
        simp only [deleteWg, hclient, hwg]
        exact does_error _ _ s
    | some wg =>
        cases hkey : ctx.pubkey wg.keys with
        | error err =>
            have hkeep : deleteWgEntry ctx msg g = .keep := by
              simp [deleteWgEntry, hwg, hkey, Except.isOk, Except.toBool]
            refine ⟨.idle false, fun s => ?_, rfl, rfl, Effect.entry_idle _ hkeep⟩
            simp only [deleteWg, hclient, hwg, hkey]
            exact does_error _ _ s
        | ok pubkey =>
            by_cases hok : g.ok = true
            · have hremove : deleteWgEntry ctx msg g = .remove := by
                simp [deleteWgEntry, hclient, hok, hwg, hkey, Except.isOk, Except.toBool]
              refine ⟨⟨fun _ => none, fun p => Function.update p pubkey none, id, id,
                fun _ => true⟩,
                fun s => ?_, rfl, rfl, by rw [hremove]; rfl⟩
              simp only [deleteWg, hclient, hwg, hkey, hok]
              exact ⟨rfl, rfl⟩
            · have hkeep : deleteWgEntry ctx msg g = .keep := by simp [deleteWgEntry, hok]
              refine ⟨.idle false, fun s => ?_, rfl, rfl, Effect.entry_idle _ hkeep⟩
              simp only [deleteWg, hclient, hwg, hkey, hok]
              exact does_error _ _ s
  · have hkeep : deleteWgEntry ctx msg g = .keep := by simp [deleteWgEntry, hclient]
    refine ⟨.idle false, fun s => ?_, rfl, rfl, Effect.entry_idle _ hkeep⟩
    simp only [deleteWg, hclient]
    exact does_error _ _ s

/-- A creation for Xray touches memory and users. -/
lemma exists_does_createXray (ctx : NodeCtx) (msg : Message) (proto : Proto)
    (password : Option String) (g : Given) :
    ∃ e, Does (createXray ctx msg proto password g) msg.connId e ∧ e.peers = id ∧
      e.counters = id ∧ e.entry = (createXrayEntry ctx msg proto g).apply ∧
      (ctx.handlerClient = false → e = .idle false) := by
  by_cases hclient : ctx.handlerClient = true
  · have hnot : ctx.handlerClient = false → False := by simp [hclient]
    by_cases hok : g.ok = true
    · refine ⟨⟨(EntryOp.enter (msg.toBase proto g.now)).apply, id,
        fun u => Function.update u (msg.connId, msg.tag) (some password), id, fun _ => true⟩,
        fun s => ?_, rfl, rfl, by simp [createXrayEntry, hclient, hok], fun h => (hnot h).elim⟩
      simp only [createXray, hclient, hok]
      exact ⟨rfl, rfl⟩
    · have hkeep : createXrayEntry ctx msg proto g = .keep := by simp [createXrayEntry, hok]
      refine ⟨.idle false, fun s => ?_, rfl, rfl, Effect.entry_idle _ hkeep, fun _ => rfl⟩
      simp only [createXray, hclient, hok]
      exact does_error _ _ s
  · have hkeep : createXrayEntry ctx msg proto g = .keep := by simp [createXrayEntry, hclient]
    refine ⟨.idle false, fun s => ?_, rfl, rfl, Effect.entry_idle _ hkeep, fun _ => rfl⟩
    simp only [createXray, hclient]
    exact does_error _ _ s

/-- A deletion for Xray touches memory and users. -/
lemma exists_does_removeXray (ctx : NodeCtx) (msg : Message) (g : Given) :
    ∃ e, Does (removeXray ctx msg g) msg.connId e ∧ e.peers = id ∧ e.counters = id ∧
      e.entry = (removeXrayEntry ctx).apply ∧ (ctx.handlerClient = false → e = .idle false) := by
  by_cases hclient : ctx.handlerClient = true
  · have hnot : ctx.handlerClient = false → False := by simp [hclient]
    by_cases hok : g.ok = true
    · refine ⟨⟨fun _ => none, id, fun u => Function.update u (msg.connId, msg.tag) none, id,
        fun _ => true⟩, fun s => ?_, rfl, rfl, by rw [removeXrayEntry, if_pos hclient]; rfl,
        fun h => (hnot h).elim⟩
      simp only [removeXray, hclient, hok]
      exact ⟨rfl, rfl⟩
    · refine ⟨⟨fun _ => none, id, id, id, fun _ => true⟩, fun s => ?_, rfl, rfl,
        by rw [removeXrayEntry, if_pos hclient]; rfl, fun h => (hnot h).elim⟩
      simp only [removeXray, hclient, hok]
      exact ⟨rfl, rfl⟩
  · refine ⟨.idle false, fun s => ?_, rfl, rfl, Effect.entry_idle _ (if_neg hclient), fun _ => rfl⟩
    simp only [removeXray, hclient]
    exact does_error _ _ s

/-- Requests to the statistics client touch the counters. -/
lemma exists_landAll_reset (id : Uuid) (kinds : List StatKind) :
    ∃ counters : Counters → Counters, ∀ s : NodeState,
      landAll (kinds.map fun kind => .resetStat id kind) s =
        { s with counters := counters s.counters } := by
  induction kinds with
  | nil => exact ⟨fun c => c, fun s => rfl⟩
  | cons kind kinds ih =>
      obtain ⟨counters, hcounters⟩ := ih
      refine ⟨fun c => counters (Function.update c (id, kind) 0), fun s => ?_⟩
      rw [List.map_cons, landAll, List.foldl_cons]
      exact hcounters _

/-- Messages for Xray are creations or deletions there. -/
lemma handleMessage_of_isXray (ctx : NodeCtx) {msg : Message} (g : Given)
    (haction : msg.action ≠ .resetStat) (hxray : msg.tag.isXray = true)
    (hpassword : msg.tag = .shadowsocks → msg.password.isSome = true) :
    (msg.action ≠ .delete ∧
        ∃ proto password, handleMessage ctx msg g = createXray ctx msg proto password g ∧
          entryOp ctx (msg, g) = createXrayEntry ctx msg proto g) ∨
      msg.action = .delete ∧ handleMessage ctx msg g = removeXray ctx msg g ∧
        entryOp ctx (msg, g) = removeXrayEntry ctx := by
  obtain ⟨connId, action, tag, wg, password, token, expiresAt, subscriptionId⟩ := msg
  -- only Shadowsocks looks at the password
  have hcreate : action = .create ∨ action = .update → ∃ proto password',
      handleMessage ctx ⟨connId, action, tag, wg, password, token, expiresAt, subscriptionId⟩ g =
        createXray ctx ⟨connId, action, tag, wg, password, token, expiresAt, subscriptionId⟩
          proto password' g ∧
      entryOp ctx (⟨connId, action, tag, wg, password, token, expiresAt, subscriptionId⟩, g) =
        createXrayEntry ctx ⟨connId, action, tag, wg, password, token, expiresAt, subscriptionId⟩
          proto g := by
    rintro (rfl | rfl)
    all_goals
      cases tag with
      | wireguard => exact absurd hxray Bool.false_ne_true
      | hysteria2 => exact absurd hxray Bool.false_ne_true
      | mtproto => exact absurd hxray Bool.false_ne_true
      | shadowsocks =>
          obtain ⟨password', rfl⟩ := Option.isSome_iff_exists.mp (hpassword rfl)
          exact ⟨_, _, rfl, rfl⟩
      | _ => exact ⟨_, _, rfl, rfl⟩
  cases action with
  | create => exact .inl ⟨by simp, hcreate (.inl rfl)⟩
  | update => exact .inl ⟨by simp, hcreate (.inr rfl)⟩
  | resetStat => exact absurd rfl haction
  | delete =>
      refine .inr ⟨rfl, ?_⟩
      cases tag with
      | wireguard => exact absurd hxray Bool.false_ne_true
      | hysteria2 => exact absurd hxray Bool.false_ne_true
      | mtproto => exact absurd hxray Bool.false_ne_true
      | shadowsocks =>
          obtain ⟨password', rfl⟩ := Option.isSome_iff_exists.mp (hpassword rfl)
          exact ⟨funext fun s => if_neg (by simp), rfl⟩
      | _ => exact ⟨rfl, rfl⟩

/-- What a message does, with its part in the memory. -/
def Acts (ctx : NodeCtx) (it : Item) (e : Effect) : Prop :=
  HasEffect ctx it e ∧ e.entry = (entryOp ctx it).apply

/-- Waiting messages for the handler client leave peers and counters alone. -/
lemma acts_of_waitsForHandler {ctx : NodeCtx} {it : Item} (h : waitsForHandler ctx it.1 = true) :
    ∃ e, Acts ctx it e ∧ e.peers = id ∧ e.counters = id := by
  simp only [waitsForHandler, Bool.and_eq_true, Bool.or_eq_true, bne_iff_ne, ne_eq] at h
  obtain ⟨⟨⟨haction, hxray⟩, -⟩, hpassword⟩ := h
  rcases handleMessage_of_isXray ctx it.2 haction hxray
    (fun htag => hpassword.resolve_left (fun hne => hne htag)) with
    ⟨-, proto, password, heq, hop⟩ | ⟨-, heq, hop⟩
  · obtain ⟨e, hdoes, hpeers, hcounters, hentry, -⟩ :=
      exists_does_createXray ctx it.1 proto password it.2
    exact ⟨e, ⟨Does.hasEffect (by rw [heq]; exact hdoes), hentry.trans (by rw [← hop])⟩, hpeers,
      hcounters⟩
  · obtain ⟨e, hdoes, hpeers, hcounters, hentry, -⟩ := exists_does_removeXray ctx it.1 it.2
    exact ⟨e, ⟨Does.hasEffect (by rw [heq]; exact hdoes), hentry.trans (by rw [← hop])⟩, hpeers,
      hcounters⟩

/-- Resets leave all but the counters alone. -/
lemma acts_of_isReset (ctx : NodeCtx) {it : Item} (h : isReset it = true) :
    ∃ e, Acts ctx it e ∧ e.peers = id ∧ e.users = id := by
  have haction : it.1.action = .resetStat := by simpa [isReset] using h
  obtain ⟨counters, hland⟩ := exists_landAll_reset it.1.connId
    ([.downlink, .uplink, .online].filter it.2.statOk)
  have hkeep : entryOp ctx it = .keep := by rw [entryOp, haction]
  refine ⟨⟨id, id, id, fun c => if ctx.statsClient then counters c else c, fun _ => true⟩,
    ⟨Does.hasEffect fun s => ?_, by rw [hkeep]; rfl⟩, rfl, rfl⟩
  simp only [handleMessage, haction, Effect.apply, id, Function.update_eq_self]
  by_cases hclient : ctx.statsClient = true
  · simp only [hclient, if_true]
    exact ⟨hland s, rfl⟩
  · simp only [hclient]
    exact ⟨rfl, rfl⟩

/-- Messages that cannot be handled leave no trace. -/
def Refused (ctx : NodeCtx) (it : Item) : Prop :=
  entryOp ctx it = .keep ∧ ∃ ok, HasEffect ctx it (.idle ok)

/-- Messages for Xray that do not wait have no client or no password. -/
lemma refused_of_isXray {ctx : NodeCtx} {it : Item} (haction : it.1.action ≠ .resetStat)
    (hxray : it.1.tag.isXray = true) (h : waitsForHandler ctx it.1 = false) : Refused ctx it := by
  by_cases hpassword : it.1.tag = .shadowsocks ∧ it.1.password = none
  · obtain ⟨htag, hnone⟩ := hpassword
    have hkeep : entryOp ctx it = .keep := by
      rw [entryOp, htag, hnone]
      cases it.1.action <;> rfl
    refine ⟨hkeep, false, Does.hasEffect fun s => ?_⟩
    cases haction' : it.1.action with
    | resetStat => exact absurd haction' haction
    | delete =>
        simp only [handleMessage, haction', htag, hnone, removeXray]
        cases ctx.handlerClient
        · exact does_error _ _ s
        · exact does_error _ _ s
    | _ =>
        simp only [handleMessage, haction', htag, hnone]
        exact does_error _ _ s
  · have hsome : it.1.tag = .shadowsocks → it.1.password.isSome = true := fun htag =>
      Option.isSome_iff_ne_none.mpr fun hnone => hpassword ⟨htag, hnone⟩
    have hclient : ctx.handlerClient = false := by
      by_contra hclient
      have hwaits : waitsForHandler ctx it.1 = true := by
        simp only [waitsForHandler, Bool.and_eq_true, Bool.or_eq_true, bne_iff_ne, ne_eq]
        exact ⟨⟨⟨haction, hxray⟩, by simpa using hclient⟩, not_or_of_imp hsome⟩
      exact absurd (hwaits.symm.trans h) (by decide)
    rcases handleMessage_of_isXray ctx it.2 haction hxray hsome with
      ⟨-, proto, password, heq, hop⟩ | ⟨-, heq, hop⟩
    · obtain ⟨e, hdoes, -, -, -, hidle⟩ := exists_does_createXray ctx it.1 proto password it.2
      refine ⟨hop.trans (by simp [createXrayEntry, hclient]), false, ?_⟩
      rw [← hidle hclient]
      exact Does.hasEffect (by rw [heq]; exact hdoes)
    · obtain ⟨e, hdoes, -, -, -, hidle⟩ := exists_does_removeXray ctx it.1 it.2
      refine ⟨hop.trans (by simp [removeXrayEntry, hclient]), false, ?_⟩
      rw [← hidle hclient]
      exact Does.hasEffect (by rw [heq]; exact hdoes)

/-- Resets without the statistics client do nothing. -/
lemma refused_of_reset {ctx : NodeCtx} {it : Item} (haction : it.1.action = .resetStat)
    (h : waitsForStats ctx it.1 = false) : Refused ctx it := by
  have hclient : ctx.statsClient = false := by simpa [waitsForStats, haction] using h
  have hkeep : entryOp ctx it = .keep := by rw [entryOp, haction]
  refine ⟨hkeep, true, Does.hasEffect fun s => ?_⟩
  simp only [handleMessage, haction, hclient]
  exact ⟨(Effect.apply_idle true _ s).symm, rfl⟩

/-- A node knows no connections for Hysteria2 and Mtproto. -/
lemma refused_of_unsupported {ctx : NodeCtx} {it : Item} (haction : it.1.action ≠ .resetStat)
    (htag : it.1.tag = .hysteria2 ∨ it.1.tag = .mtproto) : Refused ctx it := by
  have hkeep : entryOp ctx it = .keep := by
    rw [entryOp]
    rcases htag with htag | htag
    all_goals
      rw [htag]
      cases it.1.action <;> rfl
  refine ⟨hkeep, false, Does.hasEffect fun s => ?_⟩
  have herror : handleMessage ctx it.1 it.2 s = (s, .error unsupported) := by
    rw [handleMessage]
    rcases htag with htag | htag
    all_goals
      rw [htag]
      cases haction' : it.1.action with
      | resetStat => exact absurd haction' haction
      | _ => rfl
  rw [herror]
  exact does_error _ _ s

/-- Messages for WireGuard leave users and counters alone. -/
lemma acts_of_wireguard (ctx : NodeCtx) {it : Item} (haction : it.1.action ≠ .resetStat)
    (htag : it.1.tag = .wireguard) : ∃ e, Acts ctx it e ∧ e.users = id ∧ e.counters = id := by
  cases haction' : it.1.action with
  | resetStat => exact absurd haction' haction
  | delete =>
      obtain ⟨e, hdoes, husers, hcounters, hentry⟩ := exists_does_deleteWg ctx it.1 it.2
      have hop : entryOp ctx it = deleteWgEntry ctx it.1 it.2 := by rw [entryOp, haction', htag]
      refine ⟨e, ⟨Does.hasEffect fun s => ?_, hentry.trans (by rw [hop])⟩, husers, hcounters⟩
      simp only [handleMessage, haction', htag]
      exact hdoes s
  | _ =>
      obtain ⟨e, hdoes, husers, hcounters, hentry⟩ := exists_does_createWg ctx it.1 it.2
      have hop : entryOp ctx it = createWgEntry it.1 it.2 := by rw [entryOp, haction', htag]
      refine ⟨e, ⟨Does.hasEffect fun s => ?_, hentry.trans (by rw [hop])⟩, husers, hcounters⟩
      simp only [handleMessage, haction', htag]
      exact hdoes s

/-- Messages that do not wait are for WireGuard or are refused. -/
lemma acts_of_not_waits {ctx : NodeCtx} {it : Item} (h : waits ctx it = false) :
    (it.1.tag = .wireguard ∨ entryOp ctx it = .keep) ∧
      ∃ e, Acts ctx it e ∧ e.users = id ∧ e.counters = id := by
  obtain ⟨hhandler, hstats⟩ := Bool.or_eq_false_iff.mp h
  suffices hcases : it.1.tag = .wireguard ∧ it.1.action ≠ .resetStat ∨ Refused ctx it by
    rcases hcases with ⟨htag, haction⟩ | ⟨hkeep, ok, hidle⟩
    · exact ⟨.inl htag, acts_of_wireguard ctx haction htag⟩
    · exact ⟨.inr hkeep, .idle ok, ⟨hidle, Effect.entry_idle ok hkeep⟩, rfl, rfl⟩
  by_cases haction : it.1.action = .resetStat
  · exact .inr (refused_of_reset haction hstats)
  · by_cases hxray : it.1.tag.isXray = true
    · exact .inr (refused_of_isXray haction hxray hhandler)
    · cases htag : it.1.tag with
      | wireguard => exact .inl ⟨rfl, haction⟩
      | hysteria2 => exact .inr (refused_of_unsupported haction (.inl htag))
      | mtproto => exact .inr (refused_of_unsupported haction (.inr htag))
      | _ =>
          rw [htag] at hxray
          exact absurd rfl hxray

/-! ### Orders of messages -/

lemma handleEach_append (ctx : NodeCtx) (items items' : List Item) (s : NodeState) :
    handleEach ctx (items ++ items') s = handleEach ctx items' (handleEach ctx items s) :=
  runAll_append (handle ctx) items items' s

/-- What any message does: it touches one of the backends at most. -/
lemma exists_acts (ctx : NodeCtx) (it : Item) : ∃ e, Acts ctx it e ∧
    ((!waits ctx it) = false → e.peers = id) ∧
    ((waits ctx it && !isReset it) = false → e.users = id) ∧
    ((waits ctx it && isReset it) = false → e.counters = id) := by
  cases hwaits : waits ctx it with
  | false =>
      obtain ⟨-, e, hacts, husers, hcounters⟩ := acts_of_not_waits hwaits
      exact ⟨e, hacts, fun h => by simp at h, fun _ => husers, fun _ => hcounters⟩
  | true =>
      cases hreset : isReset it with
      | true =>
          obtain ⟨e, hacts, hpeers, husers⟩ := acts_of_isReset ctx hreset
          exact ⟨e, hacts, fun _ => hpeers, fun _ => husers, fun h => by simp at h⟩
      | false =>
          have hhandler : waitsForHandler ctx it.1 = true := by
            rcases (Bool.or_eq_true _ _).mp hwaits with hhandler | hstats
            · exact hhandler
            · exact absurd ((Bool.and_eq_true_iff.mp hstats).1.symm.trans hreset) (by decide)
          obtain ⟨e, hacts, hpeers, hcounters⟩ := acts_of_waitsForHandler hhandler
          exact ⟨e, hacts, fun _ => hpeers, fun h => by simp at h, fun _ => hcounters⟩

/-- The messages stand in the same order in front of each backend. -/
structure SameLanes (ctx : NodeCtx) (items items' : List Item) : Prop where
  immediate : immediate ctx items = immediate ctx items'
  handlers : handlers ctx items = handlers ctx items'
  resets : resets ctx items = resets ctx items'

/-- The backends of a node. -/
def NodeState.backends (s : NodeState) : Peers × Users × Counters := (s.peers, s.users, s.counters)

lemma NodeState.ext_backends {s s' : NodeState} (hmemory : ∀ id, s.memory id = s'.memory id)
    (hbackends : s.backends = s'.backends) : s = s' := by
  simp only [backends, Prod.mk.injEq] at hbackends
  exact NodeState.ext (funext hmemory) hbackends.1 hbackends.2.1 hbackends.2.2

lemma handlers_eq (ctx : NodeCtx) (items : List Item) :
    handlers ctx items = items.filter fun it => waits ctx it && !isReset it := by
  rw [handlers, waiting, List.filter_filter]
  exact List.filter_congr fun it _ => Bool.and_comm _ _

lemma resets_eq (ctx : NodeCtx) (items : List Item) :
    resets ctx items = items.filter fun it => waits ctx it && isReset it := by
  rw [resets, waiting, List.filter_filter]
  exact List.filter_congr fun it _ => Bool.and_comm _ _

/-- A part of the state on which the messages act one by one is left the same by two orders that
agree on the messages that touch it. -/
lemma part_handleEach {ctx : NodeCtx} {ρ : Type} {part : NodeState → ρ} (act : Effect → ρ → ρ)
    (hpart : ∀ e id s, part (Effect.apply e id s) = act e (part s)) {touches : Item → Bool}
    (hacts : ∀ it, ∃ e, Acts ctx it e ∧ (touches it = false → act e = id))
    {items items' : List Item}
    (hsame : items.filter touches = items'.filter touches) (s : NodeState) :
    part (handleEach ctx items s) = part (handleEach ctx items' s) := by
  refine SeesOnly.runAll_eq (fun it s s' hs => ?_) (fun it s hskip => ?_) hsame s
  · obtain ⟨e, hacts, -⟩ := hacts it
    rw [hacts.1, hacts.1]
    exact (hpart e _ s).trans ((congrArg (act e) hs).trans (hpart e _ s').symm)
  · obtain ⟨e, hacts, hidle⟩ := hacts it
    rw [hacts.1]
    exact (hpart e _ s).trans (congrFun (hidle hskip) (part s))

/-- The order of the messages in front of each backend decides on the backends. -/
lemma SameLanes.backends_eq {ctx : NodeCtx} {items items' : List Item}
    (h : SameLanes ctx items items') (s : NodeState) :
    (handleEach ctx items s).backends = (handleEach ctx items' s).backends := by
  have hpeers : (handleEach ctx items s).peers = (handleEach ctx items' s).peers := by
    refine part_handleEach Effect.peers (fun _ _ _ => rfl) (fun it => ?_) h.immediate s
    obtain ⟨e, hacts, hpeers, -⟩ := exists_acts ctx it
    exact ⟨e, hacts, hpeers⟩
  have husers : (handleEach ctx items s).users = (handleEach ctx items' s).users := by
    refine part_handleEach Effect.users (fun _ _ _ => rfl) (fun it => ?_)
      (handlers_eq ctx items ▸ handlers_eq ctx items' ▸ h.handlers) s
    obtain ⟨e, hacts, -, husers, -⟩ := exists_acts ctx it
    exact ⟨e, hacts, husers⟩
  have hcounters : (handleEach ctx items s).counters = (handleEach ctx items' s).counters := by
    refine part_handleEach Effect.counters (fun _ _ _ => rfl) (fun it => ?_)
      (resets_eq ctx items ▸ resets_eq ctx items' ▸ h.resets) s
    obtain ⟨e, hacts, -, -, hcounters⟩ := exists_acts ctx it
    exact ⟨e, hacts, hcounters⟩
  rw [NodeState.backends, NodeState.backends, hpeers, husers, hcounters]

/-! ### Records that are left -/

/-- The record that is entered. -/
def EntryOp.record : EntryOp → Option Base
  | keep => none
  | enter c => some c
  | remove => none

def EntryOp.isRemove : EntryOp → Bool
  | keep => false
  | enter _ => false
  | remove => true

/-- What operations leave of an entry: what was there, unless it is removed, and otherwise
the first record that is entered since the last removal. -/
def recordLeft (ops : List EntryOp) (o : Option Base) : Option Base :=
  (if ops.any EntryOp.isRemove then none else o).or
    ((ops.reverse.takeWhile fun op => !op.isRemove).reverse.findSome? EntryOp.record)

/-- The operations of messages on the entry of a connection. -/
def entryOps (ctx : NodeCtx) (id : Uuid) (items : List Item) : List EntryOp :=
  (items.filter fun it => it.1.connId == id).map (entryOp ctx)

lemma recordLeft_concat (ops : List EntryOp) (op : EntryOp) (o : Option Base) :
    recordLeft (ops ++ [op]) o = op.apply (recordLeft ops o) := by
  cases op with
  | keep => simp [recordLeft, EntryOp.apply, EntryOp.isRemove, EntryOp.record]
  | remove => simp [recordLeft, EntryOp.apply, EntryOp.isRemove]
  | enter c =>
      simp only [recordLeft, EntryOp.apply, EntryOp.isRemove, EntryOp.record, List.any_append,
        List.any_cons, List.any_nil, Bool.or_false, List.reverse_append, List.reverse_cons,
        List.reverse_nil, List.nil_append, List.singleton_append, List.takeWhile_cons_of_pos,
        Bool.not_false, List.findSome?_append, List.findSome?_cons]
      generalize (if ops.any EntryOp.isRemove then none else o) = before
      generalize (List.findSome? EntryOp.record _) = entered
      cases before <;> cases entered <;> rfl

/-- The memory after messages handled in order. -/
lemma memory_handleEach (ctx : NodeCtx) (items : List Item) (s : NodeState) (id : Uuid) :
    (handleEach ctx items s).memory id = recordLeft (entryOps ctx id items) (s.memory id) := by
  induction items using List.reverseRecOn with
  | nil => simp [entryOps, recordLeft, handleEach]
  | append_singleton items it ih =>
      obtain ⟨e, hacts, -⟩ := exists_acts ctx it
      have hlast : (handleEach ctx (items ++ [it]) s).memory id =
          if id = it.1.connId then
            (entryOp ctx it).apply ((handleEach ctx items s).memory it.1.connId)
          else (handleEach ctx items s).memory id := by
        rw [handleEach_append]
        show (handle ctx it (handleEach ctx items s)).1.memory id = _
        rw [hacts.1, ← hacts.2]
        exact Function.update_apply _ _ _ _
      rw [hlast]
      by_cases hid : id = it.1.connId
      · subst hid
        rw [if_pos rfl, ih, entryOps, entryOps, List.filter_append, List.map_append,
          List.filter_singleton, beq_self_eq_true, cond_true, List.map_singleton, recordLeft_concat]
      · have hother : entryOps ctx id (items ++ [it]) = entryOps ctx id items := by
          simp [entryOps, List.filter_append, Ne.symm hid]
        rw [if_neg hid, ih, hother]

/-! ### The end of a batch -/

@[simp] lemma waiting_waiting (ctx : NodeCtx) (items : List Item) :
    waiting ctx (waiting ctx items) = waiting ctx items := by
  rw [waiting, List.filter_eq_self]
  exact fun it hit => (List.mem_filter.mp hit).2

lemma handlers_waiting (ctx : NodeCtx) (items : List Item) :
    handlers ctx (waiting ctx items) = handlers ctx items := by
  rw [handlers, waiting_waiting, handlers]

lemma resets_waiting (ctx : NodeCtx) (items : List Item) :
    resets ctx (waiting ctx items) = resets ctx items := by
  rw [resets, waiting_waiting, resets]

lemma inFlight_waiting (ctx : NodeCtx) (items : List Item) :
    inFlight ctx (waiting ctx items) = inFlight ctx items := by
  rw [inFlight, handlers_waiting, resets_waiting, inFlight]

lemma partlyReset_waiting (ctx : NodeCtx) (items : List Item) :
    partlyReset ctx (waiting ctx items) = partlyReset ctx items := by
  rw [partlyReset, resets_waiting, partlyReset]

/-- A failure at the first poll drops what waits before it and what follows. -/
lemma stop_of_firstPoll {ctx : NodeCtx} {items pre post : List Item} {it : Item} {s : NodeState}
    (h : FirstFailure (handle ctx) (waits ctx) items s pre it post) :
    stop ctx items s = ⟨handleEach ctx (immediate ctx pre ++ [it]) s, inFlight ctx pre⟩ := by
  rw [stop, h.pass_eq]
  exact congrArg (Stop.mk _) (inFlight_waiting ctx pre)

/-- Without one the handler client answers. -/
lemma stop_of_allOk {ctx : NodeCtx} {items : List Item} {s : NodeState}
    (h : AllOk (handle ctx) (immediate ctx items) s) :
    stop ctx items s =
      let q := pass (handle ctx) (fun _ => false) (handlers ctx items)
        (handleEach ctx (immediate ctx items) s)
      if q.failed then ⟨q.state, partlyReset ctx items⟩
      else ⟨handleEach ctx (resets ctx items) q.state, [[]]⟩ := by
  rw [← partlyReset_waiting, ← handlers_waiting ctx items, ← resets_waiting, stop,
    pass_of_allOk h]
  rfl

/-- A failure that the handler client reports drops what follows there and all
resets. -/
lemma stop_of_answer {ctx : NodeCtx} {items pre post : List Item} {it : Item} {s : NodeState}
    (hok : AllOk (handle ctx) (immediate ctx items) s)
    (h : FirstFailure (handle ctx) (fun _ => false) (handlers ctx items)
      (handleEach ctx (immediate ctx items) s) pre it post) :
    stop ctx items s =
      ⟨handleEach ctx (immediate ctx items ++ (pre ++ [it])) s, partlyReset ctx items⟩ := by
  have hpass := h.pass_eq
  simp only [Bool.not_false, List.filter_true] at hpass
  rw [stop_of_allOk hok, hpass, handleEach_append]
  rfl

/-- Without any failure everything is handled. -/
lemma stop_of_noFailure {ctx : NodeCtx} {items : List Item} {s : NodeState}
    (hok : AllOk (handle ctx) (immediate ctx items) s)
    (hok' : AllOk (handle ctx) (handlers ctx items) (handleEach ctx (immediate ctx items) s)) :
    stop ctx items s =
      ⟨handleEach ctx (immediate ctx items ++ (handlers ctx items ++ resets ctx items)) s,
        [[]]⟩ := by
  have hall : AllOk (handle ctx) ((handlers ctx items).filter fun _ => !false)
      (handleEach ctx (immediate ctx items) s) := by
    simpa only [Bool.not_false, List.filter_true] using hok'
  have hpass := pass_of_allOk hall
  simp only [Bool.not_false, List.filter_true] at hpass
  rw [stop_of_allOk hok, hpass, handleEach_append, handleEach_append]
  rfl

/-- A batch that succeeds has no failure. -/
lemma allOk_of_succeeds {ctx : NodeCtx} {items : List Item} {s : NodeState}
    (h : succeeds ctx items s = true) :
    AllOk (handle ctx) (immediate ctx items) s ∧
      AllOk (handle ctx) (handlers ctx items) (handleEach ctx (immediate ctx items) s) := by
  rw [succeeds, Bool.and_eq_true, Bool.not_eq_true', Bool.not_eq_true'] at h
  obtain ⟨hpoll, hanswer⟩ := h
  rcases allOk_or_firstFailure (handle ctx) (waits ctx) items s with hok | ⟨pre, it, post, hfirst⟩
  · rw [pass_of_allOk hok] at hanswer
    change (pass _ _ (handlers ctx (waiting ctx items))
        (handleEach ctx (immediate ctx items) s)).failed
      = false at hanswer
    rw [handlers_waiting] at hanswer
    rcases allOk_or_firstFailure (handle ctx) (fun _ => false) (handlers ctx items)
      (handleEach ctx (immediate ctx items) s) with hok' | ⟨pre, it, post, hfirst⟩
    · simp only [Bool.not_false, List.filter_true] at hok'
      exact ⟨hok, hok'⟩
    · rw [hfirst.pass_eq] at hanswer
      cases hanswer
  · rw [hfirst.pass_eq] at hpoll
    cases hpoll

/-! ### What is lost -/

/-- A batch has finished some messages and cut off the others, and this makes no difference: for
each connection the finished messages, in the order in which they were finished, leave the record
that all messages leave in the order of the batch; the others, handled where the batch ended, would
change no backend; and neither does what has reached Xray of their requests, whichever it is. -/
structure Harmless (ctx : NodeCtx) (items finished cut : List Item) (landings : List (List Request))
    (s : NodeState) : Prop where
  records : ∀ id, recordLeft (entryOps ctx id finished) (s.memory id) =
    recordLeft (entryOps ctx id items) (s.memory id)
  backends : (handleEach ctx cut (handleEach ctx finished s)).backends =
    (handleEach ctx finished s).backends
  landings : ∀ reqs ∈ landings, landAll reqs (handleEach ctx finished s) = handleEach ctx finished s

/-- The end of a batch is harmless.  A message fails at the first poll when it does so after the
earlier messages that do not wait, and it then cuts off the earlier waiting messages and all that
follow.  Otherwise the first failure is the one of the first message for the handler client that
fails, and it cuts off the later ones for this client and all resets.  Without a failure nothing is
cut off, but the messages that do not wait have come before the others. -/
structure HarmlessEnd (ctx : NodeCtx) (items : List Item) (s : NodeState) : Prop where
  atFirstPoll : ∀ pre it post, FirstFailure (handle ctx) (waits ctx) items s pre it post →
    Harmless ctx items (immediate ctx pre ++ [it]) (waiting ctx pre ++ post) (inFlight ctx pre) s
  atAnswer : AllOk (handle ctx) (immediate ctx items) s → ∀ pre it post,
    FirstFailure (handle ctx) (fun _ => false) (handlers ctx items)
      (handleEach ctx (immediate ctx items) s) pre it post →
    Harmless ctx items (immediate ctx items ++ (pre ++ [it])) (post ++ resets ctx items)
      (partlyReset ctx items) s
  withoutFailure : AllOk (handle ctx) (immediate ctx items) s →
    AllOk (handle ctx) (handlers ctx items) (handleEach ctx (immediate ctx items) s) →
    ∀ id, recordLeft
        (entryOps ctx id (immediate ctx items ++ (handlers ctx items ++ resets ctx items)))
        (s.memory id) = recordLeft (entryOps ctx id items) (s.memory id)

/-- The batch ends as its messages handled in order. -/
def Complete (ctx : NodeCtx) (items : List Item) (s : NodeState) : Prop :=
  ∀ s', HandleMessagesBatch ctx items s s' → s' = handleEach ctx items s

/-- A batch that has finished some messages and cut off the others. -/
lemma complete_iff_harmless {ctx : NodeCtx} {items finished cut : List Item} {s : NodeState}
    {landings : List (List Request)}
    (hstop : stop ctx items s = ⟨handleEach ctx finished s, landings⟩) (hnil : [] ∈ landings)
    (hlanes : SameLanes ctx items (finished ++ cut)) :
    Complete ctx items s ↔ Harmless ctx items finished cut landings s := by
  have hcut : (handleEach ctx items s).backends =
      (handleEach ctx cut (handleEach ctx finished s)).backends := by
    rw [hlanes.backends_eq s, handleEach_append]
  constructor
  · intro hcomplete
    have hlands : ∀ reqs ∈ landings,
        landAll reqs (handleEach ctx finished s) = handleEach ctx items s := fun reqs hreqs =>
      hcomplete _ ⟨reqs, by rw [hstop]; exact hreqs, by rw [hstop]⟩
    -- nothing need have reached Xray
    have hsame : handleEach ctx finished s = handleEach ctx items s := hlands [] hnil
    refine ⟨fun id => ?_, ?_, fun reqs hreqs => (hlands reqs hreqs).trans hsame.symm⟩
    · rw [← memory_handleEach, ← memory_handleEach, hsame]
    · rw [← hcut, hsame]
  · rintro ⟨hrecords, hbackends, hlands⟩ s' ⟨reqs, hreqs, rfl⟩
    have hsame : handleEach ctx finished s = handleEach ctx items s := by
      refine NodeState.ext_backends (fun id => ?_) (hbackends.symm.trans hcut.symm)
      rw [memory_handleEach, memory_handleEach, hrecords]
    rw [hstop] at hreqs ⊢
    exact (hlands reqs hreqs).trans hsame

section Lanes

variable {ctx : NodeCtx} {items pre post : List Item} {it : Item} {s : NodeState}

lemma sameLanes_of_firstPoll (h : FirstFailure (handle ctx) (waits ctx) items s pre it post) :
    SameLanes ctx items ((immediate ctx pre ++ [it]) ++ (waiting ctx pre ++ post)) := by
  obtain ⟨rfl, hfast, -, -⟩ := h
  refine ⟨?_, ?_, ?_⟩
  · simp [immediate, waiting, hfast, List.filter_filter]
  · simp [immediate, waiting, handlers, hfast, List.filter_filter]
  · simp [immediate, waiting, resets, hfast, List.filter_filter]

/-- Messages that do not wait may come first, and resets last. -/
lemma sameLanes_waiting (ctx : NodeCtx) (items : List Item) :
    SameLanes ctx items (immediate ctx items ++ (handlers ctx items ++ resets ctx items)) := by
  have hsame : ∀ p : Item → Bool, (items.filter p).filter p = items.filter p := fun p => by
    simp only [List.filter_filter, Bool.and_self]
  have hother : ∀ p q : Item → Bool, (∀ it, p it = true → q it = false) →
      (items.filter p).filter q = [] := by
    intro p q h
    rw [List.filter_eq_nil_iff]
    intro it hit
    simp [h it (List.mem_filter.mp hit).2]
  refine ⟨?_, ?_, ?_⟩
  all_goals
    simp only [handlers_eq, resets_eq, immediate, List.filter_append, hsame]
    rw [hother, hother]
    all_goals simp +contextual

lemma mem_of_mem_lanes {it : Item}
    (h : it ∈ immediate ctx items ++ (handlers ctx items ++ resets ctx items)) : it ∈ items := by
  rw [handlers_eq, resets_eq] at h
  rcases List.mem_append.mp h with h | h
  · exact List.mem_of_mem_filter h
  · rcases List.mem_append.mp h with h | h
    · exact List.mem_of_mem_filter h
    · exact List.mem_of_mem_filter h

lemma answer_split (h : FirstFailure (handle ctx) (fun _ => false) (handlers ctx items)
      (handleEach ctx (immediate ctx items) s) pre it post) :
    (immediate ctx items ++ (pre ++ [it])) ++ (post ++ resets ctx items) =
      immediate ctx items ++ (handlers ctx items ++ resets ctx items) := by
  rw [h.split]
  simp

lemma sameLanes_of_answer (h : FirstFailure (handle ctx) (fun _ => false) (handlers ctx items)
      (handleEach ctx (immediate ctx items) s) pre it post) :
    SameLanes ctx items
      ((immediate ctx items ++ (pre ++ [it])) ++ (post ++ resets ctx items)) := by
  rw [answer_split h]
  exact sameLanes_waiting ctx items

lemma complete_iff_of_firstPoll (h : FirstFailure (handle ctx) (waits ctx) items s pre it post) :
    Complete ctx items s ↔
      Harmless ctx items (immediate ctx pre ++ [it]) (waiting ctx pre ++ post)
        (inFlight ctx pre) s :=
  complete_iff_harmless (stop_of_firstPoll h) (List.mem_sublists.mpr (List.nil_sublist _))
    (sameLanes_of_firstPoll h)

lemma complete_iff_of_answer (hok : AllOk (handle ctx) (immediate ctx items) s)
    (h : FirstFailure (handle ctx) (fun _ => false) (handlers ctx items)
      (handleEach ctx (immediate ctx items) s) pre it post) :
    Complete ctx items s ↔
      Harmless ctx items (immediate ctx items ++ (pre ++ [it])) (post ++ resets ctx items)
        (partlyReset ctx items) s :=
  complete_iff_harmless (stop_of_answer hok h) ((List.mem_inits _ _).mpr List.nil_prefix)
    (sameLanes_of_answer h)

/-- Without a failure only the order may matter. -/
lemma complete_iff_of_noFailure (hok : AllOk (handle ctx) (immediate ctx items) s)
    (hok' : AllOk (handle ctx) (handlers ctx items) (handleEach ctx (immediate ctx items) s)) :
    Complete ctx items s ↔ ∀ id,
      recordLeft (entryOps ctx id (immediate ctx items ++ (handlers ctx items ++ resets ctx items)))
        (s.memory id) = recordLeft (entryOps ctx id items) (s.memory id) := by
  have hlanes := sameLanes_waiting ctx items
  rw [← List.append_nil (immediate ctx items ++ _)] at hlanes
  rw [complete_iff_harmless (stop_of_noFailure hok hok') (List.mem_singleton_self []) hlanes]
  refine ⟨Harmless.records, fun hrecords => ⟨hrecords, rfl, fun reqs hreqs => ?_⟩⟩
  rw [List.mem_singleton.mp hreqs]
  rfl

end Lanes

/-- **A batch ends as its messages handled in order** exactly when its end is harmless. -/
theorem batch_complete_iff {ctx : NodeCtx} {items : List Item} {s : NodeState} :
    (∀ s', HandleMessagesBatch ctx items s s' → s' = handleEach ctx items s) ↔
      HarmlessEnd ctx items s := by
  constructor
  · intro hcomplete
    exact ⟨fun pre it post h => (complete_iff_of_firstPoll h).mp hcomplete,
      fun hok pre it post h => (complete_iff_of_answer hok h).mp hcomplete,
      fun hok hok' => (complete_iff_of_noFailure hok hok').mp hcomplete⟩
  · intro h
    rcases allOk_or_firstFailure (handle ctx) (waits ctx) items s with
      hok | ⟨pre, it, post, hfirst⟩
    · rcases allOk_or_firstFailure (handle ctx) (fun _ => false) (handlers ctx items)
        (handleEach ctx (immediate ctx items) s) with hok' | ⟨pre, it, post, hfirst⟩
      · simp only [Bool.not_false, List.filter_true] at hok'
        exact (complete_iff_of_noFailure hok hok').mpr (h.withoutFailure hok hok')
      · exact (complete_iff_of_answer hok hfirst).mpr (h.atAnswer hok pre it post hfirst)
    · exact (complete_iff_of_firstPoll hfirst).mpr (h.atFirstPoll pre it post hfirst)

/-! ### Batches with one tag for each connection -/

/-- A message that touches the memory is one for WireGuard or waits for the handler client. -/
lemma waits_of_touches {ctx : NodeCtx} {it : Item} (h : entryOp ctx it ≠ .keep) :
    isReset it = false ∧ waits ctx it = (it.1.tag != .wireguard) := by
  have hreset : isReset it = false := by
    by_contra hreset
    have haction : it.1.action = .resetStat := by simpa [isReset] using hreset
    exact h (by rw [entryOp, haction])
  refine ⟨hreset, ?_⟩
  cases hwaits : waits ctx it with
  | false =>
      have htag := (acts_of_not_waits hwaits).1.resolve_right h
      rw [htag]
      rfl
  | true =>
      rcases (Bool.or_eq_true _ _).mp hwaits with hhandler | hstats
      · cases htag : it.1.tag with
        | wireguard => simp [waitsForHandler, htag, Tag.isXray] at hhandler
        | _ => rfl
      · exact absurd ((Bool.and_eq_true_iff.mp hstats).1.symm.trans hreset) (by decide)

def EntryOp.isKeep : EntryOp → Bool
  | keep => true
  | enter _ => false
  | remove => false

/-- Operations that keep the entry may be left out. -/
lemma recordLeft_filter (ops : List EntryOp) (o : Option Base) :
    recordLeft ops o = recordLeft (ops.filter fun op => !op.isKeep) o := by
  induction ops using List.reverseRecOn with
  | nil => rfl
  | append_singleton ops op ih =>
      rw [recordLeft_concat, ih, List.filter_append]
      cases op with
      | keep => rw [List.filter_cons_of_neg (by simp [EntryOp.isKeep]), List.filter_nil,
          List.append_nil, EntryOp.apply_keep, id]
      | enter c => rw [List.filter_cons_of_pos (by rfl), List.filter_nil, recordLeft_concat]
      | remove => rw [List.filter_cons_of_pos (by rfl), List.filter_nil, recordLeft_concat]

/-- The messages that touch the entry of a connection. -/
def touching (ctx : NodeCtx) (id : Uuid) (items : List Item) : List Item :=
  items.filter fun it => it.1.connId == id && !(entryOp ctx it).isKeep

lemma recordLeft_touching (ctx : NodeCtx) (id : Uuid) (items : List Item) (o : Option Base) :
    recordLeft (entryOps ctx id items) o =
      recordLeft ((touching ctx id items).map (entryOp ctx)) o := by
  rw [recordLeft_filter, entryOps, touching, List.filter_map, List.filter_filter]
  congr 2
  exact List.filter_congr fun it _ => Bool.and_comm _ _

/-- When the messages that touch an entry all stand in one lane, their order is that of the
lane. -/
lemma touching_eq_of_lane {ctx : NodeCtx} {id : Uuid} {items items' : List Item}
    {lane : Item → Bool} (hmem : ∀ it ∈ items', it ∈ items)
    (hsame : items.filter lane = items'.filter lane)
    (hin : ∀ it ∈ items, it.1.connId = id → entryOp ctx it ≠ .keep → lane it = true) :
    touching ctx id items' = touching ctx id items := by
  have hpart : ∀ us : List Item, (∀ it ∈ us, it ∈ items) →
      touching ctx id us = touching ctx id (us.filter lane) := by
    intro us hus
    rw [touching, touching, List.filter_filter]
    refine List.filter_congr fun it hit => ?_
    cases htouches : it.1.connId == id && !(entryOp ctx it).isKeep with
    | false => rfl
    | true =>
        obtain ⟨hid, hkeep⟩ := Bool.and_eq_true_iff.mp htouches
        have hop : entryOp ctx it ≠ .keep := fun heq => by simp [heq, EntryOp.isKeep] at hkeep
        rw [hin it (hus it hit) (by simpa using hid) hop]
        rfl
  rw [hpart items' hmem, hpart items fun it hit => hit, hsame]

lemma TagsAgree.tag_eq {items : List Item} (h : TagsAgree items) {it it' : Item}
    (hit : it ∈ items) (hit' : it' ∈ items) (hid : it.1.connId = it'.1.connId) :
    it.1.tag = it'.1.tag := by
  refine List.Pairwise.forall_of_forall_of_flip (fun _ _ _ => rfl) h ?_ hit hit' hid
  exact h.imp fun h' hid' => (h' hid'.symm).symm

/-- With one tag for each connection, the messages that touch an entry stand in front of one
backend. -/
lemma touching_eq {ctx : NodeCtx} {items items' : List Item} (htags : TagsAgree items)
    (hlanes : SameLanes ctx items items') (hmem : ∀ it ∈ items', it ∈ items) (id : Uuid) :
    touching ctx id items' = touching ctx id items := by
  by_cases hwg : ∃ it ∈ items, it.1.connId = id ∧ it.1.tag = .wireguard
  · obtain ⟨it₀, hit₀, hid₀, htag₀⟩ := hwg
    refine touching_eq_of_lane hmem hlanes.immediate fun it hit hid hop => ?_
    have htag : it.1.tag = .wireguard := (htags.tag_eq hit hit₀ (hid.trans hid₀.symm)).trans htag₀
    rw [(waits_of_touches hop).2, htag]
    rfl
  · refine touching_eq_of_lane hmem (handlers_eq ctx items ▸ handlers_eq ctx items' ▸
      hlanes.handlers) fun it hit hid hop => ?_
    have htag : it.1.tag ≠ .wireguard := fun htag => hwg ⟨it, hit, hid, htag⟩
    obtain ⟨hreset, hwaits⟩ := waits_of_touches hop
    rw [hwaits, hreset]
    simpa using htag

lemma recordLeft_of_tagsAgree {ctx : NodeCtx} {items items' : List Item} (htags : TagsAgree items)
    (hlanes : SameLanes ctx items items') (hmem : ∀ it ∈ items', it ∈ items) (id : Uuid)
    (o : Option Base) :
    recordLeft (entryOps ctx id items') o = recordLeft (entryOps ctx id items) o := by
  rw [recordLeft_touching, recordLeft_touching ctx id items, touching_eq htags hlanes hmem]

/-- What is cut off would change nothing where the batch ended. -/
structure CutsNothing (ctx : NodeCtx) (cut : List Item) (landings : List (List Request))
    (s : NodeState) : Prop where
  cut : handleEach ctx cut s = s
  landings : ∀ reqs ∈ landings, landAll reqs s = s

/-- When all messages leave the records that they leave in the order of the batch. -/
lemma harmless_iff_cutsNothing {ctx : NodeCtx} {items finished cut : List Item}
    {landings : List (List Request)} {s : NodeState}
    (hall : ∀ id o, recordLeft (entryOps ctx id (finished ++ cut)) o =
      recordLeft (entryOps ctx id items) o) :
    Harmless ctx items finished cut landings s ↔
      CutsNothing ctx cut landings (handleEach ctx finished s) := by
  have hcut : ∀ id, recordLeft (entryOps ctx id items) (s.memory id) =
      (handleEach ctx cut (handleEach ctx finished s)).memory id := by
    intro id
    rw [← handleEach_append, memory_handleEach, hall]
  constructor
  · rintro ⟨hrecords, hbackends, hlands⟩
    refine ⟨NodeState.ext_backends (fun id => ?_) hbackends, hlands⟩
    rw [← hcut id, ← hrecords id, ← memory_handleEach]
  · rintro ⟨hsame, hlands⟩
    refine ⟨fun id => ?_, congrArg NodeState.backends hsame, hlands⟩
    rw [hcut id, hsame, memory_handleEach]

/-- The first failure of a batch cuts off nothing that matters. -/
structure HarmlessFailure (ctx : NodeCtx) (items : List Item) (s : NodeState) : Prop where
  atFirstPoll : ∀ pre it post, FirstFailure (handle ctx) (waits ctx) items s pre it post →
    CutsNothing ctx (waiting ctx pre ++ post) (inFlight ctx pre)
      (handleEach ctx (immediate ctx pre ++ [it]) s)
  atAnswer : AllOk (handle ctx) (immediate ctx items) s → ∀ pre it post,
    FirstFailure (handle ctx) (fun _ => false) (handlers ctx items)
      (handleEach ctx (immediate ctx items) s) pre it post →
    CutsNothing ctx (post ++ resets ctx items) (partlyReset ctx items)
      (handleEach ctx (immediate ctx items ++ (pre ++ [it])) s)

/-- **The order of a batch matters only for connections with two tags**: otherwise, as in the
batches of the API, where a connection keeps its protocol, only a failure can make a difference, by
what it cuts off. -/
theorem harmlessEnd_iff_of_tagsAgree {ctx : NodeCtx} {items : List Item} {s : NodeState}
    (htags : TagsAgree items) : HarmlessEnd ctx items s ↔ HarmlessFailure ctx items s := by
  have hpoll : ∀ {pre it post}, FirstFailure (handle ctx) (waits ctx) items s pre it post →
      (Harmless ctx items (immediate ctx pre ++ [it]) (waiting ctx pre ++ post)
        (inFlight ctx pre) s ↔
        CutsNothing ctx (waiting ctx pre ++ post) (inFlight ctx pre)
          (handleEach ctx (immediate ctx pre ++ [it]) s)) := by
    intro pre it post h
    refine harmless_iff_cutsNothing
      (recordLeft_of_tagsAgree htags (sameLanes_of_firstPoll h) fun it' hit' => ?_)
    rw [h.split]
    simp only [immediate, waiting, List.mem_append, List.mem_filter, List.mem_singleton] at hit'
    rcases hit' with (hit' | rfl) | hit' | hit'
    · exact List.mem_append_left _ hit'.1
    · simp
    · exact List.mem_append_left _ hit'.1
    · exact List.mem_append_right _ (List.mem_cons_of_mem it hit')
  have hanswer : ∀ {pre it post}, FirstFailure (handle ctx) (fun _ => false) (handlers ctx items)
      (handleEach ctx (immediate ctx items) s) pre it post →
      (Harmless ctx items (immediate ctx items ++ (pre ++ [it])) (post ++ resets ctx items)
          (partlyReset ctx items) s ↔
        CutsNothing ctx (post ++ resets ctx items) (partlyReset ctx items)
          (handleEach ctx (immediate ctx items ++ (pre ++ [it])) s)) := by
    intro pre it post h
    refine harmless_iff_cutsNothing
      (recordLeft_of_tagsAgree htags (sameLanes_of_answer h) fun it' hit' => ?_)
    rw [answer_split h] at hit'
    exact mem_of_mem_lanes hit'
  constructor
  · rintro ⟨hfirst, hlater, -⟩
    exact ⟨fun pre it post h => (hpoll h).mp (hfirst pre it post h),
      fun hok pre it post h => (hanswer h).mp (hlater hok pre it post h)⟩
  · rintro ⟨hfirst, hlater⟩
    refine ⟨fun pre it post h => (hpoll h).mpr (hfirst pre it post h),
      fun hok pre it post h => (hanswer h).mpr (hlater hok pre it post h), fun _ _ id => ?_⟩
    exact recordLeft_of_tagsAgree htags (sameLanes_waiting ctx items)
      (fun _ => mem_of_mem_lanes) id _

/-- A node with all clients and two known key pairs. -/
def sampleNode : NodeCtx where
  wgClient := true
  handlerClient := true
  statsClient := true
  pubkey keys :=
    if keys.privkey = "AQEBAQEBAQEBAQEBAQEBAQEBAQEBAQEBAQEBAQEBAQE=" then
      .ok "pOCSkrZRwni5dyxWn1+puxPZBrRqtoyd+dwrRAn4ogk="
    else if keys.privkey = "AgICAgICAgICAgICAgICAgICAgICAgICAgICAgICAgI=" then
      .ok "zo060cy2M+x7cMF4FKXHbs0CloUFDTRHRboFhw5YfVk="
    else .error (.custom "Private key must be exactly 32 bytes")

/-- Creations of two WireGuard connections and of one for Xray; all calls go through. -/
def sampleItem (msg : Message) : Item := (msg, ⟨true, true, fun _ => true, 0, ""⟩)
def wgItem (id : Uuid) (privkey : String) (ip : BitVec 32) : Item :=
  sampleItem ⟨id, .create, .wireguard, some ⟨⟨privkey⟩, ⟨.v4 ip, 32⟩⟩, none, none, none, some 7⟩
def firstWg : Item := wgItem 1 "AQEBAQEBAQEBAQEBAQEBAQEBAQEBAQEBAQEBAQEBAQE=" 0x0A000002
def secondWg : Item := wgItem 2 "AgICAgICAgICAgICAgICAgICAgICAgICAgICAgICAgI=" 0x0A000003
def vmessItem : Item := sampleItem ⟨3, .create, .vmess, none, none, none, none, some 7⟩

/-- A batch in which an Xray connection waits while a WireGuard connection is
created. -/
theorem batch_complete_without_failure :
    ∀ s', HandleMessagesBatch sampleNode [vmessItem, secondWg] .empty s' →
      s' = handleEach sampleNode [vmessItem, secondWg] .empty := by
  have hpoll : AllOk (handle sampleNode) (immediate sampleNode [vmessItem, secondWg]) .empty :=
    ⟨by decide +kernel, trivial⟩
  have hanswer : AllOk (handle sampleNode) (handlers sampleNode [vmessItem, secondWg])
      (handleEach sampleNode (immediate sampleNode [vmessItem, secondWg]) .empty) :=
    ⟨by decide +kernel, trivial⟩
  refine batch_complete_iff.mpr ⟨fun pre it post h => (h.not_allOk hpoll).elim,
    fun _ pre it post h => (h.not_allOk ?_).elim, fun _ _ id => ?_⟩
  · simpa only [Bool.not_false, List.filter_true] using hanswer
  · exact recordLeft_of_tagsAgree (by decide) (sameLanes_waiting _ _) (fun _ => mem_of_mem_lanes) id none

/-- A creation for WireGuard overtakes one for Xray of the same connection. -/
example : ¬ Complete sampleNode [vmessItem, wgItem 3 "" 0x0A000002] .empty := by
  intro hcomplete
  have hrecord := congrArg (fun s : NodeState => (s.memory 3).map fun c => c.proto.proto)
    (hcomplete _ ⟨[], by decide +kernel, rfl⟩)
  exact absurd hrecord (by decide +kernel)

/-- **A peer that exists already costs the rest of its batch.** -/
theorem batch_loses_messages :
    ¬ ∀ s', HandleMessagesBatch sampleNode [firstWg, secondWg]
        (handleEach sampleNode [firstWg] .empty) s' →
      s' = handleEach sampleNode [firstWg, secondWg] (handleEach sampleNode [firstWg] .empty) := by
  intro hall
  have hstop := hall _ ⟨[], by decide +kernel, rfl⟩
  have hlost := congrArg (fun s : NodeState => (s.memory 2).isSome) hstop
  exact absurd hlost (by decide +kernel)

end Fcore
