import Fcore.Calculus.Triple
import Fcore.Runs.Restarts

/-!
What keeps an invariant of the connections through every request and tick, as long as
they run alone and nothing fails.

A request or tick does one of few things to the connections: it deletes one that it has
read, restores those of a subscription, adds one and announces it, publishes creations for
a process, or replaces the memory by the rows.  A restoration publishes, writes the row and
clears the flag in three steps, and several of them interleave; an account holds the
connections whose update is out and those whose row is restored.

* `Upkeep`: an invariant that each of these keeps, with what is known of every connection;
* `repairProtocol`: the steps of a restoration and its account;
* `Upkeep.triple_op`: every request and tick keeps such an invariant;
* `Upkeep.serial`: so does every sequence of them.
-/

namespace Fcore

open Calculus
open Calculus.Prog (perform)
open Machine (exec)

/-- The calls that touch neither the connections nor the bus. -/
def Call.isQuiet {β : Type} : Call β → Prop
  | .sql q => q.writesConnections = false
  | .bus _ => False
  | c => c.writesConnections = false

/-- A quiet call leaves the connections and the bus as they are. -/
lemma frame_of_isQuiet {β : Type} {c : Call β} (hc : c.isQuiet) {i : Input} {s s' : World} {b : β}
    (h : exec c i s = some (s', b)) : s'.memory.connections = s.memory.connections ∧
      s'.db.connections = s.db.connections ∧ s'.bus = s.bus := by
  cases c with
  | sql q =>
      obtain ⟨rfl, -⟩ := exec_sql.mp h
      exact ⟨rfl, Sql.run_connections hc i s.db, rfl⟩
  | bus p => exact hc.elim
  | guard g =>
      obtain ⟨l, -, rfl⟩ := exec_guard.mp h
      exact ⟨rfl, rfl, rfl⟩
  | mail m =>
      obtain ⟨rfl, -⟩ := exec_mail.mp h
      rw [execMail_eq]
      exact ⟨rfl, rfl, rfl⟩
  | look r =>
      obtain ⟨-, rfl, -⟩ := exec_look.mp h
      exact ⟨rfl, rfl, rfl⟩
  | ask a =>
      obtain ⟨rfl, -⟩ := exec_ask.mp h
      exact ⟨rfl, rfl, rfl⟩
  | edit w =>
      obtain ⟨-, rfl, -⟩ := exec_edit.mp h
      exact ⟨Edit.run_connections hc i s.memory, rfl, rfl⟩
  | within w =>
      obtain ⟨-, rfl, -⟩ := exec_within.mp h
      exact ⟨Edit.run_connections hc i s.memory, rfl, rfl⟩

/-- The account of a restoration: the connections whose update is out, and those whose row
is restored. -/
abbrev Repair := Multiset Uuid × Multiset Uuid

/-- An invariant that what happens to connections keeps.  `J g a s` is the invariant for what
is known, `g`, and the account `a` of a restoration; `Knows` is what `g` says of a connection,
`Draws` what the protocol of a new connection meets, `Apt` and `Hears` are conditions on
environments and on requests of processes. -/
structure Upkeep (rule : Rule Call Input World) (lower : String → String) {γ : Type}
    (J : γ → Repair → World → Prop) (Knows : γ → Uuid → Conn → Prop)
    (Draws : Proto → World → Prop) (Apt : Env → Prop) (Hears : ConnType → Prop) : Prop where
  /-- Nothing fails. -/
  goes : ∀ {β : Type} {ps : List (Prog Call Unit)} {c : Call β} {i : Input} {s : World} {b : β},
    rule β ps c i s b = true → i.ok = true
  knows : ∀ {g a s id c}, J g a s → s.memory.connections.get id = some c → Knows g id c
  frame : ∀ {g a} {s s' : World}, J g a s → s'.memory.connections = s.memory.connections →
    s'.db.connections = s.db.connections → s'.bus = s.bus → J g a s'
  deleted : ∀ {g s id c} (i : Input), J g 0 s → Knows g id c → J g 0 { s with
    db := s.db.connSetDeleted id true
    bus := (c.topic, [c.asDeleteMessage id]) :: s.bus
    memory := (Edit.run (.setDeleted id true) i s.memory).1 }
  updateOut : ∀ {g a s id c}, J g a s → Knows g id c →
    J g (a + ({id}, 0)) { s with bus := (c.topic, [c.asUpdateMessage id]) :: s.bus }
  rowRestored : ∀ {g a s id}, J g a s →
    J g (a + (0, {id})) { s with db := s.db.connSetDeleted id false }
  flagCleared : ∀ {g a s id} (i : Input), J g (a + ({id}, {id})) s →
    J g a { s with memory := (Edit.run (.setDeleted id false) i s.memory).1 }
  missing : ∀ {g a s id}, J g (a + ({id}, 0)) s → s.memory.connections.get id = none → J g a s
  synced : ∀ {g s} {es : List (Uuid × Conn)} {req : ConnType}, J g 0 s → Hears req →
    (∀ e ∈ es, s.memory.connections.get e.1 = some e.2 ∧ syncs req e.2 = true) →
    J g 0 { s with bus := (req.topic, es.map fun e => e.2.asCreateMessage e.1) :: s.bus }
  reloaded : ∀ {g s s'} {order : List Uuid} {subs : List Subscription}, J g 0 s → s'.db = s.db →
    s'.bus = s.bus → buildCache lower (s.db.connAll order) subs = .ok s'.memory → J g 0 s'
  added : ∀ {g s id c}, J g 0 s → s.db.connections.get id = none → c.isDeleted = false →
    Draws c.proto s → Apt c.env → ∃ g', J g' 0 (announced id c { s with
      db := { s.db with connections := s.db.connections.put id (ConnRow.ofConn id c).stored }
      memory := { s.memory with connections := s.memory.connections.vacant id c } })
  drawn : ∀ {s : World} {i : Input} {net : IpAddrMask} {req : ConnCreateRequest}
    {r : Except Reply Proto} {proto : Proto}, rule _ [] (.look (.prepare net req)) i s r = true →
    newProto net s.memory.connections req.proto i = .ok proto → Draws proto s
  drawnWg : ∀ {s : World} {i : Input} {net : IpAddrMask} {r : Except Reply Proto} {proto : Proto},
    rule _ [] (.look (.wgProto net)) i s r = true →
    newWgProto net s.memory.connections i = .ok proto → Draws proto s
  drawnToken : ∀ {s : World} {i : Input} {token : Uuid}, rule _ [] (.ask .uuid) i s token = true →
    i.uuid = token → Draws (.hysteria2 token) s
  drawnPassword : ∀ {s : World} (text : String),
    Draws (.shadowsocks text) s ∧ Draws (.mtproto text) s
  drawnXray : ∀ {s : World} {tag : Tag}, tag.isXray = true → tag ≠ .shadowsocks →
    Draws (.xray tag) s

/-- **The bus can be left out** of an invariant, and with it the condition on requests. -/
lemma Upkeep.forgetBus {rule : Rule Call Input World} {lower : String → String} {γ : Type}
    {J : γ → Repair → World → Prop} {Knows : γ → Uuid → Conn → Prop} {Draws : Proto → World → Prop}
    {Apt : Env → Prop} {Hears : ConnType → Prop} (U : Upkeep rule lower J Knows Draws Apt Hears)
    (hdraws : ∀ {proto s} bus, Draws proto s → Draws proto { s with bus := bus }) :
    Upkeep rule lower (fun g a s => ∃ bus, J g a { s with bus := bus }) Knows Draws Apt
      fun _ => True where
  goes := U.goes
  knows := fun ⟨_, h⟩ hget => U.knows h hget
  frame := fun ⟨bus, h⟩ hmem hdb _ => ⟨bus, U.frame h hmem hdb rfl⟩
  deleted i := by
    rintro ⟨bus, h⟩ hc
    have hdel := U.deleted i h hc
    exact ⟨_, hdel⟩
  updateOut := by
    rintro g a s id c ⟨bus, h⟩ hc
    have hout := U.updateOut h hc
    exact ⟨_, hout⟩
  rowRestored := fun ⟨bus, h⟩ => ⟨bus, U.rowRestored h⟩
  flagCleared i := fun ⟨bus, h⟩ => ⟨bus, U.flagCleared i h⟩
  missing := fun ⟨bus, h⟩ hid => ⟨bus, U.missing h hid⟩
  synced := fun ⟨bus, h⟩ _ _ => ⟨bus, h⟩
  reloaded := fun ⟨bus, h⟩ hdb _ hcache => ⟨bus, U.reloaded h hdb rfl hcache⟩
  added := by
    rintro g s id c ⟨bus, h⟩ hnone hlive hdraw hapt
    obtain ⟨g', hadded⟩ := U.added h hnone hlive (hdraws bus hdraw) hapt
    cases htopic : c.createTopic with
    | none =>
        simp only [announced, htopic] at hadded ⊢
        exact ⟨g', bus, hadded⟩
    | some topic =>
        simp only [announced, htopic] at hadded ⊢
        exact ⟨g', _, hadded⟩
  drawn := U.drawn
  drawnWg := U.drawnWg
  drawnToken := U.drawnToken
  drawnPassword := U.drawnPassword
  drawnXray := U.drawnXray

/-! ### Restorations -/

/-- The account of a restoration holds the connections whose update is out, and those whose
row is restored; a connection leaves both when its flag is cleared. -/
def repairProtocol (Knows : Uuid → Conn → Prop) : Protocol Call Repair where
  admits
    | _, .look (.toRestore _), es => ∀ e ∈ es, Knows e.1 e.2
    | _, .bus (.publish _ _), r => r = .ok ()
    | _, .sql (.connRestore _), r => r = .ok ()
    | _, _, _ => True
  may
    | _, .look _, _ => True
    | _, .ask _, _ => True
    | _, .bus (.publish topic ms), _ =>
        ∃ id c, topic = Conn.topic c ∧ ms = [c.asUpdateMessage id] ∧ Knows id c
    | _, .sql (.connRestore _), _ => True
    | _, .edit (.setDeleted _ v), _ => v = false
    | _, _, _ => False
  moves
    | _, .bus (.publish _ ms), _, a, a' => a' = a + ((ms.map Message.connId : Multiset Uuid), 0)
    | _, .look (.connection id), none, a, a' => a = a' + ({id}, 0)
    | _, .sql (.connRestore id), _, a, a' => a' = a + (0, {id})
    | _, .edit (.setDeleted id _), _, a, a' => a = a' + ({id}, {id})
    | _, _, _, a, a' => a' = a

section Repairs

variable {Knows : Uuid → Conn → Prop}

lemma repairProtocol_framed : Framed (repairProtocol Knows) where
  may := by
    intro β c a f h
    cases c with
    | edit w => cases w <;> exact h
    | sql q => cases q <;> exact h
    | bus p => cases p; exact h
    | _ => exact h
  moves := by
    intro β c b a a' f h
    have hsame : a' = a → a' + f = a + f := fun h => by rw [h]
    cases c with
    | edit w =>
        cases w with
        | setDeleted id v => exact add_frame f h
        | _ => exact hsame h
    | look r =>
        cases r with
        | connection id =>
            cases b with
            | none => exact add_frame f h
            | some c => exact hsame h
        | _ => exact hsame h
    | bus p =>
        cases p with
        | publish topic ms => exact add_frame f h
    | sql q =>
        cases q with
        | connRestore id => exact add_frame f h
        | _ => exact hsame h
    | _ => exact hsame h

lemma repairProtocol_pick : Free (repairProtocol Knows) (.ask .pick) :=
  fun _ => ⟨trivial, fun _ => rfl⟩

lemma obeys_restoreConnection (connId : Uuid) :
    Obeys (repairProtocol Knows) (fun _ a => a = 0) (restoreConnection connId) ({connId}, 0) := by
  refine ⟨trivial, fun existing _ => ?_⟩
  cases existing with
  | none => exact ⟨0, (zero_add _).symm, rfl⟩
  | some c =>
      refine ⟨_, rfl, trivial, fun r hr => ⟨_, rfl, ?_⟩⟩
      obtain rfl : r = .ok () := hr
      refine ⟨rfl, fun _ _ => ⟨0, ?_, rfl⟩⟩
      exact Prod.ext (by simp) (by simp)

lemma obeys_restoreOne {e : Uuid × Conn} (he : Knows e.1 e.2) :
    Obeys (repairProtocol Knows) (fun _ a => a = 0) (restoreOne e) 0 := by
  refine ⟨⟨e.1, e.2, rfl, rfl, he⟩, fun r hr => ⟨({e.1}, 0), (zero_add _).symm, ?_⟩⟩
  obtain rfl : r = .ok () := hr
  refine (obeys_restoreConnection e.1).bind ?_
  rintro r a rfl
  rcases r with r | st
  · exact rfl
  · cases st <;> exact rfl

/-- A restoration settles its account. -/
lemma obeys_restoreConnectionsBySubscription (subId : Uuid) :
    Obeys (repairProtocol Knows) (fun _ a => a = 0) (restoreConnectionsBySubscription subId) 0 := by
  refine ⟨trivial, fun es hes => ⟨0, rfl, ?_⟩⟩
  cases es with
  | nil => exact rfl
  | cons e es =>
      have hall : Obeys (repairProtocol Knows) (fun _ a => a = 0)
          (Prog.joinAll (.ask .pick) ((e :: es).map restoreOne)) 0 := by
        refine (Obeys.joinAll repairProtocol_framed repairProtocol_pick
          (G := fun _ _ => True) fun x hx => ?_).mono fun _ _ h => h.2
        exact (obeys_restoreOne (hes x hx)).mono fun _ _ h => ⟨trivial, h⟩
      exact hall.bind fun _ _ h => h

end Repairs

/-! ### Programs that keep what is known -/

/-- The condition of `Upkeep` on the environments and the requests of an operation. -/
def ApiOp.Meets (Apt : Env → Prop) (Hears : ConnType → Prop) : ApiOp → Prop
  | createConnection req _ => Apt req.env
  | postTrial cfg _ => ∀ env ∈ cfg.envs, Apt env
  | getConnections req => Hears req
  | _ => True

section Programs

variable {rule : Rule Call Input World} {lower : String → String} {γ : Type}
  {J : γ → Repair → World → Prop} {Knows : γ → Uuid → Conn → Prop} {Draws : Proto → World → Prop}
  {Apt : Env → Prop} {Hears : ConnType → Prop} {g : γ} {α β : Type}

/-- The program keeps the invariant and what is known. -/
def Upholds (rule : Rule Call Input World) (J : γ → Repair → World → Prop) (g : γ) {α : Type}
    (p : Api α) : Prop :=
  Triple rule (J g 0) p fun _ => J g 0

lemma Upholds.pure {x : α} : Upholds rule J g (.pure x : Api α) := Triple.pure fun _ h => h

lemma Upholds.bind {p : Api α} {f : α → Api β} (hp : Upholds rule J g p)
    (hf : ∀ x, Upholds rule J g (f x)) : Upholds rule J g (p >>= f) :=
  Triple.bind hp hf

namespace Upkeep

variable (U : Upkeep rule lower J Knows Draws Apt Hears)

include U

lemma not_mayFail : ¬ MayFail rule := by
  rintro ⟨β, c, i, s, b, hfail, hrule⟩
  rw [U.goes hrule] at hfail
  cases hfail

lemma of_quiet {p : Api α} (hp : Uses (fun _ c => c.isQuiet) p) : Upholds rule J g p :=
  Triple.of_uses hp fun hc hexec h =>
    U.frame h (frame_of_isQuiet hc hexec).1 (frame_of_isQuiet hc hexec).2.1
      (frame_of_isQuiet hc hexec).2.2

lemma call {c : Call α} {f : α → Api β} (hc : c.isQuiet) (hf : ∀ x, Upholds rule J g (f x)) :
    Upholds rule J g (perform c >>= f) := by
  have hcall : Upholds rule J g (perform c) := U.of_quiet ⟨hc, fun _ => trivial⟩
  exact hcall.bind hf

lemma upholds_deleteConnection {id : Uuid} {c : Conn} (hc : Knows g id c) :
    Upholds rule J g (deleteConnection id c) := by
  intro s s' r hexec h
  rcases exec_deleteConnection hexec with ⟨rfl, -⟩ | ⟨-, -, hfail⟩ | ⟨i, -, -, rfl⟩
  · exact h
  · exact absurd hfail U.not_mayFail
  · exact U.deleted i h hc

/-- Every step of a restoration keeps the invariant with its account. -/
lemma keepsAlone : KeepsAlone rule (repairProtocol (Knows g)) fun s a => J g a s := by
  intro β c i s s' b a hexec hrule hmay hinv
  have hok := U.goes hrule
  cases c with
  | look r =>
      obtain ⟨-, rfl, hb⟩ := exec_look.mp hexec
      cases r with
      | connection id =>
          refine ⟨trivial, fun a' hm => ?_⟩
          cases b with
          | none =>
              obtain rfl : a = a' + (({id} : Multiset Uuid), (0 : Multiset Uuid)) := hm
              exact U.missing hinv hb.symm
          | some c => rwa [show a' = a from hm]
      | toRestore sub =>
          refine ⟨fun e he => ?_, fun a' hm => by rwa [show a' = a from hm]⟩
          rw [hb] at he
          have hget := Connections.mem_getBySubscriptionId.mp (List.mem_filter.mp he).1
          exact U.knows hinv hget.1
      | _ => exact ⟨trivial, fun a' hm => by rwa [show a' = a from hm]⟩
  | bus p =>
      obtain ⟨rfl, rfl⟩ := exec_bus.mp hexec
      cases p with
      | publish topic ms =>
          obtain ⟨id, c, rfl, rfl, hc⟩ := hmay
          rw [Call.execBus, hok]
          refine ⟨rfl, fun a' hm => ?_⟩
          rw [show a' = _ from hm]
          exact U.updateOut hinv hc
  | ask q =>
      obtain ⟨rfl, -⟩ := exec_ask.mp hexec
      exact ⟨trivial, fun a' hm => by rwa [show a' = a from hm]⟩
  | sql q =>
      obtain ⟨rfl, rfl⟩ := exec_sql.mp hexec
      cases q with
      | connRestore id =>
          rw [Sql.run, hok]
          refine ⟨rfl, fun a' hm => ?_⟩
          rw [show a' = _ from hm]
          exact U.rowRestored hinv
      | _ => exact hmay.elim
  | edit w =>
      cases w with
      | setDeleted id v =>
          obtain rfl : v = false := hmay
          obtain ⟨-, rfl, -⟩ := exec_edit.mp hexec
          refine ⟨trivial, fun a' hm => ?_⟩
          obtain rfl : a = a' + (({id} : Multiset Uuid), ({id} : Multiset Uuid)) := hm
          exact U.flagCleared i hinv
      | _ => exact hmay.elim
  | _ => exact hmay.elim

lemma upholds_restoreConnectionsBySubscription (subId : Uuid) :
    Upholds rule J g (restoreConnectionsBySubscription subId) := by
  have hobeys : Obeys (repairProtocol (Knows g)) (fun _ a => a = 0)
      (restoreConnectionsBySubscription subId) 0 := obeys_restoreConnectionsBySubscription subId
  refine (Triple.of_obeys U.keepsAlone hobeys).conseq (fun _ h => h) ?_
  rintro x s ⟨a, rfl, h⟩
  exact h

/-- A program that goes on with connections it has read. -/
lemma listed {r : Look (List (Uuid × Conn))} {f : List (Uuid × Conn) → Api α}
    (hr : ∀ i m e, e ∈ r.run i m → m.connections.get e.1 = some e.2)
    (hf : ∀ es, (∀ e ∈ es, Knows g e.1 e.2) → Upholds rule J g (f es)) :
    Upholds rule J g (perform (.look r) >>= f) := by
  have hlook : Triple rule (J g 0) (perform (Call.look r))
      fun es s => J g 0 s ∧ ∀ e ∈ es, Knows g e.1 e.2 := by
    refine Triple.perform fun i s s' es hexec _ h => ?_
    obtain ⟨-, rfl, rfl⟩ := exec_look.mp hexec
    exact ⟨h, fun e he => U.knows h (hr i _ e he)⟩
  exact hlook.bind fun es => Triple.lift (hf es)

lemma upholds_deleteAll {es : List (Uuid × Conn)} (h : ∀ e ∈ es, Knows g e.1 e.2) :
    Upholds rule J g (deleteAll es) := by
  induction es with
  | nil => exact .pure
  | cons e es ih =>
      refine (U.upholds_deleteConnection (h e List.mem_cons_self)).bind fun _ => ?_
      exact ih fun e' he' => h e' (List.mem_cons_of_mem e he')

lemma upholds_cleanupExpiredConnections : Upholds rule J g cleanupExpiredConnections := by
  refine U.call rfl fun now => ?_
  refine U.listed (fun i m e he => ?_) fun es => U.upholds_deleteAll
  exact Table.mem_iter.mp (List.mem_filter.mp he).1

lemma upholds_cleanupSubs (subs : List Uuid) : Upholds rule J g (cleanupSubs subs) := by
  induction subs with
  | nil => exact .pure
  | cons sub subs ih =>
      refine U.listed (fun i m e he => ?_) fun es hes => (U.upholds_deleteAll hes).bind fun _ => ih
      exact (Connections.mem_getBySubscriptionId.mp (List.mem_filter.mp he).1).1

lemma upholds_restoreSubs (subs : List Uuid) : Upholds rule J g (restoreSubs subs) := by
  induction subs with
  | nil => exact .pure
  | cons sub subs ih => exact (U.upholds_restoreConnectionsBySubscription sub).bind fun _ => ih

lemma upholds_deleteConnectionHandler (connId : Uuid) :
    Upholds rule J g (deleteConnectionHandler connId) := by
  have hlook : Triple rule (J g 0) (perform (Call.look (.connection connId)))
      fun c s => J g 0 s ∧ ∀ conn, c = some conn → Knows g connId conn := by
    refine Triple.perform fun i s s' c hexec _ h => ?_
    obtain ⟨-, rfl, rfl⟩ := exec_look.mp hexec
    exact ⟨h, fun conn hget => U.knows h hget⟩
  refine hlook.bind fun c => Triple.lift fun hc => ?_
  cases c with
  | none => exact Upholds.pure
  | some conn =>
      show Upholds rule J g (if conn.isDeleted then _ else _)
      split_ifs
      · exact .pure
      · refine (U.upholds_deleteConnection (hc conn rfl)).bind fun r => ?_
        rcases r with e | st
        · exact .pure
        · cases st <;> exact .pure

lemma upholds_addDays (subId : Uuid) (n : ℤ) : Upholds rule J g (addDays subId n) := by
  refine U.call rfl fun wasInactive => ?_
  refine U.call rfl fun found => ?_
  cases found with
  | false => exact .pure
  | true =>
      refine U.call rfl fun r => ?_
      cases r with
      | error e => exact .pure
      | ok row =>
          cases wasInactive with
          | false => exact .pure
          | true => exact (U.upholds_restoreConnectionsBySubscription subId).bind fun _ => .pure

lemma upholds_getConnectionsHandler {req : ConnType} (hreq : Hears req) :
    Upholds rule J g (getConnectionsHandler req) := by
  refine U.call rfl fun _ => ?_
  have hlook : Triple rule (J g 0) (perform (Call.look (.toSync req)))
      fun es s => J g 0 s ∧
        ∀ e ∈ es, s.memory.connections.get e.1 = some e.2 ∧ syncs req e.2 = true := by
    refine Triple.perform fun i s s' es hexec _ h => ?_
    obtain ⟨-, rfl, rfl⟩ := exec_look.mp hexec
    refine ⟨h, fun e he => ?_⟩
    obtain ⟨hmem, hsyncs⟩ := List.mem_filter.mp he
    exact ⟨Table.mem_iter.mp hmem, hsyncs⟩
  refine Triple.bind hlook fun es => ?_
  cases es with
  | nil =>
      refine Triple.conseq ?_ (fun _ h => h.1) fun _ _ h => h
      exact U.call rfl fun _ => .pure
  | cons e es =>
      have hpublish : Triple rule (fun s => J g 0 s ∧ ∀ e' ∈ e :: es,
            s.memory.connections.get e'.1 = some e'.2 ∧ syncs req e'.2 = true)
          (perform (Call.bus (.publish req.topic ((e :: es).map fun e => e.2.asCreateMessage e.1))))
          fun _ => J g 0 := by
        refine Triple.perform fun i s s' r hexec hrule h => ?_
        obtain ⟨rfl, -⟩ := exec_bus.mp hexec
        rw [Call.execBus, U.goes hrule]
        exact U.synced h.1 hreq h.2
      refine hpublish.bind fun r => ?_
      cases r with
      | error err => exact U.call rfl fun _ => .pure
      | ok u => exact U.call rfl fun _ => .pure

lemma upholds_getStateFromDb : Upholds rule J g (getStateFromDb lower) := by
  intro s s' r hexec h
  obtain ⟨hdb, hbus, ⟨-, hmem⟩ | ⟨-, i, order, l, -, hcache⟩⟩ := exec_getStateFromDb hexec
  · exact U.frame h (by rw [hmem]) (by rw [hdb]) hbus
  · exact U.reloaded h hdb hbus hcache

/-! #### Requests that touch subscriptions, keys and identities only -/

lemma upholds_of_sub {p : Api α} (hp : Uses SubCall p) : Upholds rule J g p := by
  refine U.of_quiet (hp.mono fun β c hc => ?_)
  cases hc <;> exact rfl

lemma upholds_of_key {p : Api α} (hp : Uses KeyCall p) : Upholds rule J g p := by
  refine U.of_quiet (hp.mono fun β c hc => ?_)
  cases hc <;> exact rfl

lemma upholds_of_mail {p : Api α} (hp : Uses MailCall p) : Upholds rule J g p := by
  refine U.of_quiet (hp.mono fun β c hc => ?_)
  cases hc
  exact rfl

lemma upholds_postSubscriptionHandler (req : SubReq) (bonus : ℤ) (codes : List String) :
    Upholds rule J g (postSubscriptionHandler req bonus codes) := by
  refine U.call rfl fun subId => ?_
  refine (U.upholds_of_sub (uses_referral _ _ _ _)).bind fun r => ?_
  cases r with
  | error r => exact .pure
  | ok owner =>
      refine Upholds.bind ?_ fun credited => ?_
      · cases owner with
        | none => exact .pure
        | some owner => exact U.upholds_addDays owner.1 bonus
      · cases credited with
        | error e => exact .pure
        | ok st =>
            refine U.call rfl fun now => U.call rfl fun created => ?_
            refine (U.upholds_of_sub (uses_addSub _)).bind fun r => ?_
            rcases r with e | st
            · exact .pure
            · cases st <;> exact .pure

lemma upholds_postActivateKeyHandler (req : ActivateKeyReq) :
    Upholds rule J g (postActivateKeyHandler req) := by
  refine U.call rfl fun key => ?_
  cases key with
  | none => exact .pure
  | some key =>
      show Upholds rule J g (if key.activated then _ else _)
      split_ifs
      · exact .pure
      · refine (U.upholds_addDays _ _).bind fun r => ?_
        rcases r with e | st
        · exact .pure
        · cases st with
          | updated id =>
              refine U.call rfl fun now => U.call rfl fun r => ?_
              cases r <;> exact .pure
          | _ => exact .pure

end Upkeep

/-! ### Creations -/

/-- The invariant, for what is known of the connections that there are. -/
def Upkept (J : γ → Repair → World → Prop) (s : World) : Prop := ∃ g, J g 0 s

/-- After an addition: a connection that was stored is still to be announced. -/
def Stored (J : γ → Repair → World → Prop) (id : Uuid) (c : Conn) :
    Except SyncError Status → World → Prop
  | .ok (.ok _), s => Upkept J (announced id c s)
  | _, s => Upkept J s

lemma Upholds.upkept {p : Api α} (h : ∀ g, Upholds rule J g p) :
    Triple rule (Upkept J) p fun _ => Upkept J := by
  rintro s s' x hexec ⟨g, hs⟩
  exact ⟨g, h g hexec hs⟩

/-- What is drawn changes nothing. -/
lemma triple_draw {P : World → Prop} (a : Ask α) :
    Triple rule P (perform (.ask a)) fun _ => P := by
  refine Triple.perform fun i s s' b hexec _ h => ?_
  obtain ⟨rfl, -⟩ := exec_ask.mp hexec
  exact h

namespace Upkeep

variable (U : Upkeep rule lower J Knows Draws Apt Hears)

include U

lemma triple_addConn {id : Uuid} {c : Conn} (hlive : c.isDeleted = false) (hapt : Apt c.env) :
    Triple rule (fun s => Upkept J s ∧ Draws c.proto s) (addConn id c) (Stored J id c) := by
  rintro s s' r hexec ⟨⟨g, h⟩, hdraws⟩
  rcases exec_addConn hexec with ⟨rfl, e, rfl⟩ | ⟨hnone, rfl, rfl⟩
  · exact ⟨g, h⟩
  · exact U.added h hnone hlive hdraws hapt

lemma triple_publishCreated {id : Uuid} {c : Conn} :
    Triple rule (fun s => Upkept J (announced id c s)) (publishCreated id c) fun _ => Upkept J := by
  intro s s' u hexec h
  rcases exec_publishCreated hexec with rfl | ⟨-, hfail⟩
  · exact h
  · exact absurd hfail U.not_mayFail

/-- The creation of a connection, from its protocol on. -/
lemma triple_create {env : Env} {sub : Option Uuid} {proto : Proto} {expiresAt : Option DateTime}
    {f : DateTime → Uuid → Except SyncError Status → Api α} (hapt : Apt env)
    (hf : ∀ now id r, Triple rule (Stored J id (Conn.new env sub proto expiresAt now) r)
      (f now id r) fun _ => Upkept J) :
    Triple rule (fun s => Upkept J s ∧ Draws proto s)
      (perform (.ask .now) >>= fun now => perform (.ask .uuid) >>= fun id =>
        addConn id (Conn.new env sub proto expiresAt now) >>= f now id) fun _ => Upkept J := by
  refine (triple_draw .now).bind fun now => (triple_draw .uuid).bind fun id => ?_
  exact (U.triple_addConn rfl hapt).bind (hf now id)

lemma triple_trialProto (net : IpAddrMask) (tag : Tag) :
    Triple rule (Upkept J) (trialProto net tag)
      fun r s => Upkept J s ∧ ∀ proto, r = .ok proto → Draws proto s := by
  cases tag with
  | wireguard =>
      refine Triple.perform fun i s s' r hexec hrule h => ?_
      obtain ⟨-, rfl, rfl⟩ := exec_look.mp hexec
      exact ⟨h, fun proto hproto => U.drawnWg hrule hproto⟩
  | shadowsocks =>
      refine (triple_draw .password).bind fun password => Triple.pure fun s h => ⟨h, ?_⟩
      rintro proto ⟨⟩
      exact (U.drawnPassword password).1
  | mtproto =>
      refine (triple_draw .password).bind fun password => Triple.pure fun s h => ⟨h, ?_⟩
      rintro proto ⟨⟩
      exact (U.drawnPassword password).2
  | hysteria2 =>
      have hdraw : Triple rule (Upkept J) (perform (.ask .uuid))
          fun token s => Upkept J s ∧ Draws (.hysteria2 token) s := by
        refine Triple.perform fun i s s' token hexec hrule h => ?_
        obtain ⟨rfl, rfl⟩ := exec_ask.mp hexec
        exact ⟨h, U.drawnToken hrule rfl⟩
      refine hdraw.bind fun token => Triple.pure fun s h => ⟨h.1, ?_⟩
      rintro proto ⟨⟩
      exact h.2
  | vlessTcpReality | vlessGrpcReality | vlessXhttpReality | vmess =>
      refine Triple.pure fun s h => ⟨h, ?_⟩
      rintro proto ⟨⟩
      exact U.drawnXray rfl (by decide)

lemma triple_trialConns (net : IpAddrMask) (subId : Uuid) {pairs : List (Env × Tag)}
    (hapt : ∀ pair ∈ pairs, Apt pair.1) :
    Triple rule (Upkept J) (trialConns net subId pairs) fun _ => Upkept J := by
  induction pairs with
  | nil => exact Triple.pure fun _ h => h
  | cons pair rest ih =>
      obtain ⟨env, tag⟩ := pair
      have hrest := ih fun pair hpair => hapt pair (List.mem_cons_of_mem _ hpair)
      refine (U.triple_trialProto net tag).bind fun r => ?_
      cases r with
      | error r => exact Triple.pure fun _ h => h.1
      | ok proto =>
          refine Triple.conseq (P := fun s => Upkept J s ∧ Draws proto s) ?_
            (fun s h => ⟨h.1, h.2 proto rfl⟩) fun _ _ h => h
          refine U.triple_create (hapt (env, tag) List.mem_cons_self) fun now id r => ?_
          rcases r with e | st
          · exact hrest
          · cases st with
            | ok _ => exact U.triple_publishCreated.bind fun _ => hrest
            | _ => exact hrest

lemma triple_createTrial {cfg : TrialConfig} (hapt : ∀ env ∈ cfg.envs, Apt env) (req : Trial)
    (subId : Uuid) : Triple rule (Upkept J) (createTrial cfg req subId) fun _ => Upkept J := by
  have hpairs : ∀ pair ∈ cfg.pairs, Apt pair.1 := by
    intro pair hpair
    obtain ⟨env, henv, hpair⟩ := List.mem_flatMap.mp hpair
    obtain ⟨tag, -, rfl⟩ := List.mem_map.mp hpair
    exact hapt env henv
  refine (triple_draw .now).bind fun now => (triple_draw .now).bind fun created => ?_
  refine (Upholds.upkept fun _ => U.upholds_of_sub (uses_addSub _)).bind fun r => ?_
  rcases r with e | st
  · exact Triple.pure fun _ h => h
  · cases st with
    | ok newSubId =>
        refine (U.triple_trialConns cfg.net newSubId hpairs).bind fun r => ?_
        cases r with
        | error r => exact Triple.pure fun _ h => h
        | ok u =>
            have hsave : ∀ email id time refBy, Triple rule (Upkept J)
                (saveTrialHmac cfg email id time refBy) fun _ => Upkept J :=
              fun email id time refBy => Upholds.upkept fun _ =>
                U.upholds_of_mail (uses_saveTrialHmac cfg email id time refBy)
            refine (hsave _ _ _ _).bind fun _ => (hsave _ _ _ _).bind fun _ => ?_
            exact Triple.pure fun _ h => h
    | _ => exact Triple.pure fun _ h => h

lemma triple_grantTrial {cfg : TrialConfig} (hapt : ∀ env ∈ cfg.envs, Apt env) (req : Trial) :
    Triple rule (Upkept J) (grantTrial cfg req) fun _ => Upkept J := by
  refine (triple_draw .uuid).bind fun subId => ?_
  refine (Upholds.upkept fun _ => U.upholds_of_sub (uses_referral _ _ _ _)).bind fun r => ?_
  rcases r with r | owner
  · exact Triple.pure fun _ h => h
  · cases owner with
    | none => exact U.triple_createTrial hapt req subId
    | some owner =>
        refine (Upholds.upkept fun _ => U.upholds_addDays owner.1 owner.2).bind fun r => ?_
        cases r with
        | error e => exact Triple.pure fun _ h => h
        | ok st => exact U.triple_createTrial hapt req subId

lemma triple_postTrialHandler {cfg : TrialConfig} (hapt : ∀ env ∈ cfg.envs, Apt env)
    (req : Trial) : Triple rule (Upkept J) (postTrialHandler cfg req) fun _ => Upkept J := by
  rw [postTrialHandler]
  cases req.validate with
  | error e => exact Triple.pure fun _ h => h
  | ok u =>
      have hcheck : ∀ email, Triple rule (Upkept J) (checkEmailHmac cfg.hmac email)
          fun _ => Upkept J := fun email => Upholds.upkept fun _ =>
        U.upholds_of_mail (uses_checkEmailHmac cfg.hmac email)
      refine (hcheck req.user).bind fun known => ?_
      cases known with
      | true => exact Triple.pure fun _ h => h
      | false =>
          refine (hcheck req.email).bind fun known => ?_
          cases known with
          | true => exact Triple.pure fun _ h => h
          | false => exact (U.triple_grantTrial hapt req).bind fun _ => Triple.pure fun _ h => h

/-- The protocol of a new connection. -/
lemma triple_prepare (net : IpAddrMask) (req : ConnCreateRequest) :
    Triple rule (Upkept J) (perform (.look (.prepare net req)))
      fun r s => Upkept J s ∧ ∀ proto, r = .ok proto → Draws proto s := by
  refine Triple.perform fun i s s' r hexec hrule h => ?_
  obtain ⟨-, rfl, rfl⟩ := exec_look.mp hexec
  refine ⟨h, fun proto hproto => U.drawn hrule ?_⟩
  simp only [Look.run] at hproto
  split at hproto
  · cases hproto
  · exact hproto

lemma triple_createConnectionHandler {req : ConnCreateRequest} (hapt : Apt req.env)
    (net : IpAddrMask) :
    Triple rule (Upkept J) (createConnectionHandler req net) fun _ => Upkept J := by
  have hexpiry : Triple rule (Upkept J) (expiryOf req.days) fun _ => Upkept J := by
    intro s s' r hexec h
    rwa [state_of_expiryOf hexec]
  refine hexpiry.bind fun expiredAt => (U.triple_prepare net req).bind fun r => ?_
  cases r with
  | error r => exact Triple.pure fun _ h => h.1
  | ok proto =>
      refine Triple.conseq (P := fun s => Upkept J s ∧ Draws proto s) ?_
        (fun s h => ⟨h.1, h.2 proto rfl⟩) fun _ _ h => h
      refine U.triple_create hapt fun now id r => ?_
      rcases r with e | st
      · exact Triple.pure fun _ h => h
      · cases st with
        | ok _ => exact U.triple_publishCreated.bind fun _ => Triple.pure fun _ h => h
        | _ => exact Triple.pure fun _ h => h

/-! ### Requests and ticks -/

/-- Every operation keeps the invariant. -/
lemma triple_op {op : ApiOp} (hop : op.Meets Apt Hears) :
    Triple rule (Upkept J) (op.prog lower) fun _ => Upkept J := by
  cases op with
  | createConnection req net => exact (U.triple_createConnectionHandler hop net).forget
  | postTrial cfg req => exact (U.triple_postTrialHandler hop req).forget
  | deleteConnection connId =>
      exact (Upholds.upkept fun _ => U.upholds_deleteConnectionHandler connId).forget
  | getConnections req =>
      exact (Upholds.upkept fun _ => U.upholds_getConnectionsHandler hop).forget
  | postSubscription req bonus codes =>
      exact (Upholds.upkept fun _ => U.upholds_postSubscriptionHandler req bonus codes).forget
  | putSubscription subId req =>
      exact (Upholds.upkept fun _ =>
        U.upholds_of_sub (uses_putSubscriptionHandler subId req)).forget
  | postKey crates T secret random req =>
      exact (Upholds.upkept fun _ =>
        U.upholds_of_key (uses_postKeyHandler crates T secret random req)).forget
  | postActivateKey req =>
      exact (Upholds.upkept fun _ => U.upholds_postActivateKeyHandler req).forget
  | cleanupExpiredConnections =>
      exact Upholds.upkept fun _ => U.upholds_cleanupExpiredConnections
  | cleanupExpiredSubscriptions =>
      exact Upholds.upkept fun _ => U.call rfl U.upholds_cleanupSubs
  | restoreSubscriptions => exact Upholds.upkept fun _ => U.call rfl U.upholds_restoreSubs
  | getStateFromDb => exact (Upholds.upkept fun _ => U.upholds_getStateFromDb).forget

/-- **Every sequence of operations keeps the invariant.** -/
lemma serial {ops : List ApiOp} {s s' : World}
    (hrun : Serial rule (ApiOp.prog lower) s ops s') (hops : ∀ op ∈ ops, op.Meets Apt Hears)
    (h : Upkept J s) : Upkept J s' :=
  hrun.of_triple_mem (fun op hop => U.triple_op (hops op hop)) h

end Upkeep

end Programs

end Fcore
