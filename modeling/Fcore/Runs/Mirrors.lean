import Fcore.Runs.ProcessMirror

/-!
A process beside the API: a start without a snapshot, and then whatever happens at the API
(`run` of both services, `get_connections_handler`, the handlers and ticks of the API).

* `Service.steady`: a process whose backend calls for the tags of its inbounds go through;
* `Service.Mirrors`: the process has the connections that are there; `Mirrors.told`,
  `Mirrors.batch`: what it has after a message and after a batch of creations;
* `Mirrors.follows`: a process that handles every publication that it hears, once and in
  order, has the connections of which it has last heard that they are there;
* `Mirrors.sync`: after its start a process has the live connections;
* `Follows.view_eq`, `Follows.peers_iff`, `Follows.users_eq`, `node_mirrors`: so it has after
  everything that happens then, and so have the WireGuard interface and Xray of a node;
* `Follows.append`: a process that follows the API follows what happens next.
-/

namespace Fcore

open Calculus
open Machine (exec)

/-! ### Processes whose calls go through -/

/-- A process whose backend calls for the tags of its inbounds go through. -/
def Service.steady : Service → Process
  | node ctx inbounds env uuid =>
      { nodeProcess ctx inbounds env uuid with
        Handle := fun msgs s s' => ∃ items : List Item, items.map Prod.fst = msgs ∧
          (∀ it ∈ items, it.1.tag ∈ inbounds → it.2.ok = true) ∧ HandleMessagesBatch ctx items s s'
        handle_creations := fun ⟨items, hmsgs, _, hbatch⟩ hcreate =>
          (nodeProcess ctx inbounds env uuid).handle_creations ⟨items, hmsgs, hbatch⟩ hcreate }
  | auth env uuid => authProcess env uuid

/-- The publications that a process handles. -/
def Service.heeds (svc : Service) (e : Topic × List Message) : Bool := svc.steady.hears e.1

/-- The instance id of a process. -/
def Service.uuid : Service → Uuid
  | node _ _ _ uuid => uuid
  | auth _ uuid => uuid

/-- A process in which nothing is left of an earlier run, and which finds no snapshot. -/
def Service.Blank : (svc : Service) → svc.steady.State → Prop
  | node _ _ _ _, (s : NodeState) => s.memory = (fun _ => none) ∧ s.peers = (fun _ => none) ∧
      s.users = fun _ => none
  | auth _ _, (t : Connections Base) => t = ∅

/-- The clients of a node fit its inbounds. -/
def Service.Equipped : Service → Prop
  | node ctx inbounds _ _ => Fcore.Equipped ctx inbounds
  | auth _ _ => True

/-- What the process has of a connection; a node may keep connections for which it has no
inbound, and these do not count. -/
def Service.view : (svc : Service) → svc.steady.State → Uuid → Option Kept
  | node _ inbounds _ _, (s : NodeState), id =>
      ((s.memory id).filter fun b => inbounds.contains b.proto.proto).map Base.kept
  | auth _ _, (t : Connections Base), id => (t.get id).map Base.kept

/-! ### The mirror of the auth service -/

/-- The memory of the auth service is that of the connections that are there. -/
structure AuthMirror (there : Uuid → Bool) (core : Uuid → Option Conn) (t : Connections Base) :
    Prop where
  real : ∀ {id}, there id = true → ∃ c, core id = some c ∧ c.proto.token.isSome = true
  kept : ∀ {id b}, t.get id = some b → ∃ c, core id = some c ∧ c.proto.isMtproto = false ∧
    b.kept = c.kept
  held : ∀ id, (t.get id).isSome ↔ there id = true

section Auth

variable {there : Uuid → Bool} {core : Uuid → Option Conn} {t : Connections Base} {id : Uuid}
  {c : Conn} {act : Action}

lemma Proto.eq_of_token {p : Proto} {token : Uuid} (h : p.token = some token) :
    p = .hysteria2 token := by
  cases p with
  | hysteria2 token' => rw [Option.some.inj h]
  | wireguard | shadowsocks | xray | mtproto => cases h

/-- A message keeps the mirror. -/
lemma AuthMirror.told (h : AuthMirror there core t) (hc : Known core id c)
    (htoken : c.proto.token.isSome = true) (hact : act ≠ .resetStat) (now : DateTime) :
    AuthMirror (fun id' => if id' = id then act.tells (there id) else there id') core
      (authHandleMessage (c.asMessage act id) now t) := by
  obtain ⟨token, htok⟩ := Option.isSome_iff_exists.mp htoken
  have hproto := Proto.eq_of_token htok
  have hmt : c.proto.isMtproto = false := by rw [hproto]; rfl
  have hcore : c.core.proto.isMtproto = false := by simp only [Conn.core, hmt]; exact hmt
  -- creations and updates add the connection if it is not there
  have hadd : AuthMirror (fun id' => if id' = id then true else there id') core
      (t.add id ((c.asMessage act id).toBase (.hysteria2 token) now)).1 := by
    have hget : ∀ id', (t.add id ((c.asMessage act id).toBase (.hysteria2 token) now)).1.get id' =
        if id' = id then some ((t.get id).getD ((c.asMessage act id).toBase c.proto now))
        else t.get id' := by
      intro id'
      rw [hproto]
      exact Table.get_vacant t id id' _
    constructor
    · intro id' hthere
      split_ifs at hthere with hid
      · exact ⟨c.core, hid ▸ hc, by rw [Conn.core_token]; exact htoken⟩
      · exact h.real hthere
    · intro id' b hb
      rw [hget] at hb
      split_ifs at hb with hid
      · subst hid
        cases hold : t.get id' with
        | some b₀ =>
            rw [hold, Option.getD_some] at hb
            exact h.kept (hold.trans hb)
        | none =>
            rw [hold, Option.getD_none] at hb
            refine ⟨c.core, hc, hcore, ?_⟩
            rw [← Option.some.inj hb, kept_toBase, Conn.kept_core hmt]
      · exact h.kept hb
    · intro id'
      rw [hget]
      split_ifs
      · simp
      · exact h.held id'
  cases act with
  | resetStat => exact absurd rfl hact
  | create | update =>
      simp only [authHandleMessage, Conn.asMessage, htok, Action.tells]
      exact hadd
  | delete =>
      have hget : ∀ id', (authHandleMessage (c.asMessage .delete id) now t).get id' =
          if id' = id then none else t.get id' := by
        intro id'
        simp only [authHandleMessage, Conn.asMessage, Connections.remove]
        cases hold : t.get id with
        | none =>
            split_ifs with hid
            · rw [hid]
              exact hold
            · rfl
        | some b => exact Table.get_drop t id id'
      constructor
      · intro id' hthere
        split_ifs at hthere
        · cases hthere
        · exact h.real hthere
      · intro id' b hb
        rw [hget] at hb
        split_ifs at hb
        exact h.kept hb
      · intro id'
        rw [hget]
        split_ifs
        · simp [Action.tells]
        · exact h.held id'

/-- Creations one after the other. -/
lemma AuthMirror.arrivals {items : List (Message × DateTime)} (h : AuthMirror there core t)
    (hitems : ∀ it ∈ items, ∃ c, it.1 = c.asMessage .create it.1.connId ∧
      Known core it.1.connId c ∧ c.proto.token.isSome = true) :
    AuthMirror (fun id => there id || ((items.map Prod.fst).map Message.connId).contains id) core
      (authHandleMessagesBatch items t) := by
  induction items generalizing there t with
  | nil =>
      have hsame : (fun id => there id || (List.map Message.connId
          (List.map Prod.fst ([] : List (Message × DateTime)))).contains id) = there :=
        funext fun id => by simp
      rw [hsame]
      exact h
  | cons it items ih =>
      obtain ⟨c, hmsg, hc, htoken⟩ := hitems it List.mem_cons_self
      have hone := h.told hc htoken (show Action.create ≠ .resetStat by decide) it.2
      rw [← hmsg] at hone
      have hrest := ih hone fun it' hit' => hitems it' (List.mem_cons_of_mem it hit')
      have hsame : (fun id => (if id = it.1.connId then Action.create.tells (there it.1.connId)
          else there id) || ((items.map Prod.fst).map Message.connId).contains id) =
          fun id => there id || (((it :: items).map Prod.fst).map Message.connId).contains id := by
        funext id
        by_cases hid : id = it.1.connId
        · simp [hid, Action.tells]
        · have hbeq : (id == it.1.connId) = false := beq_eq_false_iff_ne.mpr hid
          simp [hid, hbeq]
      rw [hsame] at hrest
      exact hrest

end Auth

/-! ### The mirror of a process -/

/-- The process has the connections that are there. -/
def Service.Mirrors : (svc : Service) → (Uuid → Bool) → (Uuid → Option Conn) →
    svc.steady.State → Prop
  | node ctx inbounds env _, there, core, s => NodeMirror ctx inbounds env there core s
  | auth _ _, there, core, t => AuthMirror there core t

section Mirror

variable {svc : Service} {there : Uuid → Bool} {core core' : Uuid → Option Conn}
  {s s' : svc.steady.State}

lemma Service.heeds_iff {topic : Topic} {ms : List Message} :
    svc.heeds (topic, ms) = true ↔ topic = svc.topic ∨ topic = .init svc.uuid := by
  cases svc with
  | node ctx inbounds env uuid =>
      show (topic == .updates env || topic == .init uuid) = true ↔ _
      rw [Bool.or_eq_true, beq_iff_eq, beq_iff_eq]
      rfl
  | auth env uuid =>
      show (topic == .auth || topic == .init uuid) = true ↔ _
      rw [Bool.or_eq_true, beq_iff_eq, beq_iff_eq]
      rfl

/-- A process with nothing in it. -/
lemma Service.Blank.mirrors (h : svc.Blank s) (core : Uuid → Option Conn) :
    svc.Mirrors (fun _ => false) core s := by
  cases svc with
  | node ctx inbounds env uuid =>
      obtain ⟨hmemory, hpeers, husers⟩ := h
      constructor
      · exact fun hthere => absurd hthere Bool.false_ne_true
      · intro id b hb
        rw [hmemory] at hb
        cases hb
      · intro id c _ _
        rw [hmemory]
        simp
      · intro _ pk addr
        rw [hpeers]
        simp
      · intro id tag _ _
        rw [husers]
        rfl
  | auth env uuid =>
      obtain rfl : s = (∅ : Connections Base) := h
      constructor
      · exact fun hthere => absurd hthere Bool.false_ne_true
      · intro id b hb
        cases hb
      · intro id
        exact iff_of_false Bool.false_ne_true Bool.false_ne_true

/-- More is known of connections that are not there. -/
lemma Service.Mirrors.mono (h : svc.Mirrors there core s)
    (hle : ∀ {id c}, core id = some c → core' id = some c) : svc.Mirrors there core' s := by
  cases svc with
  | node ctx inbounds env uuid =>
      obtain ⟨hreal, hkept, hheld, hpeers, husers⟩ := h
      constructor
      · intro id hthere
        obtain ⟨c, hc, hserves⟩ := hreal hthere
        exact ⟨c, hle hc, hserves⟩
      · intro id b hb
        obtain ⟨c, hc, hrest⟩ := hkept hb
        exact ⟨c, hle hc, hrest⟩
      · intro id c hc hserves
        cases hcore : core id with
        | some c' =>
            obtain rfl := Option.some.inj ((hle hcore).symm.trans hc)
            exact hheld hcore hserves
        | none =>
            -- nothing is known of it, so it is neither in memory nor there
            refine iff_of_false (fun hsome => ?_) fun hthere => ?_
            · obtain ⟨b, hb⟩ := Option.isSome_iff_exists.mp hsome
              obtain ⟨c', hc', -⟩ := hkept hb
              rw [hcore] at hc'
              cases hc'
            · obtain ⟨c', hc', -⟩ := hreal hthere
              rw [hcore] at hc'
              cases hc'
      · intro hwg pk addr
        rw [hpeers hwg pk addr]
        constructor
        · rintro ⟨id, c, wg, hthere, hc, hrest⟩
          exact ⟨id, c, wg, hthere, hle hc, hrest⟩
        · rintro ⟨id, c, wg, hthere, hc, hrest⟩
          obtain ⟨c', hc', -⟩ := hreal hthere
          obtain rfl := Option.some.inj ((hle hc').symm.trans hc)
          exact ⟨id, c', wg, hthere, hc', hrest⟩
      · intro id tag htag hxray
        rw [husers id tag htag hxray]
        cases hthere : there id with
        | false => rfl
        | true =>
            obtain ⟨c, hc, -⟩ := hreal hthere
            rw [if_pos rfl, if_pos rfl, hc, hle hc]
  | auth env uuid =>
      obtain ⟨hreal, hkept, hheld⟩ := h
      constructor
      · intro id hthere
        obtain ⟨c, hc, htoken⟩ := hreal hthere
        exact ⟨c, hle hc, htoken⟩
      · intro id b hb
        obtain ⟨c, hc, hrest⟩ := hkept hb
        exact ⟨c, hle hc, hrest⟩
      · exact hheld

/-- **One message of a connection** on the topic of the process. -/
lemma Service.Mirrors.told (h : svc.Mirrors there core s) (hequip : svc.Equipped)
    (hkeys : svc.KeysApart core) {id : Uuid} {c : Conn} (htagged : c.proto.wellTagged = true)
    (hc : Known core id c) (htopic : c.topic = svc.topic) {act : Action} (hact : act ≠ .resetStat)
    (hhandle : svc.steady.Handle [c.asMessage act id] s s') :
    svc.Mirrors (fun id' => if id' = id ∧ svc.serves c = true then act.tells (there id)
      else there id') core s' := by
  cases svc with
  | node ctx inbounds env uuid =>
      obtain ⟨items, hmsgs, hok, hbatch⟩ := hhandle
      obtain ⟨it, rfl, hit⟩ : ∃ it, items = [it] ∧ it.1 = c.asMessage act id := by
        obtain ⟨it, hitems, hit⟩ := List.map_eq_singleton_iff.mp hmsgs
        exact ⟨it, hitems, hit⟩
      obtain rfl := handleMessagesBatch_singleton hbatch (by rw [hit]; exact hact)
      rw [hit]
      refine (NodeMirror.told h hequip hkeys htagged hc (Conn.topic_eq_updates.mp htopic).2 hact
        fun hin => hok it (List.mem_singleton_self it) ?_).1
      rw [hit]
      exact hin
  | auth env uuid =>
      obtain ⟨items, hmsgs, rfl⟩ := hhandle
      obtain ⟨⟨m, now⟩, rfl, hit⟩ := List.map_eq_singleton_iff.mp hmsgs
      obtain rfl : m = c.asMessage act id := hit
      have htoken : c.proto.token.isSome = true := Conn.topic_eq_auth.mp htopic
      have hserves : (auth env uuid).serves c = true := htoken
      have hone := AuthMirror.told h hc htoken hact now
      simp only [hserves, and_true]
      exact hone

/-- The creation of a connection that the process serves and that is not there. -/
structure Arrives (svc : Service) (core : Uuid → Option Conn) (there : Uuid → Bool)
    (m : Message) : Prop where
  conn : ∃ c, m = c.asMessage .create m.connId ∧ Known core m.connId c ∧
    c.proto.wellTagged = true ∧ svc.serves c = true
  new : there m.connId = false

/-- **A batch of creations** of connections that are not there. -/
lemma Service.Mirrors.batch (h : svc.Mirrors there core s) (hequip : svc.Equipped)
    (hkeys : svc.KeysApart core) {ms : List Message} (hms : ∀ m ∈ ms, Arrives svc core there m)
    (hnodup : (ms.map Message.connId).Nodup) (hhandle : svc.steady.Handle ms s s') :
    svc.Mirrors (fun id => there id || (ms.map Message.connId).contains id) core s' := by
  cases svc with
  | node ctx inbounds env uuid =>
      obtain ⟨items, rfl, hok, hbatch⟩ := hhandle
      rw [List.map_map] at hnodup ⊢
      refine NodeMirror.batch h hequip hkeys (fun it hit => ?_) hnodup hbatch
      obtain ⟨⟨c, hmsg, hc, htagged, hserves⟩, hnew⟩ := hms it.1 (List.mem_map_of_mem hit)
      refine ⟨⟨c, hmsg, hc, htagged, hserves⟩, hnew, hok it hit ?_⟩
      rw [hmsg]
      exact (serves_node hserves).2.2
  | auth env uuid =>
      obtain ⟨items, rfl, rfl⟩ := hhandle
      refine AuthMirror.arrivals h fun it hit => ?_
      obtain ⟨c, hmsg, hc, -, hserves⟩ := (hms it.1 (List.mem_map_of_mem hit)).conn
      exact ⟨c, hmsg, hc, hserves⟩

/-- **A process that handles every publication that it hears**, once and in order, has the
connections of which it has last heard that they are there. -/
lemma Service.Mirrors.follows {es : List (Topic × List Message)}
    {bus : List (Topic × List Message)} (h : svc.Mirrors (fun id => svc.heard id bus) core s)
    (hequip : svc.Equipped) (hkeys : svc.KeysApart core)
    (htagged : ∀ {id c}, core id = some c → c.proto.wellTagged = true)
    (hes : ∀ e ∈ es, Told svc (some svc.uuid) core e)
    (hreceives : Receives svc.steady (es.filter svc.heeds) s s') :
    svc.Mirrors (fun id => svc.heard id (es.reverse ++ bus)) core s' := by
  induction es generalizing bus s with
  | nil =>
      cases hreceives
      exact h
  | cons e es ih =>
      have hrest : ∀ e' ∈ es, Told svc (some svc.uuid) core e' := fun e' he' =>
        hes e' (List.mem_cons_of_mem e he')
      have hold := hes e List.mem_cons_self
      rw [List.reverse_cons, List.append_assoc, List.singleton_append]
      obtain ⟨topic, ms⟩ := e
      by_cases htopic : topic = svc.topic
      · obtain ⟨id, c, act, hms, hact, htopic', hc⟩ := hold.one htopic
        obtain rfl : ms = [c.asMessage act id] := hms
        have hwell : c.proto.wellTagged = true := by
          rw [← Conn.core_wellTagged]
          exact htagged hc
        rw [List.filter_cons_of_pos (Service.heeds_iff.mpr (.inl htopic))] at hreceives
        cases hreceives with
        | cons hhears hhandle hreceives =>
            refine ih ?_ hrest hreceives
            have hone := h.told hequip hkeys hwell hc htopic' hact hhandle
            have hsame : (fun id' => svc.heard id' ((topic, [c.asMessage act id]) :: bus)) =
                fun id' => if id' = id ∧ svc.serves c = true then act.tells (svc.heard id bus)
                  else svc.heard id' bus := by
              funext id'
              rw [htopic, ← htopic', Service.heard_cons hwell]
            rw [hsame]
            exact hone
      · -- nothing comes on the topic of the process' own
        have hdeaf : ¬ svc.heeds (topic, ms) = true := by
          rw [Service.heeds_iff]
          rintro (heq | hinit)
          · exact htopic heq
          · exact hold.notOwn svc.uuid rfl hinit
        rw [List.filter_cons_of_neg hdeaf] at hreceives
        refine ih ?_ hrest hreceives
        have hsame : (fun id => svc.heard id ((topic, ms) :: bus)) = fun id => svc.heard id bus :=
          funext fun id => Service.heard_cons_of_ne htopic id ms bus
        rw [hsame]
        exact h

end Mirror

/-! ### The start of a process -/

/-- The calls of a synchronisation: what it publishes goes to one topic. -/
def syncsOn (topic : Topic) : (β : Type) → Call β → Prop
  | _, .look _ => True
  | _, .guard _ => True
  | _, .bus (.publish t _) => t = topic
  | _, _ => False

lemma syncsOn_getConnectionsHandler (req : ConnType) :
    Uses (syncsOn req.topic) (getConnectionsHandler req) := by
  refine ⟨trivial, fun _ => ⟨trivial, fun es => ?_⟩⟩
  cases es with
  | nil => exact ⟨trivial, fun _ => trivial⟩
  | cons e es =>
      refine ⟨rfl, fun r => ?_⟩
      cases r with
      | error err => exact ⟨trivial, fun _ => trivial⟩
      | ok u => exact ⟨trivial, fun _ => trivial⟩

/-- Such calls leave the database alone and publish on the topic only. -/
lemma syncsOn_frame {topic : Topic} {β : Type} {c : Call β} (hc : syncsOn topic β c) {i : Input}
    {w s s' : World} {b : β} (hexec : exec c i s = some (s', b))
    (h : s.db = w.db ∧ ∃ news, s.bus = news ++ w.bus ∧ ∀ e ∈ news, e.1 = topic) :
    s'.db = w.db ∧ ∃ news, s'.bus = news ++ w.bus ∧ ∀ e ∈ news, e.1 = topic := by
  obtain ⟨hdb, news, hnews, hall⟩ := h
  cases c with
  | look r =>
      obtain ⟨-, rfl, -⟩ := exec_look.mp hexec
      exact ⟨hdb, news, hnews, hall⟩
  | guard g =>
      obtain ⟨l, -, rfl⟩ := exec_guard.mp hexec
      exact ⟨hdb, news, hnews, hall⟩
  | bus p =>
      obtain ⟨rfl, -⟩ := exec_bus.mp hexec
      cases p with
      | publish t ms =>
          obtain rfl : t = topic := hc
          rw [Call.execBus]
          cases i.ok with
          | true =>
              refine ⟨hdb, (t, ms) :: news, by simp [hnews], fun e he => ?_⟩
              rcases List.mem_cons.mp he with rfl | he
              · rfl
              · exact hall e he
          | false => exact ⟨hdb, news, hnews, hall⟩
  | _ => exact hc.elim

/-- A synchronisation leaves the database alone and publishes on its topic only. -/
lemma frame_getConnectionsHandler {rule : Rule Call Input World} {req : ConnType} {w w' : World}
    {r : Except Error Reply} (h : Exec rule (getConnectionsHandler req) w r w') :
    w'.db = w.db ∧ ∃ news, w'.bus = news ++ w.bus ∧ ∀ e ∈ news, e.1 = req.topic := by
  have htriple : Triple rule (fun s => s.db = w.db ∧ ∃ news, s.bus = news ++ w.bus ∧
      ∀ e ∈ news, e.1 = req.topic) (getConnectionsHandler req) fun _ s => s.db = w.db ∧
        ∃ news, s.bus = news ++ w.bus ∧ ∀ e ∈ news, e.1 = req.topic := by
    refine Triple.of_uses (syncsOn_getConnectionsHandler req) ?_
    exact fun hc hexec h => syncsOn_frame hc hexec h
  exact htriple h ⟨rfl, [], rfl, fun e he => absurd he List.not_mem_nil⟩

/-- What a process has of the connections with one of the tags. -/
def Service.among (svc : Service) (m : Cache) (tags : List Tag) (id : Uuid) : Bool :=
  (m.flagged id).any fun e => !e.2 && (svc.serves e.1 && tags.contains e.1.proto.proto)

lemma init_ne_topic (svc : Service) (u : Uuid) : Topic.init u ≠ svc.topic := by
  cases svc <;> simp [Service.topic]

/-- The tags of a process are those of the connections that it serves. -/
lemma tag_of_serves {svc : Service} {c : Conn} (h : svc.serves c = true) :
    c.proto.proto ∈ svc.steady.tags := by
  cases svc with
  | node ctx inbounds env uuid =>
      obtain ⟨-, hnode, hin⟩ := serves_node h
      refine List.mem_filter.mpr ⟨hin, ?_⟩
      cases hproto : c.proto with
      | xray tag =>
          rw [hproto] at hnode
          cases tag with
          | hysteria2 | mtproto => exact absurd hnode Bool.false_ne_true
          | _ => rfl
      | wireguard | shadowsocks => rfl
      | hysteria2 | mtproto =>
          rw [hproto] at hnode
          exact absurd hnode Bool.false_ne_true
  | auth env uuid =>
      obtain ⟨token, htoken⟩ := Option.isSome_iff_exists.mp h
      rw [Proto.eq_of_token htoken]
      exact List.mem_singleton_self _

/-- The answer to the request of a process for one of its tags. -/
lemma syncs_iff {svc : Service} {tag : Tag} (htag : tag ∈ svc.steady.tags) {c : Conn}
    (hwell : c.proto.wellTagged = true) :
    syncs (svc.steady.syncRequest none tag) c = true ↔
      c.isDeleted = false ∧ svc.serves c = true ∧ c.proto.proto = tag := by
  rw [syncs, Process.syncRequest]
  cases svc with
  | node ctx inbounds env uuid =>
      obtain ⟨hin, hkind⟩ := List.mem_filter.mp htag
      obtain ⟨hhy, hmt⟩ : tag ≠ .hysteria2 ∧ tag ≠ .mtproto := by simpa using hkind
      have hnode : c.proto.proto = tag → c.proto.onNode = true := by
        rintro rfl
        rw [Proto.onNode_eq hwell]
        cases hkind' : c.proto.proto <;> first
          | rfl
          | exact absurd hkind' hhy
          | exact absurd hkind' hmt
      show (!c.isDeleted && c.proto.proto == tag && (tag == .hysteria2 || c.env == env) && true) =
        true ↔ c.isDeleted = false ∧ nodeServes inbounds env c = true ∧ c.proto.proto = tag
      rw [nodeServes]
      constructor
      · intro h
        obtain ⟨⟨hdel, htag'⟩, henv⟩ :
            (c.isDeleted = false ∧ c.proto.proto = tag) ∧ c.env = env := by
          simpa [hhy] using h
        refine ⟨hdel, ?_, htag'⟩
        simp [henv, hnode htag', htag', hin]
      · rintro ⟨hdel, hserves, htag'⟩
        obtain ⟨henv, -⟩ := (Bool.and_eq_true_iff.mp hserves)
        simp [hdel, htag', beq_iff_eq.mp henv]
  | auth env uuid =>
      obtain rfl : tag = .hysteria2 := List.mem_singleton.mp htag
      show (!c.isDeleted && c.proto.proto == .hysteria2 && (true || c.env == env) && true) = true ↔
        c.isDeleted = false ∧ c.proto.token.isSome = true ∧ c.proto.proto = .hysteria2
      cases hproto : c.proto with
      | hysteria2 token => simp [Proto.proto, Proto.token]
      | wireguard | shadowsocks | mtproto => simp [Proto.proto, Proto.token]
      | xray tag =>
          rw [hproto] at hwell
          cases tag with
          | hysteria2 => exact absurd hwell Bool.false_ne_true
          | _ => simp [Proto.proto, Proto.token]

section Start

variable {svc : Service} {core : Uuid → Option Conn} {w w' : World} {s s' : svc.steady.State}
  {tags : List Tag}

/-- Synchronisations leave everything at the API as it is, and are not heard on the topic of
the process. -/
lemma Sync.frame {n : Option ℕ} (h : Sync svc.steady n tags w s w' s') :
    w'.memory = w.memory ∧ w'.db = w.db ∧ ∀ id, svc.heard id w'.bus = svc.heard id w.bus := by
  induction h with
  | nil => exact ⟨rfl, rfl, fun _ => rfl⟩
  | @cons tag tags w w₁ w' s s₁ s' reply hexec hreceives hrest ih =>
      obtain ⟨hmem, hdb, hheard⟩ := ih
      obtain ⟨hdb₁, news, hnews, hall⟩ := frame_getConnectionsHandler hexec
      refine ⟨hmem.trans (exec_getConnectionsHandler hexec).1, hdb.trans hdb₁, fun id => ?_⟩
      rw [hheard, hnews]
      clear hnews
      induction news with
      | nil => rfl
      | cons e news ih' =>
          have hne : e.1 ≠ svc.topic := by
            rw [hall e List.mem_cons_self]
            exact init_ne_topic svc _
          rw [List.cons_append, Service.heard_cons_of_ne hne]
          exact ih' fun e' he' => hall e' (List.mem_cons_of_mem e he')

/-- One request of a process and the handling of its answer. -/
lemma Service.Mirrors.synced {done : List Tag} {tag : Tag} {rule : Rule Call Input World}
    {reply : Reply} (h : svc.Mirrors (svc.among w.memory done) core s) (hequip : svc.Equipped)
    (hkeys : svc.KeysApart core) (hcores : ∀ id, (w.memory.flagged id).map Prod.fst = core id)
    (htagged : ∀ {id c}, core id = some c → c.proto.wellTagged = true)
    (htag : tag ∈ svc.steady.tags) (hnew : tag ∉ done)
    (hexec : Exec rule (getConnectionsHandler (svc.steady.syncRequest none tag)) w (.ok reply) w')
    (hreceives : Receives svc.steady (published w w') s s') :
    svc.Mirrors (svc.among w.memory (done ++ [tag])) core s' := by
  have hknown : ∀ {id c}, w.memory.connections.get id = some c → Known core id c := by
    intro id c hget
    rw [Known, ← hcores, Cache.flagged, hget]
    rfl
  have hwell : ∀ {id c}, w.memory.connections.get id = some c → c.proto.wellTagged = true := by
    intro id c hget
    rw [← Conn.core_wellTagged]
    exact htagged (hknown hget)
  -- what is selected are the connections of the tag
  have hselect : ∀ {id c}, w.memory.connections.get id = some c →
      (syncs (svc.steady.syncRequest none tag) c = true ↔
        c.isDeleted = false ∧ svc.serves c = true ∧ c.proto.proto = tag) :=
    fun hget => syncs_iff htag (hwell hget)
  obtain ⟨-, order, hpub | ⟨-, e, he⟩⟩ := exec_getConnectionsHandler hexec
  · set es := (w.memory.connections.iter order).filter
      fun e => syncs (svc.steady.syncRequest none tag) e.2 with hes
    have hmem : ∀ {id c}, (id, c) ∈ es ↔ w.memory.connections.get id = some c ∧
        c.isDeleted = false ∧ svc.serves c = true ∧ c.proto.proto = tag := by
      intro id c
      rw [hes, List.mem_filter, Table.mem_iter]
      exact and_congr_right hselect
    have hamong : svc.among w.memory (done ++ [tag]) =
        fun id => svc.among w.memory done id || (es.map Prod.fst).contains id := by
      funext id
      rw [Bool.eq_iff_iff, Bool.or_eq_true, List.contains_iff_mem, List.mem_map]
      cases hget : w.memory.connections.get id with
      | none =>
          have hnone : ∀ tags, svc.among w.memory tags id = false := by
            intro tags
            rw [Service.among, Cache.flagged, hget]
            rfl
          rw [hnone, hnone]
          simp only [Bool.false_eq_true, false_or, false_iff]
          rintro ⟨⟨id', c⟩, he, rfl⟩
          rw [(hmem.mp he).1] at hget
          cases hget
      | some c =>
          have hsome : ∀ tags, svc.among w.memory tags id = true ↔
              c.isDeleted = false ∧ svc.serves c = true ∧ c.proto.proto ∈ tags := by
            intro tags
            rw [Service.among, Cache.flagged, hget]
            simp
          rw [hsome, hsome, List.mem_append, List.mem_singleton]
          constructor
          · rintro ⟨hlive, hserves, hdone | htag'⟩
            · exact .inl ⟨hlive, hserves, hdone⟩
            · exact .inr ⟨(id, c), hmem.mpr ⟨hget, hlive, hserves, htag'⟩, rfl⟩
          · rintro (⟨hlive, hserves, hdone⟩ | ⟨⟨id', c'⟩, he, rfl⟩)
            · exact ⟨hlive, hserves, .inl hdone⟩
            · obtain ⟨hget', hlive, hserves, htag'⟩ := hmem.mp he
              obtain rfl := Option.some.inj (hget.symm.trans hget')
              exact ⟨hlive, hserves, .inr htag'⟩
    rw [hamong]
    rw [hpub, syncPublication] at hreceives
    split_ifs at hreceives with hnil
    · cases hreceives
      have hsame : (fun id => svc.among w.memory done id || (es.map Prod.fst).contains id) =
          svc.among w.memory done := funext fun id => by simp [hnil]
      rw [hsame]
      exact h
    · cases hreceives with
      | cons hhears hhandle hreceives =>
          cases hreceives
          have hids : (es.map fun e => e.2.asCreateMessage e.1).map Message.connId =
              es.map Prod.fst := by
            rw [List.map_map]
            rfl
          rw [← hids]
          refine h.batch hequip hkeys (fun m hm => ?_) ?_ hhandle
          · obtain ⟨⟨id, c⟩, he, rfl⟩ := List.mem_map.mp hm
            obtain ⟨hget, hlive, hserves, htag'⟩ := hmem.mp he
            refine ⟨⟨c, rfl, hknown hget, hwell hget, hserves⟩, ?_⟩
            show svc.among w.memory done id = false
            rw [Service.among, Cache.flagged, hget]
            simp [htag', hnew]
          · rw [hids, hes]
            exact ((w.memory.connections.iter_keys_nodup order).sublist
              (List.filter_sublist.map Prod.fst))
  · cases he

/-- **After its start a process has the live connections** of its tags. -/
lemma Service.Mirrors.sync {done : List Tag} (h : svc.Mirrors (svc.among w.memory done) core s)
    (hequip : svc.Equipped) (hkeys : svc.KeysApart core)
    (hcores : ∀ id, (w.memory.flagged id).map Prod.fst = core id)
    (htagged : ∀ {id c}, core id = some c → c.proto.wellTagged = true)
    (htags : ∀ tag ∈ tags, tag ∈ svc.steady.tags) (hnodup : (done ++ tags).Nodup)
    (hsync : Sync svc.steady none tags w s w' s') :
    svc.Mirrors (svc.among w.memory (done ++ tags)) core s' := by
  induction tags generalizing done w s with
  | nil =>
      cases hsync
      rw [List.append_nil]
      exact h
  | cons tag tags ih =>
      cases hsync with
      | @cons _ _ _ w₁ _ _ s₁ _ reply hexec hreceives hrest =>
          have hmem := (exec_getConnectionsHandler hexec).1
          have hnew : tag ∉ done := by
            rw [List.nodup_append] at hnodup
            exact fun hin => hnodup.2.2 tag hin tag List.mem_cons_self rfl
          have hone := h.synced hequip hkeys hcores htagged (htags tag List.mem_cons_self) hnew
            hexec hreceives
          rw [← hmem] at hone hcores ⊢
          rw [List.append_cons]
          rw [List.append_cons] at hnodup
          exact ih hone hcores
            (fun tag' htag' => htags tag' (List.mem_cons_of_mem tag htag')) hnodup
            hrest

end Start

/-! ### A process beside the API -/

/-- A process that starts without a snapshot after some operations at the API and follows the
rest: it syncs its tags, and from then on handles every publication that it hears, once and in
order.

`equipped`: the tags of its inbounds are different and it has the clients for them.  `plainBefore`
and `plainAfter`: every environment that a request or the configuration of the trials names is
read back from its text (`EnvStable`), and the connections that other processes ask for are
published on their own topics, not on that of this one.  `course`: the operations come one after
the other, nothing fails in them, and a private key that the API draws has a public key that no
connection in memory has (`freshKeys`); nothing is left of an earlier run of the process
(`Blank`), and its backend calls for the tags of its inbounds go through (`steady`). -/
structure Follows (svc : Service) (lower : String → String) (before after : List ApiOp) (w : World)
    (s : svc.steady.State) : Prop where
  equipped : svc.Equipped
  plainBefore : ∀ op ∈ before, op.Plain lower none
  plainAfter : ∀ op ∈ after, op.Plain lower (some svc.uuid)
  course : ∃ w₀ s₀ w₁ s₁, Serial (freshKeys svc) (ApiOp.prog lower) World.empty before w₀ ∧
    svc.Blank s₀ ∧ Sync svc.steady none svc.steady.tags w₀ s₀ w₁ s₁ ∧
    Serial (freshKeys svc) (ApiOp.prog lower) w₁ after w ∧
    Receives svc.steady ((published w₁ w).filter svc.heeds) s₁ s

section Course

variable {svc : Service} {lower : String → String} {before after ops : List ApiOp} {w w' : World}
  {s s' : svc.steady.State}

lemma Service.Equipped.nodup (h : svc.Equipped) : svc.steady.tags.Nodup := by
  cases svc with
  | node ctx inbounds env uuid => exact Fcore.Equipped.nodup h |>.filter _
  | auth env uuid => exact List.nodup_singleton _

/-- All served connections have one of the tags of the process. -/
lemma among_tags (svc : Service) (m : Cache) (id : Uuid) :
    svc.among m svc.steady.tags id = svc.has (m.flagged id) := by
  rw [Service.among, Service.has]
  cases m.flagged id with
  | none => rfl
  | some e =>
      rw [Option.any_some, Option.any_some]
      cases hserves : svc.serves e.1 with
      | false => rfl
      | true =>
          have htag : svc.steady.tags.contains e.1.proto.proto = true :=
            List.contains_iff_mem.mpr (tag_of_serves hserves)
          rw [htag]
          rfl

/-- The start of a process changes nothing at the API. -/
lemma Live.started {x : Since} {core : Uuid → Option Conn} {w₀ w₁ : World}
    {s₀ s₁ : svc.steady.State} {tags : List Tag} (h : Live svc lower x core 0 w₀)
    (hsync : Sync svc.steady none tags w₀ s₀ w₁ s₁) (own : Option Uuid) :
    Live svc lower ⟨own, core, w₁.bus⟩ core 0 w₁ := by
  obtain ⟨hmem, hdb, hheard⟩ := hsync.frame
  exact
    { cores := fun id => by rw [hmem]; exact h.cores id
      rows := fun id => by rw [hmem, hdb]; exact h.rows id
      heard := fun id => by rw [hheard, hmem]; exact h.heard id
      tagged := h.tagged
      keys := h.keys
      older := fun hc => hc
      news := ⟨[], rfl, fun _ he => absurd he List.not_mem_nil⟩ }

/-- The process has the connections of which it has last heard that they are there. -/
lemma Follows.mirrors (h : Follows svc lower before after w s) : ∃ x core,
    Live svc lower x core 0 w ∧ svc.Mirrors (fun id => svc.heard id w.bus) core s := by
  obtain ⟨w₀, s₀, w₁, s₁, hbefore, hblank, hsync, hafter, hreceives⟩ := h.course
  obtain ⟨core₀, hlive₀⟩ := live_of_serial hbefore h.plainBefore
    ⟨_, live_empty svc lower⟩
  -- after the start the process has what is live
  have hstart : svc.Mirrors (svc.among w₀.memory []) core₀ s₀ := by
    have hnone : svc.among w₀.memory [] = fun _ => false := by
      funext id
      rw [Service.among]
      cases w₀.memory.flagged id <;> simp
    rw [hnone]
    exact hblank.mirrors core₀
  have hsynced := hstart.sync h.equipped hlive₀.keys hlive₀.cores hlive₀.tagged
    (fun _ htag => htag) h.equipped.nodup hsync
  rw [List.nil_append] at hsynced
  obtain ⟨hmem, hdb, hheard⟩ := hsync.frame
  have hhears : svc.among w₀.memory svc.steady.tags = fun id => svc.heard id w₁.bus := by
    funext id
    rw [among_tags, hheard, hlive₀.heard_zero]
  rw [hhears] at hsynced
  -- from then on it is told everything
  obtain ⟨core, hlive⟩ := live_of_serial hafter h.plainAfter
    ⟨core₀, hlive₀.started hsync (some svc.uuid)⟩
  obtain ⟨news, hnews, htold⟩ := hlive.news
  have hpub : published w₁ w = news.reverse := by
    rw [published, hnews]
    simp
  rw [hpub] at hreceives
  have hfollows := (hsynced.mono hlive.older).follows h.equipped hlive.keys hlive.tagged
    (fun e he => htold e (List.mem_reverse.mp he)) hreceives
  refine ⟨_, core, hlive, ?_⟩
  rw [hnews]
  rwa [List.reverse_reverse] at hfollows

lemma Receives.append {p : Process} {es es' : List (Topic × List Message)} {s s₁ s' : p.State}
    (h : Receives p es s s₁) (h' : Receives p es' s₁ s') : Receives p (es ++ es') s s' := by
  induction h with
  | nil => exact h'
  | cons hhears hhandle _ ih => exact .cons hhears hhandle (ih h')

/-- Publications of two stretches, one after the other. -/
lemma published_append {w₁ w w' : World} {news news' : List (Topic × List Message)}
    (h : w.bus = news ++ w₁.bus) (h' : w'.bus = news' ++ w.bus) :
    published w₁ w' = published w₁ w ++ published w w' := by
  have hone : ∀ {v v' : World} (es : List (Topic × List Message)), v'.bus = es ++ v.bus →
      published v v' = es.reverse := by
    intro v v' es hbus
    rw [published, hbus]
    simp
  rw [hone news h, hone news' h', hone (news' ++ news) (by rw [h', h, List.append_assoc]),
    List.reverse_append]

/-- **A process that follows the API follows what happens next.** -/
lemma Follows.append (h : Follows svc lower before after w s)
    (hrun : Serial (freshKeys svc) (ApiOp.prog lower) w ops w')
    (hplain : ∀ op ∈ ops, op.Plain lower (some svc.uuid))
    (hreceives : Receives svc.steady ((published w w').filter svc.heeds) s s') :
    Follows svc lower before (after ++ ops) w' s' := by
  obtain ⟨w₀, s₀, w₁, s₁, hbefore, hblank, hsync, hafter, hfirst⟩ := h.course
  refine ⟨h.equipped, h.plainBefore, fun op hop => ?_, w₀, s₀, w₁, s₁, hbefore, hblank, hsync,
    hafter.append hrun, ?_⟩
  · rcases List.mem_append.mp hop with hin | hin
    · exact h.plainAfter op hin
    · exact hplain op hin
  · -- what has been published grows at the end only
    obtain ⟨core₀, hlive₀⟩ := live_of_serial hbefore h.plainBefore ⟨_, live_empty svc lower⟩
    obtain ⟨core, hlive⟩ := live_of_serial hafter h.plainAfter
      ⟨core₀, hlive₀.started hsync (some svc.uuid)⟩
    obtain ⟨core', hlive'⟩ := live_of_serial hrun hplain ⟨core, hlive.rebase (some svc.uuid)⟩
    obtain ⟨news, hnews, -⟩ := hlive.news
    obtain ⟨news', hnews', -⟩ := hlive'.news
    rw [published_append hnews hnews', List.filter_append]
    exact hfirst.append hreceives

/-- A connection that is live and served, as far as it is known. -/
lemma Live.has_iff {x : Since} {core : Uuid → Option Conn} (h : Live svc lower x core 0 w)
    (id : Uuid) : svc.heard id w.bus = true ↔
      ∃ c, w.memory.connections.get id = some c ∧ c.isDeleted = false ∧ svc.serves c = true := by
  rw [h.heard_zero, Cache.flagged, Service.has]
  cases w.memory.connections.get id with
  | none => simp
  | some c => simp

/-- What a process is to have of the connections of the API. -/
def Service.wanted (svc : Service) (m : Cache) (id : Uuid) : Option Kept :=
  (m.connections.get id).bind fun c =>
    if c.isDeleted = false ∧ svc.serves c = true then some c.kept else none

lemma Live.wanted_eq {x : Since} {core : Uuid → Option Conn} (h : Live svc lower x core 0 w)
    (id : Uuid) : svc.wanted w.memory id =
      if svc.heard id w.bus = true then (core id).map Conn.kept else none := by
  rw [Service.wanted, h.heard_zero, ← h.cores, Cache.flagged, Service.has]
  cases w.memory.connections.get id with
  | none => rfl
  | some c =>
      simp only [Option.bind_some, Option.map_some, Option.any_some, Service.serves_core,
        Bool.and_eq_true, Bool.not_eq_true']
      split_ifs with hand
      · rw [Conn.kept_core (Service.topic_of_serves hand.2).2.2]
      · rfl

/-- **A process has exactly the live connections that it serves**: after any operations of the
API, a start without a snapshot and any further operations, without failures and with every
publication handled once and in order, a node has each live connection of its environment and
inbounds with its protocol, subscription and expiry, the auth service each live connection
with a token, and neither has another one. -/
lemma Follows.view_eq (h : Follows svc lower before after w s) (id : Uuid) :
    svc.view s id = svc.wanted w.memory id := by
  obtain ⟨x, core, hlive, hmirror⟩ := h.mirrors
  rw [hlive.wanted_eq]
  cases svc with
  | node ctx inbounds env uuid =>
      obtain ⟨hreal, hkept, hheld, -, -⟩ := hmirror
      show ((NodeState.memory s id).filter fun b => inbounds.contains b.proto.proto).map
          Base.kept = _
      cases hmem : NodeState.memory s id with
      | none =>
          rw [if_neg]
          · rfl
          · intro hthere
            obtain ⟨c, hc, hserves⟩ := hreal hthere
            have hsome := (hheld hc hserves).mpr hthere
            rw [hmem] at hsome
            cases hsome
      | some b =>
          obtain ⟨c, hc, henv, hnode, hsame⟩ := hkept hmem
          have htag : b.proto.proto = c.proto.proto := congrArg (fun k => k.proto.proto) hsame
          rw [hc, Option.filter_some, htag]
          cases hin : inbounds.contains c.proto.proto with
          | true =>
              have hserves : nodeServes inbounds env c = true := by
                simp [nodeServes, henv, hnode, List.contains_iff_mem.mp hin]
              have hthere := (hheld hc hserves).mp (by rw [hmem]; rfl)
              rw [if_pos rfl, if_pos hthere, Option.map_some, Option.map_some, hsame]
          | false =>
              rw [if_neg Bool.false_ne_true, if_neg]
              · rfl
              · intro hthere
                obtain ⟨c', hc', hserves⟩ := hreal hthere
                obtain rfl := Option.some.inj (hc.symm.trans hc')
                rw [List.contains_iff_mem.mpr (serves_node hserves).2.2] at hin
                cases hin
  | auth env uuid =>
      obtain ⟨hreal, hkept, hheld⟩ := hmirror
      show (Table.get s id).map Base.kept = _
      cases hget : Table.get s id with
      | none =>
          rw [if_neg]
          · rfl
          · intro hthere
            have hsome := (hheld id).mpr hthere
            rw [hget] at hsome
            cases hsome
      | some b =>
          obtain ⟨c, hc, -, hsame⟩ := hkept hget
          rw [if_pos ((hheld id).mp (by rw [hget]; rfl)), hc, Option.map_some,
            Option.map_some, hsame]

section Backends

variable {ctx : NodeCtx} {inbounds : List Tag} {env : Env} {uuid : Uuid}
  {s : (Service.node ctx inbounds env uuid).steady.State}

/-- The peers are those of the live WireGuard connections. -/
lemma Follows.peers_iff (h : Follows (.node ctx inbounds env uuid) lower before after w s)
    (hwg : .wireguard ∈ inbounds) (pk : String) (addr : IpAddrMask) :
    NodeState.peers s pk = some addr ↔
      ∃ id c wg, w.memory.connections.get id = some c ∧ c.isDeleted = false ∧ c.env = env ∧
        c.proto = .wireguard wg ∧ ctx.pubkey wg.keys = .ok pk ∧ wg.address = addr := by
  obtain ⟨x, core, hlive, -, -, -, hpeers, -⟩ := h.mirrors
  have hcore : ∀ {id c}, w.memory.connections.get id = some c → core id = some c.core :=
    fun hget => hlive.knows hget
  rw [hpeers hwg pk addr]
  constructor
  · rintro ⟨id, c', wg, hthere, hc', hwg', hpk, haddr⟩
    obtain ⟨c, hget, hdel, hserves⟩ := (hlive.has_iff id).mp hthere
    obtain rfl := Option.some.inj ((hcore hget).symm.trans hc')
    rw [Conn.core_wg] at hwg'
    exact ⟨id, c, wg, hget, hdel, (serves_node hserves).1, Proto.eq_of_wg hwg', hpk, haddr⟩
  · rintro ⟨id, c, wg, hget, hdel, henv, hproto, hpk, haddr⟩
    refine ⟨id, c.core, wg, (hlive.has_iff id).mpr ⟨c, hget, hdel, ?_⟩, hcore hget, ?_, hpk, haddr⟩
    · simp [Service.serves, nodeServes, henv, hproto, Proto.onNode, Proto.proto, hwg]
    · rw [Conn.core_wg, hproto]
      rfl

/-- The users of Xray are those of its live connections. -/
lemma Follows.users_eq (h : Follows (.node ctx inbounds env uuid) lower before after w s)
    (id : Uuid) {tag : Tag} (htag : tag ∈ inbounds) (hxray : tag.isXray = true) :
    NodeState.users s (id, tag) = (w.memory.connections.get id).bind fun c =>
      if c.isDeleted = false ∧ c.env = env then c.xrayUser tag else none := by
  obtain ⟨x, core, hlive, -, -, -, -, husers⟩ := h.mirrors
  rw [husers id tag htag hxray]
  cases hget : w.memory.connections.get id with
  | none =>
      rw [if_neg]
      · rfl
      · intro hthere
        obtain ⟨c, hget', -⟩ := (hlive.has_iff id).mp hthere
        rw [hget] at hget'
        cases hget'
  | some c =>
      have hcore : core id = some c.core := hlive.knows hget
      rw [hcore, Option.bind_some, Option.bind_some, Conn.xrayUser_core]
      by_cases htag' : c.proto.proto = tag
      · -- a live connection with this tag is served
        have hnode : c.proto.onNode = true := by
          rw [Proto.onNode_eq (hlive.wellTagged (hlive.knows hget)), htag', hxray]
          rfl
        have hthere : (Service.node ctx inbounds env uuid).heard id w.bus = true ↔
            c.isDeleted = false ∧ c.env = env := by
          rw [hlive.has_iff id]
          constructor
          · rintro ⟨c', hget', hdel, hserves⟩
            obtain rfl := Option.some.inj (hget.symm.trans hget')
            exact ⟨hdel, (serves_node hserves).1⟩
          · rintro ⟨hdel, henv⟩
            exact ⟨c, hget, hdel, by simp [Service.serves, nodeServes, henv, hnode, htag', htag]⟩
        simp only [hthere]
      · rw [Conn.xrayUser, if_neg htag', ite_self, ite_self]

/-- **A node and its backends have exactly the live connections**: after any operations of the
API, a start without a snapshot and any further operations, without failures and with every
publication handled once and in order, the memory of a node has the live connections of its
environment and inbounds, the peers on its WireGuard interface are the public keys and
addresses of the WireGuard connections among them, and the users of Xray its Xray
connections. -/
theorem node_mirrors (h : Follows (.node ctx inbounds env uuid) lower before after w s) :
    (∀ id, (Service.node ctx inbounds env uuid).view s id =
      (Service.node ctx inbounds env uuid).wanted w.memory id) ∧
    (.wireguard ∈ inbounds → ∀ pk addr, NodeState.peers s pk = some addr ↔
      ∃ id c wg, w.memory.connections.get id = some c ∧ c.isDeleted = false ∧ c.env = env ∧
        c.proto = .wireguard wg ∧ ctx.pubkey wg.keys = .ok pk ∧ wg.address = addr) ∧
    ∀ id, ∀ tag ∈ inbounds, tag.isXray = true → NodeState.users s (id, tag) =
      (w.memory.connections.get id).bind fun c =>
        if c.isDeleted = false ∧ c.env = env then c.xrayUser tag else none :=
  ⟨h.view_eq, h.peers_iff, fun id _ htag hxray => h.users_eq id htag hxray⟩

end Backends

end Course

/-! ### A node with two connections -/

/-- None of the dropped requests may have reached Xray. -/
lemma nil_mem_landings (ctx : NodeCtx) (items : List Item) (s : NodeState) :
    [] ∈ (stop ctx items s).landings := by
  rw [stop]
  dsimp only
  split_ifs
  · exact List.mem_sublists.mpr (List.nil_sublist _)
  · exact List.mem_inits _ _ |>.mpr List.nil_prefix
  · exact List.mem_singleton_self _

/-- A process whose calls go through can handle everything. -/
lemma Service.exists_handle (svc : Service) (msgs : List Message) (s : svc.steady.State) :
    ∃ s', svc.steady.Handle msgs s s' := by
  cases svc with
  | node ctx inbounds env uuid =>
      let items : List Item := msgs.map sampleItem
      have hmsgs : items.map Prod.fst = msgs := by
        rw [List.map_map]
        exact List.map_id msgs
      refine ⟨_, items, hmsgs, fun it hit _ => ?_, [], nil_mem_landings ctx items s, rfl⟩
      obtain ⟨msg, -, rfl⟩ := List.mem_map.mp hit
      rfl
  | auth env uuid =>
      refine ⟨_, msgs.map fun msg => (msg, 0), ?_, rfl⟩
      rw [List.map_map]
      exact List.map_id msgs

lemma Service.exists_receives (svc : Service) (es : List (Topic × List Message))
    (hes : ∀ e ∈ es, svc.steady.hears e.1 = true) (s : svc.steady.State) :
    ∃ s', Receives svc.steady es s s' := by
  induction es generalizing s with
  | nil => exact ⟨s, .nil⟩
  | cons e es ih =>
      obtain ⟨s₁, hhandle⟩ := svc.exists_handle e.2 s
      obtain ⟨s', hrest⟩ := ih (fun e' he' => hes e' (List.mem_cons_of_mem e he')) s₁
      exact ⟨s', .cons (hes e List.mem_cons_self) hhandle hrest⟩

/-- A process that syncs its tags, on given inputs for each of them. -/
def Service.syncWith (svc : Service) (is : List Input) : List Tag → World → Option World
  | [], w => some w
  | tag :: tags, w =>
      (execWith Rule.any is
        (getConnectionsHandler (svc.steady.syncRequest none tag)) w).bind fun r =>
        if answered r.2 && (published w r.1).all fun e => svc.steady.hears e.1 then
          svc.syncWith is tags r.1
        else none

/-- A course on given inputs. -/
def Service.courseWith (svc : Service) (before : List (ApiOp × List Input)) (is : List Input)
    (after : List (ApiOp × List Input)) : Option World :=
  (serialWith (freshKeys svc) (ApiOp.prog id) before World.empty).bind fun w₀ =>
    (svc.syncWith is svc.steady.tags w₀).bind fun w₁ =>
      serialWith (freshKeys svc) (ApiOp.prog id) after w₁

lemma Service.exists_sync {svc : Service} {is : List Input} {tags : List Tag} {w w' : World}
    (h : svc.syncWith is tags w = some w') (s : svc.steady.State) :
    ∃ s', Sync svc.steady none tags w s w' s' := by
  induction tags generalizing w s with
  | nil =>
      obtain rfl : w = w' := Option.some.inj h
      exact ⟨s, .nil⟩
  | cons tag tags ih =>
      obtain ⟨⟨w₁, r⟩, hexec, hseen⟩ := Option.bind_eq_some_iff.mp h
      dsimp only at hseen
      split_ifs at hseen with hboth
      obtain ⟨hok, hhears⟩ := Bool.and_eq_true_iff.mp hboth
      cases r with
      | error e => cases hok
      | ok reply =>
          obtain ⟨s₁, hreceives⟩ := svc.exists_receives _ (List.all_eq_true.mp hhears) s
          obtain ⟨s', hsync⟩ := ih hseen s₁
          exact ⟨s', .cons (exec_of_execWith hexec) hreceives hsync⟩

lemma Service.exists_blank (svc : Service) : ∃ s, svc.Blank s := by
  cases svc with
  | node ctx inbounds env uuid => exact ⟨NodeState.empty, rfl, rfl, rfl⟩
  | auth env uuid => exact ⟨(∅ : Connections Base), rfl⟩

/-- A process can follow every course. -/
lemma Service.exists_follows {svc : Service} {before after : List (ApiOp × List Input)}
    {is : List Input} {w : World} (h : svc.courseWith before is after = some w)
    (hequip : svc.Equipped) (hbefore : ∀ op ∈ before.map Prod.fst, op.Plain id none)
    (hafter : ∀ op ∈ after.map Prod.fst, op.Plain id (some svc.uuid)) :
    ∃ s, Follows svc id (before.map Prod.fst) (after.map Prod.fst) w s := by
  obtain ⟨w₀, hone, hcourse⟩ := Option.bind_eq_some_iff.mp h
  obtain ⟨w₁, hstart, htwo⟩ := Option.bind_eq_some_iff.mp hcourse
  obtain ⟨s₀, hblank⟩ := svc.exists_blank
  obtain ⟨s₁, hsync⟩ := svc.exists_sync hstart s₀
  obtain ⟨s, hreceives⟩ := svc.exists_receives ((published w₁ w).filter svc.heeds)
    (fun e he => (List.mem_filter.mp he).2) s₁
  exact ⟨s, hequip, hbefore, hafter, w₀, s₀, w₁, s₁, serial_of_serialWith .nil hone, hblank, hsync,
    serial_of_serialWith .nil htwo, hreceives⟩

/-- A node with an inbound of VLESS and one of WireGuard. -/
abbrev twoInbounds : Service := .node sampleNode [.vlessTcpReality, .wireguard] .dev 9

/-- A VLESS connection before the start, and after it a WireGuard connection and the deletion
of the first one. -/
def beforeStart : List (ApiOp × List Input) :=
  [(.createConnection ⟨.dev, none, .vlessTcpReality, none⟩ ⟨.v4 0x0A000000, 8⟩,
    List.replicate 6 { Input.at 10000000000 with uuid := 1 })]

def afterStart : List (ApiOp × List Input) :=
  [(.createConnection ⟨.dev, none, .wireguard, none⟩ ⟨.v4 0x0A000000, 8⟩,
      List.replicate 6 { Input.at 20000000000 with
        uuid := 2
        text := "AQEBAQEBAQEBAQEBAQEBAQEBAQEBAQEBAQEBAQEBAQE=" }),
    (.deleteConnection 1, List.replicate 5 (Input.at 30000000000))]

/-- The course of that node. -/
def twoInboundsCourse : Option World :=
  twoInbounds.courseWith beforeStart (List.replicate 4 (Input.at 15000000000)) afterStart

lemma follows_twoInbounds {w : World} (h : twoInboundsCourse = some w) :
    ∃ s, Follows twoInbounds id (beforeStart.map Prod.fst) (afterStart.map Prod.fst) w s := by
  refine Service.exists_follows h ⟨by decide, fun _ => rfl, fun _ _ _ => rfl⟩ ?_ ?_
  · rintro op hop
    rw [List.mem_singleton.mp hop]
    exact rfl
  · rintro op hop
    rcases List.mem_cons.mp hop with rfl | hop
    · exact rfl
    · rw [List.mem_singleton.mp hop]
      exact trivial

/-- The node has the WireGuard connection and no longer the deleted one, its interface the peer
of the one, and Xray no user of the other. -/
theorem node_mirrors_two_inbounds : ∃ w s,
    Follows twoInbounds id (beforeStart.map Prod.fst) (afterStart.map Prod.fst) w s ∧
      (∃ k, twoInbounds.view s 2 = some k) ∧ twoInbounds.view s 1 = none ∧
      (∃ addr, NodeState.peers s "pOCSkrZRwni5dyxWn1+puxPZBrRqtoyd+dwrRAn4ogk=" = some addr) ∧
      NodeState.users s (1, .vlessTcpReality) = none := by
  have hcourse : (twoInboundsCourse.map fun w =>
      ((w.memory.connections.get 2).any fun c => !c.isDeleted && twoInbounds.serves c &&
        c.env == .dev && c.proto.wg.any fun wg => c.proto == .wireguard wg &&
          wg.keys.privkey == "AQEBAQEBAQEBAQEBAQEBAQEBAQEBAQEBAQEBAQEBAQE=") &&
        (w.memory.connections.get 1).any Conn.isDeleted) = some true := by
    decide +kernel
  obtain ⟨w, hw, hseen⟩ := Option.map_eq_some_iff.mp hcourse
  obtain ⟨htwo, hone⟩ := Bool.and_eq_true_iff.mp hseen
  obtain ⟨s, hfollows⟩ := follows_twoInbounds hw
  obtain ⟨hview, hpeers, husers⟩ := node_mirrors hfollows
  obtain ⟨c, hget, hc⟩ := (Option.any_eq_true _ _).mp htwo
  obtain ⟨d, hget', hdel⟩ := (Option.any_eq_true _ _).mp hone
  simp only [Bool.and_eq_true, Bool.not_eq_true', beq_iff_eq, Option.any_eq_true] at hc
  obtain ⟨⟨⟨hlive, hserves⟩, henv⟩, wg, -, hproto, hkey⟩ := hc
  have hnot : ¬ (d.isDeleted = false ∧ twoInbounds.serves d = true) :=
    fun h => Bool.false_ne_true (h.1.symm.trans hdel)
  refine ⟨w, s, hfollows, ⟨c.kept, ?_⟩, ?_, ⟨wg.address, ?_⟩, ?_⟩
  · rw [hview, Service.wanted, hget, Option.bind_some, if_pos ⟨hlive, hserves⟩]
  · rw [hview, Service.wanted, hget', Option.bind_some, if_neg hnot]
  · refine (hpeers (by decide) _ _).mpr ⟨2, c, wg, hget, hlive, henv, hproto, ?_, rfl⟩
    exact if_pos hkey
  · rw [husers 1 .vlessTcpReality (by decide) rfl, hget', Option.bind_some, if_neg]
    exact fun h => Bool.false_ne_true (h.1.symm.trans hdel)

end Fcore
