import Fcore.Memory.Storage
import Fcore.Node.Batch

/-!
The processes that keep connections outside the API: nodes and the auth service
(`src/bin/node`, `src/bin/auth`, `src/memory/snapshot.rs`).

* `SnapshotData`: a copy of the connection memory with the time of its making;
* `restoreWgConnection`, `restoreXrayConnection`: what a node does with each
  connection of a loaded snapshot;
* `Gains`: what creations do to the records of a process and to the peers and users that
  it serves with;
* `Process`: what a process is for the outside, with the laws that it obeys when it starts
  and when it handles creations;
* `nodeProcess`, `authProcess`: the two kinds;
* `message_rebuilds`: what the message of a connection puts into an empty memory is
  the connection.
-/

namespace Fcore

open Calculus

/-! ### Snapshots -/

/-- `snapshot::SnapshotData`; the version is always 1. -/
structure SnapshotData (μ : Type) where
  timestamp : ℕ
  memory : μ

/-- `create_snapshot`: the seconds are cast to an unsigned word. -/
def createSnapshot {μ : Type} (memory : μ) (now : DateTime) : SnapshotData μ :=
  ⟨(now.timestamp % 2 ^ 64).toNat, memory⟩

/-! ### Growing memories -/

/-- From one memory to a later one nothing is lost, and new connections are among the
given ones.  A memory is the function of its lookups. -/
def Grows (ids : Set Uuid) (m m' : Uuid → Option Base) : Prop :=
  ∀ id, (m id ≠ none → m' id ≠ none) ∧ (m' id ≠ none → m id ≠ none ∨ id ∈ ids)

lemma Grows.refl (ids : Set Uuid) (m : Uuid → Option Base) : Grows ids m m :=
  fun _ => ⟨fun h => h, fun h => .inl h⟩

lemma Grows.trans {ids : Set Uuid} {m₁ m₂ m₃ : Uuid → Option Base} (h : Grows ids m₁ m₂)
    (h' : Grows ids m₂ m₃) : Grows ids m₁ m₃ := by
  refine fun id => ⟨fun hheld => (h' id).1 ((h id).1 hheld), fun hheld => ?_⟩
  rcases (h' id).2 hheld with hbefore | hnew
  · exact (h id).2 hbefore
  · exact .inr hnew

lemma Grows.mono {ids ids' : Set Uuid} {m m' : Uuid → Option Base} (h : Grows ids m m')
    (hsub : ids ⊆ ids') : Grows ids' m m' :=
  fun id => ⟨(h id).1, fun hheld => ((h id).2 hheld).imp_right fun hnew => hsub hnew⟩

/-- What creations do: no record changes, no slot is emptied, and what is new comes from
them.  A slot is something that clients are served with, and `source` says which
identifiers with which parameters are created. -/
structure Gains {Slot : Type} (slots : Uuid → Option WgParam → Set Slot)
    (source : Uuid → Option WgParam → Prop) (m m' : Uuid → Option Base)
    (f f' : Set Slot) : Prop where
  kept : ∀ {id b}, m id = some b → m' id = some b
  recorded : ∀ {id b}, m' id = some b →
    m id = some b ∨ ∃ wg, source id wg ∧ slots id b.proto.wg ⊆ slots id wg
  filled : f ⊆ f'
  fresh : ∀ {k}, k ∈ f' → k ∈ f ∨ ∃ id wg, source id wg ∧ k ∈ slots id wg

namespace Gains

variable {Slot : Type} {slots : Uuid → Option WgParam → Set Slot}
  {source source' : Uuid → Option WgParam → Prop} {m m₁ m' : Uuid → Option Base}
  {f f₁ f' : Set Slot}

lemma refl (source : Uuid → Option WgParam → Prop) (m : Uuid → Option Base) (f : Set Slot) :
    Gains slots source m m f f :=
  ⟨fun h => h, fun h => .inl h, subset_rfl, fun h => .inl h⟩

lemma trans (h : Gains slots source m m₁ f f₁) (h' : Gains slots source m₁ m' f₁ f') :
    Gains slots source m m' f f' := by
  refine ⟨fun hget => h'.kept (h.kept hget), fun hget => ?_, h.filled.trans h'.filled,
    fun hk => ?_⟩
  · rcases h'.recorded hget with hbefore | hnew
    · exact h.recorded hbefore
    · exact .inr hnew
  · rcases h'.fresh hk with hbefore | hnew
    · exact h.fresh hbefore
    · exact .inr hnew

lemma mono (h : Gains slots source m m' f f') (hsub : ∀ id wg, source id wg → source' id wg) :
    Gains slots source' m m' f f' where
  kept := h.kept
  recorded := fun hget => (h.recorded hget).imp_right fun ⟨wg, hsource, hslots⟩ =>
    ⟨wg, hsub _ _ hsource, hslots⟩
  filled := h.filled
  fresh := fun hk => (h.fresh hk).imp_right fun ⟨id, wg, hsource, hslot⟩ =>
    ⟨id, wg, hsub _ _ hsource, hslot⟩

/-- The memory grows by what is created. -/
lemma grows (h : Gains slots source m m' f f') : Grows {id | ∃ wg, source id wg} m m' := by
  intro id
  constructor
  · intro hheld
    obtain ⟨b, hb⟩ := Option.ne_none_iff_exists'.mp hheld
    rw [h.kept hb]
    exact Option.some_ne_none b
  · intro hheld
    obtain ⟨b, hb⟩ := Option.ne_none_iff_exists'.mp hheld
    rcases h.recorded hb with hbefore | ⟨wg, hsource, -⟩
    · exact .inl (by simp [hbefore])
    · exact .inr ⟨wg, hsource⟩

/-- A record that is added if it is not there, with slots of its own. -/
lemma of_add {id : Uuid} {wg : Option WgParam} {c : Base} (hsource : source id wg)
    (hmemory : ∀ id', m' id' = if id' = id then some ((m id).getD c) else m id')
    (hslots : slots id c.proto.wg ⊆ slots id wg) (hfilled : f ⊆ f')
    (hfresh : ∀ k ∈ f', k ∈ f ∨ k ∈ slots id wg) : Gains slots source m m' f f' := by
  refine ⟨fun {id' b} hget => ?_, fun {id' b} hget => ?_, hfilled, fun {k} hk => ?_⟩
  · rw [hmemory]
    split_ifs with hid
    · rw [← hid, hget, Option.getD_some]
    · exact hget
  · rw [hmemory] at hget
    split_ifs at hget with hid
    · subst hid
      cases hbefore : m id' with
      | none =>
          rw [hbefore, Option.getD_none] at hget
          obtain rfl := Option.some.inj hget
          exact .inr ⟨wg, hsource, hslots⟩
      | some b' =>
          rw [hbefore, Option.getD_some] at hget
          exact .inl hget
    · exact .inl hget
  · exact (hfresh k hk).imp_right fun hslot => ⟨id, wg, hsource, hslot⟩

end Gains

/-- The connections of messages with their parameters. -/
def Announced (msgs : List Message) (id : Uuid) (wg : Option WgParam) : Prop :=
  ∃ msg ∈ msgs, msg.connId = id ∧ msg.wg = wg

/-! ### Processes -/

/-- A process with a connection memory.  A start and a handled batch of creations only add
connections, and slots of what is loaded or created. -/
structure Process where
  State : Type
  Memory : Type
  memory : State → Memory
  find : Memory → Uuid → Option Base
  /-- The memory of a process that finds no snapshot. -/
  blank : Memory
  env : Env
  uuid : Uuid
  /-- The tags that are synced after a start. -/
  tags : List Tag
  /-- The topics that the subscriber processes. -/
  hears : Topic → Bool
  /-- The start with a memory; what is not memory outlasts the process. -/
  Load : Memory → State → State → Prop
  /-- `handle_messages_batch`. -/
  Handle : List Message → State → State → Prop
  /-- A token is accepted for a connection. -/
  Accepts : State → Uuid → Uuid → Prop
  /-- The peers and users that clients are served with. -/
  Slot : Type
  /-- Those of a connection with its WireGuard parameters. -/
  slots : Uuid → Option WgParam → Set Slot
  filled : State → Set Slot
  load_memory : ∀ {m : Memory} {s s' : State}, Load m s s' → memory s' = m
  load_filled : ∀ {m : Memory} {s s' : State}, Load m s s' → filled s ⊆ filled s' ∧
    ∀ k ∈ filled s', k ∈ filled s ∨ ∃ id b, find m id = some b ∧ k ∈ slots id b.proto.wg
  handle_creations : ∀ {msgs : List Message} {s s' : State}, Handle msgs s s' →
    (∀ msg ∈ msgs, msg.action = .create) →
      Gains slots (Announced msgs) (find (memory s)) (find (memory s')) (filled s) (filled s')
  find_accepts : ∀ {s : State} {token id : Uuid}, Accepts s token id → find (memory s) id ≠ none

/-! ### Nodes -/

/-- What a node serves a client with: a peer of WireGuard or a user of Xray. -/
inductive NodeSlot where
  | peer (pubkey : String)
  | user (id : Uuid) (tag : Tag)

/-- A connection has the users of its identifier and, for WireGuard, the peer of its key. -/
def nodeSlots (ctx : NodeCtx) (id : Uuid) (wg : Option WgParam) : Set NodeSlot :=
  {k | (∃ tag, k = .user id tag) ∨
    ∃ param pubkey, wg = some param ∧ ctx.pubkey param.keys = .ok pubkey ∧ k = .peer pubkey}

/-- The peers and users that are there. -/
def NodeState.filled (s : NodeState) : Set NodeSlot :=
  {k | match k with
    | .peer pubkey => s.peers pubkey ≠ none
    | .user id tag => s.users (id, tag) ≠ none}

lemma user_mem_nodeSlots (ctx : NodeCtx) (id : Uuid) (tag : Tag) (wg : Option WgParam) :
    .user id tag ∈ nodeSlots ctx id wg := .inl ⟨tag, rfl⟩

lemma nodeSlots_none_subset (ctx : NodeCtx) (id : Uuid) (wg : Option WgParam) :
    nodeSlots ctx id none ⊆ nodeSlots ctx id wg := by
  rintro k (huser | ⟨param, pubkey, hnone, -⟩)
  · exact .inl huser
  · cases hnone

lemma filled_peer (s : NodeState) (pubkey : String) (address : IpAddrMask) :
    ({ s with peers := Function.update s.peers pubkey (some address) } : NodeState).filled =
      insert (.peer pubkey) s.filled := by
  ext k
  cases k with
  | user id tag => simp [NodeState.filled]
  | peer pubkey' =>
      by_cases hkey : pubkey' = pubkey
      · subst hkey
        simp [NodeState.filled]
      · simp [NodeState.filled, hkey]

lemma filled_addUser (s : NodeState) (id : Uuid) (tag : Tag) (password : Option String) :
    ((Request.addUser id tag password).land s).filled = insert (.user id tag) s.filled := by
  ext k
  cases k with
  | peer pubkey => simp [NodeState.filled, Request.land]
  | user id' tag' =>
      by_cases hkey : (id', tag') = (id, tag)
      · obtain ⟨rfl, rfl⟩ := Prod.mk.inj hkey
        simp [NodeState.filled, Request.land]
      · have hne : NodeSlot.user id' tag' ≠ .user id tag := by
          rintro ⟨⟩
          exact hkey rfl
        simp only [NodeState.filled, Request.land, Set.mem_ofPred_eq, Set.mem_insert_iff, hne,
          false_or, Function.update_of_ne hkey]

/-- The slots after one step of a restoration or one creation. -/
def SlotsFrom (slots : Set NodeSlot) (s s' : NodeState) : Prop :=
  s.filled ⊆ s'.filled ∧ ∀ k ∈ s'.filled, k ∈ s.filled ∨ k ∈ slots

lemma SlotsFrom.refl (slots : Set NodeSlot) (s : NodeState) : SlotsFrom slots s s :=
  ⟨subset_rfl, fun _ hk => .inl hk⟩

lemma SlotsFrom.trans {slots : Set NodeSlot} {s s₁ s' : NodeState} (h : SlotsFrom slots s s₁)
    (h' : SlotsFrom slots s₁ s') : SlotsFrom slots s s' := by
  refine ⟨h.1.trans h'.1, fun k hk => ?_⟩
  rcases h'.2 k hk with hbefore | hnew
  · exact h.2 k hbefore
  · exact .inr hnew

lemma SlotsFrom.mono {slots slots' : Set NodeSlot} {s s' : NodeState} (h : SlotsFrom slots s s')
    (hsub : slots ⊆ slots') : SlotsFrom slots' s s' :=
  ⟨h.1, fun k hk => (h.2 k hk).imp_right fun hslot => hsub hslot⟩

lemma SlotsFrom.of_insert {slots : Set NodeSlot} {s s' : NodeState} {k : NodeSlot} (hk : k ∈ slots)
    (h : s'.filled = insert k s.filled) : SlotsFrom slots s s' := by
  refine ⟨h ▸ Set.subset_insert k s.filled, fun k' hk' => ?_⟩
  rw [h] at hk'
  rcases hk' with rfl | hbefore
  · exact .inr hk
  · exact .inl hbefore

/-- One connection of `restore_wg_connections`; an error is logged only. -/
def restoreWgConnection (ctx : NodeCtx) (c : Base) (ok : Bool) (s : NodeState) : NodeState :=
  match c.proto.wg with
  | none => s
  | some wg =>
      if !ctx.wgClient then s
      else match ctx.pubkey wg.keys with
        | .error _ => s
        | .ok pubkey =>
            if ok then { s with peers := Function.update s.peers pubkey (some wg.address) } else s

/-- One connection of `restore_xray_connections`; an error is logged only. -/
def restoreXrayConnection (ctx : NodeCtx) (id : Uuid) (c : Base) (ok : Bool) (s : NodeState) :
    NodeState :=
  if c.proto.proto.isXray && ctx.handlerClient && ok then
    let password := if c.proto.proto = .shadowsocks then c.proto.password else none
    (Request.addUser id c.proto.proto password).land s
  else s

/-- Both, for the connections of the memory that are listed with the outcome of their
calls. -/
def restoreConnections (ctx : NodeCtx) (calls : List (Uuid × Bool)) (s : NodeState) : NodeState :=
  calls.foldl (fun s call => match s.memory call.1 with
    | some c => restoreXrayConnection ctx call.1 c call.2 (restoreWgConnection ctx c call.2 s)
    | none => s) s

@[simp] lemma restoreWgConnection_memory (ctx : NodeCtx) (c : Base) (ok : Bool) (s : NodeState) :
    (restoreWgConnection ctx c ok s).memory = s.memory := by
  rw [restoreWgConnection]
  cases c.proto.wg with
  | none => rfl
  | some wg =>
      cases hkey : ctx.pubkey wg.keys with
      | error _ => simp only [hkey, ite_self]
      | ok pubkey =>
          simp only [hkey]
          split_ifs
          · rfl
          · rfl
          · rfl

@[simp] lemma restoreXrayConnection_memory (ctx : NodeCtx) (id : Uuid) (c : Base) (ok : Bool)
    (s : NodeState) : (restoreXrayConnection ctx id c ok s).memory = s.memory := by
  rw [restoreXrayConnection]
  split <;> rfl

/-- The restored connections touch the backends only. -/
lemma restoreConnections_memory (ctx : NodeCtx) (calls : List (Uuid × Bool)) (s : NodeState) :
    (restoreConnections ctx calls s).memory = s.memory := by
  rw [restoreConnections]
  induction calls generalizing s with
  | nil => rfl
  | cons call calls ih =>
      rw [List.foldl_cons, ih]
      cases s.memory call.1 with
      | none => rfl
      | some c => simp

lemma slotsFrom_restoreWgConnection (ctx : NodeCtx) (id : Uuid) (c : Base) (ok : Bool)
    (s : NodeState) :
    SlotsFrom (nodeSlots ctx id c.proto.wg) s (restoreWgConnection ctx c ok s) := by
  rw [restoreWgConnection]
  cases hwg : c.proto.wg with
  | none => exact .refl _ s
  | some wg =>
      simp only
      cases hkey : ctx.pubkey wg.keys with
      | error _ => simp only [ite_self, SlotsFrom.refl]
      | ok pubkey =>
          simp only
          split_ifs
          · exact .refl _ s
          · exact .of_insert (.inr ⟨wg, pubkey, rfl, hkey, rfl⟩) (filled_peer s pubkey wg.address)
          · exact .refl _ s

lemma slotsFrom_restoreXrayConnection (ctx : NodeCtx) (id : Uuid) (c : Base) (ok : Bool)
    (s : NodeState) :
    SlotsFrom (nodeSlots ctx id c.proto.wg) s (restoreXrayConnection ctx id c ok s) := by
  rw [restoreXrayConnection]
  split
  · exact .of_insert (user_mem_nodeSlots ctx id _ _) (filled_addUser s id _ _)
  · exact .refl _ s

/-- The restored peers and users are those of connections of the memory. -/
lemma slotsFrom_restoreConnections (ctx : NodeCtx) (calls : List (Uuid × Bool)) (s : NodeState) :
    SlotsFrom {k | ∃ id b, s.memory id = some b ∧ k ∈ nodeSlots ctx id b.proto.wg} s
      (restoreConnections ctx calls s) := by
  rw [restoreConnections]
  induction calls generalizing s with
  | nil => exact .refl _ s
  | cons call calls ih =>
      rw [List.foldl_cons]
      cases hget : s.memory call.1 with
      | none =>
          simp only
          exact ih s
      | some c =>
          simp only
          have hsub : nodeSlots ctx call.1 c.proto.wg ⊆
              {k | ∃ id b, s.memory id = some b ∧ k ∈ nodeSlots ctx id b.proto.wg} :=
            fun k hk => ⟨call.1, c, hget, hk⟩
          have hwg := (slotsFrom_restoreWgConnection ctx call.1 c call.2 s).mono hsub
          have hxray := (slotsFrom_restoreXrayConnection ctx call.1 c call.2
            (restoreWgConnection ctx c call.2 s)).mono hsub
          have hrest := ih (restoreXrayConnection ctx call.1 c call.2
            (restoreWgConnection ctx c call.2 s))
          rw [restoreXrayConnection_memory, restoreWgConnection_memory] at hrest
          exact (hwg.trans hxray).trans hrest

/-- Requests to Xray leave the memory alone. -/
lemma landAll_memory (reqs : List Request) (s : NodeState) :
    (landAll reqs s).memory = s.memory := by
  induction reqs generalizing s with
  | nil => rfl
  | cons r reqs ih =>
      have hland : (r.land s).memory = s.memory := by cases r <;> rfl
      rw [landAll, List.foldl_cons]
      exact (ih (r.land s)).trans hland

/-- A creation that comes to the memory, with its slots. -/
lemma gains_add {ctx : NodeCtx} {msg : Message} {s s' : NodeState} {c : Base}
    (hmemory : s'.memory = (s.add msg.connId c).memory)
    (hslots : nodeSlots ctx msg.connId c.proto.wg ⊆ nodeSlots ctx msg.connId msg.wg)
    (hfilled : SlotsFrom (nodeSlots ctx msg.connId msg.wg) s s') :
    Gains (nodeSlots ctx) (Announced [msg]) s.memory s'.memory s.filled s'.filled := by
  refine Gains.of_add ⟨msg, List.mem_singleton_self msg, rfl, rfl⟩ (fun id' => ?_) hslots hfilled.1
    hfilled.2
  rw [hmemory]
  exact Function.update_apply s.memory msg.connId _ id'

/-- A creation for Xray adds at most its connection and its user. -/
lemma gains_createXray (ctx : NodeCtx) (msg : Message) {proto : Proto} (hproto : proto.wg = none)
    (password : Option String) (g : Given) (s : NodeState) :
    Gains (nodeSlots ctx) (Announced [msg]) s.memory
      (createXray ctx msg proto password g s).1.memory
      s.filled (createXray ctx msg proto password g s).1.filled := by
  rw [createXray]
  split_ifs
  · exact .refl _ _ _
  · refine gains_add (c := msg.toBase proto g.now) rfl ?_
      (.of_insert (user_mem_nodeSlots ctx msg.connId msg.tag msg.wg)
        (filled_addUser s _ _ password))
    show nodeSlots ctx msg.connId proto.wg ⊆ _
    rw [hproto]
    exact nodeSlots_none_subset ctx msg.connId msg.wg
  · exact .refl _ _ _

/-- A creation for WireGuard adds its connection and at most its peer. -/
lemma gains_createWg (ctx : NodeCtx) (msg : Message) (g : Given) (s : NodeState) :
    Gains (nodeSlots ctx) (Announced [msg]) s.memory (createWg ctx msg g s).1.memory
      s.filled (createWg ctx msg g s).1.filled := by
  rw [createWg]
  cases hwg : msg.wg with
  | none => exact .refl _ _ _
  | some wg =>
      have hadd : ∀ {s' : NodeState},
          s'.memory = (s.add msg.connId (msg.toBase (.wireguard wg) g.now)).memory →
          SlotsFrom (nodeSlots ctx msg.connId msg.wg) s s' →
          Gains (nodeSlots ctx) (Announced [msg]) s.memory s'.memory s.filled s'.filled :=
        fun hmemory hfilled => gains_add hmemory (hwg ▸ subset_rfl) hfilled
      dsimp only
      cases hkey : ctx.pubkey wg.keys with
      | error e =>
          dsimp only
          split_ifs
          all_goals exact hadd rfl (.refl _ s)
      | ok pubkey =>
          dsimp only
          split_ifs
          · exact hadd rfl (.refl _ s)
          · exact hadd rfl (.refl _ s)
          · exact hadd rfl (.of_insert (.inr ⟨wg, pubkey, hwg, hkey, rfl⟩)
              (filled_peer (s.add msg.connId _) pubkey wg.address))
          · exact hadd rfl (.refl _ s)

/-- A creation adds at most its connection and its slots. -/
lemma gains_handleMessage {ctx : NodeCtx} {msg : Message} {g : Given} {s : NodeState}
    (h : msg.action = .create) :
    Gains (nodeSlots ctx) (Announced [msg]) s.memory (handleMessage ctx msg g s).1.memory
      s.filled (handleMessage ctx msg g s).1.filled := by
  rw [handleMessage, h]
  cases msg.tag with
  | wireguard => exact gains_createWg ctx msg g s
  | shadowsocks =>
      cases msg.password with
      | none => exact .refl _ _ _
      | some password => exact gains_createXray ctx msg rfl _ g s
  | hysteria2 => exact .refl _ _ _
  | mtproto => exact .refl _ _ _
  | _ => exact gains_createXray ctx msg rfl _ g s

/-- A list of creations adds at most their connections and slots. -/
lemma gains_handleEach {ctx : NodeCtx} {items : List Item} {msgs : List Message}
    (h : ∀ it ∈ items, it.1.action = .create ∧ it.1 ∈ msgs) (s : NodeState) :
    Gains (nodeSlots ctx) (Announced msgs) s.memory (handleEach ctx items s).memory
      s.filled (handleEach ctx items s).filled := by
  induction items generalizing s with
  | nil => exact .refl _ _ _
  | cons it items ih =>
      obtain ⟨hcreate, hmem⟩ := h it List.mem_cons_self
      have hone : Gains (nodeSlots ctx) (Announced msgs) s.memory
          (handleMessage ctx it.1 it.2 s).1.memory s.filled
            (handleMessage ctx it.1 it.2 s).1.filled := by
        refine (gains_handleMessage hcreate).mono ?_
        rintro id wg ⟨msg, hmsg, hid⟩
        rw [List.mem_singleton.mp hmsg] at hid
        exact ⟨it.1, hmem, hid⟩
      exact hone.trans (ih (fun it' hit' => h it' (List.mem_cons_of_mem it hit')) _)

lemma mem_requests_of_firstRequest {it : Item} {r : Request} (h : r ∈ firstRequest it) :
    r ∈ requests it.1 it.2 := by
  rw [firstRequest] at h
  cases haction : it.1.action with
  | resetStat =>
      simp only [haction] at h
      split_ifs at h with hok
      · rw [List.mem_singleton.mp h, requests, haction, resetRequests]
        exact List.mem_map_of_mem (List.mem_filter.mpr ⟨by simp, hok⟩)
      · cases h
  | _ => simpa only [haction] using h

/-- The requests that may have reached Xray are those of messages. -/
def LandsFrom (items : List Item) (landings : List (List Request)) : Prop :=
  ∀ reqs ∈ landings, ∀ r ∈ reqs, ∃ it ∈ items, r ∈ requests it.1 it.2

lemma landsFrom_inFlight (ctx : NodeCtx) (items : List Item) :
    LandsFrom items (inFlight ctx items) := by
  intro reqs hreqs r hr
  have hmem := (List.mem_sublists.mp hreqs).subset hr
  rcases List.mem_append.mp hmem with hmem | hmem
  all_goals
    obtain ⟨it, hit, hrequest⟩ := List.mem_flatMap.mp hmem
    have hit := List.mem_of_mem_filter (List.mem_of_mem_filter (List.mem_of_mem_take hit))
    exact ⟨it, hit, mem_requests_of_firstRequest hrequest⟩

lemma landsFrom_partlyReset (ctx : NodeCtx) (items : List Item) :
    LandsFrom items (partlyReset ctx items) := by
  intro reqs hreqs r hr
  obtain ⟨it, hit, hrequest⟩ := List.mem_flatMap.mp (((List.mem_inits _ _).mp hreqs).subset hr)
  exact ⟨it, List.mem_of_mem_filter (List.mem_of_mem_filter hit), hrequest⟩

/-- A batch finishes some of its messages, and of others requests may have reached Xray. -/
lemma exists_finished (ctx : NodeCtx) (items : List Item) (s : NodeState) :
    ∃ done, (∀ it ∈ done, it ∈ items) ∧ (stop ctx items s).state = handleEach ctx done s ∧
      LandsFrom items (stop ctx items s).landings := by
  rcases allOk_or_firstFailure (handle ctx) (waits ctx) items s with hok | ⟨pre, it, post, hfirst⟩
  · rcases allOk_or_firstFailure (handle ctx) (fun _ => false) (handlers ctx items)
      (handleEach ctx (immediate ctx items) s) with hok' | ⟨pre, it, post, hfirst⟩
    · simp only [Bool.not_false, List.filter_true] at hok'
      have hstop := stop_of_noFailure hok hok'
      refine ⟨_, fun it hit => mem_of_mem_lanes hit, congrArg Stop.state hstop, ?_⟩
      rw [hstop]
      intro reqs hreqs r hr
      rw [List.mem_singleton.mp hreqs] at hr
      cases hr
    · have hstop := stop_of_answer hok hfirst
      refine ⟨_, fun it' hit => ?_, congrArg Stop.state hstop, ?_⟩
      · have hlanes : it' ∈ immediate ctx items ++ (handlers ctx items ++ resets ctx items) := by
          rw [← answer_split hfirst]
          exact List.mem_append_left _ hit
        exact mem_of_mem_lanes hlanes
      · rw [hstop]
        exact landsFrom_partlyReset ctx items
  · have hstop := stop_of_firstPoll hfirst
    have hpre : ∀ it' ∈ pre, it' ∈ items := fun it' hit => by
      rw [hfirst.split]
      exact List.mem_append_left _ hit
    refine ⟨_, fun it' hit => ?_, congrArg Stop.state hstop, ?_⟩
    · rcases List.mem_append.mp hit with hit | hit
      · exact hpre it' (List.mem_of_mem_filter hit)
      · rw [hfirst.split, List.mem_singleton.mp hit]
        exact List.mem_append_right _ List.mem_cons_self
    · rw [hstop]
      intro reqs hreqs r hr
      obtain ⟨it', hit', hrequest⟩ := landsFrom_inFlight ctx pre reqs hreqs r hr
      exact ⟨it', hpre it' hit', hrequest⟩

/-- Requests of creations add their users. -/
lemma gains_landAll {ctx : NodeCtx} {msgs : List Message} {reqs : List Request} (s : NodeState)
    (h : ∀ r ∈ reqs, ∃ msg ∈ msgs, ∃ tag password, r = .addUser msg.connId tag password) :
    Gains (nodeSlots ctx) (Announced msgs) s.memory (landAll reqs s).memory
      s.filled (landAll reqs s).filled := by
  induction reqs generalizing s with
  | nil => exact .refl _ _ _
  | cons r reqs ih =>
      obtain ⟨msg, hmsg, tag, password, rfl⟩ := h r List.mem_cons_self
      have hone : Gains (nodeSlots ctx) (Announced msgs) s.memory s.memory s.filled
          ((Request.addUser msg.connId tag password).land s).filled := by
        refine ⟨fun hget => hget, fun hget => .inl hget, ?_, fun {k} hk => ?_⟩
        · rw [filled_addUser]
          exact Set.subset_insert _ _
        · rw [filled_addUser] at hk
          rcases hk with rfl | hk
          · exact .inr ⟨_, _, ⟨msg, hmsg, rfl, rfl⟩, user_mem_nodeSlots ctx _ _ _⟩
          · exact .inl hk
      have hrest := ih ((Request.addUser msg.connId tag password).land s)
        fun r' hr' => h r' (List.mem_cons_of_mem _ hr')
      exact hone.trans hrest

/-- A batch of creations adds at most their connections and slots. -/
lemma gains_handleMessagesBatch {ctx : NodeCtx} {items : List Item} {s s' : NodeState}
    (h : HandleMessagesBatch ctx items s s') (hcreate : ∀ it ∈ items, it.1.action = .create) :
    Gains (nodeSlots ctx) (Announced (items.map Prod.fst)) s.memory s'.memory
      s.filled s'.filled := by
  obtain ⟨reqs, hreqs, rfl⟩ := h
  obtain ⟨done, hsub, hstate, hlands⟩ := exists_finished ctx items s
  have hdone : Gains (nodeSlots ctx) (Announced (items.map Prod.fst)) s.memory
      (handleEach ctx done s).memory s.filled (handleEach ctx done s).filled :=
    gains_handleEach (fun it hit => ⟨hcreate it (hsub it hit), List.mem_map_of_mem (hsub it hit)⟩) s
  rw [← hstate] at hdone
  refine hdone.trans (gains_landAll _ fun r hr => ?_)
  obtain ⟨it, hit, hrequest⟩ := hlands reqs hreqs r hr
  refine ⟨it.1, List.mem_map_of_mem hit, ?_⟩
  simp only [requests, hcreate it hit] at hrequest
  by_cases hok : it.2.ok = true
  · rw [if_pos hok] at hrequest
    exact ⟨_, _, List.mem_singleton.mp hrequest⟩
  · rw [if_neg hok] at hrequest
    cases hrequest

/-- A creation that succeeds leaves its connection in the memory. -/
lemma held_of_handle {ctx : NodeCtx} {it : Item} {s : NodeState} (hcreate : it.1.action = .create)
    (hok : (handle ctx it s).2 = true) : (handle ctx it s).1.memory it.1.connId ≠ none := by
  have hadd : ∀ (s : NodeState) (c : Base), (s.add it.1.connId c).memory it.1.connId ≠ none := by
    intro s c
    simp [NodeState.add]
  have hxray : ∀ proto password, (createXray ctx it.1 proto password it.2 s).2.isOk = true →
      (createXray ctx it.1 proto password it.2 s).1.memory it.1.connId ≠ none := by
    intro proto password hok
    rw [createXray] at hok ⊢
    split_ifs at hok ⊢
    · cases hok
    · exact hadd _ _
    · cases hok
  have hwg : (createWg ctx it.1 it.2 s).2.isOk = true →
      (createWg ctx it.1 it.2 s).1.memory it.1.connId ≠ none := by
    intro hok
    cases hkeys : it.1.wg with
    | none =>
        rw [createWg, hkeys] at hok
        cases hok
    | some wg =>
        -- the memory is written before anything can fail
        have hmemory : (createWg ctx it.1 it.2 s).1.memory =
            (s.add it.1.connId (it.1.toBase (.wireguard wg) it.2.now)).memory := by
          simp only [createWg, hkeys]
          cases ctx.pubkey wg.keys with
          | error _ =>
              simp only
              split_ifs
              · rfl
              · rfl
          | ok pubkey =>
              simp only
              split_ifs
              · rfl
              · rfl
              · rfl
              · rfl
        rw [hmemory]
        exact hadd _ _
  rw [handle, handleMessage, hcreate] at hok ⊢
  simp only at hok ⊢
  cases htag : it.1.tag with
  | wireguard =>
      rw [htag] at hok
      exact hwg hok
  | shadowsocks =>
      rw [htag] at hok
      cases hpassword : it.1.password with
      | none =>
          rw [hpassword] at hok
          cases hok
      | some password =>
          rw [hpassword] at hok
          exact hxray _ _ hok
  | hysteria2 =>
      rw [htag] at hok
      cases hok
  | mtproto =>
      rw [htag] at hok
      cases hok
  | _ =>
      rw [htag] at hok
      exact hxray _ _ hok

/-- Creations lose no connection. -/
lemma held_handleEach {ctx : NodeCtx} {items : List Item} {s : NodeState} {id : Uuid}
    (hcreate : ∀ it ∈ items, it.1.action = .create) (h : s.memory id ≠ none) :
    (handleEach ctx items s).memory id ≠ none := by
  have hgains : Gains (nodeSlots ctx) (Announced (items.map Prod.fst)) s.memory
      (handleEach ctx items s).memory s.filled (handleEach ctx items s).filled :=
    gains_handleEach (fun it hit => ⟨hcreate it hit, List.mem_map_of_mem hit⟩) s
  exact (hgains.grows id).1 h

/-- Creations that succeed one after the other leave their connections in the memory. -/
lemma held_of_allOk {ctx : NodeCtx} {items : List Item} {s : NodeState}
    (hcreate : ∀ it ∈ items, it.1.action = .create) (hok : AllOk (handle ctx) items s) {it : Item}
    (hit : it ∈ items) : (handleEach ctx items s).memory it.1.connId ≠ none := by
  induction items generalizing s with
  | nil => exact absurd hit List.not_mem_nil
  | cons head items ih =>
      obtain ⟨hhead, htail⟩ := hok
      have hrest : ∀ it ∈ items, it.1.action = .create := fun it' hit' =>
        hcreate it' (List.mem_cons_of_mem head hit')
      rcases List.mem_cons.mp hit with rfl | hit
      · have hheld := held_of_handle (hcreate it List.mem_cons_self) hhead
        have hlater : (handleEach ctx items (handle ctx it s).1).memory it.1.connId ≠ none :=
          held_handleEach hrest hheld
        exact hlater
      · exact ih hrest htail hit

/-- A batch of creations that succeeds leaves all its connections in the memory. -/
lemma held_of_succeeds {ctx : NodeCtx} {items : List Item} {s s' : NodeState}
    (h : HandleMessagesBatch ctx items s s') (hok : succeeds ctx items s = true)
    (hcreate : ∀ it ∈ items, it.1.action = .create) {it : Item} (hit : it ∈ items) :
    s'.memory it.1.connId ≠ none := by
  obtain ⟨hpoll, hanswer⟩ := allOk_of_succeeds hok
  obtain ⟨reqs, -, rfl⟩ := h
  -- a creation is no reset: the waiting messages wait for the handler client
  have hreset : ∀ it' ∈ waiting ctx items, isReset it' = false := by
    intro it' hit'
    simp [isReset, hcreate it' (List.mem_of_mem_filter hit')]
  have hresets : resets ctx items = [] :=
    List.filter_eq_nil_iff.mpr fun it' hit' => by simp [hreset it' hit']
  have hhandlers : handlers ctx items = waiting ctx items :=
    List.filter_eq_self.mpr fun it' hit' => by simp [hreset it' hit']
  rw [hhandlers] at hanswer
  rw [landAll_memory, stop_of_noFailure hpoll (hhandlers ▸ hanswer), hresets, hhandlers,
    List.append_nil, handleEach_append]
  have hwaiting : ∀ it' ∈ waiting ctx items, it'.1.action = .create := fun it' hit' =>
    hcreate it' (List.mem_of_mem_filter hit')
  by_cases hwaits : waits ctx it = true
  · exact held_of_allOk hwaiting hanswer (List.mem_filter.mpr ⟨hit, hwaits⟩)
  · refine held_handleEach hwaiting (held_of_allOk ?_ hpoll ?_)
    · exact fun it' hit' => hcreate it' (List.mem_of_mem_filter hit')
    · exact List.mem_filter.mpr ⟨hit, by simpa using hwaits⟩

/-- A node: it syncs the tags of its inbounds that are not authenticated elsewhere. -/
def nodeProcess (ctx : NodeCtx) (inbounds : List Tag) (env : Env) (uuid : Uuid) : Process where
  State := NodeState
  Memory := Uuid → Option Base
  memory s := s.memory
  find m := m
  blank _ := none
  env := env
  uuid := uuid
  tags := inbounds.filter fun tag => tag != .hysteria2 && tag != .mtproto
  hears topic := topic == .updates env || topic == .init uuid
  Load m s s' := ∃ calls, s' = restoreConnections ctx calls { s with memory := m }
  Handle msgs s s' := ∃ items : List Item, items.map Prod.fst = msgs ∧
    HandleMessagesBatch ctx items s s'
  Accepts _ _ _ := False
  Slot := NodeSlot
  slots := nodeSlots ctx
  filled s := s.filled
  load_memory := by
    rintro m s s' ⟨calls, rfl⟩
    exact restoreConnections_memory ctx calls _
  load_filled := by
    rintro m s s' ⟨calls, rfl⟩
    exact slotsFrom_restoreConnections ctx calls { s with memory := m }
  handle_creations := by
    rintro msgs s s' ⟨items, rfl, hbatch⟩ hcreate
    exact gains_handleMessagesBatch hbatch fun it hit => hcreate it.1 (List.mem_map_of_mem hit)
  find_accepts := fun h => h.elim

/-! ### The auth service -/

/-- One message of the auth service; `add` has no error, that of `remove` is
ignored. -/
def authHandleMessage (msg : Message) (now : DateTime) (t : Connections Base) : Connections Base :=
  match msg.action with
  | .create | .update => match msg.token with
      | some token => (t.add msg.connId (msg.toBase (.hysteria2 token) now)).1
      | none => t
  | .delete => match t.remove msg.connId with
      | .ok t => t
      | .error _ => t
  | .resetStat => t

/-- `handle_messages_batch` of the auth service, the messages with the time of their
handling. -/
def authHandleMessagesBatch (items : List (Message × DateTime)) (t : Connections Base) :
    Connections Base :=
  items.foldl (fun t it => authHandleMessage it.1 it.2 t) t

/-- The auth service has no slots: it answers for tokens. -/
def noSlots (_ : Uuid) (_ : Option WgParam) : Set Empty := ∅

lemma gains_authHandleMessage {msg : Message} {now : DateTime} {t : Connections Base}
    (h : msg.action = .create) :
    Gains noSlots (Announced [msg]) t.get (authHandleMessage msg now t).get ∅ ∅ := by
  rw [authHandleMessage, h]
  cases msg.token with
  | none => exact .refl _ _ _
  | some token =>
      refine Gains.of_add (c := msg.toBase (.hysteria2 token) now)
        ⟨msg, List.mem_singleton_self msg, rfl, rfl⟩ (fun id' => ?_) (Set.empty_subset _) subset_rfl
        fun _ hk => .inl hk
      exact Table.get_vacant t msg.connId id' _

/-- A batch of creations adds at most their connections. -/
lemma gains_authHandleMessagesBatch {items : List (Message × DateTime)} {msgs : List Message}
    (h : ∀ it ∈ items, it.1.action = .create ∧ it.1 ∈ msgs) (t : Connections Base) :
    Gains noSlots (Announced msgs) t.get (authHandleMessagesBatch items t).get ∅ ∅ := by
  induction items generalizing t with
  | nil => exact .refl _ _ _
  | cons it items ih =>
      obtain ⟨hcreate, hmem⟩ := h it List.mem_cons_self
      have hone : Gains noSlots (Announced msgs) t.get (authHandleMessage it.1 it.2 t).get ∅ ∅ := by
        refine (gains_authHandleMessage hcreate).mono ?_
        rintro id wg ⟨msg, hmsg, hid⟩
        rw [List.mem_singleton.mp hmsg] at hid
        exact ⟨it.1, hmem, hid⟩
      exact hone.trans (ih (fun it' hit' => h it' (List.mem_cons_of_mem it hit')) _)

/-- The auth service: it syncs Hysteria2 and answers for tokens. -/
def authProcess (env : Env) (uuid : Uuid) : Process where
  State := Connections Base
  Memory := Connections Base
  memory t := t
  find t := t.get
  blank := ∅
  env := env
  uuid := uuid
  tags := [.hysteria2]
  hears topic := topic == .auth || topic == .init uuid
  Load m _ s' := s' = m
  Handle msgs t t' := ∃ items : List (Message × DateTime),
    items.map Prod.fst = msgs ∧ t' = authHandleMessagesBatch items t
  Accepts t token id := ∃ order, t.validateToken order token = some id
  Slot := Empty
  slots := noSlots
  filled _ := ∅
  load_memory h := h
  load_filled _ := ⟨subset_rfl, fun _ hk => .inl hk⟩
  handle_creations := by
    rintro msgs t t' ⟨items, rfl, rfl⟩ hcreate
    refine gains_authHandleMessagesBatch (fun it hit => ?_) t
    exact ⟨hcreate it.1 (List.mem_map_of_mem hit), List.mem_map_of_mem hit⟩
  find_accepts := by
    rintro t token id ⟨order, hvalid⟩
    obtain ⟨c, hget, -⟩ := Connections.validateToken_some hvalid
    exact Option.ne_none_iff_exists'.mpr ⟨c, hget⟩

/-- The processes. -/
inductive Service where
  | node (ctx : NodeCtx) (inbounds : List Tag) (env : Env) (uuid : Uuid)
  | auth (env : Env) (uuid : Uuid)

/-- What a process is for the outside. -/
def Service.process : Service → Process
  | node ctx inbounds env uuid => nodeProcess ctx inbounds env uuid
  | auth env uuid => authProcess env uuid

/-! ### Connections rebuilt from their messages -/

/-- The protocols that a node handles. -/
def Proto.onNode : Proto → Bool
  | .wireguard _ | .shadowsocks _ => true
  | .xray tag => tag.isXray && tag != .shadowsocks
  | .hysteria2 _ | .mtproto _ => false

/-- The record has the protocol with its parameters, the expiry and the subscription of
the connection. -/
def Rebuilds (b : Base) (c : Conn) : Prop :=
  b.proto = (Base.ofConn c).proto ∧ b.expiresAt = (Base.ofConn c).expiresAt ∧
    b.subscriptionId = (Base.ofConn c).subscriptionId

/-- The record of a message has what the message was made from. -/
lemma rebuilds_toBase (c : Conn) (action : Action) (id : Uuid) (now : DateTime) :
    Rebuilds ((c.asMessage action id).toBase c.proto now) c := by
  refine ⟨rfl, ?_, rfl⟩
  show (c.expiresAt.map RkyvDateTime.ofDateTime).map RkyvDateTime.toDateTime = c.expiresAt
  cases c.expiresAt with
  | none => rfl
  | some t => exact congrArg some (RkyvDateTime.toDateTime_ofDateTime t)

/-- A creation of a WireGuard connection comes to the memory before anything else. -/
lemma memory_createWg {ctx : NodeCtx} {msg : Message} {wg : WgParam} (hwg : msg.wg = some wg)
    (g : Given) (s : NodeState) : (createWg ctx msg g s).1.memory =
      (s.add msg.connId (msg.toBase (.wireguard wg) g.now)).memory := by
  rw [createWg, hwg]
  dsimp only
  cases hkey : ctx.pubkey wg.keys with
  | error e =>
      dsimp only
      split_ifs
      all_goals rfl
  | ok pubkey =>
      dsimp only
      split_ifs
      all_goals rfl

/-- A creation of an Xray connection comes to the memory when Xray has taken it. -/
lemma memory_createXray (ctx : NodeCtx) (msg : Message) (proto : Proto) (password : Option String)
    (g : Given) (s : NodeState) : (createXray ctx msg proto password g s).1.memory =
      if ctx.handlerClient = true ∧ g.ok = true then
        (s.add msg.connId (msg.toBase proto g.now)).memory
      else s.memory := by
  rw [createXray]
  cases ctx.handlerClient with
  | false => rfl
  | true =>
      cases g.ok with
      | false => rfl
      | true => rfl

/-- What a published creation or update does to the memory of a node. -/
lemma memory_handle_published {c : Conn} (hproto : c.proto.onNode = true) {action : Action}
    (haction : action = .create ∨ action = .update) (id : Uuid) (ctx : NodeCtx) (g : Given)
    (s : NodeState) : (handleMessage ctx (c.asMessage action id) g s).1.memory =
      if c.proto.wg.isSome ∨ ctx.handlerClient = true ∧ g.ok = true then
        (s.add id ((c.asMessage action id).toBase c.proto g.now)).memory
      else s.memory := by
  obtain ⟨env, proto, subscriptionId, createdAt, modifiedAt, expiresAt, isDeleted⟩ := c
  cases proto with
  | wireguard wg =>
      simp only [Proto.wg, Option.isSome_some, true_or, if_true]
      rcases haction with rfl | rfl
      · exact memory_createWg rfl g s
      · exact memory_createWg rfl g s
  | shadowsocks password =>
      simp only [Proto.wg, Option.isSome_none, Bool.false_eq_true, false_or]
      rcases haction with rfl | rfl
      · exact memory_createXray ctx _ _ _ g s
      · exact memory_createXray ctx _ _ _ g s
  | xray tag =>
      simp only [Proto.wg, Option.isSome_none, Bool.false_eq_true, false_or]
      rcases haction with rfl | rfl
      all_goals
        cases tag with
        | vlessTcpReality => exact memory_createXray ctx _ _ _ g s
        | vlessGrpcReality => exact memory_createXray ctx _ _ _ g s
        | vlessXhttpReality => exact memory_createXray ctx _ _ _ g s
        | vmess => exact memory_createXray ctx _ _ _ g s
        | _ => cases hproto
  | hysteria2 token => exact absurd hproto Bool.false_ne_true
  | mtproto secret => exact absurd hproto Bool.false_ne_true

/-- **A published message rebuilds its connection**: whatever a node stores into an empty
memory from the creation or update message of a connection that it handles is the record of
this connection, and so is what the auth service stores for Hysteria2.  A node stores
WireGuard connections always, the others when Xray takes the user. -/
theorem message_rebuilds {c : Conn} {id : Uuid} {msg : Message}
    (hmsg : msg = c.asCreateMessage id ∨ msg = c.asUpdateMessage id) :
    (c.proto.onNode = true → ∀ ctx g s, (∀ id', s.memory id' = none) →
      (∀ id' b, (handleMessage ctx msg g s).1.memory id' = some b → id' = id ∧ Rebuilds b c) ∧
      (c.proto.wg.isSome ∨ ctx.handlerClient = true ∧ g.ok = true →
        ((handleMessage ctx msg g s).1.memory id).isSome)) ∧
    (c.proto.token.isSome → ∀ now, ∃ b,
      (authHandleMessagesBatch [(msg, now)] ∅).get id = some b ∧ Rebuilds b c) := by
  obtain ⟨action, haction, rfl⟩ : ∃ action, (action = .create ∨ action = .update) ∧
      msg = c.asMessage action id := by
    rcases hmsg with rfl | rfl
    · exact ⟨.create, Or.inl rfl, rfl⟩
    · exact ⟨.update, Or.inr rfl, rfl⟩
  constructor
  · intro hproto ctx g s hempty
    rw [memory_handle_published hproto haction]
    split_ifs with hstored
    · have hlookup : ∀ id', (s.add id ((c.asMessage action id).toBase c.proto g.now)).memory id' =
          if id' = id then some ((c.asMessage action id).toBase c.proto g.now) else none := by
        intro id'
        rw [NodeState.memory_add, hempty, hempty, Option.getD_none]
      refine ⟨fun id' b hb => ?_, fun _ => by rw [hlookup, if_pos rfl]; rfl⟩
      rw [hlookup] at hb
      split_ifs at hb with hid
      obtain rfl := Option.some.inj hb
      exact ⟨hid, rebuilds_toBase c action id g.now⟩
    · refine ⟨fun id' b hb => ?_, fun h => absurd h hstored⟩
      exact absurd (hb.symm.trans (hempty id')) (Option.some_ne_none b)
  · intro htoken now
    obtain ⟨env, proto, subscriptionId, createdAt, modifiedAt, expiresAt, isDeleted⟩ := c
    cases proto with
    | hysteria2 token =>
        refine ⟨_, ?_, rebuilds_toBase _ action id now⟩
        rcases haction with rfl | rfl
        · exact (Table.get_vacant ∅ id id _).trans (if_pos rfl)
        · exact (Table.get_vacant ∅ id id _).trans (if_pos rfl)
    | _ => cases htoken

/-- The update message of a Shadowsocks connection that expires, on a node with all
clients. -/
theorem message_rebuilds_shadowsocks :
    let c : Conn := ⟨.dev, .shadowsocks "secret", some 7, 1, 2, some 1700000000123456789, false⟩
    ∃ b, (handleMessage sampleNode (c.asUpdateMessage 3) vmessItem.2 .empty).1.memory 3 = some b ∧
      Rebuilds b c := by
  intro c
  have hmsg : c.asUpdateMessage 3 = c.asCreateMessage 3 ∨ c.asUpdateMessage 3 = c.asUpdateMessage 3 :=
    Or.inr rfl
  obtain ⟨hsame, hstored⟩ := (message_rebuilds hmsg).1 rfl sampleNode vmessItem.2 .empty fun _ => rfl
  obtain ⟨b, hb⟩ := Option.isSome_iff_exists.mp (hstored (Or.inr ⟨rfl, rfl⟩))
  exact ⟨b, hb, (hsame 3 b hb).2⟩

end Fcore
