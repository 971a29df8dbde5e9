import Fcore.Calculus.Table
import Fcore.Memory.Types
import Mathlib.Data.Fintype.Pi

/-!
Registered nodes (`src/memory/node.rs`, `src/config/inbound.rs`,
`src/memory/storage/node.rs`).

* `Node`, `Inbound`, `WireguardSettings`: the records; what only passes through as
  JSON stands as its text;
* `Nodes.add`, `Nodes.getById`: the storage, a list of nodes for each environment;
* `mem_nodesOf_add`: what a registration changes, `mem_nodesOf_addAll`: what a
  sequence of them leaves;
* `registered_once_iff`: no node is listed twice exactly if no node changes its
  environment.
-/

namespace Fcore

open Calculus

/-! ### Records -/

/-- `node::Status`. -/
inductive NodeStatus where
  | online
  | offline
  deriving DecidableEq, Repr

/-- `node::Type`. -/
inductive NodeType where
  | common
  | premium
  | service
  | agent
  deriving DecidableEq, Repr

/-- `inbound::StreamSettings`, as the JSON that is stored of it. -/
structure StreamSettings where
  json : String
  deriving DecidableEq, Repr

/-- `h2::H2Settings`, as the JSON that is stored of it. -/
structure H2Settings where
  json : String
  deriving DecidableEq, Repr

/-- `wireguard::WireguardSettings`. -/
structure WireguardSettings where
  keys : WgKeys
  interface : String
  address : IpAddrMask
  port : UInt16
  dns : List (BitVec 32)
  deriving DecidableEq, Repr

/-- `inbound::Inbound`. -/
structure Inbound where
  tag : Tag
  port : UInt16
  streamSettings : Option StreamSettings
  uplink : Option ℤ
  downlink : Option ℤ
  connCount : Option ℤ
  wg : Option WireguardSettings
  h2 : Option H2Settings
  mtprotoSecret : Option String
  deriving DecidableEq, Repr

instance : Fintype Tag where
  elems := {.vlessTcpReality, .vlessGrpcReality, .vlessXhttpReality, .vmess, .shadowsocks,
    .wireguard, .hysteria2, .mtproto}
  complete tag := by cases tag <;> decide

/-- `node::Node`. -/
structure Node where
  uuid : Uuid
  env : Env
  hostname : String
  address : BitVec 32
  status : NodeStatus
  label : String
  interface : String
  createdAt : DateTime
  modifiedAt : DateTime
  inbounds : Tag → Option Inbound
  cores : ℕ
  maxBandwidthBps : ℤ
  country : String
  type : NodeType
  deriving DecidableEq

/-! ### The storage -/

/-- `HashMap<Env, Vec<Node>>`. -/
abbrev Nodes := Table Env (List Node)

/-- The loop of `Operations::add` over the nodes of an environment: the first node of the
same identifier is replaced, else the new one comes last. -/
def addTo (newNode : Node) : List Node → List Node × Status
  | [] => ([newNode], .ok newNode.uuid)
  | node :: nodes =>
      if node.uuid = newNode.uuid then
        if node = newNode then (node :: nodes, .alreadyExist newNode.uuid)
        else (newNode :: nodes, .updated newNode.uuid)
      else (node :: (addTo newNode nodes).1, (addTo newNode nodes).2)

namespace Nodes

/-- `Operations::add`. -/
def add (t : Nodes) (newNode : Node) : Nodes × Status :=
  match t.get newNode.env with
  | some nodes => (t.put newNode.env (addTo newNode nodes).1, (addTo newNode nodes).2)
  | none => (t.put newNode.env [newNode], .ok newNode.uuid)

/-- `Operations::get`. -/
def getNode (t : Nodes) (env : Env) (uuid : Uuid) : Option Node :=
  (t.get env).bind fun nodes => nodes.find? (·.uuid == uuid)

/-- `Operations::get_by_id`: the first hit of the iteration. -/
def getById (t : Nodes) (order : List Env) (nodeId : Uuid) : Option Node :=
  ((t.iter order).flatMap Prod.snd).find? (·.uuid == nodeId)

/-- The nodes listed for an environment. -/
def nodesOf (t : Nodes) (env : Env) : List Node := (t.get env).getD []

/-- A sequence of registrations. -/
def addAll (t : Nodes) (nodes : List Node) : Nodes := nodes.foldl (fun t node => (t.add node).1) t

/-- No environment lists an identifier twice. -/
def Distinct (t : Nodes) : Prop := ∀ env, ((t.nodesOf env).map Node.uuid).Nodup

/-- An identifier occurs at most once over all environments. -/
def Once (t : Nodes) : Prop :=
  t.Distinct ∧ ∀ env env', ∀ node ∈ t.nodesOf env, ∀ node' ∈ t.nodesOf env',
    node.uuid = node'.uuid → env = env'

end Nodes

/-! ### One registration -/

/-- The identifiers of a list that is added to. -/
lemma map_uuid_addTo (newNode : Node) (nodes : List Node) :
    (addTo newNode nodes).1.map Node.uuid =
      if newNode.uuid ∈ nodes.map Node.uuid then nodes.map Node.uuid
      else nodes.map Node.uuid ++ [newNode.uuid] := by
  induction nodes with
  | nil => simp [addTo]
  | cons node nodes ih =>
      rw [addTo]
      by_cases hid : node.uuid = newNode.uuid
      · rw [if_pos hid]
        by_cases heq : node = newNode
        · simp [heq]
        · simp [heq, hid]
      · rw [if_neg hid, List.map_cons, List.map_cons, ih]
        by_cases hmem : newNode.uuid ∈ nodes.map Node.uuid
        · rw [if_pos hmem, if_pos (List.mem_cons_of_mem _ hmem)]
        · have hnot : newNode.uuid ∉ node.uuid :: nodes.map Node.uuid := by
            rw [List.mem_cons, not_or]
            exact ⟨fun h => hid h.symm, hmem⟩
          rw [if_neg hmem, if_neg hnot, List.cons_append]

lemma nodup_addTo (newNode : Node) {nodes : List Node} (h : (nodes.map Node.uuid).Nodup) :
    ((addTo newNode nodes).1.map Node.uuid).Nodup := by
  rw [map_uuid_addTo]
  split_ifs with hmem
  · exact h
  · exact List.nodup_append.mpr ⟨h, List.nodup_singleton _, by
      intro u hu v hv heq
      rw [List.mem_singleton.mp hv] at heq
      exact hmem (heq ▸ hu)⟩

/-- The nodes of a list that is added to: the new one, and the old ones of other
identifiers. -/
lemma mem_addTo {newNode node : Node} {nodes : List Node} (h : (nodes.map Node.uuid).Nodup) :
    node ∈ (addTo newNode nodes).1 ↔
      node = newNode ∨ node ∈ nodes ∧ node.uuid ≠ newNode.uuid := by
  induction nodes with
  | nil => simp [addTo]
  | cons first nodes ih =>
      rw [List.map_cons, List.nodup_cons] at h
      rw [addTo]
      by_cases hid : first.uuid = newNode.uuid
      · -- the others have other identifiers
        have hother : ∀ node ∈ nodes, node.uuid ≠ newNode.uuid := fun node hnode heq =>
          h.1 (List.mem_map.mpr ⟨node, hnode, heq.trans hid.symm⟩)
        have hlist : (if first = newNode then (first :: nodes, Status.alreadyExist newNode.uuid)
            else (newNode :: nodes, .updated newNode.uuid)).1 = newNode :: nodes := by
          split_ifs with heq
          · rw [heq]
          · rfl
        rw [if_pos hid, hlist, List.mem_cons, List.mem_cons]
        constructor
        · rintro (hnew | hold)
          · exact .inl hnew
          · exact .inr ⟨.inr hold, hother node hold⟩
        · rintro (hnew | ⟨rfl | hold, hne⟩)
          · exact .inl hnew
          · exact absurd hid hne
          · exact .inr hold
      · rw [if_neg hid, List.mem_cons, ih h.2, List.mem_cons]
        constructor
        · rintro (rfl | hnew | ⟨hold, hne⟩)
          · exact .inr ⟨.inl rfl, hid⟩
          · exact .inl hnew
          · exact .inr ⟨.inr hold, hne⟩
        · rintro (hnew | ⟨rfl | hold, hne⟩)
          · exact .inr (.inl hnew)
          · exact .inl rfl
          · exact .inr (.inr ⟨hold, hne⟩)

namespace Nodes

/-- Only the list of the environment changes. -/
lemma nodesOf_add (t : Nodes) (newNode : Node) (env : Env) :
    (t.add newNode).1.nodesOf env =
      if env = newNode.env then (addTo newNode (t.nodesOf newNode.env)).1 else t.nodesOf env := by
  rw [add, nodesOf, nodesOf]
  cases hget : t.get newNode.env with
  | none =>
      rw [Table.get_put]
      split_ifs <;> simp [nodesOf, addTo]
  | some nodes =>
      rw [Table.get_put]
      split_ifs <;> simp [nodesOf]

lemma Distinct.add {t : Nodes} (h : t.Distinct) (newNode : Node) : (t.add newNode).1.Distinct := by
  intro env
  rw [nodesOf_add]
  split_ifs
  · exact nodup_addTo newNode (h newNode.env)
  · exact h env

/-- What a registration changes. -/
lemma mem_nodesOf_add {t : Nodes} (h : t.Distinct) {newNode node : Node} {env : Env} :
    node ∈ (t.add newNode).1.nodesOf env ↔
      node = newNode ∧ env = newNode.env ∨
        node ∈ t.nodesOf env ∧ ¬ (env = newNode.env ∧ node.uuid = newNode.uuid) := by
  rw [nodesOf_add]
  split_ifs with henv
  · subst henv
    rw [mem_addTo (h newNode.env)]
    simp
  · simp [henv]

/-! ### Sequences of registrations -/

lemma distinct_empty : (∅ : Nodes).Distinct := fun env => by simp [nodesOf]

lemma Distinct.addAll {t : Nodes} (h : t.Distinct) (nodes : List Node) :
    (t.addAll nodes).Distinct := by
  induction nodes generalizing t with
  | nil => exact h
  | cons node nodes ih => exact ih (h.add node)

/-- Where an identifier is listed after some registrations: where it was before, and in
the environments it has registered for. -/
lemma exists_mem_nodesOf_addAll {t : Nodes} (h : t.Distinct) {nodes : List Node} {env : Env}
    {uuid : Uuid} :
    (∃ node ∈ (t.addAll nodes).nodesOf env, node.uuid = uuid) ↔
      (∃ node ∈ t.nodesOf env, node.uuid = uuid) ∨
        ∃ node ∈ nodes, node.env = env ∧ node.uuid = uuid := by
  induction nodes generalizing t with
  | nil => simp [Nodes.addAll]
  | cons new nodes ih =>
      have hadd : (∃ node ∈ (t.add new).1.nodesOf env, node.uuid = uuid) ↔
          (∃ node ∈ t.nodesOf env, node.uuid = uuid) ∨ new.env = env ∧ new.uuid = uuid := by
        constructor
        · rintro ⟨node, hmem, rfl⟩
          rcases (mem_nodesOf_add h).mp hmem with ⟨rfl, henv⟩ | ⟨hold, -⟩
          · exact .inr ⟨henv.symm, rfl⟩
          · exact .inl ⟨node, hold, rfl⟩
        · rintro (⟨node, hold, rfl⟩ | ⟨rfl, rfl⟩)
          · by_cases hsame : env = new.env ∧ node.uuid = new.uuid
            · exact ⟨new, (mem_nodesOf_add h).mpr (.inl ⟨rfl, hsame.1⟩), hsame.2.symm⟩
            · exact ⟨node, (mem_nodesOf_add h).mpr (.inr ⟨hold, hsame⟩), rfl⟩
          · exact ⟨new, (mem_nodesOf_add h).mpr (.inl ⟨rfl, rfl⟩), rfl⟩
      have hrest := ih (h.add new)
      rw [Nodes.addAll, List.foldl_cons]
      rw [Nodes.addAll] at hrest
      rw [hrest, hadd, List.exists_mem_cons_iff, or_assoc]

/-- Nodes of new and pairwise different identifiers are listed for their environments. -/
lemma mem_nodesOf_addAll {t : Nodes} (h : t.Distinct) {nodes : List Node}
    (hnodup : (nodes.map Node.uuid).Nodup)
    (hnew : ∀ node ∈ nodes, ∀ env, ∀ old ∈ t.nodesOf env, old.uuid ≠ node.uuid) {node : Node}
    {env : Env} :
    node ∈ (t.addAll nodes).nodesOf env ↔ node ∈ t.nodesOf env ∨ node ∈ nodes ∧ node.env = env := by
  induction nodes generalizing t with
  | nil => simp [Nodes.addAll]
  | cons first nodes ih =>
      rw [List.map_cons, List.nodup_cons] at hnodup
      rw [List.forall_mem_cons] at hnew
      have hmem : ∀ {node : Node} {env : Env}, node ∈ (t.add first).1.nodesOf env ↔
          node = first ∧ env = first.env ∨ node ∈ t.nodesOf env := by
        intro node env
        rw [mem_nodesOf_add h]
        refine or_congr_right ⟨fun hold => hold.1, fun hold => ⟨hold, ?_⟩⟩
        exact fun hsame => hnew.1 env node hold hsame.2
      have hrest : ∀ other ∈ nodes, ∀ env, ∀ old ∈ (t.add first).1.nodesOf env,
          old.uuid ≠ other.uuid := by
        intro other hother env old hold heq
        rcases hmem.mp hold with ⟨rfl, -⟩ | hold
        · exact hnodup.1 (List.mem_map.mpr ⟨other, hother, heq.symm⟩)
        · exact hnew.2 other hother env old hold heq
      have hall := ih (h.add first) hnodup.2 hrest
      rw [Nodes.addAll] at hall
      rw [Nodes.addAll, List.foldl_cons, hall, hmem, List.mem_cons]
      constructor
      · rintro ((⟨rfl, rfl⟩ | hold) | ⟨hother, henv⟩)
        · exact .inr ⟨.inl rfl, rfl⟩
        · exact .inl hold
        · exact .inr ⟨.inr hother, henv⟩
      · rintro (hold | ⟨rfl | hother, henv⟩)
        · exact .inl (.inr hold)
        · exact .inl (.inl ⟨rfl, henv.symm⟩)
        · exact .inr ⟨hother, henv⟩

/-- A node found by its identifier is one of those listed. -/
lemma getById_eq_some {t : Nodes} {order : List Env} {uuid : Uuid} {node : Node}
    (h : t.getById order uuid = some node) : (∃ env, node ∈ t.nodesOf env) ∧ node.uuid = uuid := by
  have hmem := List.mem_of_find?_eq_some h
  rw [List.mem_flatMap] at hmem
  obtain ⟨⟨env, nodes⟩, hiter, hnode⟩ := hmem
  refine ⟨⟨env, ?_⟩, by simpa using List.find?_some h⟩
  rw [nodesOf, Table.mem_iter.mp hiter]
  exact hnode

lemma getById_eq_none {t : Nodes} {order : List Env} {uuid : Uuid} {env : Env} {node : Node}
    (h : t.getById order uuid = none) (hnode : node ∈ t.nodesOf env) : node.uuid ≠ uuid := by
  have hlist : node ∈ (t.iter order).flatMap Prod.snd := by
    rw [nodesOf] at hnode
    cases hget : t.get env with
    | none => simp [hget] at hnode
    | some nodes =>
        rw [hget] at hnode
        exact List.mem_flatMap.mpr ⟨(env, nodes), Table.mem_iter.mpr hget, hnode⟩
  simpa using List.find?_eq_none.mp h node hlist

/-- Where an identifier occurs at most once the answer does not depend on the order. -/
lemma Once.getById_eq {t : Nodes} (h : t.Once) (order order' : List Env) (uuid : Uuid) :
    t.getById order uuid = t.getById order' uuid := by
  cases hfound : t.getById order uuid with
  | none =>
      cases hfound' : t.getById order' uuid with
      | none => rfl
      | some node =>
          obtain ⟨⟨env, hmem⟩, hid⟩ := getById_eq_some hfound'
          exact absurd hid (getById_eq_none hfound hmem)
  | some node =>
      obtain ⟨⟨env, hmem⟩, hid⟩ := getById_eq_some hfound
      cases hfound' : t.getById order' uuid with
      | none => exact absurd hid (getById_eq_none hfound' hmem)
      | some node' =>
          obtain ⟨⟨env', hmem'⟩, hid'⟩ := getById_eq_some hfound'
          obtain rfl := h.2 env env' node hmem node' hmem' (hid.trans hid'.symm)
          -- one list has no two nodes of one identifier
          rw [List.inj_on_of_nodup_map (h.1 env) hmem hmem' (hid.trans hid'.symm)]

end Nodes

/-- After any registrations every identifier occurs at most once, so that the order of the
iteration does not matter, exactly if no identifier registered for two environments. -/
theorem registered_once_iff (nodes : List Node) :
    ((Nodes.addAll ∅ nodes).Once ∧ ∀ order order' uuid,
      (Nodes.addAll ∅ nodes).getById order uuid = (Nodes.addAll ∅ nodes).getById order' uuid) ↔
      ∀ node ∈ nodes, ∀ node' ∈ nodes, node.uuid = node'.uuid → node.env = node'.env := by
  have hempty : ∀ env, Nodes.nodesOf ∅ env = [] := fun env => by simp [Nodes.nodesOf]
  have hlisted : ∀ env uuid, (∃ node ∈ (Nodes.addAll ∅ nodes).nodesOf env, node.uuid = uuid) ↔
      ∃ node ∈ nodes, node.env = env ∧ node.uuid = uuid := by
    intro env uuid
    rw [Nodes.exists_mem_nodesOf_addAll Nodes.distinct_empty, hempty]
    simp
  constructor
  · rintro ⟨honce, -⟩ node hnode node' hnode' hid
    obtain ⟨listed, hmem, heq⟩ := (hlisted node.env node.uuid).mpr ⟨node, hnode, rfl, rfl⟩
    obtain ⟨listed', hmem', heq'⟩ := (hlisted node'.env node'.uuid).mpr ⟨node', hnode', rfl, rfl⟩
    exact honce.2 _ _ listed hmem listed' hmem' (by rw [heq, heq', hid])
  · intro hsame
    have honce : (Nodes.addAll ∅ nodes).Once := by
      refine ⟨Nodes.distinct_empty.addAll nodes, ?_⟩
      intro env env' listed hmem listed' hmem' hid
      obtain ⟨node, hnode, rfl, heq⟩ := (hlisted env listed.uuid).mp ⟨listed, hmem, rfl⟩
      obtain ⟨node', hnode', rfl, heq'⟩ := (hlisted env' listed'.uuid).mp ⟨listed', hmem', rfl⟩
      exact hsame node hnode node' hnode' (by rw [heq, heq', hid])
    exact ⟨honce, fun order order' uuid => honce.getById_eq order order' uuid⟩

/-- A node without inbounds. -/
def bareNode (env : Env) : Node where
  uuid := 7
  env := env
  hostname := "node"
  address := 0x0A000001
  status := .online
  label := "node"
  interface := "eth0"
  createdAt := 0
  modifiedAt := 0
  inbounds _ := none
  cores := 1
  maxBandwidthBps := 100000000
  country := "NL"
  type := .common

/-- A node that moves from `dev` to `ru` is listed twice, and what is found under its
identifier depends on the order of the iteration. -/
theorem moved_node_twice : ¬ (Nodes.addAll ∅ [bareNode .dev, bareNode .ru]).Once ∧
    ((Nodes.addAll ∅ [bareNode .dev, bareNode .ru]).getById [.dev] 7).map Node.env = some .dev ∧
    ((Nodes.addAll ∅ [bareNode .dev, bareNode .ru]).getById [.ru] 7).map Node.env = some .ru := by
  have hdev : (Nodes.addAll ∅ [bareNode .dev, bareNode .ru]).nodesOf .dev = [bareNode .dev] := by
    decide
  have hru : (Nodes.addAll ∅ [bareNode .dev, bareNode .ru]).nodesOf .ru = [bareNode .ru] := by
    decide
  refine ⟨fun h => ?_, by decide, by decide⟩
  have hsame : Env.dev = Env.ru := by
    refine h.2 .dev .ru (bareNode .dev) ?_ (bareNode .ru) ?_ rfl
    · rw [hdev]
      exact List.mem_singleton_self _
    · rw [hru]
      exact List.mem_singleton_self _
  exact absurd hsame (by decide)

end Fcore
