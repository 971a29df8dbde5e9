import Fcore.Api.NodeRows
import Fcore.Metrics.Storage

/-!
The list of nodes (`get_nodes_handler`, `GET /nodes`).

A registration reads its environment with `serde`, the list is asked for with a query
parameter that goes through `Env::from`.

* `getNodesHandler`: the answer, with the metrics of the nodes;
* `NodeBody`: the body of a registration, its environment still a text;
* `answeredBodies`: the registrations of a sequence that succeed; `mem_listed_iff`: the nodes
  that a sequence leaves for an environment;
* `fromText_eq_deserialize_iff`: the texts that both decoders read alike;
* `lists_registered_iff`: exactly for these the list has the nodes that registered with
  the text.
-/

namespace Fcore

open Calculus

/-! ### The handler -/

/-- `node::NodeMetricInfo`. -/
structure NodeMetricInfo where
  key : String
  name : String
  tags : Tags
deriving DecidableEq

/-- `node::NodeResponse`. -/
structure NodeResponse where
  uuid : Uuid
  env : String
  hostname : String
  interface : String
  address : BitVec 32
  inbounds : List Tag
  status : NodeStatus
  label : String
  cores : ℕ
  maxBandwidthBps : ℤ
  metrics : List NodeMetricInfo
  country : String
  type : NodeType
deriving DecidableEq

/-- `Node::as_node_response`, the tags in the given order. -/
def Node.asNodeResponse (order : List Tag) (node : Node) : NodeResponse where
  uuid := node.uuid
  env := node.env.toText
  hostname := node.hostname
  interface := node.interface
  address := node.address
  inbounds := (order ++ Tag.all).dedup.filter fun tag => (node.inbounds tag).isSome
  status := node.status
  label := node.label
  cores := node.cores
  maxBandwidthBps := node.maxBandwidthBps
  metrics := []
  country := node.country
  type := node.type

/-- The series of a node that are shown: those of the system and of the network. -/
def nodeMetrics (metrics : MetricStorage) (order : List UInt64) (uuid : Uuid) :
    List NodeMetricInfo :=
  match metrics.inner.get uuid with
  | none => []
  | some nodeMetricsMap => (nodeMetricsMap.iter order).filterMap fun entry =>
      if entry.2.isEmpty then none
      else (metrics.metadata.get entry.1).bind fun m =>
        if m.1.startsWith "sys." || m.1.startsWith "net." then
          some { key := toString entry.1.toNat, name := m.1, tags := m.2 }
        else none

/-- The orders in which the hash maps of an answer are visited. -/
structure ListOrder where
  envs : List Env
  tags : List Tag
  series : List UInt64

/-- `Operations::all`. -/
def Nodes.all (t : Nodes) (order : List Env) : Option (List Node) :=
  let nodes := (t.iter order).flatMap Prod.snd
  if nodes.isEmpty then none else some nodes

/-- `get_nodes_handler`: the status, the message and the nodes. -/
def getNodesHandler (T : CaseTable) (order : ListOrder) (metrics : MetricStorage)
    (env : Option String) (nodes : Nodes) : ℕ × String × List NodeResponse :=
  let found := match env with
    | some env => nodes.get (Env.fromText T.toLowercase env)
    | none => nodes.all order.envs
  match found with
  | some nodes =>
      (200, "List of nodes with metrics", nodes.map fun node =>
        { node.asNodeResponse order.tags with
          metrics := nodeMetrics metrics order.series node.uuid })
  | none => (404, "List of nodes", [])

/-! ### Registrations -/

/-- The body of `POST /node`: the environment is a text in it. -/
structure NodeBody where
  env : String
  rest : NodeRequest

/-- The request that `serde` makes of the body. -/
def NodeBody.decode (body : NodeBody) : NodeRequest :=
  { body.rest with env := Env.deserialize body.env }

/-- The state after a sequence of registrations. -/
def registerBodies (ip : IpText) (bodies : List (NodeInput × NodeBody)) (s : NodeWorld) :
    NodeWorld :=
  registerAll ip (bodies.map fun r => (r.1, r.2.decode)) s

/-- The bodies of a sequence that are answered with success. -/
def answeredBodies (ip : IpText) : List (NodeInput × NodeBody) → NodeWorld → List NodeBody
  | [], _ => []
  | r :: bodies, s =>
      let out := postNodeHandler ip r.1 r.2.decode s
      if out.2.status = 200 then r.2 :: answeredBodies ip bodies out.1
      else answeredBodies ip bodies out.1

/-- The identifiers in an answer. -/
def listed (T : CaseTable) (order : ListOrder) (metrics : MetricStorage) (env : String)
    (s : NodeWorld) : List Uuid :=
  (getNodesHandler T order metrics (some env) s.memory).2.2.map NodeResponse.uuid

lemma listed_eq (T : CaseTable) (order : ListOrder) (metrics : MetricStorage) (env : String)
    (s : NodeWorld) : listed T order metrics env s =
      (s.memory.nodesOf (Env.fromText T.toLowercase env)).map Node.uuid := by
  rw [listed, getNodesHandler, Nodes.nodesOf]
  cases s.memory.get (Env.fromText T.toLowercase env) with
  | none => rfl
  | some nodes =>
      simp only [List.map_map, Option.getD_some]
      rfl

/-- The identifiers listed for an environment after an addition. -/
lemma Nodes.mem_map_uuid_add (t : Nodes) (node : Node) {env : Env} {uuid : Uuid} :
    uuid ∈ ((t.add node).1.nodesOf env).map Node.uuid ↔
      uuid ∈ (t.nodesOf env).map Node.uuid ∨ node.env = env ∧ node.uuid = uuid := by
  rw [nodesOf_add]
  split_ifs with henv
  · subst henv
    rw [map_uuid_addTo]
    split_ifs with hmem
    · refine ⟨Or.inl, ?_⟩
      rintro (hold | ⟨-, rfl⟩)
      · exact hold
      · exact hmem
    · rw [List.mem_append, List.mem_singleton, @eq_comm _ uuid]
      simp
  · simp [Ne.symm henv]

section

variable {ip : IpText} {i : NodeInput} {s : NodeWorld}

lemma map_uuid_updateNodeStatus (uuid : Uuid) (env env' : Env) (status : NodeStatus) :
    ((updateNodeStatus i uuid env status s).memory.nodesOf env').map Node.uuid =
      (s.memory.nodesOf env').map Node.uuid := by
  rw [updateNodeStatus]
  cases s.memory.getNode env uuid with
  | none => rfl
  | some node =>
      dsimp only
      split_ifs
      · rfl
      · rw [Nodes.nodesOf, Nodes.nodesOf, Table.get_change]
        split_ifs with henv
        · rw [henv]
          cases s.memory.get env with
          | none => rfl
          | some nodes =>
              rw [Option.map_some, Option.getD_some, Option.getD_some, List.map_map]
              refine List.map_congr_left fun n _ => ?_
              rw [Function.comp_apply]
              split_ifs <;> rfl
        · rfl

/-- A registration that does not succeed changes nothing. -/
lemma postNodeHandler_refused {req : NodeRequest}
    (h : (postNodeHandler ip i req s).2.status ≠ 200) :
    (postNodeHandler ip i req s).1 = s := by
  cases hok : i.ok with
  | false => simp [postNodeHandler, addNode, hok]
  | true =>
      refine absurd ?_ h
      simp only [postNodeHandler, addNode_of_ok hok]
      rfl

/-- A registration that succeeds lists its node for its environment. -/
lemma mem_listed_postNodeHandler {req : NodeRequest} {env : Env} {uuid : Uuid}
    (h : (postNodeHandler ip i req s).2.status = 200) :
    uuid ∈ ((postNodeHandler ip i req s).1.memory.nodesOf env).map Node.uuid ↔
      uuid ∈ (s.memory.nodesOf env).map Node.uuid ∨ req.env = env ∧ req.uuid = uuid := by
  rw [state_of_postNodeHandler h, map_uuid_updateNodeStatus]
  exact Nodes.mem_map_uuid_add s.memory (req.asNode i.now)

/-- The nodes that a sequence of registrations leaves for an environment. -/
lemma mem_listed_iff {bodies : List (NodeInput × NodeBody)} {env : Env} {uuid : Uuid} :
    uuid ∈ ((registerBodies ip bodies s).memory.nodesOf env).map Node.uuid ↔
      uuid ∈ (s.memory.nodesOf env).map Node.uuid ∨
        ∃ body ∈ answeredBodies ip bodies s, Env.deserialize body.env = env ∧
          body.rest.uuid = uuid := by
  induction bodies generalizing s with
  | nil => simp [registerBodies, registerAll, answeredBodies]
  | cons r bodies ih =>
      rw [registerBodies, List.map_cons, registerAll, List.foldl_cons]
      change uuid ∈ ((registerBodies ip bodies _).memory.nodesOf env).map Node.uuid ↔ _
      rw [ih, answeredBodies]
      dsimp only
      split_ifs with hok
      · rw [mem_listed_postNodeHandler hok, List.exists_mem_cons_iff, or_assoc]
        rfl
      · rw [postNodeHandler_refused hok]

end

/-! ### The two decoders -/

/-- The environments that have a name of their own. -/
def envNames : List String := ["production", "experimental", "dev", "ru", "wl"]

lemma deserialize_of_not_mem {s : String} (h : s ∉ envNames) : Env.deserialize s = .custom s := by
  simp only [envNames, List.mem_cons, List.not_mem_nil, or_false, not_or] at h
  obtain ⟨hproduction, hexperimental, hdev, hru, hwl⟩ := h
  simp only [Env.deserialize, hproduction, hexperimental, hdev, hru, hwl, ite_false]

/-- Different texts are different environments for `serde`. -/
lemma deserialize_injective : Function.Injective Env.deserialize := by
  intro s t h
  have hnamed : ∀ u ∈ envNames, ∀ name, Env.deserialize u ≠ .custom name := by
    intro u hu name
    simp only [envNames, List.mem_cons, List.not_mem_nil, or_false] at hu
    rcases hu with rfl | rfl | rfl | rfl | rfl <;> simp [Env.deserialize]
  by_cases hs : s ∈ envNames
  · by_cases ht : t ∈ envNames
    · simp only [envNames, List.mem_cons, List.not_mem_nil, or_false] at hs ht
      revert h
      rcases hs with rfl | rfl | rfl | rfl | rfl <;> rcases ht with rfl | rfl | rfl | rfl | rfl <;>
        simp [Env.deserialize]
    · rw [deserialize_of_not_mem ht] at h
      exact absurd h (hnamed s hs t)
  · rw [deserialize_of_not_mem hs] at h
    by_cases ht : t ∈ envNames
    · exact absurd h.symm (hnamed t ht s)
    · rw [deserialize_of_not_mem ht] at h
      exact Env.custom.inj h

/-- A name is its own lower case, and read as what it names. -/
lemma fromText_of_mem (T : CaseTable) {s : String} (h : s ∈ envNames) :
    Env.fromText T.toLowercase s = Env.deserialize s := by
  have hlower : T.toLowercase s = s := by
    refine CaseTable.toLowercase_eq_self_iff.mpr (CaseTable.isLower_of_all ?_)
    simp only [envNames, List.mem_cons, List.not_mem_nil, or_false] at h
    rcases h with rfl | rfl | rfl | rfl | rfl <;> decide
  rw [Env.fromText, hlower]
  simp only [envNames, List.mem_cons, List.not_mem_nil, or_false] at h
  rcases h with rfl | rfl | rfl | rfl | rfl <;> decide

/-- A text that is read as a custom environment begins with `custom`, and the name follows. -/
lemma fromLower_eq_custom_iff {s name : String} :
    Env.fromLower s = some (.custom name) ↔ s = "custom" ++ name := by
  constructor
  · intro h
    rw [Env.fromLower] at h
    split_ifs at h with _ _ _ _ _ hcustom
    iterate 5 cases h
    obtain ⟨rest, hrest⟩ := List.isPrefixOf_iff_prefix.mp hcustom
    have hdrop : ("custom".toList ++ rest).drop 6 = rest := rfl
    rw [Option.some.injEq, Env.custom.injEq, ← hrest, hdrop] at h
    have hname : name.toList = rest := by rw [← h, String.toList_ofList]
    rw [← String.toList_inj, String.toList_append, ← hrest, hname]
  · rintro rfl
    have hne : ∀ t : String, t.toList.head? ≠ some 'c' → "custom" ++ name ≠ t := by
      rintro t ht rfl
      rw [String.toList_append] at ht
      exact ht rfl
    have hprefix : "custom".toList.isPrefixOf ("custom" ++ name).toList = true := by
      rw [String.toList_append]
      exact List.isPrefixOf_iff_prefix.mpr (List.prefix_append _ _)
    rw [Env.fromLower, if_neg, if_neg, if_neg, if_neg, if_neg, if_pos hprefix]
    · rw [String.toList_append]
      change some (Env.custom (String.ofList name.toList)) = _
      rw [String.ofList_toList]
    · exact hne _ (by decide)
    · exact hne _ (by decide)
    · exact not_or.mpr ⟨hne _ (by decide), hne _ (by decide)⟩
    · exact not_or.mpr ⟨hne _ (by decide), hne _ (by decide)⟩
    · exact not_or.mpr ⟨hne _ (by decide), hne _ (by decide)⟩

/-- The texts that both decoders read alike. -/
lemma fromText_eq_deserialize_iff (T : CaseTable) (s : String) :
    Env.fromText T.toLowercase s = Env.deserialize s ↔
      s ∈ envNames ∨ T.toLowercase s = "custom" ++ s := by
  by_cases hs : s ∈ envNames
  · exact iff_of_true (fromText_of_mem T hs) (Or.inl hs)
  · rw [deserialize_of_not_mem hs, ← fromLower_eq_custom_iff, Env.fromText]
    simp only [hs, false_or]
    cases Env.fromLower (T.toLowercase s) with
    | none => simp
    | some env => simp

/-- **The environment of a query.**  `GET /nodes` lists for a text exactly the nodes that
registered with that text, after every sequence of registrations, if and only if the text
is a name or has itself behind `custom` as its lower case; these are the texts that the
two decoders read alike, and where lower case is final only the names are. -/
theorem lists_registered_iff (T : CaseTable) (ip : IpText) (s : String) :
    ((∀ (bodies : List (NodeInput × NodeBody)) (order : ListOrder) (metrics : MetricStorage)
        (uuid : Uuid), uuid ∈ listed T order metrics s (registerBodies ip bodies NodeWorld.empty) ↔
          ∃ body ∈ answeredBodies ip bodies NodeWorld.empty, body.env = s ∧ body.rest.uuid = uuid) ↔
      s ∈ envNames ∨ T.toLowercase s = "custom" ++ s) ∧
    (Env.fromText T.toLowercase s = Env.deserialize s ↔
      s ∈ envNames ∨ T.toLowercase s = "custom" ++ s) ∧
    (T.Stable → T.toLowercase s ≠ "custom" ++ s) := by
  have hiff := fromText_eq_deserialize_iff T s
  refine ⟨?_, hiff, fun hT => hT.toLowercase_ne (by decide) s⟩
  rw [← hiff]
  have hnone (env : Env) (uuid : Uuid) :
      uuid ∉ (NodeWorld.empty.memory.nodesOf env).map Node.uuid := by
    simp [NodeWorld.empty, Nodes.nodesOf]
  constructor
  · -- One node that registers with the text is listed where `serde` puts it.
    intro h
    have hone := (h [(nodePostInput 1, ⟨s, nodePost .common⟩)] ⟨[], [], []⟩ (.new 0 0) 7).mpr
      ⟨⟨s, nodePost .common⟩, by simp [answeredBodies, postNodeHandler, addNode, nodePostInput, Nodes.add,
        NodeWorld.empty], rfl, rfl⟩
    rw [listed_eq, mem_listed_iff] at hone
    obtain hempty | ⟨body, hbody, henv, -⟩ := hone
    · exact absurd hempty (hnone _ _)
    · have hsame : body.env = s := by
        rw [answeredBodies] at hbody
        dsimp only at hbody
        split_ifs at hbody
        · rw [List.mem_singleton.mp hbody]
        · cases hbody
      rw [← henv, hsame]
  · intro heq bodies order metrics uuid
    rw [listed_eq, mem_listed_iff, heq]
    simp only [hnone, false_or, deserialize_injective.eq_iff]

/-- A node that registers with `staging` is not listed for `staging`. -/
theorem not_listed_staging :
    (answeredBodies sampleIpText [(nodePostInput 1, ⟨"staging", nodePost .common⟩)]
        NodeWorld.empty).map (fun body => (body.env, body.rest.uuid)) = [("staging", 7)] ∧
      listed CaseTable.ascii ⟨[], [], []⟩ (.new 0 0) "staging"
        (registerBodies sampleIpText [(nodePostInput 1, ⟨"staging", nodePost .common⟩)]
          NodeWorld.empty) = [] ∧
      Env.fromText CaseTable.ascii.toLowercase "staging" = .experimental ∧
      Env.deserialize "staging" = .custom "staging" := by
  refine ⟨by decide +kernel, by decide +kernel, by decide +kernel, by decide +kernel⟩

end Fcore
