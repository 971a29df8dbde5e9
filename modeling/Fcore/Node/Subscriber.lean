import Fcore.Api.Postgres
import Fcore.Node.Process
import Fcore.Zmq.Topic

/-!
What reaches a node over the bus (`run_subscriber` in `src/bin/node/tasks.rs`, the
subscriptions in `src/bin/node/node.rs`).

* `nodeTopics`, `nodeHears`: what a node subscribes to and what it processes;
* `eq_of_handled`: messages that a node handles were published for its
  environment or for itself, although a socket also delivers the topics of
  which a subscription is only a head; `nodeProcess_hears_iff`: so a node in an environment in
  lower case handles exactly what the process of the node hears;
* `Env.RoundTrips`: an environment keeps its identity through the texts that stand for it
  on the bus and in the tables, `roundTrips_deserialize_iff`: exactly those read
  from a string in lower case do.
-/

namespace Fcore

open Calculus

/-- The topics in `node::run`. -/
def nodeTopics (nodeEnv : Env) (nodeUuid : Uuid) : List Topic := [.init nodeUuid, .updates nodeEnv]

/-- The topics that `run_subscriber` of a node does not skip. -/
def nodeHears (nodeEnv : Env) (nodeUuid : Uuid) : Topic → Bool
  | .auth | .metrics => false
  | .init id => id == nodeUuid
  | .updates env => env == nodeEnv

lemma nodeHears_iff {nodeEnv : Env} {nodeUuid : Uuid} {topic : Topic} :
    nodeHears nodeEnv nodeUuid topic = true ↔
      topic = .updates nodeEnv ∨ topic = .init nodeUuid := by
  cases topic <;> simp [nodeHears]

/-! ### The environments of a node's messages -/

/-- An environment that is read from the topic of another, and whose text is a head of the
other's, is that one: the name that is read is no shorter than the one written. -/
lemma eq_of_read {T : CaseTable} {parseUuid : String → Option Uuid} {env nodeEnv : Env}
    (hread : Topic.fromStr T.toLowercase parseUuid (Topic.updates env).asStr =
      .ok (.updates nodeEnv))
    (hhead : nodeEnv.toText.toList <+: env.toText.toList) : env = nodeEnv := by
  obtain ⟨env', hread', hcase⟩ := Topic.fromStr_updates T parseUuid env
  rw [hread', Except.ok.injEq, Topic.updates.injEq] at hread
  subst hread
  rcases hcase with rfl | ⟨name, name', rfl, rfl, hlen⟩
  · rfl
  · rw [Env.toList_toText_custom, Env.toList_toText_custom, List.prefix_append_right_inj] at hhead
    have hname : name'.toList = name.toList := hhead.eq_of_length (le_antisymm hhead.length_le hlen)
    rw [String.toList_inj.mp hname]

section Handled

variable {T : CaseTable} {parseUuid : String → Option Uuid}
  {decode : List UInt8 → Option (List Message)} {nodeEnv : Env} {nodeUuid : Uuid} {topic : Topic}
  {payload : List UInt8} {msgs : List Message}

/-- The topic of what a node handles is one that it hears. -/
lemma hears_of_handled (hdelivered : delivers (nodeTopics nodeEnv nodeUuid) topic.asBytes = true)
    (hhandled : receive T.toLowercase parseUuid decode (nodeHears nodeEnv nodeUuid) topic.asBytes
      payload = .handle msgs) : nodeHears nodeEnv nodeUuid topic = true := by
  rw [nodeHears_iff]
  obtain ⟨sub, hsub, hhead⟩ := exists_isPrefix_of_delivers hdelivered
  obtain ⟨topic', hread, hhears⟩ := hears_of_receive hhandled
  rw [nodeTopics, List.mem_pair] at hsub
  cases topic with
  | auth =>
      -- neither subscription is a head of a topic without a hyphen
      rcases hsub with rfl | rfl <;> simp [Topic.asStr, String.toList_append] at hhead
  | metrics =>
      rcases hsub with rfl | rfl <;> simp [Topic.asStr, String.toList_append] at hhead
  | init id =>
      rcases hsub with rfl | rfl
      · rw [Topic.asStr, Topic.asStr, String.toList_append, String.toList_append,
          List.prefix_append_right_inj] at hhead
        rw [Uuid.eq_of_isPrefix hhead]
        exact .inr rfl
      · exact absurd hhead (Topic.not_isPrefix_updates_init nodeEnv id)
  | updates env =>
      rcases hsub with rfl | rfl
      · exact absurd hhead (Topic.not_isPrefix_init_updates nodeUuid env)
      · rw [Topic.asStr, Topic.asStr, String.toList_append, String.toList_append,
          List.prefix_append_right_inj] at hhead
        obtain ⟨env', hread', -⟩ := Topic.fromStr_updates T parseUuid env
        have htopic : topic' = .updates env' := by
          rw [hread', Except.ok.injEq] at hread
          exact hread.symm
        rw [htopic, nodeHears, beq_iff_eq] at hhears
        rw [hhears] at hread'
        rw [eq_of_read hread' hhead]
        exact .inl rfl

end Handled

/-- Messages that a node handles were published for its environment or for itself. -/
theorem eq_of_handled (T : CaseTable) (parseUuid : String → Option Uuid)
    (decode : List UInt8 → Option (List Message)) (nodeEnv : Env) (nodeUuid : Uuid) (topic : Topic)
    (payload : List UInt8) (msgs : List Message)
    (hdelivered : delivers (nodeTopics nodeEnv nodeUuid) topic.asBytes = true)
    (hhandled : receive T.toLowercase parseUuid decode (nodeHears nodeEnv nodeUuid) topic.asBytes
      payload = .handle msgs) :
    topic = .updates nodeEnv ∨ topic = .init nodeUuid :=
  nodeHears_iff.mp (hears_of_handled hdelivered hhandled)

/-- A node of the environment `eu` handles what is published for it. -/
theorem eq_of_handled_eu : (Topic.updates (.custom "eu") = .updates (.custom "eu") ∨
    Topic.updates (.custom "eu") = .init 7) ∧
      delivers (nodeTopics (.custom "eu") 7) (Topic.updates (.custom "eu")).asBytes = true ∧
      receive CaseTable.ascii.toLowercase (fun _ => none) (fun _ => some []) (nodeHears (.custom "eu") 7)
        (Topic.updates (.custom "eu")).asBytes [1] = .handle [] := by
  have hdelivered : delivers (nodeTopics (.custom "eu") 7) (Topic.updates (.custom "eu")).asBytes = true :=
    delivers_of_mem (by simp [nodeTopics])
  have hhandled : receive CaseTable.ascii.toLowercase (fun _ => none) (fun _ => some [])
      (nodeHears (.custom "eu") 7) (Topic.updates (.custom "eu")).asBytes [1] = .handle [] := by
    have hread : Topic.fromStr CaseTable.ascii.toLowercase (fun _ => none)
        (Topic.updates (.custom "eu")).asStr = .ok (.updates (.custom "eu")) :=
      Topic.fromStr_updates_of_isLower (CaseTable.isLower_of_all (by decide))
    exact receive_of_hears hread (by simp [nodeHears]) (by simp) (by simp)
  exact ⟨eq_of_handled _ _ _ _ _ _ _ _ hdelivered hhandled, hdelivered, hhandled⟩

/-- **The process of a node hears what the node handles**: in an environment in lower case, if
identifiers are read back from their texts, a publication is delivered and handled exactly if
the process of the node hears its topic. -/
lemma nodeProcess_hears_iff {T : CaseTable} {parseUuid : String → Option Uuid}
    {decode : List UInt8 → Option (List Message)} {env : Env} {uuid : Uuid} {topic : Topic}
    {payload : List UInt8} {msgs : List Message} (ctx : NodeCtx) (inbounds : List Tag)
    (henv : ∀ c ∈ env.toText.toList, T.IsLower c)
    (hparse : Topic.fromStr T.toLowercase parseUuid (Topic.init uuid).asStr = .ok (.init uuid))
    (hpayload : payload ≠ []) (hmsgs : decode payload = some msgs) :
    (nodeProcess ctx inbounds env uuid).hears topic = true ↔
      delivers (nodeTopics env uuid) topic.asBytes = true ∧
        receive T.toLowercase parseUuid decode (nodeHears env uuid) topic.asBytes payload =
          .handle msgs := by
  have hhears : (nodeProcess ctx inbounds env uuid).hears topic = nodeHears env uuid topic := by
    rw [nodeProcess, Bool.eq_iff_iff]
    cases topic <;> simp [nodeHears]
  rw [hhears]
  constructor
  · intro hhears
    refine ⟨delivers_of_mem ?_, receive_of_hears ?_ hhears hpayload hmsgs⟩
    · rcases nodeHears_iff.mp hhears with rfl | rfl <;> simp [nodeTopics]
    · rcases nodeHears_iff.mp hhears with rfl | rfl
      · exact Topic.fromStr_updates_of_isLower henv
      · exact hparse
  · exact fun ⟨hdelivered, hhandled⟩ => hears_of_handled hdelivered hhandled

/-! ### Environments that keep their identity -/

/-- An environment is itself again after its way over the bus and through the tables:
`Env::from` and `Topic::from_str` read it from its texts, a node of the environment
gets and handles what is published for it, and a connection row is loaded under it. -/
structure Env.RoundTrips (lower : String → String) (env : Env) : Prop where
  text : Env.fromText lower env.toText = env
  topic : ∀ parseUuid, Topic.fromStr lower parseUuid (Topic.updates env).asStr = .ok (.updates env)
  delivered : ∀ nodeUuid, delivers (nodeTopics env nodeUuid) (Topic.updates env).asBytes = true
  handled : ∀ parseUuid nodeUuid, ∀ decode : List UInt8 → Option (List Message),
    ∀ payload msgs, payload ≠ [] → decode payload = some msgs →
      receive lower parseUuid decode (nodeHears env nodeUuid) (Topic.updates env).asBytes payload =
        .handle msgs
  reloaded : ∀ (id : Uuid) (c c' : Conn), c.env = env →
    (ConnRow.ofConn id c).stored.toConn lower = .ok c' → c'.env = env

/-- A loaded connection has the environment of its row. -/
lemma ConnRow.toConn_env {lower : String → String} {r : ConnRow} {c : Conn}
    (h : r.toConn lower = .ok c) : c.env = Env.fromText lower r.env := by
  rw [toConn] at h
  split at h
  · exact absurd h (by simp)
  · rw [← Except.ok.inj h]

/-- Exactly the environments with a text in lower case keep their identity. -/
lemma Env.roundTrips_iff {T : CaseTable} {env : Env} :
    env.RoundTrips T.toLowercase ↔ ∀ c ∈ env.toText.toList, T.IsLower c := by
  constructor
  · exact fun h => Env.fromText_toText_iff.mp h.text
  · intro h
    have htext := Env.fromText_toText_iff.mpr h
    exact
      { text := htext
        topic := fun _ => Topic.fromStr_updates_of_isLower h
        delivered := fun _ => delivers_of_mem (by simp [nodeTopics])
        handled := fun _ _ _ _ _ hpayload hmsgs =>
          receive_of_hears (Topic.fromStr_updates_of_isLower h) (by simp [nodeHears]) hpayload hmsgs
        reloaded := by
          rintro id c c' rfl hconn
          rw [ConnRow.toConn_env hconn]
          exact htext }

/-- The text of an environment that was read from a string is in lower case exactly if
the string is. -/
lemma Env.isLower_deserialize_iff {T : CaseTable} {s : String} :
    (∀ c ∈ (Env.deserialize s).toText.toList, T.IsLower c) ↔ ∀ c ∈ s.toList, T.IsLower c := by
  rw [deserialize]
  split_ifs with h1 h2 h3 h4 h5
  · simp only [h1, toText]
  · simp only [h2, toText]
  · simp only [h3, toText]
  · simp only [h4, toText]
  · simp only [h5, toText]
  · rw [toList_toText_custom, List.forall_mem_append]
    exact ⟨fun h => h.2, fun h => ⟨isLower_custom, h⟩⟩

/-- An environment that was read from a string keeps its identity exactly if the string
is in lower case. -/
theorem roundTrips_deserialize_iff (T : CaseTable) (s : String) :
    (Env.deserialize s).RoundTrips T.toLowercase ↔ T.toLowercase s = s := by
  rw [Env.roundTrips_iff, Env.isLower_deserialize_iff, CaseTable.toLowercase_eq_self_iff]

/-- A node of the environment `EU` skips everything that is published for it, and the rows
of the environment are loaded under another one. -/
theorem capitals_lost : ¬ (Env.deserialize "EU").RoundTrips CaseTable.ascii.toLowercase ∧
    Env.fromText CaseTable.ascii.toLowercase (Env.deserialize "EU").toText = .custom "eu" ∧
    ∀ payload, receive CaseTable.ascii.toLowercase (fun _ => none) (fun _ => some [])
      (nodeHears (Env.deserialize "EU") 7) (Topic.updates (Env.deserialize "EU")).asBytes payload =
        .skip := by
  have henv : Env.deserialize "EU" = .custom "EU" := by decide
  have htext : Env.fromText CaseTable.ascii.toLowercase (Env.custom "EU").toText = .custom "eu" := by
    decide
  have hread : Topic.fromStr CaseTable.ascii.toLowercase (fun _ => none)
      (Topic.updates (.custom "EU")).asStr = .ok (.updates (.custom "eu")) := by
    decide
  rw [henv]
  refine ⟨fun h => ?_, htext, fun payload => ?_⟩
  · have hsame := h.text
    rw [htext] at hsame
    exact absurd hsame (by decide)
  · rw [receive, fromUtf8_asBytes]
    simp [hread, nodeHears]

end Fcore
