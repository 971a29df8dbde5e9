import Mathlib.Data.List.ReduceOption
import Fcore.Runs.DeleteRestore

/-!
What deletions and restorations report (`delete_connection`,
`restore_connections_by_subscription`).

* `Deletes`: what a deletion that returns `r` has done;
* `restoreHistory`: the account of the futures of a restoration is what they have
  published, restored in the database and restored in memory so far;
* `NotedInv`: memory, database and bus are those from before with these changes;
* `Restores`: what a restoration that returns `ids` has done;
* `flags_reported`: both reports are right whatever fails.
-/

namespace Fcore

open Calculus
open Machine (exec)

/-! ### Deletions -/

/-- What `delete_connection` has done when it returns `r`: the flag of the memory is set exactly
if it reports success, and only behind the database and the bus. -/
structure Deletes (connId : Uuid) (conn : Conn) (r : Except SyncError Status) (s s' : World) :
    Prop where
  marks : (memFlag connId s = some false ∧ memFlag connId s' = some true) ↔ ∃ id, r = .ok (.ok id)
  reports : ∀ id, r = .ok (.ok id) → id = connId ∧
    s'.db = s.db.connSetDeleted connId true ∧
    s'.bus = (if conn.proto.token.isSome then .auth else .updates conn.env,
      [conn.asDeleteMessage connId]) :: s.bus

/-- A deletion that reports something else has left the memory alone. -/
lemma Deletes.of_memory {connId : Uuid} {conn : Conn} {r : Except SyncError Status} {s s' : World}
    (hmemory : s'.memory = s.memory) (hr : ∀ id, r ≠ .ok (.ok id)) :
    Deletes connId conn r s s' := by
  refine ⟨iff_of_false ?_ fun ⟨id, h⟩ => hr id h, fun id h => absurd h (hr id)⟩
  rintro ⟨hbefore, hafter⟩
  rw [memFlag, hmemory, ← memFlag, hbefore] at hafter
  cases hafter

lemma deletes_deleteConnection {rule : Rule Call Input World} {connId : Uuid} {conn : Conn}
    {r : Except SyncError Status} {s s' : World}
    (h : Exec rule (deleteConnection connId conn) s r s') : Deletes connId conn r s s' := by
  rcases exec_deleteConnection h with ⟨rfl, hr, -⟩ | ⟨rfl, ⟨e, rfl⟩, -⟩ |
    ⟨i, ⟨c, hget, hlive⟩, rfl, rfl⟩
  · exact Deletes.of_memory rfl hr
  · exact Deletes.of_memory rfl (by simp)
  · have hbefore : memFlag connId s = some false := by rw [memFlag, hget, Option.map_some, hlive]
    refine ⟨iff_of_true ⟨hbefore, ?_⟩ ⟨connId, rfl⟩, ?_⟩
    · have hset := memFlag_setDeleted connId connId true i s
      rw [if_pos rfl, hbefore] at hset
      exact hset
    · intro id hid
      cases hid
      exact ⟨rfl, rfl, rfl⟩

/-! ### The futures of a restoration -/

/-- What is noted of a restoration. -/
inductive RestoreNote where
  | published (topic : Topic) (messages : List Message)
  | written (id : Uuid)
  | cleared (id : Uuid)
  deriving DecidableEq

/-- The note that a reply leaves. -/
def restoreNote : (β : Type) → Call β → β → Multiset RestoreNote
  | _, .bus (.publish topic messages), .ok () => {.published topic messages}
  | _, .sql (.connRestore id), .ok () => {.written id}
  | _, .edit (.setDeleted id _), _ => {.cleared id}
  | _, _, _ => 0

/-- The protocol of restorations: the account is what has been done. -/
def restoreHistory : Protocol Call (Multiset RestoreNote) :=
  history (fun _ _ _ => True) RestoreCall restoreNote

/-- The result of a future tells whether it has restored its connection. -/
def Reports (e : Uuid × Conn) (y : Option Uuid) (a : Multiset RestoreNote) : Prop :=
  (y = some e.1 ∧ a = {.published e.2.topic [e.2.asUpdateMessage e.1]} + {.written e.1} +
    {.cleared e.1}) ∨
  (y = none ∧ ∀ id, .cleared id ∉ a)

lemma reports_restoreOne (e : Uuid × Conn) :
    Obeys restoreHistory (Reports e) (restoreOne e) 0 := by
  refine ⟨.bus _, fun r _ => ?_⟩
  cases r with
  | error err => exact ⟨_, rfl, .inr ⟨rfl, by simp [restoreNote]⟩⟩
  | ok u =>
      refine ⟨_, rfl, ⟨.connection _, fun existing _ => ⟨_, rfl, ?_⟩⟩⟩
      cases existing with
      | none => exact .inr ⟨rfl, by simp [restoreNote]⟩
      | some c =>
          refine ⟨.restore _, fun r _ => ⟨_, rfl, ?_⟩⟩
          cases r with
          | error err => exact .inr ⟨rfl, by simp [restoreNote]⟩
          | ok u =>
              refine ⟨.undelete _, fun u _ => ⟨_, rfl, .inl ⟨rfl, ?_⟩⟩⟩
              simp [restoreNote]

/-! ### The state during a restoration -/

/-- The connections of the memory, the rows and the bus are those of `s₀` with what has been
noted. -/
structure NotedInv (s₀ s : World) (a : Multiset RestoreNote) : Prop where
  cleared : ∀ id, .cleared id ∈ a → ∃ now, s.memory.connections.get id =
    (s₀.memory.connections.get id).map fun c => c.setDeleted false now
  others : ∀ id, .cleared id ∉ a →
    s.memory.connections.get id = s₀.memory.connections.get id
  rows : ∀ id, dbFlag id s = if .written id ∈ a then (dbFlag id s₀).map fun _ => false
    else dbFlag id s₀
  bus : ∃ news, s.bus = news ++ s₀.bus ∧
    ∀ topic messages, .published topic messages ∈ a → (topic, messages) ∈ news

section NotedInv

variable {s₀ s s' : World} {a : Multiset RestoreNote}

lemma NotedInv.refl (s : World) : NotedInv s s 0 where
  cleared _ h := absurd h (Multiset.notMem_zero _)
  others _ _ := rfl
  rows _ := by simp
  bus := ⟨[], rfl, fun _ _ h => absurd h (Multiset.notMem_zero _)⟩

/-- A step that leaves everything as it is. -/
lemma NotedInv.idle (h : NotedInv s₀ s a) : NotedInv s₀ s (a + 0) := by
  rwa [add_zero]

lemma NotedInv.publish (h : NotedInv s₀ s a) (topic : Topic) (messages : List Message) :
    NotedInv s₀ { s with bus := (topic, messages) :: s.bus } (a + {.published topic messages}) where
  cleared id hid := h.cleared id (by simpa using hid)
  others id hid := h.others id (by simpa using hid)
  rows id := by simpa [dbFlag] using h.rows id
  bus := by
    obtain ⟨news, hnews, hall⟩ := h.bus
    refine ⟨(topic, messages) :: news, by rw [hnews]; rfl, fun topic' messages' hmem => ?_⟩
    rcases Multiset.mem_add.mp hmem with hmem | hmem
    · exact List.mem_cons_of_mem _ (hall _ _ hmem)
    · obtain ⟨rfl, rfl⟩ : topic' = topic ∧ messages' = messages := by simpa using hmem
      exact List.mem_cons_self

lemma NotedInv.write (h : NotedInv s₀ s a) (id : Uuid) :
    NotedInv s₀ { s with db := s.db.connSetDeleted id false } (a + {.written id}) where
  cleared id' hid := h.cleared id' (by simpa using hid)
  others id' hid := h.others id' (by simpa using hid)
  rows id' := by
    rw [dbFlag_connSetDeleted, h.rows id']
    by_cases hid : id = id'
    · rw [if_pos hid, if_pos (Multiset.mem_add.mpr (.inr (by simp [hid])))]
      split
      · rw [Option.map_map]
        rfl
      · rfl
    · have hiff : RestoreNote.written id' ∈ a + {RestoreNote.written id} ↔
          RestoreNote.written id' ∈ a := by
        simp [Ne.symm hid]
      rw [if_neg hid]
      simp only [hiff]
  bus := by simpa using h.bus

lemma NotedInv.clear (h : NotedInv s₀ s a) (id : Uuid) (i : Input) :
    NotedInv s₀ { s with memory := (Edit.run (.setDeleted id false) i s.memory).1 }
      (a + {.cleared id}) where
  cleared id' hid := by
    show ∃ now, (s.memory.connections.change id _).get id' = _
    rw [Table.get_change]
    by_cases heq : id' = id
    · refine ⟨i.now, ?_⟩
      rw [if_pos heq]
      by_cases hbefore : RestoreNote.cleared id' ∈ a
      · obtain ⟨now, hnow⟩ := h.cleared id' hbefore
        rw [← heq, hnow, Option.map_map]
        rfl
      · rw [← heq, h.others id' hbefore]
    · rw [if_neg heq]
      exact h.cleared id' (by simpa [heq] using hid)
  others id' hid := by
    have hne : id' ≠ id := by
      rintro rfl
      exact hid (Multiset.mem_add.mpr (.inr (Multiset.mem_singleton_self _)))
    show (s.memory.connections.change id _).get id' = _
    rw [Table.get_change, if_neg hne]
    exact h.others id' fun hmem => hid (Multiset.mem_add.mpr (.inl hmem))
  rows id' := by simpa [dbFlag] using h.rows id'
  bus := by simpa using h.bus

end NotedInv

/-- Every step of a restoration does what is noted of it. -/
lemma keeps_notedInv (rule : Rule Call Input World) (s₀ : World) :
    KeepsAlone rule restoreHistory (NotedInv s₀) := by
  intro β c i s s' b a hexec hrule hmay hinv
  refine ⟨trivial, ?_⟩
  rintro _ rfl
  have hcall : RestoreCall β c := hmay
  cases hcall with
  | connection id =>
      obtain ⟨-, rfl, -⟩ := exec_look.mp hexec
      exact hinv.idle
  | toRestore sub =>
      obtain ⟨-, rfl, -⟩ := exec_look.mp hexec
      exact hinv.idle
  | ask x =>
      obtain ⟨rfl, -⟩ := exec_ask.mp hexec
      exact hinv.idle
  | bus p =>
      obtain ⟨topic, messages⟩ := p
      obtain ⟨rfl, rfl⟩ := exec_bus.mp hexec
      rw [Call.execBus]
      cases i.ok with
      | true => exact hinv.publish topic messages
      | false => exact hinv.idle
  | restore id =>
      obtain ⟨rfl, rfl⟩ := exec_sql.mp hexec
      rw [Sql.run]
      cases i.ok with
      | true => exact hinv.write id
      | false => exact hinv.idle
  | undelete id =>
      obtain ⟨-, rfl, -⟩ := exec_edit.mp hexec
      exact hinv.clear id i

/-! ### Restorations -/

/-- What `restore_connections_by_subscription` has done when it returns `ids`. -/
structure Restores (subId : Uuid) (ids : List Uuid) (s s' : World) : Prop where
  nodup : ids.Nodup
  mem_iff : ∀ id, id ∈ ids ↔ memFlag id s = some true ∧ memFlag id s' = some false
  restored : ∀ id ∈ ids, ∃ c, s.memory.connections.get id = some c ∧
    c.subscriptionId = some subId ∧ c.isDeleted = true ∧
    (∃ news, s'.bus = news ++ s.bus ∧ (c.topic, [c.asUpdateMessage id]) ∈ news) ∧
    dbFlag id s' = (dbFlag id s).map fun _ => false
  others : ∀ id, id ∉ ids → s'.memory.connections.get id = s.memory.connections.get id

/-- The futures that have restored a connection are those that return it. -/
lemma cleared_mem_iff {es : List (Uuid × Conn)} {zs : List (Option Uuid × Multiset RestoreNote)}
    (h : List.Forall₂ (fun e z => Reports e z.1 z.2) es zs) (id : Uuid) :
    RestoreNote.cleared id ∈ (zs.map Prod.snd).sum ↔ id ∈ (zs.map Prod.fst).reduceOption := by
  induction h with
  | nil => simp
  | @cons e z es zs hz hzs ih =>
      obtain ⟨y, a⟩ := z
      rw [List.map_cons, List.map_cons, List.sum_cons, Multiset.mem_add, ih]
      rcases hz with ⟨rfl, rfl⟩ | ⟨rfl, hnone⟩
      · rw [List.reduceOption_cons_of_some, List.mem_cons]
        refine or_congr_left ?_
        simp
      · rw [List.reduceOption_cons_of_none]
        exact or_iff_right (hnone id)

/-- What is returned is restored in the database and published. -/
lemma notes_of_mem {es : List (Uuid × Conn)} {zs : List (Option Uuid × Multiset RestoreNote)}
    (h : List.Forall₂ (fun e z => Reports e z.1 z.2) es zs) {id : Uuid}
    (hid : id ∈ (zs.map Prod.fst).reduceOption) :
    ∃ c, (id, c) ∈ es ∧ .written id ∈ (zs.map Prod.snd).sum ∧
      .published c.topic [c.asUpdateMessage id] ∈ (zs.map Prod.snd).sum := by
  induction h with
  | nil => simp at hid
  | @cons e z es zs hz hzs ih =>
      obtain ⟨y, a⟩ := z
      rw [List.map_cons] at hid
      rw [List.map_cons, List.sum_cons]
      have hrest : id ∈ (zs.map Prod.fst).reduceOption → ∃ c, (id, c) ∈ e :: es ∧
          .written id ∈ a + (zs.map Prod.snd).sum ∧
            .published c.topic [c.asUpdateMessage id] ∈ a + (zs.map Prod.snd).sum := by
        intro hid
        obtain ⟨c, hc, hwritten, hpublished⟩ := ih hid
        exact ⟨c, List.mem_cons_of_mem e hc, Multiset.mem_add.mpr (.inr hwritten),
          Multiset.mem_add.mpr (.inr hpublished)⟩
      rcases hz with ⟨rfl, rfl⟩ | ⟨rfl, -⟩
      · rw [List.reduceOption_cons_of_some, List.mem_cons] at hid
        rcases hid with rfl | hid
        · exact ⟨e.2, List.mem_cons_self, Multiset.mem_add.mpr (.inl (by simp)),
            Multiset.mem_add.mpr (.inl (by simp))⟩
        · exact hrest hid
      · rw [List.reduceOption_cons_of_none] at hid
        exact hrest hid

/-- The futures return their connections in order, as far as they have restored them. -/
lemma sublist_of_reports {es : List (Uuid × Conn)} {zs : List (Option Uuid × Multiset RestoreNote)}
    (h : List.Forall₂ (fun e z => Reports e z.1 z.2) es zs) :
    ((zs.map Prod.fst).reduceOption).Sublist (es.map Prod.fst) := by
  induction h with
  | nil => simp
  | @cons e z es zs hz hzs ih =>
      obtain ⟨y, a⟩ := z
      rcases hz with ⟨rfl, -⟩ | ⟨rfl, -⟩
      · simpa using ih
      · simpa using ih.cons e.1

/-- What the futures of a restoration have done together. -/
lemma exists_reports {rule : Rule Call Input World} {es : List (Uuid × Conn)}
    {ys : List (Option Uuid)} {s s' : World}
    (h : Exec rule (Prog.joinAll (.ask .pick) (es.map restoreOne)) s ys s') :
    ∃ zs : List (Option Uuid × Multiset RestoreNote),
      List.Forall₂ (fun e z => Reports e z.1 z.2) es zs ∧ ys = zs.map Prod.fst ∧
        NotedInv s s' (zs.map Prod.snd).sum := by
  have hpick : Free restoreHistory (Call.ask .pick) := fun a => ⟨.ask _, fun _ => (add_zero a).symm⟩
  have hobeys := Obeys.joinAll_each (framed_history _ _ _) hpick (w := fun _ => 0)
    fun e (_ : e ∈ es) => reports_restoreOne e
  have hzero : (es.map fun _ => (0 : Multiset RestoreNote)).sum = 0 := by simp
  rw [hzero] at hobeys
  obtain ⟨a, ⟨zs, hzs, hys, rfl⟩, hinv⟩ := h.sound (keeps_notedInv rule s) hobeys (NotedInv.refl s)
  exact ⟨zs, hzs, hys, hinv⟩

lemma restores_restoreConnectionsBySubscription {rule : Rule Call Input World} {subId : Uuid}
    {ids : List Uuid} {s s' : World}
    (h : Exec rule (restoreConnectionsBySubscription subId) s ids s') :
    Restores subId ids s s' := by
  obtain ⟨es, ys, hmem, hkeys, hjoin, hids⟩ := exec_restoreConnectionsBySubscription h
  obtain ⟨zs, hzs, rfl, hinv⟩ := exists_reports hjoin
  have hgot : ∀ id ∈ ids, ∃ c, s.memory.connections.get id = some c ∧
      c.subscriptionId = some subId ∧ c.isDeleted = true ∧
        .published c.topic [c.asUpdateMessage id] ∈ (zs.map Prod.snd).sum ∧
          .written id ∈ (zs.map Prod.snd).sum := by
    intro id hid
    rw [hids] at hid
    obtain ⟨c, hc, hwritten, hpublished⟩ := notes_of_mem hzs hid
    obtain ⟨hget, hsub, hdeleted⟩ := (hmem id c).mp hc
    exact ⟨c, hget, hsub, hdeleted, hpublished, hwritten⟩
  have hcleared : ∀ id, RestoreNote.cleared id ∈ (zs.map Prod.snd).sum ↔ id ∈ ids := by
    intro id
    rw [cleared_mem_iff hzs, hids]
  constructor
  · rw [hids]
    exact (sublist_of_reports hzs).nodup hkeys
  · intro id
    constructor
    · intro hid
      obtain ⟨c, hget, -, hdeleted, -, -⟩ := hgot id hid
      obtain ⟨now, hafter⟩ := hinv.cleared id ((hcleared id).mpr hid)
      rw [memFlag, memFlag, hafter, hget]
      exact ⟨congrArg some hdeleted, rfl⟩
    · rintro ⟨hbefore, hafter⟩
      by_contra hid
      rw [memFlag, hinv.others id (mt (hcleared id).mp hid), ← memFlag, hbefore] at hafter
      cases hafter
  · intro id hid
    obtain ⟨c, hget, hsub, hdeleted, hpublished, hwritten⟩ := hgot id hid
    obtain ⟨news, hnews, hall⟩ := hinv.bus
    refine ⟨c, hget, hsub, hdeleted, ⟨news, hnews, hall _ _ hpublished⟩, ?_⟩
    rw [hinv.rows id, if_pos hwritten]
  · intro id hid
    exact hinv.others id (mt (hcleared id).mp hid)

/-- **The reports of deletions and restorations are right whatever fails.** -/
theorem flags_reported (s s' : World) :
    (∀ connId conn r, Exec Rule.any (deleteConnection connId conn) s r s' →
      Deletes connId conn r s s') ∧
    (∀ subId ids, Exec Rule.any (restoreConnectionsBySubscription subId) s ids s' →
      Restores subId ids s s') :=
  ⟨fun _ _ _ h => deletes_deleteConnection h,
    fun _ _ h => restores_restoreConnectionsBySubscription h⟩

/-- The connection 1 is deleted and restored. -/
theorem flags_reported_once :
    ∃ s s', Exec Rule.any (deleteConnection 1 sampleConn) sampleWorld (.ok (.ok 1)) s ∧
      memFlag 1 s = some true ∧ Exec Rule.any (restoreConnectionsBySubscription 7) s [1] s' ∧
      memFlag 1 s' = some false := by
  have hdelete : ((execWith Rule.any (List.replicate 4 (Input.at 5)) (deleteConnection 1 sampleConn)
      sampleWorld).bind fun r => (execWith Rule.any (List.replicate 5 (Input.at 6))
        (restoreConnectionsBySubscription 7) r.1).map fun r' => (r.2, r'.2)) =
      some (.ok (.ok 1), [1]) := by
    decide +kernel
  obtain ⟨⟨s, r⟩, hfirst, hrest⟩ := Option.bind_eq_some_iff.mp hdelete
  obtain ⟨⟨s', ids⟩, hsecond, heq⟩ := Option.map_eq_some_iff.mp hrest
  obtain ⟨rfl, rfl⟩ := Prod.mk.inj heq
  have hdeleted := (flags_reported sampleWorld s).1 1 sampleConn _ (exec_of_execWith hfirst)
  have hrestored := (flags_reported s s').2 7 [1] (exec_of_execWith hsecond)
  exact ⟨s, s', exec_of_execWith hfirst, (hdeleted.marks.mpr ⟨1, rfl⟩).2, exec_of_execWith hsecond,
    ((hrestored.mem_iff 1).mp List.mem_cons_self).2⟩

end Fcore
