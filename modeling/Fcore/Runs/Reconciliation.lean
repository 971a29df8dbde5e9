import Fcore.Calculus.Makes
import Fcore.Calculus.Triple
import Fcore.Runs.DurableDeletes

/-!
The background tasks one after another (`cleanup_expired_connections`,
`cleanup_expired_subscriptions`, `restore_subscriptions`).

The three tasks write the same flag.  The first one goes by the expiry of a connection, the
other two by its subscription.  A connection that has expired and belongs to an active
subscription is deleted by the first task and restored by the third, again and again.

* `Tick`: the tasks; `atInstant`: nothing fails and the clock stands;
* `Mark`, `markOf`: what the tasks look at in a connection;
* `Passed`: some connections get the flag, all others stay as they are, and every change is
  published;
* `passed_deleteAll`, `passed_restoreConnectionsBySubscription`, `passed_tick`: one pass of a
  task;
* `Tick.Settled`: a task has nothing to do; `settled_of_serial`: after a pass of each no task
  has anything to do, if no connection is claimed by two tasks;
* `second_pass_idle_iff`: a second pass does nothing exactly if there is no expired connection
  of an active subscription;
* `passes_never_settle`: such a connection.
-/

namespace Fcore

open Calculus
open Calculus.Prog (perform)
open Machine (exec)

/-! ### Tasks -/

/-- The background tasks that write the deleted flag. -/
inductive Tick where
  | cleanupExpiredConnections
  | cleanupExpiredSubscriptions
  | restoreSubscriptions
  deriving DecidableEq

/-- One pass of a task. -/
def Tick.prog : Tick → Api Unit
  | cleanupExpiredConnections => Fcore.cleanupExpiredConnections
  | cleanupExpiredSubscriptions => Fcore.cleanupExpiredSubscriptions
  | restoreSubscriptions => Fcore.restoreSubscriptions

/-- Nothing fails and the clock stands. -/
def atInstant (t : DateTime) : Rule Call Input World := fun _ _ _ i _ _ => i.ok && i.now == t

/-- What the tasks look at in a connection. -/
structure Mark where
  sub : Option Uuid
  expiresAt : Option DateTime
  isDeleted : Bool
  deriving DecidableEq

/-- The mark of a connection in memory. -/
def markOf (s : World) (id : Uuid) : Option Mark :=
  (s.memory.connections.get id).map fun c => ⟨c.subscriptionId, c.expiresAt, c.isDeleted⟩

/-- The connections that a task takes, whether they have its flag or not. -/
def Tick.takes (τ : Tick) (t : DateTime) (s : World) (m : Mark) : Bool :=
  match τ with
  | cleanupExpiredConnections => m.expiresAt.any fun e => decide (e ≤ t)
  | cleanupExpiredSubscriptions => m.sub.any fun sub =>
      (s.memory.subscriptions.get sub).isSome && !activeAt sub s t
  | restoreSubscriptions => m.sub.any fun sub => activeAt sub s t

/-- The flag that a task gives. -/
def Tick.flag : Tick → Bool
  | cleanupExpiredConnections => true
  | cleanupExpiredSubscriptions => true
  | restoreSubscriptions => false

/-! ### Passes -/

/-- The connections in `ids` get the flag `v`, all others stay as they are.  Every change is
published, and without one nothing happens at all. -/
structure Passed (ids : Uuid → Bool) (v : Bool) (s s' : World) : Prop where
  subs : s'.memory.subscriptions = s.memory.subscriptions
  marks : ∀ id, markOf s' id = (markOf s id).map fun m =>
    if ids id then { m with isDeleted := v } else m
  grows : s.bus.length ≤ s'.bus.length
  news : ∀ id m, ids id = true → markOf s id = some m → m.isDeleted ≠ v →
    s.bus.length < s'.bus.length
  still : (∀ id m, ids id = true → markOf s id = some m → m.isDeleted = v) → s' = s

section Passed

variable {ids ids' : Uuid → Bool} {v : Bool} {s s₁ s' : World}

lemma Mark.set_self {m : Mark} (h : m.isDeleted = v) : { m with isDeleted := v } = m := by
  rw [← h]

/-- No connection changes. -/
lemma Passed.none (h : ∀ id m, ids id = true → markOf s id = some m → m.isDeleted = v) :
    Passed ids v s s := by
  refine ⟨rfl, fun id => ?_, le_rfl, fun id m hid hm hne => absurd (h id m hid hm) hne,
    fun _ => rfl⟩
  cases hm : markOf s id with
  | none => rfl
  | some m =>
      rw [Option.map_some]
      split_ifs with hid
      · rw [Mark.set_self (h id m hid hm)]
      · rfl

/-- Connections that have the flag already count or not. -/
lemma Passed.congr (h : Passed ids v s s')
    (hids : ∀ id m, markOf s id = some m → m.isDeleted ≠ v → ids' id = ids id) :
    Passed ids' v s s' := by
  have hback : ∀ id m, ids id = true → markOf s id = some m → m.isDeleted ≠ v → ids' id = true := by
    intro id m hid hm hne
    rw [hids id m hm hne, hid]
  refine ⟨h.subs, fun id => ?_, h.grows, fun id m hid hm hne => ?_, fun hall => h.still ?_⟩
  · rw [h.marks]
    refine Option.map_congr fun m hm => ?_
    by_cases hv : m.isDeleted = v
    · rw [Mark.set_self hv, ite_self, ite_self]
    · rw [hids id m hm hv]
  · rw [hids id m hm hne] at hid
    exact h.news id m hid hm hne
  · intro id m hid hm
    by_contra hne
    exact hne (hall id m (hback id m hid hm hne) hm)

/-- One pass after another. -/
lemma Passed.trans (h : Passed ids v s s₁) (h' : Passed ids' v s₁ s') :
    Passed (fun id => ids id || ids' id) v s s' := by
  -- where the first pass changes nothing the second one finds the mark
  have hsame : ∀ id m, markOf s id = some m → ids id = false → markOf s₁ id = some m := by
    intro id m hm hid
    rw [h.marks, hm, Option.map_some, if_neg (by rw [hid]; decide)]
  refine ⟨h'.subs.trans h.subs, fun id => ?_, h.grows.trans h'.grows, ?_, ?_⟩
  · rw [h'.marks, h.marks, Option.map_map]
    refine Option.map_congr fun m _ => ?_
    rw [Function.comp_apply]
    cases ids id <;> cases ids' id <;> rfl
  · intro id m hid hm hne
    cases hfirst : ids id with
    | true => exact (h.news id m hfirst hm hne).trans_le h'.grows
    | false =>
        rw [hfirst, Bool.false_or] at hid
        exact h.grows.trans_lt (h'.news id m hid (hsame id m hm hfirst) hne)
  · intro hall
    have hs₁ : s₁ = s := h.still fun id m hid hm => hall id m (by rw [hid, Bool.true_or]) hm
    subst hs₁
    exact h'.still fun id m hid hm => hall id m (by rw [hid, Bool.or_true]) hm

end Passed

/-! ### Deletions -/

section Deletions

variable {t : DateTime} {s s' : World}

lemma ok_of_atInstant {β : Type} {ts : List (Prog Call Unit)} {c : Call β} {i : Input} {b : β}
    (h : atInstant t β ts c i s b = true) : i.ok = true ∧ i.now = t := by
  simpa [atInstant] using h

lemma markOf_setDeleted (cid id : Uuid) (v : Bool) (i : Input) (s : World) :
    markOf { s with memory := (Edit.run (.setDeleted id v) i s.memory).1 } cid =
      (markOf s cid).map fun m => if cid = id then { m with isDeleted := v } else m := by
  rw [markOf, markOf]
  show Option.map _ ((s.memory.connections.change id _).get cid) = _
  rw [Table.get_change, Option.map_map]
  split_ifs with h
  · rw [h, Option.map_map]
    rfl
  · rfl

lemma markOf_eq_some {id : Uuid} {m : Mark} : markOf s id = some m ↔
    ∃ c, s.memory.connections.get id = some c ∧
      m = ⟨c.subscriptionId, c.expiresAt, c.isDeleted⟩ := by
  rw [markOf, Option.map_eq_some_iff]
  simp only [eq_comm]

/-- `delete_connection` deletes a live connection. -/
lemma passed_deleteConnection {connId : Uuid} {conn : Conn} {r : Except SyncError Status}
    (h : Exec (atInstant t) (deleteConnection connId conn) s r s') :
    Passed (fun id => id == connId) true s s' := by
  have hsafe : ¬MayFail (atInstant t) := by
    rintro ⟨β, c, i, s, b, hok, hrule⟩
    rw [(ok_of_atInstant hrule).1] at hok
    cases hok
  rcases exec_deleteConnection h with ⟨rfl, -, hdead | hfail⟩ | ⟨-, -, hfail⟩ |
    ⟨i, ⟨c, hget, hlive⟩, -, rfl⟩
  · refine Passed.none fun id m hid hm => ?_
    rw [eq_of_beq hid] at hm
    obtain ⟨c, hget, rfl⟩ := markOf_eq_some.mp hm
    exact hdead c hget
  · exact absurd hfail hsafe
  · exact absurd hfail hsafe
  · have hmark : markOf s connId = some ⟨c.subscriptionId, c.expiresAt, c.isDeleted⟩ :=
      markOf_eq_some.mpr ⟨c, hget, rfl⟩
    refine ⟨rfl, fun id => ?_, Nat.le_succ _, fun _ _ _ _ _ => Nat.lt_succ_self _, ?_⟩
    · refine (markOf_setDeleted id connId true i _).trans ?_
      refine Option.map_congr fun m _ => ?_
      simp only [beq_iff_eq]
    · intro hall
      have htrue := hall connId _ (beq_self_eq_true _) hmark
      rw [hlive] at htrue
      cases htrue

lemma passed_deleteAll {es : List (Uuid × Conn)} {u : Unit}
    (h : Exec (atInstant t) (deleteAll es) s u s') :
    Passed (fun id => es.any fun e => id == e.1) true s s' := by
  induction es generalizing s with
  | nil =>
      rw [h.of_pure.2]
      exact Passed.none fun id m hid => by cases hid
  | cons e es ih =>
      obtain ⟨r, s₁, hfirst, hrest⟩ := Exec.of_bind h
      exact (passed_deleteConnection hfirst).trans (ih hrest)

end Deletions

/-! ### Restorations -/

/-- The calls of restorations of the connections in a list. -/
def RestoresIn (ids : List Uuid) : (β : Type) → Call β → Prop
  | _, .look _ => True
  | _, .bus _ => True
  | _, .ask _ => True
  | _, .sql (.connRestore _) => True
  | _, .edit (.setDeleted id v) => v = false ∧ id ∈ ids
  | _, _ => False

/-- The replies to the restoration of a connection when nothing fails. -/
def restoreReplies (id : Uuid) : (β : Type) → Call β → β → Prop
  | _, .look (.connection id'), existing => id' = id → existing.isSome = true
  | _, .bus (.publish _ _), r => r = .ok ()
  | _, .sql (.connRestore _), r => r = .ok ()
  | _, _, _ => True

/-- The call that restores the connection in memory. -/
def Unmarks (id : Uuid) : (β : Type) → Call β → Prop
  | _, .edit (.setDeleted id' v) => id' = id ∧ v = false
  | _, _ => False

/-- A publication. -/
def Publishes : (β : Type) → Call β → Prop
  | _, .bus _ => True
  | _, _ => False

section Restorations

variable {t : DateTime} {s s' : World}

lemma usesIn_restoreOne {ids : List Uuid} {e : Uuid × Conn} (he : e.1 ∈ ids) :
    Uses (RestoresIn ids) (restoreOne e) := by
  refine ⟨trivial, fun r => ?_⟩
  cases r with
  | error err => exact trivial
  | ok u =>
      have hrestore : Uses (RestoresIn ids) (restoreConnection e.1) := by
        refine ⟨trivial, fun existing => ?_⟩
        cases existing with
        | none => exact trivial
        | some c =>
            refine ⟨trivial, fun r => ?_⟩
            cases r with
            | error err => exact trivial
            | ok u => exact ⟨⟨rfl, he⟩, fun _ => trivial⟩
      refine hrestore.bind fun r => ?_
      rcases r with r | st
      · exact trivial
      · cases st <;> exact trivial

lemma makes_restoreOne (e : Uuid × Conn) :
    Makes (restoreReplies e.1) (Unmarks e.1) (restoreOne e) := by
  refine .inr fun r hr => ?_
  obtain rfl : r = .ok () := hr
  have hrestore : Makes (restoreReplies e.1) (Unmarks e.1) (restoreConnection e.1) := by
    refine .inr fun existing hsome => ?_
    cases existing with
    | none => cases hsome rfl
    | some c =>
        refine .inr fun r hr => ?_
        obtain rfl : r = .ok () := hr
        exact .inl ⟨rfl, rfl⟩
  exact hrestore.bind _

/-- One call of restorations. -/
lemma step_of_restoresIn {ids : List Uuid} {β : Type} {c : Call β} {i : Input} {b : β}
    (hc : RestoresIn ids β c) (hexec : exec c i s = some (s', b)) :
    s'.memory.subscriptions = s.memory.subscriptions ∧ s.bus.length ≤ s'.bus.length ∧
      ∀ id, markOf s' id = markOf s id ∨
        id ∈ ids ∧ markOf s' id = (markOf s id).map fun m => { m with isDeleted := false } := by
  cases c with
  | look r =>
      obtain ⟨-, rfl, -⟩ := exec_look.mp hexec
      exact ⟨rfl, le_rfl, fun _ => .inl rfl⟩
  | ask a =>
      obtain ⟨rfl, -⟩ := exec_ask.mp hexec
      exact ⟨rfl, le_rfl, fun _ => .inl rfl⟩
  | bus p =>
      have hs := (exec_bus.mp hexec).1
      cases p with
      | publish topic ms =>
          rw [Call.execBus] at hs
          split at hs
          · rw [hs]
            exact ⟨rfl, Nat.le_succ _, fun _ => .inl rfl⟩
          · rw [hs]
            exact ⟨rfl, le_rfl, fun _ => .inl rfl⟩
  | sql q =>
      obtain ⟨rfl, -⟩ := exec_sql.mp hexec
      exact ⟨rfl, le_rfl, fun _ => .inl rfl⟩
  | edit w =>
      obtain ⟨-, hs, -⟩ := exec_edit.mp hexec
      cases w with
      | setDeleted id v =>
          obtain ⟨rfl, hid⟩ := hc
          rw [hs]
          refine ⟨rfl, le_rfl, fun id' => ?_⟩
          have hmark := markOf_setDeleted id' id false i s
          by_cases hsame : id' = id
          · refine .inr ⟨by rwa [hsame], hmark.trans ?_⟩
            exact Option.map_congr fun m _ => if_pos hsame
          · refine .inl (hmark.trans ?_)
            rw [Option.map_congr fun m _ => if_neg hsame]
            exact Option.map_id'
      | _ => exact hc.elim
  | _ => exact hc.elim

/-- The replies to one call of restorations when nothing fails. -/
lemma restoreReplies_of_exec {id : Uuid} {β : Type} {c : Call β} {i : Input} {b : β}
    (hexec : exec c i s = some (s', b)) (hok : i.ok = true) (hsome : (markOf s id).isSome = true) :
    restoreReplies id β c b := by
  cases c with
  | look r =>
      cases r with
      | connection id' =>
          rintro rfl
          obtain ⟨-, -, rfl⟩ := exec_look.mp hexec
          rwa [markOf, Option.isSome_map] at hsome
      | _ => exact trivial
  | bus p =>
      cases p with
      | publish topic ms =>
          have hb := (exec_bus.mp hexec).2
          rwa [Call.execBus, if_pos hok] at hb
  | sql q =>
      cases q with
      | connRestore id' =>
          have hb := (exec_sql.mp hexec).2
          rwa [Sql.run, if_pos hok] at hb
      | _ => exact trivial
  | _ => exact trivial

/-- A connection on the list is restored. -/
lemma markOf_restored {es : List (Uuid × Conn)} {r : List (Option Uuid)} {x : Uuid × Conn}
    (hx : x ∈ es) {m : Mark} (hm : markOf s x.1 = some m)
    (huses : Uses (RestoresIn (es.map Prod.fst)) (Prog.joinAll (.ask .pick) (es.map restoreOne)))
    (h : Exec (atInstant t) (Prog.joinAll (.ask .pick) (es.map restoreOne)) s r s') :
    markOf s' x.1 = some { m with isDeleted := false } := by
  have hmakes : Makes (restoreReplies x.1) (Unmarks x.1)
      (Prog.joinAll (.ask .pick) (es.map restoreOne)) :=
    Makes.joinAll (List.mem_map_of_mem hx) (makes_restoreOne x)
  refine h.of_makes (I := fun s₁ => markOf s₁ x.1 = some m ∨
    markOf s₁ x.1 = some { m with isDeleted := false })
    (P := fun s₁ => markOf s₁ x.1 = some { m with isDeleted := false }) hmakes huses ?_ (.inl hm)
  intro β c i s₁ s₂ b hc hexec hrule hs₁
  have hsome : (markOf s₁ x.1).isSome = true := by
    rcases hs₁ with hs₁ | hs₁
    · rw [hs₁]
      rfl
    · rw [hs₁]
      rfl
  -- restoring a connection again changes nothing
  have hagain : (markOf s₁ x.1).map (fun m => { m with isDeleted := false }) =
      some { m with isDeleted := false } := by
    rcases hs₁ with hs₁ | hs₁
    · rw [hs₁]
      rfl
    · rw [hs₁]
      rfl
  have hstep := (step_of_restoresIn hc hexec).2.2 x.1
  refine ⟨?_, restoreReplies_of_exec hexec (ok_of_atInstant hrule).1 hsome, fun hdone => ?_, ?_⟩
  · rcases hstep with hsame | ⟨-, hset⟩
    · rwa [hsame]
    · exact .inr (hset.trans hagain)
  · rcases hstep with hsame | ⟨-, hset⟩
    · rwa [hsame]
    · exact hset.trans hagain
  · intro hunmark
    cases c with
    | edit w =>
        cases w with
        | setDeleted id v =>
            obtain ⟨rfl, rfl⟩ := hunmark
            obtain ⟨-, hs₂, -⟩ := exec_edit.mp hexec
            rw [hs₂]
            refine (markOf_setDeleted x.1 x.1 false i s₁).trans (Eq.trans ?_ hagain)
            exact Option.map_congr fun m _ => if_pos rfl
        | _ => exact hunmark.elim
    | _ => exact hunmark.elim

/-- Every list of restorations is announced. -/
lemma bus_restored {e : Uuid × Conn} {es : List (Uuid × Conn)} {r : List (Option Uuid)}
    (huses : Uses (RestoresIn ((e :: es).map Prod.fst))
      (Prog.joinAll (.ask .pick) ((e :: es).map restoreOne)))
    (h : Exec (atInstant t) (Prog.joinAll (.ask .pick) ((e :: es).map restoreOne)) s r s') :
    s.bus.length < s'.bus.length := by
  have hmakes : Makes (fun _ _ _ => True) Publishes
      (Prog.joinAll (.ask .pick) ((e :: es).map restoreOne)) :=
    Makes.joinAll (List.mem_map_of_mem List.mem_cons_self) (.inl trivial)
  refine h.of_makes (I := fun s₁ => s.bus.length ≤ s₁.bus.length)
    (P := fun s₁ => s.bus.length < s₁.bus.length) hmakes huses ?_ le_rfl
  intro β c i s₁ s₂ b hc hexec hrule hs₁
  have hgrows := (step_of_restoresIn hc hexec).2.1
  refine ⟨hs₁.trans hgrows, trivial, fun hlt => hlt.trans_le hgrows, fun hpub => ?_⟩
  cases c with
  | bus p =>
      cases p with
      | publish topic ms =>
          have hs := (exec_bus.mp hexec).1
          rw [Call.execBus, if_pos (ok_of_atInstant hrule).1] at hs
          rw [hs]
          exact Nat.lt_succ_of_le hs₁
  | _ => exact hpub.elim

/-- The restorations of a list of deleted connections, interleaved in any way. -/
lemma passed_joinAll {e : Uuid × Conn} {es : List (Uuid × Conn)} {r : List (Option Uuid)}
    (hdel : ∀ x ∈ e :: es, ∃ m, markOf s x.1 = some m ∧ m.isDeleted = true)
    (h : Exec (atInstant t) (Prog.joinAll (.ask .pick) ((e :: es).map restoreOne)) s r s') :
    Passed (fun id => (e :: es).any fun x => id == x.1) false s s' := by
  have huses : Uses (RestoresIn ((e :: es).map Prod.fst))
      (Prog.joinAll (.ask .pick) ((e :: es).map restoreOne)) := by
    refine Uses.joinAll trivial fun p hp => ?_
    obtain ⟨x, hx, rfl⟩ := List.mem_map.mp hp
    exact usesIn_restoreOne (List.mem_map_of_mem hx)
  have hnews := bus_restored huses h
  have hother : Triple (atInstant t)
      (fun s₁ => s₁.memory.subscriptions = s.memory.subscriptions ∧
        ∀ id ∉ (e :: es).map Prod.fst, markOf s₁ id = markOf s id)
      (Prog.joinAll (.ask .pick) ((e :: es).map restoreOne))
      fun _ s₁ => s₁.memory.subscriptions = s.memory.subscriptions ∧
        ∀ id ∉ (e :: es).map Prod.fst, markOf s₁ id = markOf s id := by
    refine Triple.of_uses huses ?_
    intro β c i s₁ s₂ b hc hexec hs₁
    obtain ⟨hsubs, -, hmarks⟩ := step_of_restoresIn hc hexec
    refine ⟨hsubs.trans hs₁.1, fun id hid => ?_⟩
    rcases hmarks id with hsame | ⟨hin, -⟩
    · exact hsame.trans (hs₁.2 id hid)
    · exact absurd hin hid
  obtain ⟨hsubs, hrest⟩ := hother h ⟨rfl, fun _ _ => rfl⟩
  refine ⟨hsubs, fun id => ?_, hnews.le, fun _ _ _ _ _ => hnews, fun hall => ?_⟩
  · by_cases hid : id ∈ (e :: es).map Prod.fst
    · obtain ⟨x, hx, rfl⟩ := List.mem_map.mp hid
      obtain ⟨m, hm, -⟩ := hdel x hx
      have hany : ((e :: es).any fun y => x.1 == y.1) = true :=
        List.any_eq_true.mpr ⟨x, hx, beq_self_eq_true _⟩
      rw [markOf_restored hx hm huses h, hm, Option.map_some, if_pos hany]
    · have hany : ((e :: es).any fun y => id == y.1) = false := by
        rw [List.any_eq_false]
        intro y hy heq
        exact hid (List.mem_map.mpr ⟨y, hy, (eq_of_beq heq).symm⟩)
      rw [hrest id hid, Option.map_congr fun m _ => if_neg (by rw [hany]; decide)]
      exact Option.map_id'.symm
  · -- the first connection of the list is deleted
    obtain ⟨m, hm, hdeleted⟩ := hdel e List.mem_cons_self
    have hlive := hall e.1 m (List.any_eq_true.mpr ⟨e, List.mem_cons_self, beq_self_eq_true _⟩) hm
    rw [hdeleted] at hlive
    cases hlive

end Restorations

/-! ### One pass of a task -/

section Ticks

variable {t : DateTime} {s s' : World}

/-- The keys of the connections that a look has selected. -/
lemma any_key_eq {es : List (Uuid × Conn)} {q : Conn → Bool}
    (hes : ∀ id c, (id, c) ∈ es ↔ s.memory.connections.get id = some c ∧ q c = true) (id : Uuid) :
    (es.any fun e => id == e.1) = (s.memory.connections.get id).any q := by
  rw [Bool.eq_iff_iff, List.any_eq_true, Option.any_eq_true]
  constructor
  · rintro ⟨⟨id', c⟩, he, hid⟩
    rw [eq_of_beq hid]
    exact ⟨c, (hes id' c).mp he⟩
  · rintro ⟨c, hc⟩
    exact ⟨(id, c), (hes id c).mpr hc, beq_self_eq_true id⟩

lemma memSub_eq (s : World) (id : Uuid) : memSub id s = (markOf s id).bind Mark.sub := by
  rw [memSub, markOf, Option.bind_map]
  rfl

lemma Passed.memSub {ids : Uuid → Bool} {v : Bool} (h : Passed ids v s s') (id : Uuid) :
    memSub id s' = memSub id s := by
  rw [memSub_eq, memSub_eq, h.marks, Option.bind_map]
  refine Option.bind_congr fun m _ => ?_
  rw [Function.comp_apply]
  split_ifs <;> rfl

/-- `restore_connections_by_subscription`. -/
lemma passed_restoreConnectionsBySubscription {sub : Uuid} {r : List Uuid}
    (h : Exec (atInstant t) (restoreConnectionsBySubscription sub) s r s') :
    Passed (fun id => memSub id s == some sub) false s s' := by
  obtain ⟨es, ys, hes, -, hjoin, -⟩ := exec_restoreConnectionsBySubscription h
  have hmem : ∀ id c, (id, c) ∈ es ↔ s.memory.connections.get id = some c ∧
      (c.subscriptionId == some sub && c.isDeleted) = true := by
    intro id c
    rw [hes, Bool.and_eq_true, beq_iff_eq]
  -- of the connections that are deleted the list has those of the subscription
  have hkeys : ∀ id m, markOf s id = some m → m.isDeleted ≠ false →
      (memSub id s == some sub) = es.any fun e => id == e.1 := by
    intro id m hm hdel
    obtain ⟨c, hget, rfl⟩ := markOf_eq_some.mp hm
    rw [any_key_eq hmem, memSub, hget, Option.bind_some, Option.any_some,
      show c.isDeleted = true by simpa using hdel, Bool.and_true]
  cases es with
  | nil =>
      rw [hjoin.of_pure.2]
      refine Passed.none fun id m hid hm => ?_
      by_contra hdel
      rw [hkeys id m hm hdel] at hid
      cases hid
  | cons e es =>
      refine (passed_joinAll (fun x hx => ?_) hjoin).congr hkeys
      obtain ⟨hget, hq⟩ := (hmem x.1 x.2).mp hx
      exact ⟨_, markOf_eq_some.mpr ⟨x.2, hget, rfl⟩, (Bool.and_eq_true_iff.mp hq).2⟩

/-- The deletion of the connections of a subscription. -/
lemma passed_deleteAll_toDelete {sub : Uuid} {i : Input} {u : Unit}
    (h : Exec (atInstant t) (deleteAll (Look.run (.toDelete sub) i s.memory)) s u s') :
    Passed (fun id => memSub id s == some sub) true s s' := by
  have hmem : ∀ id c, (id, c) ∈ Look.run (.toDelete sub) i s.memory ↔
      s.memory.connections.get id = some c ∧
        (c.subscriptionId == some sub && !c.isDeleted) = true := by
    intro id c
    rw [Bool.and_eq_true, beq_iff_eq, ← and_assoc]
    exact List.mem_filter.trans (and_congr_left' Connections.mem_getBySubscriptionId)
  refine (passed_deleteAll h).congr fun id m hm hdel => ?_
  obtain ⟨c, hget, rfl⟩ := markOf_eq_some.mp hm
  rw [any_key_eq hmem, memSub, hget, Option.bind_some, Option.any_some,
    show c.isDeleted = false by simpa using hdel, Bool.not_false, Bool.and_true]

lemma any_contains_cons (o : Option Uuid) (sub : Uuid) (subs : List Uuid) :
    o.any (sub :: subs).contains = (o == some sub || o.any subs.contains) := by
  cases o with
  | none => rfl
  | some x => rw [Option.any_some, Option.any_some, List.contains_cons, Option.some_beq_some]

lemma passed_cleanupSubs {subs : List Uuid} {u : Unit}
    (h : Exec (atInstant t) (cleanupSubs subs) s u s') :
    Passed (fun id => (memSub id s).any subs.contains) true s s' := by
  induction subs generalizing s with
  | nil =>
      rw [h.of_pure.2]
      refine Passed.none fun id m hid => ?_
      cases hsub : memSub id s <;> simp [hsub] at hid
  | cons sub subs ih =>
      simp only [cleanupSubs, Prog.perform_bind] at h
      obtain ⟨i, s₁, conns, hlook, -, h⟩ := h.of_call
      obtain ⟨-, hs₁, hconns⟩ := exec_look.mp hlook
      rw [hs₁, hconns] at h
      obtain ⟨u₁, s₂, hfirst, hrest⟩ := Exec.of_bind h
      have hpass := passed_deleteAll_toDelete hfirst
      refine (hpass.trans (ih hrest)).congr fun id m _ _ => ?_
      rw [hpass.memSub, any_contains_cons]

lemma passed_restoreSubs {subs : List Uuid} {u : Unit}
    (h : Exec (atInstant t) (restoreSubs subs) s u s') :
    Passed (fun id => (memSub id s).any subs.contains) false s s' := by
  induction subs generalizing s with
  | nil =>
      rw [h.of_pure.2]
      refine Passed.none fun id m hid => ?_
      cases hsub : memSub id s <;> simp [hsub] at hid
  | cons sub subs ih =>
      obtain ⟨ids, s₁, hfirst, hrest⟩ := Exec.of_bind h
      have hpass := passed_restoreConnectionsBySubscription hfirst
      refine (hpass.trans (ih hrest)).congr fun id m _ _ => ?_
      rw [hpass.memSub, any_contains_cons]

/-- The ids of the subscriptions that a look has selected. -/
lemma contains_subs {subs : List Uuid} {q : Subscription → Bool} {order : List Uuid}
    (hsubs : subs = ((s.memory.subscriptions.iter order).filter fun e => q e.2).map Prod.fst)
    (sub : Uuid) : subs.contains sub = (s.memory.subscriptions.get sub).any q := by
  rw [Bool.eq_iff_iff, List.contains_iff_mem, hsubs, List.mem_map, Option.any_eq_true]
  constructor
  · rintro ⟨⟨sub', x⟩, hx, rfl⟩
    obtain ⟨hget, hq⟩ := List.mem_filter.mp hx
    exact ⟨x, Table.mem_iter.mp hget, hq⟩
  · rintro ⟨x, hget, hq⟩
    exact ⟨(sub, x), List.mem_filter.mpr ⟨Table.mem_iter.mpr hget, hq⟩, rfl⟩

/-- **One pass of a task**: the connections that it takes get its flag. -/
lemma passed_tick {τ : Tick} {u : Unit} (h : Exec (atInstant t) τ.prog s u s') :
    Passed (fun id => (markOf s id).any (τ.takes t s)) τ.flag s s' := by
  cases τ with
  | cleanupExpiredConnections =>
      simp only [Tick.prog, Fcore.cleanupExpiredConnections, Prog.perform_bind] at h
      obtain ⟨i₁, s₁, now, hask, hrule, h⟩ := h.of_call
      obtain ⟨hs₁, hnow⟩ := exec_ask.mp hask
      change now = i₁.now at hnow
      rw [(ok_of_atInstant hrule).2] at hnow
      rw [hs₁, hnow] at h
      obtain ⟨i₂, s₂, es, hlook, -, h⟩ := h.of_call
      obtain ⟨-, hs₂, hes⟩ := exec_look.mp hlook
      rw [hs₂] at h
      have hmem : ∀ id c, (id, c) ∈ es ↔ s.memory.connections.get id = some c ∧
          ((c.expiresAt.any fun e => decide (e ≤ t)) && !c.isDeleted) = true := by
        intro id c
        rw [hes]
        refine List.mem_filter.trans (and_congr Table.mem_iter ?_)
        cases c.expiresAt <;> simp
      refine (passed_deleteAll h).congr fun id m hm hdel => ?_
      obtain ⟨c, hget, rfl⟩ := markOf_eq_some.mp hm
      rw [any_key_eq hmem, hm, hget, Option.any_some, Option.any_some,
        show c.isDeleted = false by simpa [Tick.flag] using hdel, Bool.not_false, Bool.and_true]
      rfl
  | cleanupExpiredSubscriptions =>
      simp only [Tick.prog, Fcore.cleanupExpiredSubscriptions, Prog.perform_bind] at h
      obtain ⟨i, s₁, subs, hlook, hrule, h⟩ := h.of_call
      obtain ⟨-, hs₁, hsubs⟩ := exec_look.mp hlook
      rw [hs₁] at h
      refine (passed_cleanupSubs h).congr fun id m hm _ => ?_
      rw [hm, Option.any_some, memSub_eq, hm, Option.bind_some]
      refine congrArg (fun q => m.sub.any q) (funext fun sub => ?_)
      have hcontains : subs.contains sub = (s.memory.subscriptions.get sub).any fun x =>
          !x.isActive i.now := contains_subs hsubs sub
      rw [hcontains, (ok_of_atInstant hrule).2, activeAt]
      cases s.memory.subscriptions.get sub <;> rfl
  | restoreSubscriptions =>
      simp only [Tick.prog, Fcore.restoreSubscriptions, Prog.perform_bind] at h
      obtain ⟨i, s₁, subs, hlook, hrule, h⟩ := h.of_call
      obtain ⟨-, hs₁, hsubs⟩ := exec_look.mp hlook
      rw [hs₁] at h
      refine (passed_restoreSubs h).congr fun id m hm _ => ?_
      rw [hm, Option.any_some, memSub_eq, hm, Option.bind_some]
      refine congrArg (fun q => m.sub.any q) (funext fun sub => ?_)
      have hcontains : subs.contains sub = (s.memory.subscriptions.get sub).any fun x =>
          x.isActive i.now := contains_subs hsubs sub
      rw [hcontains, (ok_of_atInstant hrule).2, activeAt]

end Ticks

/-! ### Settled states -/

/-- The task has nothing to do. -/
def Tick.Settled (τ : Tick) (t : DateTime) (s : World) : Prop :=
  ∀ id m, markOf s id = some m → τ.takes t s m = true → m.isDeleted = τ.flag

/-- A connection of the memory has expired and belongs to an active subscription. -/
def Disputed (t : DateTime) (s : World) : Prop :=
  ∃ id c e sub, s.memory.connections.get id = some c ∧ c.expiresAt = some e ∧ e ≤ t ∧
    c.subscriptionId = some sub ∧ activeAt sub s t = true

section Settled

variable {t : DateTime} {s s' : World} {τ τ' : Tick}

lemma disputed_iff : Disputed t s ↔ ∃ id m, markOf s id = some m ∧
    Tick.cleanupExpiredConnections.takes t s m = true ∧
    Tick.restoreSubscriptions.takes t s m = true := by
  simp only [Tick.takes, Option.any_eq_true, decide_eq_true_eq]
  constructor
  · rintro ⟨id, c, e, sub, hget, he, hle, hsub, hactive⟩
    exact ⟨id, _, markOf_eq_some.mpr ⟨c, hget, rfl⟩, ⟨e, he, hle⟩, sub, hsub, hactive⟩
  · rintro ⟨id, m, hm, ⟨e, he, hle⟩, sub, hsub, hactive⟩
    obtain ⟨c, hget, rfl⟩ := markOf_eq_some.mp hm
    exact ⟨id, c, e, sub, hget, he, hle, hsub, hactive⟩

/-- What a task takes does not depend on the flags. -/
lemma takes_congr (hsubs : s'.memory.subscriptions = s.memory.subscriptions) (m : Mark) (v : Bool) :
    τ.takes t s' { m with isDeleted := v } = τ.takes t s m := by
  cases τ <;> simp only [Tick.takes, activeAt, hsubs]

/-- Tasks that take a connection that is not disputed agree on its flag. -/
lemma flag_eq_of_takes (hno : ¬ Disputed t s) {id : Uuid} {m : Mark} (hm : markOf s id = some m)
    (h : τ.takes t s m = true) (h' : τ'.takes t s m = true) : τ.flag = τ'.flag := by
  -- a subscription is not both active and expired
  have hexcl : Tick.cleanupExpiredSubscriptions.takes t s m = true →
      Tick.restoreSubscriptions.takes t s m = true → False := by
    simp only [Tick.takes, Option.any_eq_true, Bool.and_eq_true, Bool.not_eq_true']
    rintro ⟨sub, hsub, -, hinactive⟩ ⟨sub', hsub', hactive⟩
    rw [hsub] at hsub'
    rw [← Option.some.inj hsub', hinactive] at hactive
    cases hactive
  cases τ with
  | cleanupExpiredConnections =>
      cases τ' with
      | restoreSubscriptions => exact absurd (disputed_iff.mpr ⟨id, m, hm, h, h'⟩) hno
      | _ => rfl
  | cleanupExpiredSubscriptions =>
      cases τ' with
      | restoreSubscriptions => exact (hexcl h h').elim
      | _ => rfl
  | restoreSubscriptions =>
      cases τ' with
      | cleanupExpiredConnections => exact absurd (disputed_iff.mpr ⟨id, m, hm, h', h⟩) hno
      | cleanupExpiredSubscriptions => exact (hexcl h' h).elim
      | restoreSubscriptions => rfl

/-- The marks before a pass. -/
lemma markOf_before (h : Passed (fun id => (markOf s id).any (τ.takes t s)) τ.flag s s') {id : Uuid}
    {m' : Mark} (hm' : markOf s' id = some m') : ∃ m, markOf s id = some m ∧
      m' = if τ.takes t s m then { m with isDeleted := τ.flag } else m := by
  rw [h.marks] at hm'
  obtain ⟨m, hm, rfl⟩ := Option.map_eq_some_iff.mp hm'
  refine ⟨m, hm, ?_⟩
  rw [hm, Option.any_some]

/-- A pass leaves the static part of a mark as it is. -/
lemma takes_after (h : Passed (fun id => (markOf s id).any (τ.takes t s)) τ.flag s s') {m m' : Mark}
    (hm : m' = if τ.takes t s m then { m with isDeleted := τ.flag } else m) :
    τ'.takes t s' m' = τ'.takes t s m := by
  rw [hm]
  split_ifs
  · exact takes_congr h.subs m _
  · exact takes_congr h.subs m m.isDeleted

/-- A pass settles no dispute and makes none. -/
lemma disputed_after (h : Passed (fun id => (markOf s id).any (τ.takes t s)) τ.flag s s') :
    Disputed t s' ↔ Disputed t s := by
  rw [disputed_iff, disputed_iff]
  constructor
  · rintro ⟨id, m', hm', hexpired, hactive⟩
    obtain ⟨m, hm, heq⟩ := markOf_before h hm'
    rw [takes_after h heq] at hexpired hactive
    exact ⟨id, m, hm, hexpired, hactive⟩
  · rintro ⟨id, m, hm, hexpired, hactive⟩
    have hm' := h.marks id
    rw [hm, Option.map_some, Option.any_some] at hm'
    refine ⟨id, _, hm', ?_, ?_⟩
    · rwa [takes_after h rfl]
    · rwa [takes_after h rfl]

lemma disputed_of_serial {xs : List Tick} (h : Serial (atInstant t) Tick.prog s xs s') :
    Disputed t s' ↔ Disputed t s := by
  induction h with
  | nil => rfl
  | snoc hrun hexec ih => exact (disputed_after (passed_tick hexec)).trans ih

/-- After its pass a task is settled, and a task that was settled stays so. -/
lemma settled_after (hno : ¬ Disputed t s)
    (h : Passed (fun id => (markOf s id).any (τ.takes t s)) τ.flag s s')
    (hbefore : τ' = τ ∨ τ'.Settled t s) : τ'.Settled t s' := by
  intro id m' hm' htakes
  obtain ⟨m, hm, heq⟩ := markOf_before h hm'
  rw [takes_after h heq] at htakes
  cases htaken : τ.takes t s m with
  | true =>
      rw [heq, if_pos htaken]
      exact flag_eq_of_takes hno hm htaken htakes
  | false =>
      rw [heq, if_neg (by rw [htaken]; decide)]
      rcases hbefore with rfl | hsettled
      · rw [htaken] at htakes
        cases htakes
      · exact hsettled id m hm htakes

/-- After any passes all tasks that have had one are settled, if nothing is disputed. -/
lemma settled_of_serial {xs : List Tick} (h : Serial (atInstant t) Tick.prog s xs s')
    (hno : ¬ Disputed t s) : ∀ τ ∈ xs, τ.Settled t s' := by
  induction h with
  | nil => exact fun τ hτ => absurd hτ List.not_mem_nil
  | @snoc xs τ s₁ s₂ u hrun hexec ih =>
      intro τ' hτ'
      have hno₁ : ¬ Disputed t s₁ := by rwa [disputed_of_serial hrun]
      refine settled_after hno₁ (passed_tick hexec) ?_
      rcases List.mem_append.mp hτ' with hold | hnew
      · exact .inr (ih τ' hold)
      · exact .inl (List.mem_singleton.mp hnew)

/-- Settled tasks do nothing. -/
lemma idle_of_settled {xs : List Tick} (h : Serial (atInstant t) Tick.prog s xs s')
    (hall : ∀ τ : Tick, τ.Settled t s) : s' = s := by
  induction h with
  | nil => rfl
  | @snoc xs τ s₁ s₂ u hrun hexec ih =>
      subst ih
      refine (passed_tick hexec).still fun id m htaken hm => hall τ id m hm ?_
      rwa [hm, Option.any_some] at htaken

/-- Tasks that publish nothing are settled. -/
lemma settled_of_bus {xs : List Tick} (h : Serial (atInstant t) Tick.prog s xs s') :
    s.bus.length ≤ s'.bus.length ∧
      (s'.bus.length = s.bus.length → s' = s ∧ ∀ τ ∈ xs, τ.Settled t s) := by
  induction h with
  | nil => exact ⟨le_rfl, fun _ => ⟨rfl, fun τ hτ => absurd hτ List.not_mem_nil⟩⟩
  | @snoc xs τ s₁ s₂ u hrun hexec ih =>
      have hpass := passed_tick hexec
      refine ⟨ih.1.trans hpass.grows, fun hlen => ?_⟩
      have hgrows := ih.1
      have hgrows' := hpass.grows
      obtain ⟨rfl, hsettled⟩ := ih.2 (by omega)
      have hτ : τ.Settled t s₁ := by
        intro id m hm htakes
        by_contra hne
        have hmore := hpass.news id m (by rw [hm, Option.any_some, htakes]) hm hne
        omega
      refine ⟨hpass.still fun id m htaken hm => hτ id m hm ?_, fun τ' hτ' => ?_⟩
      · rwa [hm, Option.any_some] at htaken
      · rcases List.mem_append.mp hτ' with hold | hnew
        · exact hsettled τ' hold
        · rw [List.mem_singleton.mp hnew]
          exact hτ

/-- A dispute is never settled. -/
lemma not_disputed_of_settled (hall : ∀ τ : Tick, τ.Settled t s) : ¬ Disputed t s := by
  intro hdisp
  obtain ⟨id, m, hm, hexpired, hactive⟩ := disputed_iff.mp hdisp
  have hdeleted := hall .cleanupExpiredConnections id m hm hexpired
  have hlive := hall .restoreSubscriptions id m hm hactive
  rw [hdeleted] at hlive
  cases hlive

end Settled

/-! ### Two passes -/

/-- **A second pass**: after passes of all three tasks one after another, in any order, at an
instant and without failures, further passes of all three in any order at the same instant
publish nothing and change no deleted flag, in memory or in the database, if and only if no
connection in memory has expired while its subscription is active. -/
theorem second_pass_idle_iff {t : DateTime} {first second : List Tick} {s s₁ s₂ : World}
    (hfirst : ∀ τ : Tick, τ ∈ first) (hsecond : ∀ τ : Tick, τ ∈ second)
    (h₁ : Serial (atInstant t) Tick.prog s first s₁)
    (h₂ : Serial (atInstant t) Tick.prog s₁ second s₂) :
    (s₂.bus = s₁.bus ∧ ∀ id, memFlag id s₂ = memFlag id s₁ ∧ dbFlag id s₂ = dbFlag id s₁) ↔
      ¬ Disputed t s := by
  constructor
  · rintro ⟨hbus, -⟩
    obtain ⟨-, hsettled⟩ := (settled_of_bus h₂).2 (by rw [hbus])
    rw [← disputed_of_serial h₁]
    exact not_disputed_of_settled fun τ => hsettled τ (hsecond τ)
  · intro hno
    have hsettled := settled_of_serial h₁ hno
    rw [idle_of_settled h₂ fun τ => hsettled τ (hfirst τ)]
    exact ⟨rfl, fun _ => ⟨rfl, rfl⟩⟩

/-- The passes of a cleanup of an expired subscription, and of nothing more to do. -/
def expiredPasses : List (Tick × List Input) × List (Tick × List Input) :=
  ([(.cleanupExpiredConnections, List.replicate 2 (Input.at 200)),
    (.cleanupExpiredSubscriptions, List.replicate 6 (Input.at 200)),
    (.restoreSubscriptions, [Input.at 200])],
   [(.restoreSubscriptions, [Input.at 200]),
    (.cleanupExpiredSubscriptions, List.replicate 2 (Input.at 200)),
    (.cleanupExpiredConnections, List.replicate 2 (Input.at 200))])

/-- The subscription has expired and its connection has not: the first passes delete the
connection, and the second ones do nothing. -/
theorem second_pass_idle_after_expiry :
    ∃ s₁ s₂, Serial (atInstant 200) Tick.prog activeWorld (expiredPasses.1.map Prod.fst) s₁ ∧
      Serial (atInstant 200) Tick.prog s₁ (expiredPasses.2.map Prod.fst) s₂ ∧
      memFlag 1 s₁ = some true ∧ s₂.bus = s₁.bus ∧
      ∀ id, memFlag id s₂ = memFlag id s₁ ∧ dbFlag id s₂ = dbFlag id s₁ := by
  have hrun : (serialWith (atInstant 200) Tick.prog expiredPasses.1 activeWorld).bind (fun s₁ =>
      (serialWith (atInstant 200) Tick.prog expiredPasses.2 s₁).map fun _ => memFlag 1 s₁) =
      some (some true) := by
    decide +kernel
  obtain ⟨s₁, hone, htwo⟩ := Option.bind_eq_some_iff.mp hrun
  obtain ⟨s₂, htwo, hflag⟩ := Option.map_eq_some_iff.mp htwo
  have h₁ : Serial (atInstant 200) Tick.prog activeWorld (expiredPasses.1.map Prod.fst) s₁ :=
    serial_of_serialWith .nil hone
  have h₂ : Serial (atInstant 200) Tick.prog s₁ (expiredPasses.2.map Prod.fst) s₂ :=
    serial_of_serialWith .nil htwo
  refine ⟨s₁, s₂, h₁, h₂, hflag, (second_pass_idle_iff ?_ ?_ h₁ h₂).mpr ?_⟩
  · intro τ
    cases τ <;> decide
  · intro τ
    cases τ <;> decide
  · rintro ⟨id, c, e, sub, -, -, -, -, hactive⟩
    have hget : activeWorld.memory.subscriptions.get sub =
        if sub = 7 then some activeSub else none := Table.get_put _ _ _ _
    rw [activeAt, hget] at hactive
    split_ifs at hactive
    · exact absurd hactive (by decide)
    · cases hactive

/-- A connection of the subscription 7 that expires at 50. -/
def disputedConn : Conn := Conn.new .dev (some 7) (.xray .vmess) (some 50) 0

/-- The state of a service with that connection and a subscription that expires at 100. -/
def disputedWorld : World :=
  { activeWorld with
    memory := ⟨(∅ : Connections Conn).put 1 disputedConn, activeWorld.memory.subscriptions⟩
    db := { activeWorld.db with
      connections := (∅ : Table Uuid ConnRow).put 1 (ConnRow.ofConn 1 disputedConn) } }

/-- The passes over that state. -/
def disputedPasses : List (Tick × List Input) × List (Tick × List Input) :=
  ([(.cleanupExpiredConnections, List.replicate 6 (Input.at 60)),
    (.cleanupExpiredSubscriptions, [Input.at 60]),
    (.restoreSubscriptions, List.replicate 6 (Input.at 60))],
   [(.restoreSubscriptions, List.replicate 2 (Input.at 60)),
    (.cleanupExpiredSubscriptions, [Input.at 60]),
    (.cleanupExpiredConnections, List.replicate 6 (Input.at 60))])

/-- **The tasks undo each other**: the connection has expired and its subscription has not.
The first passes delete and restore it, and the second ones delete it again. -/
theorem passes_never_settle :
    ∃ s₁ s₂, Serial (atInstant 60) Tick.prog disputedWorld (disputedPasses.1.map Prod.fst) s₁ ∧
      Serial (atInstant 60) Tick.prog s₁ (disputedPasses.2.map Prod.fst) s₂ ∧
      memFlag 1 s₁ = some false ∧ dbFlag 1 s₁ = some false ∧
      memFlag 1 s₂ = some true ∧ dbFlag 1 s₂ = some true ∧ s₂.bus ≠ s₁.bus := by
  have hrun : (serialWith (atInstant 60) Tick.prog disputedPasses.1 disputedWorld).bind (fun s₁ =>
      (serialWith (atInstant 60) Tick.prog disputedPasses.2 s₁).map fun s₂ =>
        (memFlag 1 s₁, dbFlag 1 s₁, memFlag 1 s₂, dbFlag 1 s₂, s₁.bus.length, s₂.bus.length)) =
      some (some false, some false, some true, some true, 2, 3) := by
    decide +kernel
  obtain ⟨s₁, hone, htwo⟩ := Option.bind_eq_some_iff.mp hrun
  obtain ⟨s₂, htwo, hseen⟩ := Option.map_eq_some_iff.mp htwo
  simp only [Prod.mk.injEq] at hseen
  obtain ⟨hmem, hdb, hmem', hdb', hlen, hlen'⟩ := hseen
  refine ⟨s₁, s₂, serial_of_serialWith .nil hone, serial_of_serialWith .nil htwo, hmem, hdb, hmem',
    hdb', fun hbus => ?_⟩
  rw [hbus, hlen] at hlen'
  exact absurd hlen' (by decide)

end Fcore
