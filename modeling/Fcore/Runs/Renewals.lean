import Fcore.Runs.DurableDeletes
import Fcore.Runs.Restarts

/-!
A renewal while a cleanup is under way (`cleanup_expired_subscriptions`, `add_days`).

A pass of the cleanup reads which subscriptions have expired and then deletes their
connections one by one.  A renewal restores what is deleted when it looks.  A deletion
that comes after this look is not undone.

* `renewal`: nothing fails, and the days turn the subscription from inactive to active;
* `deletesFirst`: the pass marks connections of the subscription as deleted only while
  the renewal has not looked yet;
* `AnnouncedDelete`: the pass has deleted the connection;
* `Duty`, `renewalProtocol`: what the two runs still have to do with a connection;
* `RenewalInv`: every deletion is before the look, or still has to be settled;
* `renewal_kept`: then the connections that the pass deleted are live in the end;
* `renewal_undone`: a deletion after the look.
-/

namespace Fcore

open Calculus
open Machine (exec)

/-! ### Conditions on the run -/

/-- Nothing fails, and the days turn a subscription from inactive to active: it is found
inactive, it is found again, and its row is updated. -/
def renewal : Rule Call Input World
  | _, _, .look (.wasInactive _), i, _, inactive => i.ok && inactive
  | _, _, .edit (.credit _ _), i, _, found => i.ok && found
  | _, _, .sql (.subAddDays _ _), i, _, r => i.ok && r.isOk
  | _, _, _, i, _, _ => i.ok

/-- The calls of `add_days` up to its look for connections to restore. -/
def beforeRestoring : (β : Type) → Call β → Bool
  | _, .look (.wasInactive _) => true
  | _, .edit (.credit _ _) => true
  | _, .sql (.subAddDays _ _) => true
  | _, .look (.toRestore _) => true
  | _, _ => false

/-- A connection of the subscription is marked as deleted in memory only while another run
has not yet looked for connections to restore. -/
def deletesFirst (sid : Uuid) : Rule Call Input World
  | _, others, .edit (.setDeleted id true), _, s, _ =>
      memSub id s != some sid || others.any fun p => p.nextIs beforeRestoring
  | _, _, _, _, _, _ => true

/-- Both together. -/
def renewalAfterDeletions (sid : Uuid) : Rule Call Input World := fun β others c i s b =>
  renewal β others c i s b && deletesFirst sid β others c i s b

/-- The deletion of the connection has been announced since the state `s₀`. -/
def AnnouncedDelete (cid : Uuid) (s₀ s : World) : Prop :=
  ∃ e ∈ published s₀ s, ∃ m ∈ e.2, m.action = .delete ∧ m.connId = cid

instance (cid : Uuid) (s₀ s : World) : Decidable (AnnouncedDelete cid s₀ s) :=
  inferInstanceAs (Decidable (∃ e ∈ published s₀ s, ∃ m ∈ e.2, m.action = .delete ∧ m.connId = cid))

/-! ### Duties -/

/-- What a run still has to do with the connection: mark it as deleted in memory after the
database, look for connections to restore, restore it, unmark it in memory after the
database. -/
inductive Duty where
  | delete
  | look
  | restore
  | settle
  deriving DecidableEq

/-- The duty that comes with a connection on the list of the renewal. -/
def restoreDuty (cid : Uuid) (e : Uuid × Conn) : Multiset Duty :=
  if e.1 = cid then {.restore} else 0

/-- Marks in memory and announcements of a deletion follow the database, and only a run
with a look before it restores. -/
def renewalProtocol (cid sid : Uuid) : Protocol Call (Multiset Duty) where
  admits
    | _, .look (.connection id), existing => id = cid → existing.isSome = true
    | _, .look (.wasInactive _), inactive => inactive = true
    | _, .edit (.credit _ _), found => found = true
    | _, .sql (.subAddDays _ _), r => r.isOk = true
    | _, .sql (.connDelete _), r => r = .ok ()
    | _, .sql (.connRestore _), r => r = .ok ()
    | _, .bus (.publish _ _), r => r = .ok ()
    | _, _, _ => True
  may
    | _, .look (.wasInactive _), a => .look ∈ a
    | _, .look (.toRestore sub), a => sub = sid ∧ .look ∈ a
    | _, .edit (.credit _ _), a => .look ∈ a
    | _, .edit (.setDeleted id true), a => id = cid → .delete ∈ a
    | _, .edit (.setDeleted id false), a => id = cid → .settle ∈ a
    | _, .edit _, _ => False
    | _, .within _, _ => False
    | _, .sql (.subAddDays _ _), a => .look ∈ a
    | _, .sql (.connRestore id), a => id = cid → .restore ∈ a
    | _, .sql (.connInsert _), _ => False
    | _, .bus (.publish _ ms), a => (∃ m ∈ ms, m.action = .delete ∧ m.connId = cid) → .delete ∈ a
    | _, _, _ => True
  moves
    | _, .look (.toRestore _), es, a, a' =>
        ∃ r, a = r + {.look} ∧ a' = r + (es.map (restoreDuty cid)).sum
    | _, .edit (.setDeleted id true), _, a, a' => a = a' + if id = cid then {.delete} else 0
    | _, .edit (.setDeleted id false), _, a, a' => a = a' + if id = cid then {.settle} else 0
    | _, .sql (.connDelete id), _, a, a' => a' = a + if id = cid then {.delete} else 0
    | _, .sql (.connRestore id), _, a, a' => ∃ r, (a = r + if id = cid then {.restore} else 0) ∧
        a' = r + if id = cid then {.settle} else 0
    | _, _, _, a, a' => a' = a

lemma renewalProtocol_framed (cid sid : Uuid) : Framed (renewalProtocol cid sid) where
  may := by
    intro β c a f h
    have hpart : ∀ {d : Duty}, d ∈ a → d ∈ a + f := fun hd => Multiset.mem_add.mpr (.inl hd)
    cases c with
    | look r =>
        cases r with
        | wasInactive sub => exact hpart h
        | toRestore sub => exact ⟨h.1, hpart h.2⟩
        | _ => exact h
    | edit w =>
        cases w with
        | setDeleted id v =>
            cases v with
            | true => exact fun hid => hpart (h hid)
            | false => exact fun hid => hpart (h hid)
        | credit id n => exact hpart h
        | _ => exact h
    | sql q =>
        cases q with
        | subAddDays id n => exact hpart h
        | connRestore id => exact fun hid => hpart (h hid)
        | _ => exact h
    | bus p =>
        cases p with
        | publish topic ms => exact fun hm => hpart (h hm)
    | _ => exact h
  moves := by
    intro β c b a a' f h
    have hsame : a' = a → a' + f = a + f := fun h => by rw [h]
    cases c with
    | look r =>
        cases r with
        | toRestore sub =>
            obtain ⟨r, ha, ha'⟩ := h
            exact ⟨r + f, add_frame f ha, add_frame f ha'⟩
        | _ => exact hsame h
    | edit w =>
        cases w with
        | setDeleted id v =>
            cases v with
            | true => exact add_frame f h
            | false => exact add_frame f h
        | _ => exact hsame h
    | sql q =>
        cases q with
        | connDelete id => exact add_frame f h
        | connRestore id =>
            obtain ⟨r, ha, ha'⟩ := h
            exact ⟨r + f, add_frame f ha, add_frame f ha'⟩
        | _ => exact hsame h
    | _ => exact hsame h

section Programs

variable {cid sid : Uuid}

lemma renewalProtocol_pick : Free (renewalProtocol cid sid) (.ask .pick) :=
  fun _ => ⟨trivial, fun _ => rfl⟩

lemma renewalProtocol_deleteConnection (connId : Uuid) (conn : Conn) :
    Obeys (renewalProtocol cid sid) (fun _ a => a = 0) (deleteConnection connId conn) 0 := by
  simp only [deleteConnection, Prog.perform_bind]
  refine ⟨trivial, fun existing _ => ⟨0, rfl, ?_⟩⟩
  cases existing with
  | none => exact rfl
  | some c =>
      show Obeys _ _ (if c.isDeleted then _ else _) _
      split
      · exact rfl
      · refine ⟨trivial, fun r hr => ?_⟩
        obtain rfl : r = .ok () := hr
        have hduty : connId = cid → Duty.delete ∈ (0 + if connId = cid then {.delete} else 0 :
            Multiset Duty) := by
          intro hid
          rw [if_pos hid, zero_add]
          exact Multiset.mem_singleton_self _
        refine ⟨_, rfl, ?_, fun r hr => ⟨_, rfl, ?_⟩⟩
        · rintro ⟨m, hm, -, hid⟩
          rw [List.mem_singleton.mp hm] at hid
          exact hduty hid
        · obtain rfl : r = .ok () := hr
          exact ⟨hduty, fun _ _ => ⟨0, rfl, rfl⟩⟩

lemma renewalProtocol_deleteAll (es : List (Uuid × Conn)) :
    Obeys (renewalProtocol cid sid) (fun _ a => a = 0) (deleteAll es) 0 := by
  induction es with
  | nil => exact rfl
  | cons e es ih =>
      refine (renewalProtocol_deleteConnection e.1 e.2).bind ?_
      rintro r a rfl
      exact ih

lemma renewalProtocol_cleanupSubs (subs : List Uuid) :
    Obeys (renewalProtocol cid sid) (fun _ a => a = 0) (cleanupSubs subs) 0 := by
  induction subs with
  | nil => exact rfl
  | cons sub subs ih =>
      refine ⟨trivial, fun es _ => ⟨0, rfl, ?_⟩⟩
      refine (renewalProtocol_deleteAll es).bind ?_
      rintro u a rfl
      exact ih

lemma renewalProtocol_cleanupExpiredSubscriptions :
    Obeys (renewalProtocol cid sid) (fun _ a => a = 0) cleanupExpiredSubscriptions 0 :=
  ⟨trivial, fun subs _ => ⟨0, rfl, renewalProtocol_cleanupSubs subs⟩⟩

/-- A connection on the list is restored in the database and then in memory. -/
lemma renewalProtocol_restoreOne (e : Uuid × Conn) :
    Obeys (renewalProtocol cid sid) (fun _ a => a = 0) (restoreOne e) (restoreDuty cid e) := by
  refine ⟨?_, fun r hr => ⟨_, rfl, ?_⟩⟩
  · rintro ⟨m, hm, hdelete, -⟩
    rw [List.mem_singleton.mp hm] at hdelete
    cases hdelete
  obtain rfl : r = .ok () := hr
  have hrestore : Obeys (renewalProtocol cid sid) (fun _ a => a = 0) (restoreConnection e.1)
      (restoreDuty cid e) := by
    refine ⟨trivial, fun existing hsome => ⟨_, rfl, ?_⟩⟩
    rw [restoreDuty]
    cases existing with
    | none =>
        rw [if_neg fun hid => by cases hsome hid]
        exact rfl
    | some c =>
        refine ⟨fun hid => ?_, fun r hr => ⟨_, ⟨0, (zero_add _).symm, rfl⟩, ?_⟩⟩
        · rw [if_pos hid]
          exact Multiset.mem_singleton_self _
        obtain rfl : r = .ok () := hr
        refine ⟨fun hid => ?_, fun _ _ => ⟨0, rfl, rfl⟩⟩
        rw [if_pos hid, zero_add]
        exact Multiset.mem_singleton_self _
  refine hrestore.bind ?_
  rintro r a rfl
  rcases r with r | st
  · exact rfl
  · cases st <;> exact rfl

lemma renewalProtocol_restoreConnectionsBySubscription :
    Obeys (renewalProtocol cid sid) (fun _ a => a = 0) (restoreConnectionsBySubscription sid)
      {.look} := by
  refine ⟨⟨rfl, Multiset.mem_singleton_self _⟩, fun es _ => ⟨_, ⟨0, (zero_add _).symm, rfl⟩, ?_⟩⟩
  rw [zero_add]
  cases es with
  | nil => exact rfl
  | cons e es =>
      have hall : Obeys (renewalProtocol cid sid) (fun _ a => a = 0)
          (Prog.joinAll (.ask .pick) ((e :: es).map restoreOne))
          ((e :: es).map (restoreDuty cid)).sum := by
        refine (Obeys.joinAll_sum (renewalProtocol_framed cid sid) renewalProtocol_pick
          (G := fun _ _ => True) fun x _ => ?_).mono fun _ _ h => h.2
        exact (renewalProtocol_restoreOne x).mono fun _ _ h => ⟨trivial, h⟩
      exact hall.bind fun _ _ h => h

/-- A renewal that goes through looks for connections to restore. -/
lemma renewalProtocol_addDays (n : ℤ) :
    Obeys (renewalProtocol cid sid) (fun _ a => a = 0) (addDays sid n) {.look} := by
  have hlook : Duty.look ∈ ({.look} : Multiset Duty) := Multiset.mem_singleton_self _
  refine ⟨hlook, fun inactive hinactive => ⟨_, rfl, hlook, fun found hfound => ⟨_, rfl, ?_⟩⟩⟩
  obtain rfl : inactive = true := hinactive
  obtain rfl : found = true := hfound
  refine ⟨hlook, fun r hr => ⟨_, rfl, ?_⟩⟩
  cases r with
  | error e => cases hr
  | ok row =>
      exact Obeys.bind (p := restoreConnectionsBySubscription sid)
        renewalProtocol_restoreConnectionsBySubscription fun _ _ h => h

end Programs

/-! ### The invariant -/

/-- Before the look the announced deletion of the connection is marked or about to be marked
in memory; after it a deletion is stuck, or the restoration is under way, or the connection
is live. -/
structure RenewalInv (cid sid : Uuid) (s₀ s : World) (t : Multiset Duty) : Prop where
  log : s₀.bus <:+ s.bus
  sub : memSub cid s = some sid
  once : t.count .look ≤ 1
  before : .look ∈ t → .restore ∉ t ∧ .settle ∉ t ∧
    (AnnouncedDelete cid s₀ s → .delete ∈ t ∨ memFlag cid s = some true)
  after : .look ∉ t → .delete ∈ t ∨ .restore ∈ t ∨ .settle ∈ t ∧ dbFlag cid s ≠ some true ∨
    (AnnouncedDelete cid s₀ s → memFlag cid s = some false ∧ dbFlag cid s ≠ some true)

section RenewalInv

variable {cid sid : Uuid} {s₀ s s' : World} {t t' : Multiset Duty}

lemma published_cons {e : Topic × List Message} (hlog : s₀.bus <:+ s.bus)
    (hbus : s'.bus = e :: s.bus) : published s₀ s' = published s₀ s ++ [e] := by
  have hlen := hlog.length_le
  have hsplit : (e :: s.bus).length - s₀.bus.length = (s.bus.length - s₀.bus.length) + 1 := by
    rw [List.length_cons]
    omega
  rw [published, hbus, hsplit, List.take_succ_cons, List.reverse_cons, published]

lemma RenewalInv.conn (h : RenewalInv cid sid s₀ s t) :
    ∃ c, s.memory.connections.get cid = some c ∧ c.subscriptionId = some sid := by
  exact Option.bind_eq_some_iff.mp h.sub

/-- A step that touches neither the connection nor the log. -/
lemma RenewalInv.frame (h : RenewalInv cid sid s₀ s t) (hbus : s'.bus = s.bus)
    (hsub : memSub cid s' = memSub cid s) (hmem : memFlag cid s' = memFlag cid s)
    (hdb : dbFlag cid s' = dbFlag cid s) : RenewalInv cid sid s₀ s' t := by
  have hann : AnnouncedDelete cid s₀ s' ↔ AnnouncedDelete cid s₀ s := by
    rw [AnnouncedDelete, AnnouncedDelete, published, published, hbus]
  refine ⟨by rw [hbus]; exact h.log, hsub.trans h.sub, h.once, ?_, ?_⟩
  · rw [hann, hmem]
    exact h.before
  · rw [hann, hmem, hdb]
    exact h.after

/-- The deletion in the database. -/
lemma RenewalInv.delete (h : RenewalInv cid sid s₀ s t) (hbus : s'.bus = s.bus)
    (hsub : memSub cid s' = memSub cid s) :
    RenewalInv cid sid s₀ s' (t + {.delete}) := by
  have hdelete : Duty.delete ∈ t + {.delete} :=
    Multiset.mem_add.mpr (.inr (Multiset.mem_singleton_self _))
  refine ⟨by rw [hbus]; exact h.log, hsub.trans h.sub, ?_, fun hlook => ?_, fun _ => .inl hdelete⟩
  · rw [Multiset.count_add, Multiset.count_singleton, if_neg (by decide), add_zero]
    exact h.once
  · have hbefore := h.before (by simpa using hlook)
    exact ⟨by simpa using hbefore.1, by simpa using hbefore.2.1, fun _ => .inl hdelete⟩

/-- A publication; who announces the deletion still has to mark it. -/
lemma RenewalInv.publish (h : RenewalInv cid sid s₀ s t) {topic : Topic} {ms : List Message}
    (hbus : s'.bus = (topic, ms) :: s.bus) (hsub : memSub cid s' = memSub cid s)
    (hmem : memFlag cid s' = memFlag cid s) (hdb : dbFlag cid s' = dbFlag cid s)
    (hms : (∃ m ∈ ms, m.action = .delete ∧ m.connId = cid) → .delete ∈ t) :
    RenewalInv cid sid s₀ s' t := by
  have hann : AnnouncedDelete cid s₀ s' → AnnouncedDelete cid s₀ s ∨ .delete ∈ t := by
    rintro ⟨e, he, hm⟩
    rw [published_cons h.log hbus, List.mem_append, List.mem_singleton] at he
    rcases he with he | rfl
    · exact .inl ⟨e, he, hm⟩
    · exact .inr (hms hm)
  refine ⟨by rw [hbus]; exact h.log.trans (List.suffix_cons _ _), hsub.trans h.sub, h.once, ?_, ?_⟩
  · intro hlook
    obtain ⟨hrestore, hsettle, hmarked⟩ := h.before hlook
    refine ⟨hrestore, hsettle, fun hnew => ?_⟩
    rw [hmem]
    rcases hann hnew with hold | hdelete
    · exact hmarked hold
    · exact .inl hdelete
  · intro hlook
    rw [hmem, hdb]
    by_cases hdelete : Duty.delete ∈ t
    · exact .inl hdelete
    · rcases h.after hlook with hdelete | hrestore | hsettle | hlive
      · exact .inl hdelete
      · exact .inr (.inl hrestore)
      · exact .inr (.inr (.inl hsettle))
      · exact .inr (.inr (.inr fun hnew => hlive ((hann hnew).resolve_right hdelete)))

/-- The deletion is marked in memory before the look. -/
lemma RenewalInv.mark (h : RenewalInv cid sid s₀ s (t + {.delete})) (hlook : .look ∈ t)
    (hbus : s'.bus = s.bus) (hsub : memSub cid s' = memSub cid s)
    (hmem : memFlag cid s' = some true) : RenewalInv cid sid s₀ s' t := by
  obtain ⟨hrestore, hsettle, -⟩ := h.before (Multiset.mem_add.mpr (.inl hlook))
  refine ⟨by rw [hbus]; exact h.log, hsub.trans h.sub, ?_, fun _ => ?_, fun hnot => ?_⟩
  · exact (Multiset.count_le_of_le _ (Multiset.le_add_right _ _)).trans h.once
  · exact ⟨by simpa using hrestore, by simpa using hsettle, fun _ => .inr hmem⟩
  · exact absurd hlook hnot

/-- What has to be restored or unmarked has been looked for. -/
lemma RenewalInv.looked (h : RenewalInv cid sid s₀ s t) (hduty : .restore ∈ t ∨ .settle ∈ t) :
    .look ∉ t := by
  intro hlook
  obtain ⟨hrestore, hsettle, -⟩ := h.before hlook
  rcases hduty with hduty | hduty
  · exact hrestore hduty
  · exact hsettle hduty

/-- The restoration in the database. -/
lemma RenewalInv.restore (h : RenewalInv cid sid s₀ s (t + {.restore})) (hbus : s'.bus = s.bus)
    (hsub : memSub cid s' = memSub cid s) (hdb : dbFlag cid s' ≠ some true) :
    RenewalInv cid sid s₀ s' (t + {.settle}) := by
  have hnot := h.looked (.inl (Multiset.mem_add.mpr (.inr (Multiset.mem_singleton_self _))))
  have hnot' : Duty.look ∉ t + {.settle} := by simpa using hnot
  refine ⟨by rw [hbus]; exact h.log, hsub.trans h.sub, ?_, fun hlook => absurd hlook hnot', ?_⟩
  · rw [Multiset.count_eq_zero_of_notMem hnot']
    exact Nat.zero_le _
  · intro _
    exact .inr (.inr (.inl ⟨Multiset.mem_add.mpr (.inr (Multiset.mem_singleton_self _)), hdb⟩))

/-- The restoration is marked in memory. -/
lemma RenewalInv.unmark (h : RenewalInv cid sid s₀ s (t + {.settle})) (hbus : s'.bus = s.bus)
    (hsub : memSub cid s' = memSub cid s) (hmem : memFlag cid s' = some false)
    (hdb : dbFlag cid s' = dbFlag cid s) : RenewalInv cid sid s₀ s' t := by
  have hnot := h.looked (.inr (Multiset.mem_add.mpr (.inr (Multiset.mem_singleton_self _))))
  have hnot' : Duty.look ∉ t := fun hlook => hnot (Multiset.mem_add.mpr (.inl hlook))
  have hann : AnnouncedDelete cid s₀ s' ↔ AnnouncedDelete cid s₀ s := by
    rw [AnnouncedDelete, AnnouncedDelete, published, published, hbus]
  refine ⟨by rw [hbus]; exact h.log, hsub.trans h.sub, ?_,
    fun hlook => absurd hlook hnot', fun _ => ?_⟩
  · rw [Multiset.count_eq_zero_of_notMem hnot']
    exact Nat.zero_le _
  · rw [hann, hmem, hdb]
    rcases h.after hnot with hdelete | hrestore | ⟨-, hrow⟩ | hlive
    · exact .inl (by simpa using hdelete)
    · exact .inr (.inl (by simpa using hrestore))
    · exact .inr (.inr (.inr fun _ => ⟨rfl, hrow⟩))
    · exact .inr (.inr (.inr fun hold => ⟨rfl, (hlive hold).2⟩))

/-- The look finds the connection if its deletion is marked. -/
lemma RenewalInv.list (h : RenewalInv cid sid s₀ s (t + {.look})) {w : Multiset Duty}
    (hw : ∀ d ∈ w, d = .restore) (hlisted : memFlag cid s = some true → .restore ∈ w) :
    RenewalInv cid sid s₀ s (t + w) := by
  have hlook : Duty.look ∈ t + {.look} :=
    Multiset.mem_add.mpr (.inr (Multiset.mem_singleton_self _))
  have hgone : Duty.look ∉ t := by
    intro hmem
    have hpos := Multiset.one_le_count_iff_mem.mpr hmem
    have hone := h.once
    rw [Multiset.count_add, Multiset.count_singleton_self] at hone
    omega
  have hnot : Duty.look ∉ t + w := by
    intro hmem
    rcases Multiset.mem_add.mp hmem with hmem | hmem
    · exact hgone hmem
    · cases hw _ hmem
  obtain ⟨-, -, hmarked⟩ := h.before hlook
  refine ⟨h.log, h.sub, ?_, fun hmem => absurd hmem hnot, fun _ => ?_⟩
  · rw [Multiset.count_eq_zero_of_notMem hnot]
    exact Nat.zero_le _
  · by_cases hann : AnnouncedDelete cid s₀ s
    · rcases hmarked hann with hdelete | hflag
      · exact .inl (Multiset.mem_add.mpr (.inl (by simpa using hdelete)))
      · exact .inr (.inl (Multiset.mem_add.mpr (.inr (hlisted hflag))))
    · exact .inr (.inr (.inr fun hold => absurd hold hann))

end RenewalInv

/-! ### Steps -/

/-- A run that has not looked yet has its look ahead. -/
lemma look_of_next {cid sid : Uuid} {p : Prog Call Unit} {a : Multiset Duty}
    {Q : Unit → Multiset Duty → Prop} (hp : p.nextIs beforeRestoring = true)
    (h : Obeys (renewalProtocol cid sid) Q p a) : .look ∈ a := by
  cases p with
  | pure x => cases hp
  | call c k =>
      have hmay := h.1
      cases c with
      | look r =>
          cases r with
          | wasInactive sub => exact hmay
          | toRestore sub => exact hmay.2
          | _ => cases hp
      | edit w =>
          cases w with
          | credit id n => exact hmay
          | _ => cases hp
      | sql q =>
          cases q with
          | subAddDays id n => exact hmay
          | _ => cases hp
      | _ => cases hp

lemma memSub_setDeleted (cid id : Uuid) (v : Bool) (i : Input) (s : World) :
    memSub cid { s with memory := (Edit.run (.setDeleted id v) i s.memory).1 } = memSub cid s := by
  rw [memSub, memSub]
  show ((s.memory.connections.change id _).get cid).bind _ = _
  rw [Table.get_change]
  split_ifs with h
  · rw [h, Option.bind_map]
    rfl
  · rfl

/-- The flag of a connection that is in memory is set. -/
lemma RenewalInv.memFlag_set {cid sid : Uuid} {s₀ s : World} {t : Multiset Duty}
    (h : RenewalInv cid sid s₀ s t) (v : Bool) (i : Input) :
    memFlag cid { s with memory := (Edit.run (.setDeleted cid v) i s.memory).1 } = some v := by
  obtain ⟨c, hget, -⟩ := h.conn
  rw [memFlag_setDeleted, if_pos rfl, memFlag, hget]
  rfl

/-- A list of the renewal brings duties to restore only. -/
lemma eq_restore_of_mem {cid : Uuid} {es : List (Uuid × Conn)} {d : Duty}
    (h : d ∈ (es.map (restoreDuty cid)).sum) : d = .restore := by
  induction es with
  | nil => exact absurd h (Multiset.notMem_zero _)
  | cons e es ih =>
      rw [List.map_cons, List.sum_cons, Multiset.mem_add, restoreDuty] at h
      rcases h with h | h
      · split_ifs at h
        · exact Multiset.mem_singleton.mp h
        · exact absurd h (Multiset.notMem_zero _)
      · exact ih h

/-- A connection on the list has to be restored. -/
lemma restore_mem {cid : Uuid} {c : Conn} {es : List (Uuid × Conn)} (h : (cid, c) ∈ es) :
    .restore ∈ (es.map (restoreDuty cid)).sum := by
  induction es with
  | nil => exact absurd h List.not_mem_nil
  | cons e es ih =>
      rw [List.map_cons, List.sum_cons, Multiset.mem_add]
      rcases List.mem_cons.mp h with rfl | h
      · rw [restoreDuty, if_pos rfl]
        exact .inl (Multiset.mem_singleton_self _)
      · exact .inr (ih h)

section Writes

variable {cid sid : Uuid} {s₀ s s' : World} {a a' g : Multiset Duty}

/-- A step that touches neither connections nor the log. -/
lemma RenewalInv.frame_connections (h : RenewalInv cid sid s₀ s g) (hbus : s'.bus = s.bus)
    (hmem : s'.memory.connections = s.memory.connections)
    (hdb : s'.db.connections = s.db.connections) : RenewalInv cid sid s₀ s' g :=
  h.frame hbus (by rw [memSub, hmem, memSub]) (by rw [memFlag, hmem, memFlag])
    (by rw [dbFlag, hdb, dbFlag])

/-- The look of the renewal. -/
lemma RenewalInv.toRestore (h : RenewalInv cid sid s₀ s (a + {.look} + g)) (i : Input) :
    RenewalInv cid sid s₀ s
      (a + ((Look.run (.toRestore sid) i s.memory).map (restoreDuty cid)).sum + g) := by
  rw [add_right_comm] at h ⊢
  refine h.list (fun d => eq_restore_of_mem) fun hflag => ?_
  obtain ⟨c, hget, hsub⟩ := h.conn
  rw [memFlag, hget] at hflag
  refine restore_mem (c := c) ?_
  refine List.mem_filter.mpr ⟨Connections.mem_getBySubscriptionId.mpr ⟨hget, hsub⟩, ?_⟩
  exact Option.some.inj hflag

/-- A deletion is marked in memory, for the connection itself while the look is ahead. -/
lemma RenewalInv.setDeleted (h : RenewalInv cid sid s₀ s (a + g)) {id : Uuid}
    (ha : a = a' + if id = cid then {.delete} else 0) (hlook : id = cid → .look ∈ g) (i : Input) :
    RenewalInv cid sid s₀ { s with memory := (Edit.run (.setDeleted id true) i s.memory).1 }
      (a' + g) := by
  have hsub := memSub_setDeleted cid id true i s
  have hother := memFlag_setDeleted cid id true i s
  by_cases hid : id = cid
  · subst hid
    rw [if_pos rfl] at ha
    rw [ha, add_right_comm] at h
    exact h.mark (Multiset.mem_add.mpr (.inr (hlook rfl))) rfl hsub (h.memFlag_set true i)
  · rw [if_neg hid] at ha hother
    rw [add_zero] at ha
    rw [← ha]
    exact h.frame rfl hsub hother rfl

/-- A restoration is marked in memory. -/
lemma RenewalInv.setRestored (h : RenewalInv cid sid s₀ s (a + g)) {id : Uuid}
    (ha : a = a' + if id = cid then {.settle} else 0) (i : Input) :
    RenewalInv cid sid s₀ { s with memory := (Edit.run (.setDeleted id false) i s.memory).1 }
      (a' + g) := by
  have hsub := memSub_setDeleted cid id false i s
  have hother := memFlag_setDeleted cid id false i s
  by_cases hid : id = cid
  · subst hid
    rw [if_pos rfl] at ha
    rw [ha, add_right_comm] at h
    exact h.unmark rfl hsub (h.memFlag_set false i) rfl
  · rw [if_neg hid] at ha hother
    rw [add_zero] at ha
    rw [← ha]
    exact h.frame rfl hsub hother rfl

/-- A deletion in the database. -/
lemma RenewalInv.connDelete (h : RenewalInv cid sid s₀ s (a + g)) (id : Uuid) :
    RenewalInv cid sid s₀ { s with db := s.db.connSetDeleted id true }
      ((a + if id = cid then {.delete} else 0) + g) := by
  by_cases hid : id = cid
  · rw [if_pos hid, add_right_comm]
    exact h.delete rfl rfl
  · have hflag := dbFlag_connSetDeleted cid id true s
    rw [if_neg hid] at hflag ⊢
    rw [add_zero]
    exact h.frame rfl rfl rfl hflag

/-- A restoration in the database. -/
lemma RenewalInv.connRestore {id : Uuid}
    (h : RenewalInv cid sid s₀ s ((a + if id = cid then {.restore} else 0) + g)) :
    RenewalInv cid sid s₀ { s with db := s.db.connSetDeleted id false }
      ((a + if id = cid then {.settle} else 0) + g) := by
  have hflag := dbFlag_connSetDeleted cid id false s
  by_cases hid : id = cid
  · rw [if_pos hid] at hflag ⊢
    rw [if_pos hid, add_right_comm] at h
    rw [add_right_comm]
    refine h.restore rfl rfl fun htrue => ?_
    obtain ⟨_, -, hfalse⟩ := Option.map_eq_some_iff.mp (hflag.symm.trans htrue)
    cases hfalse
  · rw [if_neg hid] at hflag ⊢
    rw [if_neg hid] at h
    exact h.frame rfl rfl rfl hflag

end Writes

/-- One step of one run keeps the invariant. -/
lemma keeps_renewalInv (cid sid : Uuid) (s₀ : World) (Q : Unit → Multiset Duty → Prop) :
    Keeps (renewalAfterDeletions sid) (renewalProtocol cid sid) Q (RenewalInv cid sid s₀) := by
  intro β c i s s' b a others gs hothers hexec hrule hmay hinv
  obtain ⟨hrenew, hfirst⟩ := Bool.and_eq_true_iff.mp hrule
  -- the run that has not looked yet is another one
  have hlooking : (others.any fun p => p.nextIs beforeRestoring) = true → .look ∈ gs.sum := by
    intro hany
    obtain ⟨p, hp, hnext⟩ := List.any_eq_true.mp hany
    obtain ⟨g, r, hsum, hobeys⟩ := hothers.exists_account hp
    rw [hsum]
    exact Multiset.mem_add.mpr (.inl (look_of_next hnext hobeys))
  generalize gs.sum = g at hinv hlooking ⊢
  cases c with
  | look r =>
      obtain ⟨-, hs, hb⟩ := exec_look.mp hexec
      rw [hs]
      cases r with
      | connection id =>
          refine ⟨fun hid => ?_, fun a' hm => by rwa [show a' = a from hm]⟩
          obtain ⟨c, hget, -⟩ := hinv.conn
          rw [hb, hid]
          show (s.memory.connections.get cid).isSome = true
          rw [hget]
          rfl
      | wasInactive sub =>
          have hinactive : (i.ok && b) = true := hrenew
          refine ⟨(Bool.and_eq_true_iff.mp hinactive).2, fun a' hm => ?_⟩
          rwa [show a' = a from hm]
      | toRestore sub =>
          refine ⟨trivial, fun a' hm => ?_⟩
          obtain ⟨r, rfl, rfl⟩ := hm
          rw [hb, show sub = sid from hmay.1]
          exact hinv.toRestore i
      | _ =>
          refine ⟨trivial, fun a' hm => ?_⟩
          rwa [show a' = a from hm]
  | edit w =>
      obtain ⟨-, hs, hb⟩ := exec_edit.mp hexec
      cases w with
      | setDeleted id v =>
          refine ⟨trivial, fun a' hm => ?_⟩
          rw [hs]
          cases v with
          | true =>
              refine hinv.setDeleted hm (fun hid => hlooking ?_) i
              have hnext : (memSub id s != some sid ||
                  others.any fun p => p.nextIs beforeRestoring) = true := hfirst
              rwa [hid, hinv.sub, bne_self_eq_false, Bool.false_or] at hnext
          | false => exact hinv.setRestored hm i
      | credit id n =>
          have hfound : (i.ok && b) = true := hrenew
          refine ⟨(Bool.and_eq_true_iff.mp hfound).2, fun a' hm => ?_⟩
          rw [show a' = a from hm, hs]
          exact hinv.frame_connections rfl rfl rfl
      | _ => exact hmay.elim
  | within w => exact hmay.elim
  | sql q =>
      obtain ⟨rfl, rfl⟩ := exec_sql.mp hexec
      cases q with
      | connInsert row => exact hmay.elim
      | connDelete id =>
          have hok : i.ok = true := hrenew
          rw [Sql.run, hok]
          refine ⟨rfl, fun a' hm => ?_⟩
          rw [show a' = a + _ from hm]
          exact hinv.connDelete id
      | connRestore id =>
          have hok : i.ok = true := hrenew
          rw [Sql.run, hok]
          refine ⟨rfl, fun a' hm => ?_⟩
          obtain ⟨r, rfl, rfl⟩ := hm
          exact hinv.connRestore
      | subAddDays id n =>
          refine ⟨(Bool.and_eq_true_iff.mp hrenew).2, fun a' hm => ?_⟩
          rw [show a' = a from hm]
          exact hinv.frame_connections rfl rfl (Sql.run_connections rfl i s.db)
      | _ =>
          refine ⟨trivial, fun a' hm => ?_⟩
          rw [show a' = a from hm]
          exact hinv.frame_connections rfl rfl (Sql.run_connections rfl i s.db)
  | bus p =>
      cases p with
      | publish topic ms =>
          have hok : i.ok = true := hrenew
          obtain ⟨hs, hb⟩ := exec_bus.mp hexec
          rw [Call.execBus, if_pos hok] at hs hb
          refine ⟨hb, fun a' hm => ?_⟩
          rw [show a' = a from hm, hs]
          refine hinv.publish rfl rfl rfl rfl fun hms => ?_
          exact Multiset.mem_add.mpr (.inl (hmay hms))
  | guard gd =>
      refine ⟨trivial, fun a' hm => ?_⟩
      rw [show a' = a from hm]
      obtain ⟨l, -, rfl⟩ := exec_guard.mp hexec
      exact hinv.frame_connections rfl rfl rfl
  | mail m =>
      refine ⟨trivial, fun a' hm => ?_⟩
      rw [show a' = a from hm]
      have hs := (exec_mail.mp hexec).1
      rw [execMail_eq] at hs
      exact hinv.frame_connections (by rw [hs]) (by rw [hs]) (by rw [hs])
  | ask q =>
      refine ⟨trivial, fun a' hm => ?_⟩
      rw [show a' = a from hm, (exec_ask.mp hexec).1]
      exact hinv

/-! ### Runs -/

/-- **A renewal is kept**: a pass of the cleanup and a renewal run interleaved in any way,
nothing fails, and the pass marks connections of the renewed subscription as deleted only
before the renewal looks for connections to restore.  Then, once both have returned, no
connection of the subscription that the pass has deleted is still deleted, in memory or in
the database. -/
theorem renewal_kept {cid sid : Uuid} {n : ℤ} {s₀ : World} {p : Pool Call World}
    (hsub : memSub cid s₀ = some sid)
    (h : Reach (renewalAfterDeletions sid)
      ⟨s₀, [cleanupExpiredSubscriptions, (addDays sid n).forget]⟩ p)
    (hfin : p.finished = true) (hdeleted : AnnouncedDelete cid s₀ p.state) :
    memFlag cid p.state = some false ∧ dbFlag cid p.state ≠ some true := by
  have hobey : AllObey (renewalProtocol cid sid) (fun _ a => a = 0) [0, {.look}]
      [cleanupExpiredSubscriptions, (addDays sid n).forget] :=
    .cons renewalProtocol_cleanupExpiredSubscriptions
      (.cons (obeys_forget.mpr (renewalProtocol_addDays n)) .nil)
  have hinit : RenewalInv cid sid s₀ s₀ [0, ({.look} : Multiset Duty)].sum := by
    have hsum : [0, ({.look} : Multiset Duty)].sum = {.look} := by simp
    rw [hsum]
    refine ⟨List.suffix_rfl, hsub, by simp, fun _ => ⟨by simp, by simp, ?_⟩, fun hnot => ?_⟩
    · rintro ⟨e, he, -⟩
      rw [published, Nat.sub_self] at he
      cases he
    · exact absurd (Multiset.mem_singleton_self _) hnot
  obtain ⟨gs, hgs, hinv⟩ := Reach.sound (keeps_renewalInv cid sid s₀ _) h hobey hinit
  rw [hgs.sum_eq_zero_of_finished hfin] at hinv
  rcases hinv.after (Multiset.notMem_zero _) with hnone | hnone | ⟨hnone, -⟩ | hlive
  · exact absurd hnone (Multiset.notMem_zero _)
  · exact absurd hnone (Multiset.notMem_zero _)
  · exact absurd hnone (Multiset.notMem_zero _)
  · exact hlive hdeleted

/-- A pass of the cleanup and a renewal by 30 days, after the subscription has expired. -/
def renewalPool : Pool Call World :=
  ⟨activeWorld, [cleanupExpiredSubscriptions, (addDays 7 30).forget]⟩

/-- The renewal finds the subscription inactive while the pass is deleting its connection, and
restores the connection when the pass is done. -/
theorem renewal_kept_after_pass :
    ∃ p, Reach (renewalAfterDeletions 7) renewalPool p ∧ p.finished = true ∧
      AnnouncedDelete 1 activeWorld p.state ∧ activeAt 7 p.state 200 = true ∧
      memFlag 1 p.state = some false ∧ dbFlag 1 p.state ≠ some true := by
  have hrun : (runWith (renewalAfterDeletions 7)
      (List.replicate 3 (0, Input.at 200) ++ List.replicate 2 (1, Input.at 200) ++
        List.replicate 3 (0, Input.at 200) ++ List.replicate 6 (1, Input.at 200))
      renewalPool).map (fun p => (p.finished, decide (AnnouncedDelete 1 activeWorld p.state),
        activeAt 7 p.state 200)) = some (true, true, true) := by
    decide +kernel
  obtain ⟨p, hp, hseen⟩ := exists_reach_of_runWith hrun
  simp only [Prod.mk.injEq, decide_eq_true_eq] at hseen
  obtain ⟨hfin, hdeleted, hactive⟩ := hseen
  exact ⟨p, hp, hfin, hdeleted, hactive, renewal_kept rfl hp hfin hdeleted⟩

/-- **A renewal is undone**: the pass has read that the subscription has expired, the renewal
runs to its end and finds nothing to restore, and the pass deletes the connection of the
subscription, which is active again. -/
theorem renewal_undone :
    activeAt 7 activeWorld 200 = false ∧
      ∃ p, Reach renewal renewalPool p ∧ p.finished = true ∧
        AnnouncedDelete 1 activeWorld p.state ∧ activeAt 7 p.state 200 = true ∧
        memFlag 1 p.state = some true ∧ dbFlag 1 p.state = some true := by
  refine ⟨by decide +kernel, ?_⟩
  have hrun : (runWith renewal
      ((0, Input.at 200) :: List.replicate 4 (1, Input.at 200) ++ List.replicate 5 (0, Input.at 200))
      renewalPool).map (fun p => (p.finished, decide (AnnouncedDelete 1 activeWorld p.state),
        activeAt 7 p.state 200, memFlag 1 p.state, dbFlag 1 p.state)) =
      some (true, true, true, some true, some true) := by
    decide +kernel
  obtain ⟨p, hp, hseen⟩ := exists_reach_of_runWith hrun
  simp only [Prod.mk.injEq, decide_eq_true_eq] at hseen
  exact ⟨p, hp, hseen⟩

end Fcore
