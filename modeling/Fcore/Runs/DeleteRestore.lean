import Fcore.Calculus.Once
import Fcore.Api.Tasks

/-!
Deletions, restorations and reloads of one connection under interleaving
(`delete_connection`, `restore_connections_by_subscription`,
`get_state_from_db`).

Deletions and restorations decide from an early read and then write the deleted
flag to the database and to the memory in separate steps.  Two deletions that
both have passed their check and a restoration between them leave the memory with
another flag than the database.

* `memFlag`, `dbFlag`: the flag of a connection in memory and in the database;
* `flagProtocol`: the account of a run holds the flags that it has written to the
  database and owes to the memory, and what a reload has read under its guard;
* `FlagInv`: either somebody owes the flag of the database, or both flags agree;
* `flags_differ`: the run of three that ends with different flags;
* `flags_agree`: the flags agree at the end when every flag is written to the
  memory while the database still has it.
-/

namespace Fcore

open Calculus
open Machine (exec)

/-! ### Flags and runs -/

/-- The deleted flag of a connection in memory. -/
def memFlag (cid : Uuid) (s : World) : Option Bool :=
  (s.memory.connections.get cid).map Conn.isDeleted

/-- The deleted flag of a connection in the database. -/
def dbFlag (cid : Uuid) (s : World) : Option Bool :=
  (s.db.connections.get cid).map ConnRow.isDeleted

/-- The deleted flag of a connection among rows. -/
def rowFlag (cid : Uuid) (rows : List ConnRow) : Option Bool :=
  (rows.find? fun r => r.connId = cid).map ConnRow.isDeleted

/-- The operations that write the deleted flags. -/
inductive FlagOp where
  | delete (connId : Uuid) (conn : Conn)
  | restore (subId : Uuid)
  | reload

/-- The program of an operation. -/
def FlagOp.prog (lower : String → String) : FlagOp → Prog Call Unit
  | delete connId conn => (deleteConnection connId conn).forget
  | restore subId => (restoreConnectionsBySubscription subId).forget
  | reload => (getStateFromDb lower).forget

/-- Publications go out, and a flag is written to the memory while the database
has it. -/
def flagsFresh (cid : Uuid) : Rule Call Input World
  | _, _, .bus _, i, _, _ => i.ok
  | _, _, .edit (.setDeleted id v), _, s, _ => id != cid || dbFlag cid s == some v
  | _, _, _, _, _, _ => true

/-! ### Rows -/

lemma rowFlag_eq_some {cid : Uuid} {rows : List ConnRow}
    (hrows : (rows.map ConnRow.connId).Nodup) {v : Bool} :
    rowFlag cid rows = some v ↔ ∃ r ∈ rows, r.connId = cid ∧ r.isDeleted = v := by
  rw [rowFlag, Option.map_eq_some_iff]
  simp only [Table.find?_key_eq_some hrows, and_assoc]

/-- The rows that a reload reads carry the flags of the database. -/
lemma rowFlag_connAll (cid : Uuid) (s : World) (order : List Uuid) :
    rowFlag cid (s.db.connAll order) = dbFlag cid s := by
  ext v
  rw [rowFlag_eq_some (s.db.connAll_nodup order), dbFlag, Option.map_eq_some_iff]
  constructor
  · rintro ⟨r, hr, rfl, rfl⟩
    obtain ⟨r', hget, heq⟩ := Db.mem_connAll.mp hr
    exact ⟨r', hget, by rw [heq]⟩
  · rintro ⟨r, hget, rfl⟩
    exact ⟨{ r with connId := cid }, Db.mem_connAll.mpr ⟨r, hget, rfl⟩, rfl, rfl⟩

/-- A rebuilt memory carries the flags of its rows. -/
lemma buildCache_flag {lower : String → String} {rows : List ConnRow} {subs : List Subscription}
    {cache : Cache} (h : buildCache lower rows subs = .ok cache)
    (hrows : (rows.map ConnRow.connId).Nodup) (cid : Uuid) :
    (cache.connections.get cid).map Conn.isDeleted = rowFlag cid rows := by
  ext v
  rw [rowFlag_eq_some hrows, Option.map_eq_some_iff]
  constructor
  · rintro ⟨c, hget, rfl⟩
    obtain ⟨r, hr, hid, hconv⟩ := (buildCache_connections h hrows).mp hget
    exact ⟨r, hr, hid, (ConnRow.toConn_isDeleted hconv).symm⟩
  · rintro ⟨r, hr, rfl, rfl⟩
    obtain ⟨c, hget, hconv⟩ := buildCache_connections_of_mem h hrows hr
    exact ⟨c, hget, ConnRow.toConn_isDeleted hconv⟩

/-! ### The protocol of flags -/

/-- The flags owed to the memory, and what the holder of the write guard has read:
nothing yet, or the flag of the connection among the rows. -/
abbrev FlagAccount := Multiset Bool × Multiset (Option (Option Bool))

/-- The account of a run that owes the flag `v`. -/
def owes (v : Bool) : FlagAccount := ({v}, 0)

/-- The account of a run that holds the write guard. -/
def guards (f : Option (Option Bool)) : FlagAccount := (0, {f})

/-- A flag is owed from the write to the database to the write to the memory, and
a memory is installed by the holder of the guard that has read its rows. -/
def flagProtocol (cid : Uuid) : Protocol Call FlagAccount where
  admits
    | _, .bus (.publish _ _), r => r = .ok ()
    | _, .sql .connAll, .ok rows => (rows.map ConnRow.connId).Nodup
    | _, _, _ => True
  may
    | _, .edit (.setDeleted id v), a => id = cid → ∃ r, a = r + owes v
    | _, .edit (.connAdd _ _), _ => False
    | _, .edit (.install _), _ => False
    | _, .within (.install cache), a =>
        ∃ r, a = r + guards (some ((cache.connections.get cid).map Conn.isDeleted))
    | _, .within _, _ => False
    | _, .sql (.connInsert _), _ => False
    | _, .sql .connAll, a => ∃ r, a = r + guards none
    | _, .guard .unlockWrite, a => ∃ r f, a = r + guards f
    | _, _, _ => True
  moves
    | _, .sql (.connDelete id), .ok _, a, a' => a' = a + if id = cid then owes true else 0
    | _, .sql (.connRestore id), .ok _, a, a' => a' = a + if id = cid then owes false else 0
    | _, .edit (.setDeleted id v), _, a, a' => a = a' + if id = cid then owes v else 0
    | _, .guard .lockWrite, _, a, a' => a' = a + guards none
    | _, .sql .connAll, .ok rows, a, a' =>
        ∃ r, a = r + guards none ∧ a' = r + guards (some (rowFlag cid rows))
    | _, .guard .unlockWrite, _, a, a' => ∃ f, a = a' + guards f
    | _, _, _, a, a' => a' = a

lemma flagProtocol_framed (cid : Uuid) : Framed (flagProtocol cid) where
  may := by
    intro β c a f h
    -- what is a part of the account is a part of a larger one
    have hpart : ∀ {x : FlagAccount}, (∃ r, a = r + x) → ∃ r, a + f = r + x := by
      rintro x ⟨r, hr⟩
      exact ⟨r + f, add_frame f hr⟩
    cases c with
    | edit w =>
        cases w with
        | setDeleted id v => exact fun hid => hpart (h hid)
        | _ => exact h
    | within w =>
        cases w with
        | install cache => exact hpart h
        | _ => exact h
    | sql q =>
        cases q with
        | connAll => exact hpart h
        | _ => exact h
    | guard g =>
        cases g with
        | unlockWrite =>
            obtain ⟨r, g, hr⟩ := h
            obtain ⟨r', hr'⟩ := hpart ⟨r, hr⟩
            exact ⟨r', g, hr'⟩
        | _ => exact h
    | _ => exact h
  moves := by
    intro β c b a a' f h
    have hsame : a' = a → a' + f = a + f := fun h => by rw [h]
    cases c with
    | edit w =>
        cases w with
        | setDeleted id v => exact add_frame f h
        | _ => exact hsame h
    | sql q =>
        cases q with
        | connAll =>
            cases b with
            | error e => exact hsame h
            | ok rows =>
                obtain ⟨r, ha, ha'⟩ := h
                exact ⟨r + f, add_frame f ha, add_frame f ha'⟩
        | connDelete id =>
            cases b with
            | error e => exact hsame h
            | ok u => exact add_frame f h
        | connRestore id =>
            cases b with
            | error e => exact hsame h
            | ok u => exact add_frame f h
        | _ => exact hsame h
    | guard g =>
        cases g with
        | lockWrite => exact add_frame f h
        | unlockWrite =>
            obtain ⟨g, hg⟩ := h
            exact ⟨g, add_frame f hg⟩
        | _ => exact hsame h
    | _ => exact hsame h

section Programs

variable {cid : Uuid}

lemma flagProtocol_pick : Free (flagProtocol cid) (.ask .pick) :=
  fun _ => ⟨trivial, fun _ => rfl⟩

/-- The write to the memory settles what the write to the database left. -/
lemma flagProtocol_settle {α : Type} {Q : α → FlagAccount → Prop} {id : Uuid} {v : Bool}
    {k : Unit → Api α} (hk : Obeys (flagProtocol cid) Q (k ()) 0) :
    Obeys (flagProtocol cid) Q (.call (.edit (.setDeleted id v)) k)
      (0 + if id = cid then owes v else 0) := by
  refine ⟨fun hid => ⟨0, by rw [if_pos hid]⟩, fun _ _ => ⟨0, rfl, hk⟩⟩

lemma flagProtocol_deleteConnection (connId : Uuid) (conn : Conn) :
    Obeys (flagProtocol cid) (fun _ a => a = 0) (deleteConnection connId conn) 0 := by
  simp only [deleteConnection, Prog.perform_bind]
  refine ⟨trivial, fun existing _ => ⟨0, rfl, ?_⟩⟩
  cases existing with
  | none => exact rfl
  | some c =>
      show Obeys _ _ (if c.isDeleted then _ else _) _
      split
      · exact rfl
      · refine ⟨trivial, fun r _ => ?_⟩
        cases r with
        | error e => exact ⟨0, rfl, rfl⟩
        | ok u =>
            refine ⟨_, rfl, trivial, fun r hr => ⟨_, rfl, ?_⟩⟩
            obtain rfl : r = .ok () := hr
            exact flagProtocol_settle rfl

lemma flagProtocol_restoreConnection (connId : Uuid) :
    Obeys (flagProtocol cid) (fun _ a => a = 0) (restoreConnection connId) 0 := by
  refine ⟨trivial, fun existing _ => ⟨0, rfl, ?_⟩⟩
  cases existing with
  | none => exact rfl
  | some c =>
      refine ⟨trivial, fun r _ => ?_⟩
      cases r with
      | error e => exact ⟨0, rfl, rfl⟩
      | ok u => exact ⟨_, rfl, flagProtocol_settle rfl⟩

lemma flagProtocol_restoreOne (e : Uuid × Conn) :
    Obeys (flagProtocol cid) (fun _ a => a = 0) (restoreOne e) 0 := by
  refine ⟨trivial, fun r hr => ⟨0, rfl, ?_⟩⟩
  obtain rfl : r = .ok () := hr
  refine (flagProtocol_restoreConnection e.1).bind ?_
  rintro r a rfl
  rcases r with r | st
  · exact rfl
  · cases st <;> exact rfl

lemma flagProtocol_restoreConnectionsBySubscription (subId : Uuid) :
    Obeys (flagProtocol cid) (fun _ a => a = 0) (restoreConnectionsBySubscription subId) 0 := by
  refine ⟨trivial, fun es _ => ⟨0, rfl, ?_⟩⟩
  cases es with
  | nil => exact rfl
  | cons e es =>
      have hall : Obeys (flagProtocol cid) (fun _ a => a = 0)
          (Prog.joinAll (.ask .pick) ((e :: es).map restoreOne)) 0 := by
        refine (Obeys.joinAll (flagProtocol_framed cid) flagProtocol_pick
          (G := fun _ _ => True) fun x _ => ?_).mono fun _ _ h => h.2
        exact (flagProtocol_restoreOne x).mono fun _ _ h => ⟨trivial, h⟩
      exact hall.bind fun _ _ h => h

lemma flagProtocol_unlock {α : Type} {Q : α → FlagAccount → Prop} {f : Option (Option Bool)}
    {k : Unit → Api α} (hk : Obeys (flagProtocol cid) Q (k ()) 0) :
    Obeys (flagProtocol cid) Q (.call (.guard .unlockWrite) k) (0 + guards f) :=
  ⟨⟨0, f, rfl⟩, fun _ _ => ⟨0, ⟨f, rfl⟩, hk⟩⟩

lemma flagProtocol_getStateFromDb (lower : String → String) :
    Obeys (flagProtocol cid) (fun _ a => a = 0) (getStateFromDb lower) 0 := by
  simp only [getStateFromDb, Prog.perform_bind]
  refine ⟨trivial, fun _ _ => ⟨0 + guards none, rfl, ⟨0, rfl⟩, fun r hrows => ?_⟩⟩
  cases r with
  | error e => exact ⟨_, rfl, flagProtocol_unlock rfl⟩
  | ok rows =>
      refine ⟨0 + guards (some (rowFlag cid rows)), ⟨0, rfl, rfl⟩, trivial, fun r _ => ⟨_, rfl, ?_⟩⟩
      cases r with
      | error e => exact flagProtocol_unlock rfl
      | ok subs =>
          dsimp only
          cases hcache : buildCache lower rows subs with
          | error e => exact flagProtocol_unlock rfl
          | ok cache =>
              refine ⟨⟨0, ?_⟩, fun _ _ => ⟨_, rfl, flagProtocol_unlock rfl⟩⟩
              rw [buildCache_flag hcache hrows]

lemma flagProtocol_prog (lower : String → String) (op : FlagOp) :
    Obeys (flagProtocol cid) (fun _ a => a = 0) (op.prog lower) 0 := by
  cases op with
  | delete connId conn => exact obeys_forget.mpr (flagProtocol_deleteConnection connId conn)
  | restore subId => exact obeys_forget.mpr (flagProtocol_restoreConnectionsBySubscription subId)
  | reload => exact obeys_forget.mpr (flagProtocol_getStateFromDb lower)

end Programs

/-! ### The invariant -/

/-- Either somebody owes the memory the flag of the database, or both flags and
every flag read by a reload agree. -/
structure FlagInv (cid : Uuid) (s : World) (t : FlagAccount) : Prop where
  held : Held s.lock.writer t.2
  mem_isSome : (memFlag cid s).isSome = (dbFlag cid s).isSome
  read_isSome : ∀ f, some f ∈ t.2 → f.isSome = (dbFlag cid s).isSome
  settled : (∃ v ∈ t.1, dbFlag cid s = some v) ∨
    (memFlag cid s = dbFlag cid s ∧ ∀ f, some f ∈ t.2 → f = dbFlag cid s)

section FlagInv

variable {cid : Uuid} {s s' : World} {t : FlagAccount}

lemma FlagInv.frame (h : FlagInv cid s t) (hlock : s'.lock.writer = s.lock.writer)
    (hmem : memFlag cid s' = memFlag cid s) (hdb : dbFlag cid s' = dbFlag cid s) :
    FlagInv cid s' t := by
  refine ⟨?_, ?_, ?_, ?_⟩
  · rw [hlock]
    exact h.held
  · rw [hmem, hdb]
    exact h.mem_isSome
  · rw [hdb]
    exact h.read_isSome
  · rw [hmem, hdb]
    exact h.settled

/-- The write of a flag to the database. -/
lemma FlagInv.owe (h : FlagInv cid s t) {v : Bool} (hlock : s'.lock = s.lock)
    (hmem : memFlag cid s' = memFlag cid s) (hdb : dbFlag cid s' = (dbFlag cid s).map fun _ => v) :
    FlagInv cid s' (t + owes v) := by
  have hsome : (dbFlag cid s').isSome = (dbFlag cid s).isSome := by rw [hdb, Option.isSome_map]
  have hguards : (t + owes v).2 = t.2 := add_zero _
  refine ⟨?_, ?_, ?_, ?_⟩
  · rw [hlock, hguards]
    exact h.held
  · rw [hmem, hsome]
    exact h.mem_isSome
  · rw [hsome, hguards]
    exact h.read_isSome
  · cases hflag : dbFlag cid s with
    | none =>
        -- without a row nothing has been written
        have hnone : dbFlag cid s' = dbFlag cid s := by rw [hdb, hflag]; rfl
        rcases h.settled with ⟨u, -, hu⟩ | hagree
        · rw [hflag] at hu
          cases hu
        · rw [hmem, hnone, hguards]
          exact Or.inr hagree
    | some u =>
        refine Or.inl ⟨v, ?_, by rw [hdb, hflag]; rfl⟩
        exact Multiset.mem_add.mpr (Or.inr (Multiset.mem_singleton_self v))

/-- The write of an owed flag to the memory. -/
lemma FlagInv.settle {v : Bool} (h : FlagInv cid s (t + owes v)) (hfree : s.lock.writer = false)
    (hlock : s'.lock = s.lock) (hfresh : dbFlag cid s = some v)
    (hmem : memFlag cid s' = (memFlag cid s).map fun _ => v) (hdb : dbFlag cid s' = dbFlag cid s) :
    FlagInv cid s' t := by
  have hguards : (t + owes v).2 = t.2 := add_zero _
  have hheld := h.held
  rw [hguards, hfree] at hheld
  have hnone : t.2 = 0 := hheld.eq_zero
  have hagree : memFlag cid s' = dbFlag cid s' := by
    have hsome := h.mem_isSome
    rw [hfresh] at hsome
    obtain ⟨u, hu⟩ := Option.isSome_iff_exists.mp hsome
    rw [hmem, hdb, hfresh, hu]
    rfl
  refine ⟨?_, by rw [hagree], ?_, Or.inr ⟨hagree, ?_⟩⟩
  · rw [hlock, hfree]
    exact hheld
  · intro f hf
    rw [hnone] at hf
    exact absurd hf (Multiset.notMem_zero _)
  · intro f hf
    rw [hnone] at hf
    exact absurd hf (Multiset.notMem_zero _)

/-- A change of the holder of the guard, or of what it has read. -/
lemma FlagInv.guard (h : FlagInv cid s t) {owed : Multiset Bool}
    {held : Multiset (Option (Option Bool))} (howed : owed = t.1)
    (hheld : Held s'.lock.writer held) (hmem : memFlag cid s' = memFlag cid s)
    (hdb : dbFlag cid s' = dbFlag cid s)
    (hread : ∀ f, some f ∈ held → some f ∈ t.2 ∨ f = dbFlag cid s) :
    FlagInv cid s' (owed, held) := by
  refine ⟨hheld, ?_, ?_, ?_⟩
  · rw [hmem, hdb]
    exact h.mem_isSome
  · intro f hf
    rw [hdb]
    rcases hread f hf with hf | rfl
    · exact h.read_isSome f hf
    · rfl
  · rw [hmem, hdb, howed]
    rcases h.settled with howes | ⟨hagree, hall⟩
    · exact Or.inl howes
    · refine Or.inr ⟨hagree, fun f hf => ?_⟩
      rcases hread f hf with hf | rfl
      · exact hall f hf
      · rfl

/-- The installation of a memory with the flag that has been read. -/
lemma FlagInv.install (h : FlagInv cid s t) (hread : some (memFlag cid s') ∈ t.2)
    (hlock : s'.lock = s.lock) (hdb : dbFlag cid s' = dbFlag cid s) : FlagInv cid s' t := by
  refine ⟨?_, ?_, ?_, ?_⟩
  · rw [hlock]
    exact h.held
  · rw [hdb]
    exact h.read_isSome _ hread
  · rw [hdb]
    exact h.read_isSome
  · rw [hdb]
    rcases h.settled with howes | ⟨-, hall⟩
    · exact Or.inl howes
    · exact Or.inr ⟨hall _ hread, hall⟩

end FlagInv

/-! ### Steps -/

lemma dbFlag_connSetDeleted (cid id : Uuid) (v : Bool) (s : World) :
    dbFlag cid { s with db := s.db.connSetDeleted id v } =
      if id = cid then (dbFlag cid s).map fun _ => v else dbFlag cid s := by
  rw [dbFlag, Db.connSetDeleted, Table.get_change, dbFlag]
  by_cases h : id = cid
  · subst h
    rw [if_pos rfl, if_pos rfl, Option.map_map, Option.map_map]
    rfl
  · rw [if_neg h, if_neg (Ne.symm h)]

lemma memFlag_setDeleted (cid id : Uuid) (v : Bool) (i : Input) (s : World) :
    memFlag cid { s with memory := (Edit.run (.setDeleted id v) i s.memory).1 } =
      if id = cid then (memFlag cid s).map fun _ => v else memFlag cid s := by
  rw [memFlag, memFlag]
  show Option.map _ ((s.memory.connections.change id _).get cid) = _
  rw [Table.get_change]
  by_cases h : id = cid
  · subst h
    rw [if_pos rfl, if_pos rfl, Option.map_map, Option.map_map]
    rfl
  · rw [if_neg h, if_neg (Ne.symm h)]

section Writes

variable {cid id : Uuid} {s s' : World} {t t' g : FlagAccount}

/-- A step that touches no connection. -/
lemma FlagInv.frame_connections (h : FlagInv cid s t) (hlock : s'.lock.writer = s.lock.writer)
    (hmem : s'.memory.connections = s.memory.connections)
    (hdb : s'.db.connections = s.db.connections) : FlagInv cid s' t :=
  h.frame hlock (by rw [memFlag, hmem, memFlag]) (by rw [dbFlag, hdb, dbFlag])

/-- A flag written to the database is owed. -/
lemma FlagInv.write (h : FlagInv cid s (t + g)) (v : Bool) :
    FlagInv cid { s with db := s.db.connSetDeleted id v }
      (t + (if id = cid then owes v else 0) + g) := by
  have hflag := dbFlag_connSetDeleted cid id v s
  rw [add_right_comm]
  by_cases hid : id = cid
  · rw [if_pos hid] at hflag ⊢
    exact h.owe rfl rfl hflag
  · rw [if_neg hid] at hflag ⊢
    rw [add_zero]
    exact h.frame rfl rfl hflag

/-- A flag that the database still has is written to the memory. -/
lemma FlagInv.pay (h : FlagInv cid s (t + g)) {v : Bool}
    (ht : t = t' + if id = cid then owes v else 0) (hfree : s.lock.writer = false)
    (hfresh : id = cid → dbFlag cid s = some v) (i : Input) :
    FlagInv cid { s with memory := (Edit.run (.setDeleted id v) i s.memory).1 } (t' + g) := by
  have hflag := memFlag_setDeleted cid id v i s
  by_cases hid : id = cid
  · rw [if_pos hid] at ht hflag
    rw [ht, add_right_comm] at h
    exact h.settle hfree rfl (hfresh hid) hflag rfl
  · rw [if_neg hid] at ht hflag
    rw [add_zero] at ht
    rw [← ht]
    exact h.frame rfl hflag rfl

/-- The write guard is taken. -/
lemma FlagInv.acquire (h : FlagInv cid s (t + g)) (hfree : s.lock.writer = false) :
    FlagInv cid { s with lock := { s.lock with writer := true } } (t + guards none + g) := by
  rw [add_right_comm]
  have hheld := h.held
  rw [hfree] at hheld
  refine h.guard (add_zero _) (hheld.acquire none) rfl rfl fun f hf => ?_
  rcases Multiset.mem_add.mp hf with hf | hf
  · exact Or.inl hf
  · exact absurd (Multiset.mem_singleton.mp hf) (by simp)

/-- The rows are read under the guard. -/
lemma FlagInv.read (h : FlagInv cid s (t + guards none + g)) (order : List Uuid) :
    FlagInv cid s (t + guards (some (rowFlag cid (s.db.connAll order))) + g) := by
  rw [add_right_comm] at h ⊢
  rw [rowFlag_connAll]
  refine h.guard rfl (h.held.exchange _) rfl rfl fun f hf => ?_
  rcases Multiset.mem_add.mp hf with hf | hf
  · exact Or.inl (Multiset.mem_add.mpr (Or.inl hf))
  · exact Or.inr (Option.some.inj (Multiset.mem_singleton.mp hf))

/-- The guard is given back. -/
lemma FlagInv.release {f : Option (Option Bool)} (h : FlagInv cid s (t + guards f + g)) :
    FlagInv cid { s with lock := { s.lock with writer := false } } (t + g) := by
  rw [add_right_comm] at h
  refine h.guard (add_zero _).symm h.held.release rfl rfl fun f hf => ?_
  exact Or.inl (Multiset.mem_add.mpr (Or.inl hf))

end Writes

/-- One step of one run keeps the invariant. -/
lemma keeps_flagInv (cid : Uuid) (Q : Unit → FlagAccount → Prop) :
    Keeps (flagsFresh cid) (flagProtocol cid) Q (FlagInv cid) := by
  intro β c i s s' b a others gs _ hexec hrule hmay hinv
  generalize gs.sum = g at hinv ⊢
  cases c with
  | edit w =>
      cases w with
      | setDeleted id v =>
          obtain ⟨hfree, rfl, -⟩ := exec_edit.mp hexec
          refine ⟨trivial, fun a' hm => hinv.pay hm (Lock.writer_of_free hfree) (fun hid => ?_) i⟩
          have hfresh : (id != cid || dbFlag cid s == some v) = true := hrule
          simpa [hid] using hfresh
      | connAdd id c => exact hmay.elim
      | install cache => exact hmay.elim
      | _ =>
          have hdb := db_of_exec hexec (by simp)
          have hlock := lock_of_exec hexec (by simp)
          refine ⟨trivial, fun a' hm => ?_⟩
          rw [show a' = a from hm]
          exact hinv.frame_connections (by rw [hlock]) (connections_of_exec hexec rfl) (by rw [hdb])
  | within w =>
      cases w with
      | install cache =>
          obtain ⟨-, rfl, -⟩ := exec_within.mp hexec
          obtain ⟨r, rfl⟩ := hmay
          refine ⟨trivial, fun a' hm => ?_⟩
          rw [show a' = _ from hm]
          refine hinv.install ?_ rfl rfl
          refine Multiset.mem_add.mpr (Or.inl (Multiset.mem_add.mpr (Or.inr ?_)))
          exact Multiset.mem_singleton_self _
      | _ => exact hmay.elim
  | guard gd =>
      cases gd with
      | lockWrite =>
          obtain ⟨hfree, rfl⟩ := exec_lockWrite.mp hexec
          refine ⟨trivial, fun a' hm => ?_⟩
          rw [show a' = a + guards none from hm]
          exact hinv.acquire (Lock.writer_of_free hfree)
      | unlockWrite =>
          obtain ⟨-, rfl⟩ := exec_unlockWrite.mp hexec
          refine ⟨trivial, fun a' hm => ?_⟩
          obtain ⟨f, rfl⟩ := hm
          exact hinv.release
      | lockRead =>
          refine ⟨trivial, fun a' hm => ?_⟩
          rw [show a' = a from hm]
          exact hinv.frame_connections (writer_of_exec_lockRead hexec)
            (connections_of_exec hexec rfl) (by rw [db_of_exec hexec (by simp)])
      | unlockRead =>
          refine ⟨trivial, fun a' hm => ?_⟩
          rw [show a' = a from hm]
          exact hinv.frame_connections (writer_of_exec_unlockRead hexec)
            (connections_of_exec hexec rfl) (by rw [db_of_exec hexec (by simp)])
  | sql q =>
      obtain ⟨rfl, rfl⟩ := exec_sql.mp hexec
      cases q with
      | connInsert row => exact hmay.elim
      | connDelete id =>
          rw [Sql.run]
          cases hok : i.ok with
          | false =>
              refine ⟨trivial, fun a' hm => ?_⟩
              rw [show a' = a from hm]
              exact hinv
          | true =>
              refine ⟨trivial, fun a' hm => ?_⟩
              rw [show a' = a + _ from hm]
              exact hinv.write true
      | connRestore id =>
          rw [Sql.run]
          cases hok : i.ok with
          | false =>
              refine ⟨trivial, fun a' hm => ?_⟩
              rw [show a' = a from hm]
              exact hinv
          | true =>
              refine ⟨trivial, fun a' hm => ?_⟩
              rw [show a' = a + _ from hm]
              exact hinv.write false
      | connAll =>
          rw [Sql.run]
          cases hok : i.ok with
          | false =>
              refine ⟨trivial, fun a' hm => ?_⟩
              rw [show a' = a from hm]
              exact hinv
          | true =>
              refine ⟨s.db.connAll_nodup i.order, fun a' hm => ?_⟩
              obtain ⟨r, rfl, rfl⟩ := hm
              exact hinv.read i.order
      | _ =>
          refine ⟨trivial, fun a' hm => ?_⟩
          rw [show a' = a from hm]
          exact hinv.frame_connections rfl rfl (Sql.run_connections rfl i s.db)
  | bus p =>
      have hdb := db_of_exec hexec (by simp)
      have hmem := connections_of_exec hexec rfl
      have hlock := lock_of_exec hexec (by simp)
      obtain ⟨-, rfl⟩ := exec_bus.mp hexec
      cases p with
      | publish topic messages =>
          refine ⟨?_, fun a' hm => ?_⟩
          · have hok : i.ok = true := hrule
            show (Call.execBus _ i s).2 = Except.ok ()
            rw [Call.execBus, if_pos hok]
          · rw [show a' = a from hm]
            exact hinv.frame_connections (by rw [hlock]) hmem (by rw [hdb])
  | _ =>
      have hdb := db_of_exec hexec (by simp)
      have hmem := connections_of_exec hexec rfl
      have hlock := lock_of_exec hexec (by simp)
      refine ⟨trivial, fun a' hm => ?_⟩
      rw [show a' = a from hm]
      exact hinv.frame_connections (by rw [hlock]) hmem (by rw [hdb])

/-! ### Runs -/

/-- **Flags converge**: once all deletions, restorations and reloads of an
interleaving have returned, the memory and the database agree on the connection,
provided that publications went out and every flag was written to the memory
while the database had it. -/
theorem flags_agree {lower : String → String} {cid : Uuid} {ops : List FlagOp} {s₀ : World}
    {p : Pool Call World} (hlock : s₀.lock.writer = false)
    (hagree : memFlag cid s₀ = dbFlag cid s₀)
    (h : Reach (flagsFresh cid) ⟨s₀, ops.map (FlagOp.prog lower)⟩ p) (hfin : p.finished = true) :
    memFlag cid p.state = dbFlag cid p.state := by
  have hobey : AllObey (flagProtocol cid) (fun _ a => a = 0) (ops.map fun _ => 0)
      (ops.map (FlagOp.prog lower)) := by
    rw [AllObey, List.forall₂_map_right_iff, List.forall₂_map_left_iff]
    exact List.forall₂_same.mpr fun op _ => flagProtocol_prog lower op
  have hinit : FlagInv cid s₀ (ops.map fun _ => (0 : FlagAccount)).sum := by
    have hzero : (ops.map fun _ => (0 : FlagAccount)).sum = 0 := by simp
    rw [hzero]
    refine ⟨by rw [hlock]; exact Held.init, by rw [hagree], ?_, Or.inr ⟨hagree, ?_⟩⟩
    · exact fun f hf => absurd hf (Multiset.notMem_zero _)
    · exact fun f hf => absurd hf (Multiset.notMem_zero _)
  obtain ⟨gs, hgs, hinv⟩ := Reach.sound (keeps_flagInv cid _) h hobey hinit
  rw [hgs.sum_eq_zero_of_finished hfin] at hinv
  rcases hinv.settled with ⟨v, hv, -⟩ | ⟨heq, -⟩
  · exact absurd hv (Multiset.notMem_zero _)
  · exact heq

/-- A connection of the subscription 7. -/
def sampleConn : Conn := Conn.new .dev (some 7) (.xray .vmess) none 0

/-- The state of a service that has the connection 1 in memory and database. -/
def sampleWorld : World :=
  { World.empty with
    memory := ⟨(∅ : Connections Conn).put 1 sampleConn, ∅⟩
    db := ⟨(∅ : Table Uuid ConnRow).put 1 (ConnRow.ofConn 1 sampleConn), ∅, ∅, []⟩ }

/-- A deletion, a restoration and a reload one after the other meet the
condition. -/
theorem flags_agree_serially :
    ∃ p, Reach (flagsFresh 1) ⟨sampleWorld,
        [FlagOp.delete 1 sampleConn, .restore 7, .reload].map (FlagOp.prog id)⟩ p ∧
      p.finished = true ∧ memFlag 1 p.state = dbFlag 1 p.state := by
  have hrun : (runWith (flagsFresh 1)
      (List.replicate 4 (0, Input.at 5) ++ List.replicate 5 (1, Input.at 6) ++
        List.replicate 5 (2, Input.at 7))
      ⟨sampleWorld, [FlagOp.delete 1 sampleConn, .restore 7, .reload].map (FlagOp.prog id)⟩).map
      Pool.finished = some true := by
    decide +kernel
  obtain ⟨p, hp, hfin⟩ := exists_reach_of_runWith hrun
  exact ⟨p, hp, hfin, flags_agree rfl rfl hp hfin⟩

/-- Two deletions pass their check, the first one runs to its end, and the second
one overtakes a restoration between its two writes. -/
theorem flags_differ :
    memFlag 1 sampleWorld = dbFlag 1 sampleWorld ∧
      ∃ p, Reach nothingFails ⟨sampleWorld,
          [FlagOp.delete 1 sampleConn, .delete 1 sampleConn, .restore 7].map (FlagOp.prog id)⟩ p ∧
        p.finished = true ∧ ¬ memFlag 1 p.state = dbFlag 1 p.state := by
  refine ⟨rfl, ?_⟩
  have hrun : (runWith nothingFails
      ([(0, Input.at 5), (1, Input.at 5)] ++ List.replicate 3 (0, Input.at 5) ++
        List.replicate 4 (2, Input.at 6) ++ List.replicate 3 (1, Input.at 7) ++
        [(2, Input.at 8)])
      ⟨sampleWorld,
        [FlagOp.delete 1 sampleConn, .delete 1 sampleConn, .restore 7].map (FlagOp.prog id)⟩).map
      (fun p => (p.finished, memFlag 1 p.state, dbFlag 1 p.state)) =
        some (true, some false, some true) := by
    decide +kernel
  obtain ⟨p, hp, hflags⟩ := exists_reach_of_runWith hrun
  obtain ⟨hfin, hmem, hdb⟩ : _ ∧ _ ∧ _ := by simpa only [Prod.mk.injEq] using hflags
  exact ⟨p, hp, hfin, by rw [hmem, hdb]; decide⟩

end Fcore
