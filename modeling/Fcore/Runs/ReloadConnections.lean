import Fcore.Runs.LiveTracking

/-!
The API comes back with the connections that it had (`get_state_from_db`, at the start and
in `periodic_db_sync`).

* `getStateFromDb_succeeds`: a reload whose reads go through succeeds if every row converts;
* `AtRest`: memory and database between two operations, whatever the bus has carried;
* `restart_keeps_connections`: after any operations without failures a reload into any
  memory, that of a fresh process included, succeeds and brings every connection back, with
  its deleted flag, and no other one.
-/

namespace Fcore

open Calculus
open Machine (exec)

/-! ### Reloads that succeed -/

section Reload

variable {lower : String → String}

lemma convertRows_ok {rows : List ConnRow} (h : ∀ r ∈ rows, ∃ c, r.toConn lower = .ok c) :
    ∃ conns, convertRows lower rows = .ok conns := by
  induction rows with
  | nil => exact ⟨[], rfl⟩
  | cons r rows ih =>
      obtain ⟨c, hc⟩ := h r List.mem_cons_self
      obtain ⟨conns, hconns⟩ := ih fun r' hr' => h r' (List.mem_cons_of_mem r hr')
      exact ⟨(r.connId, c) :: conns, by rw [convertRows, hc, hconns]⟩

lemma buildCache_ok {rows : List ConnRow} (h : ∀ r ∈ rows, ∃ c, r.toConn lower = .ok c)
    (subs : List Subscription) : ∃ m, buildCache lower rows subs = .ok m := by
  obtain ⟨conns, hconns⟩ := convertRows_ok h
  exact ⟨_, by rw [buildCache, hconns]⟩

/-- **A reload succeeds** when nothing fails and every row converts. -/
lemma getStateFromDb_succeeds {s s' : World} {r : Except Error Unit}
    (hrows : ∀ order, ∀ row ∈ s.db.connAll order, ∃ c, row.toConn lower = .ok c)
    (h : Exec nothingFails (getStateFromDb lower) s r s') : r = .ok () := by
  simp only [getStateFromDb, Prog.perform_bind] at h
  obtain ⟨i₁, s₁, u₁, hlock, -, hrest⟩ := h.of_call
  obtain ⟨-, rfl⟩ := exec_lockWrite.mp hlock
  obtain ⟨i₂, s₂, r₂, hsql, hrule, hrest⟩ := hrest.of_call
  have hok : i₂.ok = true := hrule
  obtain ⟨rfl, rfl⟩ := exec_sql.mp hsql
  simp only [Sql.run, hok, if_true] at hrest
  obtain ⟨i₃, s₃, r₃, hsql, hrule, hrest⟩ := hrest.of_call
  have hok : i₃.ok = true := hrule
  obtain ⟨rfl, rfl⟩ := exec_sql.mp hsql
  obtain ⟨m, hcache⟩ := buildCache_ok (hrows i₂.order) (s.db.subAll i₃.order)
  simp only [Sql.run, hok, if_true, hcache] at hrest
  obtain ⟨i₄, s₄, u₄, -, -, hrest⟩ := hrest.of_call
  obtain ⟨i₅, s₅, u₅, -, -, hrest⟩ := hrest.of_call
  exact hrest.of_pure.1

end Reload

/-! ### Between two operations -/

/-- No key is drawn twice as far as the auth service is concerned, which has none. -/
lemma freshKeys_auth (env : Env) (uuid : Uuid) : freshKeys (.auth env uuid) = nothingFails := by
  funext β ps c i s b
  cases c with
  | look r => cases r <;> simp [freshKeys, nothingFails, Service.keyFree]
  | _ => rfl

/-- Memory and database agree on every connection, as between two operations. -/
def AtRest (lower : String → String) (s : World) : Prop :=
  ∃ core bus, Live (.auth .dev 0) lower .start core 0 { s with bus := bus }

lemma AtRest.rows {lower : String → String} {s : World} (h : AtRest lower s) (id : Uuid) :
    s.db.flagged lower id = (s.memory.flagged id).map some := by
  obtain ⟨core, bus, hlive⟩ := h
  exact hlive.rows_zero id

/-- At rest every row converts. -/
lemma AtRest.converts {lower : String → String} {s : World} (h : AtRest lower s)
    {order : List Uuid} {row : ConnRow} (hrow : row ∈ s.db.connAll order) :
    ∃ c, row.toConn lower = .ok c := by
  obtain ⟨row', hget, heq⟩ := Db.mem_connAll.mp hrow
  have hrows := h.rows row.connId
  rw [Db.flagged, hget, Option.map_some] at hrows
  have hconv : row.toConn lower = row'.toConn lower := by
    rw [heq]
    rfl
  rw [hconv]
  cases hsame : row'.toConn lower with
  | ok c => exact ⟨c, rfl⟩
  | error e =>
      rw [ConnRow.flagged, hsame] at hrows
      cases hmem : s.memory.flagged row.connId with
      | none =>
          rw [hmem] at hrows
          cases hrows
      | some e =>
          rw [hmem] at hrows
          cases hrows

/-- Every sequence of operations without failures ends at rest. -/
lemma atRest_of_serial {lower : String → String} {ops : List ApiOp} {s : World}
    (hrun : Serial nothingFails (ApiOp.prog lower) World.empty ops s)
    (hops : ∀ op ∈ ops, op.Meets (EnvStable lower) fun _ => True) : AtRest lower s := by
  rw [← freshKeys_auth .dev 0] at hrun
  have hkeep := (upkeep_live (.auth .dev 0) lower .start).forgetBus fun _ hfresh =>
    ⟨hfresh.tagged, fun wg hwg => hfresh.key wg hwg⟩
  exact hkeep.serial hrun hops ⟨_, [], live_empty _ lower⟩

/-- **The API comes back with its connections**: after any operations without failures, a
reload into any memory succeeds, and every connection is then there with its environment,
protocol, subscription, times in microseconds and deleted flag as before; only the secret of
an Mtproto connection and the time of the last change may differ. -/
theorem restart_keeps_connections {lower : String → String} {ops : List ApiOp} {s s' : World}
    {m : Cache} {r : Except Error Unit}
    (hrun : Serial nothingFails (ApiOp.prog lower) World.empty ops s)
    (hops : ∀ op ∈ ops, op.Meets (EnvStable lower) fun _ => True)
    (hreload : Exec nothingFails (getStateFromDb lower) { s with memory := m } r s') :
    r = .ok () ∧ ∀ id, s'.memory.flagged id = s.memory.flagged id := by
  have hrest := atRest_of_serial hrun hops
  have hok := getStateFromDb_succeeds (s := { s with memory := m })
    (fun order row hrow => hrest.converts hrow) hreload
  refine ⟨hok, fun id => ?_⟩
  obtain ⟨-, -, ⟨⟨e, he⟩, -⟩ | ⟨-, i, order, l, -, hcache⟩⟩ := exec_getStateFromDb hreload
  · rw [hok] at he
    cases he
  · exact Option.map_injective (Option.some_injective _)
      ((flagged_buildCache hcache id).trans (hrest.rows id))

/-- Two connections, the first of which is deleted. -/
def twoConnections : List (ApiOp × List Input) :=
  [(.createConnection ⟨.dev, none, .vlessTcpReality, none⟩ ⟨.v4 0x0A000000, 8⟩,
      List.replicate 6 { Input.at 10000000500 with uuid := 1 }),
    (.createConnection ⟨.ru, none, .mtproto, none⟩ ⟨.v4 0x0A000000, 8⟩,
      List.replicate 6 { Input.at 20000000700 with uuid := 2, text := "secret" }),
    (.deleteConnection 1, List.replicate 5 (Input.at 30000000000))]

/-- A fresh process has them again. -/
theorem restart_keeps_two_connections :
    ∃ s s', Serial nothingFails (ApiOp.prog id) World.empty (twoConnections.map Prod.fst) s ∧
      Exec nothingFails (getStateFromDb id) { s with memory := World.empty.memory } (.ok ()) s' ∧
      (∃ c, s'.memory.flagged 1 = some (c, true)) ∧ ∃ c, s'.memory.flagged 2 = some (c, false) := by
  have hrun : ((serialWith nothingFails (ApiOp.prog id) twoConnections World.empty).bind fun s =>
      (execWith nothingFails (List.replicate 5 (Input.at 40000000000)) (getStateFromDb id)
        { s with memory := World.empty.memory }).map fun _ =>
          ((s.memory.flagged 1).map Prod.snd, (s.memory.flagged 2).map Prod.snd)) =
      some (some true, some false) := by
    decide +kernel
  obtain ⟨s, hserial, hreload⟩ := Option.bind_eq_some_iff.mp hrun
  obtain ⟨⟨s', r⟩, hexec, hseen⟩ := Option.map_eq_some_iff.mp hreload
  obtain ⟨hone, htwo⟩ := Prod.mk.inj hseen
  have hexec := exec_of_execWith hexec
  have hrun := serial_of_serialWith .nil hserial
  have hstable : ∀ op ∈ twoConnections.map Prod.fst,
      op.Meets (EnvStable id) fun _ => True := by
    intro op hop
    simp only [twoConnections, List.map_cons, List.map_nil, List.mem_cons, List.not_mem_nil,
      or_false] at hop
    rcases hop with rfl | rfl | rfl
    · exact rfl
    · exact rfl
    · exact trivial
  obtain ⟨rfl, hsame⟩ := restart_keeps_connections hrun hstable hexec
  refine ⟨s, s', hrun, hexec, ?_, ?_⟩
  · obtain ⟨⟨c, del⟩, hc, rfl⟩ := Option.map_eq_some_iff.mp hone
    exact ⟨c, (hsame 1).trans hc⟩
  · obtain ⟨⟨c, del⟩, hc, rfl⟩ := Option.map_eq_some_iff.mp htwo
    exact ⟨c, (hsame 2).trans hc⟩

end Fcore
