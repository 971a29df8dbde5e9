import Fcore.Runs.Mirrors
import Fcore.Runs.Reconciliation

/-!
The expiry of a subscription reaches the nodes and the auth service
(`cleanup_expired_subscriptions`, `restore_subscriptions`, `run` of both services).

* `flag_of_passes`: a connection that some pass takes, and no other pass with another flag,
  has the flag of that pass in the end;
* `deleted_iff_inactive`: after passes of both tasks over subscriptions a connection of a known
  subscription is deleted exactly if the subscription is not active;
* `expiry_reaches_process`: so a process has the connections of active subscriptions, and no
  others with a subscription.
-/

namespace Fcore

open Calculus
open Machine (exec)

/-! ### What the passes leave -/

section Passes

variable {t : DateTime} {s s' : World} {xs : List Tick} {τ : Tick}

/-- A connection has the flag of the passes that take it. -/
lemma flag_of_passes (h : Serial (atInstant t) Tick.prog s xs s') (hτ : τ ∈ xs) {id : Uuid}
    {m : Mark} (hm : markOf s' id = some m) (htakes : τ.takes t s' m = true)
    (hagree : ∀ τ' : Tick, τ'.takes t s' m = true → τ'.flag = τ.flag) : m.isDeleted = τ.flag := by
  induction h generalizing m with
  | nil => exact absurd hτ List.not_mem_nil
  | @snoc xs τ' s₁ s' u hrun hexec ih =>
      have hpass := passed_tick hexec
      obtain ⟨m₁, hm₁, heq⟩ := markOf_before hpass hm
      cases hlast : τ'.takes t s₁ m₁ with
      | true =>
          -- the last pass takes the connection
          have hflag := hagree τ' ((takes_after hpass heq).trans hlast)
          rw [heq, hlast, if_pos rfl]
          exact hflag
      | false =>
          rw [hlast, if_neg Bool.false_ne_true] at heq
          subst heq
          have hsame : ∀ τ'' : Tick, τ''.takes t s' m = τ''.takes t s₁ m := fun τ'' =>
            takes_after hpass (by rw [hlast, if_neg Bool.false_ne_true])
          have hother : τ ∈ xs := by
            rcases List.mem_append.mp hτ with hin | hin
            · exact hin
            · rw [List.mem_singleton.mp hin, hsame, hlast] at htakes
              cases htakes
          exact ih hother hm₁ ((hsame τ).symm.trans htakes) fun τ'' htakes'' =>
            hagree τ'' ((hsame τ'').trans htakes'')

/-- **Subscriptions decide**: after passes of both tasks at one instant, a connection of a known
subscription that has not expired by itself is deleted exactly if its subscription is not
active. -/
lemma deleted_iff_inactive (h : Serial (atInstant t) Tick.prog s xs s')
    (hcleanup : .cleanupExpiredSubscriptions ∈ xs) (hrestore : .restoreSubscriptions ∈ xs)
    {id sub : Uuid} {m : Mark} (hm : markOf s' id = some m) (hsub : m.sub = some sub)
    (hknown : (s'.memory.subscriptions.get sub).isSome = true)
    (hown : ∀ e, m.expiresAt = some e → t < e) : m.isDeleted = !activeAt sub s' t := by
  have hexpired : Tick.cleanupExpiredConnections.takes t s' m = false := by
    rw [Tick.takes, Option.any_eq_false]
    intro e he
    have hlt := hown e he
    simp [hlt]
  have htakes : Tick.cleanupExpiredSubscriptions.takes t s' m = !activeAt sub s' t := by
    rw [Tick.takes, hsub, Option.any_some, hknown, Bool.true_and]
  have hactive : Tick.restoreSubscriptions.takes t s' m = activeAt sub s' t := by
    rw [Tick.takes, hsub, Option.any_some]
  cases hact : activeAt sub s' t with
  | false =>
      rw [hact] at htakes hactive
      refine flag_of_passes h hcleanup hm htakes fun τ' hτ' => ?_
      cases τ' with
      | restoreSubscriptions => rw [hactive] at hτ'; cases hτ'
      | _ => rfl
  | true =>
      rw [hact] at htakes hactive
      refine flag_of_passes h hrestore hm hactive fun τ' hτ' => ?_
      cases τ' with
      | cleanupExpiredConnections => rw [hexpired] at hτ'; cases hτ'
      | cleanupExpiredSubscriptions => rw [htakes] at hτ'; cases hτ'
      | restoreSubscriptions => rfl

end Passes

/-! ### What reaches a process -/

/-- The task as an operation of the API. -/
def Tick.op : Tick → ApiOp
  | cleanupExpiredConnections => .cleanupExpiredConnections
  | cleanupExpiredSubscriptions => .cleanupExpiredSubscriptions
  | restoreSubscriptions => .restoreSubscriptions

/-- Nothing fails, the clock stands, and keys are fresh. -/
def freshKeysAt (svc : Service) (t : DateTime) : Rule Call Input World := fun β ts c i s b =>
  atInstant t β ts c i s b && freshKeys svc β ts c i s b

section Process

variable {svc : Service} {lower : String → String} {before after : List ApiOp} {w w' : World}
  {s s' : svc.steady.State} {t : DateTime}

/-- **The expiry of a subscription reaches the processes**: a process that has followed the API
so far follows passes of both tasks over subscriptions at one instant.  Then it has the
connections that it serves of a known subscription, as long as they have not expired by
themselves, exactly if the subscription is active. -/
theorem expiry_reaches_process {xs : List Tick} (h : Follows svc lower before after w s)
    (hpasses : Serial (freshKeysAt svc t) Tick.prog w xs w')
    (hreceives : Receives svc.steady ((published w w').filter svc.heeds) s s')
    (hcleanup : .cleanupExpiredSubscriptions ∈ xs) (hrestore : .restoreSubscriptions ∈ xs)
    {id sub : Uuid} {c : Conn} (hget : w'.memory.connections.get id = some c)
    (hsub : c.subscriptionId = some sub)
    (hknown : (w'.memory.subscriptions.get sub).isSome = true)
    (hown : ∀ e, c.expiresAt = some e → t < e) (hserves : svc.serves c = true) :
    svc.view s' id = if activeAt sub w' t then some c.kept else none := by
  have hrun : Serial (freshKeys svc) (ApiOp.prog lower) w (xs.map Tick.op) w' := by
    refine hpasses.rename (fun τ => ?_) fun hrule => (Bool.and_eq_true_iff.mp hrule).2
    cases τ <;> rfl
  have hplain : ∀ op ∈ xs.map Tick.op, op.Plain lower (some svc.uuid) := by
    intro op hop
    obtain ⟨τ, -, rfl⟩ := List.mem_map.mp hop
    cases τ <;> exact trivial
  have htimed : Serial (atInstant t) Tick.prog w (xs.map fun τ => τ) w' :=
    hpasses.rename (fun _ => rfl) fun hrule => (Bool.and_eq_true_iff.mp hrule).1
  rw [List.map_id'] at htimed
  have hdel := deleted_iff_inactive htimed hcleanup hrestore (markOf_eq_some.mpr ⟨c, hget, rfl⟩)
    hsub hknown hown
  dsimp only at hdel
  rw [(h.append hrun hplain hreceives).view_eq id, Service.wanted, hget, Option.bind_some,
    hserves, hdel]
  cases activeAt sub w' t <;> rfl

end Process

/-- A subscription of thirty days and a Hysteria2 connection of it. -/
def thirtyDays : List (ApiOp × List Input) :=
  [(.postSubscription ⟨none, none, some 30, none⟩ 7 [],
      List.replicate 5 { Input.at 1000000 with uuid := 7 }),
    (.createConnection ⟨.dev, some 7, .hysteria2, none⟩ ⟨.v4 0x0A000000, 8⟩,
      List.replicate 8 { Input.at 2000000 with uuid := 1 })]

/-- The passes after forty days. -/
def latePasses : List (Tick × List Input) :=
  [(.cleanupExpiredSubscriptions, List.replicate 8 (Input.at (days 40))),
    (.restoreSubscriptions, List.replicate 8 (Input.at (days 40)))]

/-- The auth service has the connection until the passes and not after them. -/
theorem expiry_reaches_auth : ∃ w w' s s',
    Follows sampleAuth id (thirtyDays.map Prod.fst) [] w s ∧ (∃ k, sampleAuth.view s 1 = some k) ∧
      Serial (freshKeysAt sampleAuth (days 40)) Tick.prog w (latePasses.map Prod.fst) w' ∧
      Receives sampleAuth.steady ((published w w').filter sampleAuth.heeds) s s' ∧
      sampleAuth.view s' 1 = none := by
  have hcourse : ((sampleAuth.courseWith thirtyDays (List.replicate 4 (Input.at 3000000)) []).bind
      fun w => (serialWith (freshKeysAt sampleAuth (days 40)) Tick.prog latePasses w).map fun w' =>
        (sampleAuth.wanted w.memory 1).isSome && ((w'.memory.connections.get 1).any fun c =>
          c.subscriptionId == some 7 && c.expiresAt.isNone && sampleAuth.serves c) &&
          (w'.memory.subscriptions.get 7).isSome && !activeAt 7 w' (days 40)) = some true := by
    decide +kernel
  obtain ⟨w, hw, hlate⟩ := Option.bind_eq_some_iff.mp hcourse
  obtain ⟨w', hw', hseen⟩ := Option.map_eq_some_iff.mp hlate
  simp only [Bool.and_eq_true, Bool.not_eq_true', Option.isSome_iff_exists,
    Option.any_eq_true, beq_iff_eq, Option.isNone_iff_eq_none] at hseen
  obtain ⟨⟨⟨⟨k, hk⟩, c, hget, ⟨hsub, hexpires⟩, hserves⟩, hknown⟩, hinactive⟩ := hseen
  obtain ⟨s, hfollows⟩ := Service.exists_follows hw trivial
    (fun op hop => by
      rcases List.mem_cons.mp hop with rfl | hop
      · exact trivial
      · rw [List.mem_singleton.mp hop]
        exact rfl)
    (fun op hop => absurd hop List.not_mem_nil)
  obtain ⟨s', hreceives⟩ := sampleAuth.exists_receives ((published w w').filter sampleAuth.heeds)
    (fun e he => (List.mem_filter.mp he).2) s
  have hpasses : Serial (freshKeysAt sampleAuth (days 40)) Tick.prog w (latePasses.map Prod.fst) w' :=
    serial_of_serialWith .nil hw'
  refine ⟨w, w', s, s', hfollows, ⟨k, (hfollows.view_eq 1).trans hk⟩, hpasses, hreceives, ?_⟩
  have hview := expiry_reaches_process hfollows hpasses hreceives (by decide) (by decide) hget hsub
    (Option.isSome_iff_exists.mpr hknown) (fun e he => by rw [hexpires] at he; cases he) hserves
  rw [hview, hinactive]
  rfl

end Fcore
