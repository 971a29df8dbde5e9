import Fcore.Api.Handlers
import Fcore.Runs.CreditErrors
import Fcore.Runs.ReferCodes
import Fcore.Runs.TrialOverlap

/-!
Registrations (`post_subscription_handler`, `post_trial_handler`).

Both handlers credit the owner of the refer code first, then insert the new subscription and, in
a trial, its connections.  Nothing is taken back when a later step is refused, and only one of
the two gives no bonus for a system code.

* `Registers`: what a registration does on either route;
* `Untouched`: nothing has been added and no expiry has changed;
* `Outcomes`, `meets`: the outcomes of the steps of a registration;
* `Outcomes.Harmless`: the credit changes no expiry, and no subscription is inserted;
* `refused_registration_harmless_iff`: exactly then, or if it is rejected at once, a refused
  registration leaves everything untouched;
* `CreditedWith`: the owner of a code has been credited with so many days;
* `referrer_credited_alike_iff`: both routes credit alike exactly if the code is no system code,
  or there is no bonus.
-/

namespace Fcore

open Calculus

/-! ### Both routes -/

/-- A registration returns in the credit phase, or it inserts the subscription; if that fails it
returns, and else nothing behind it touches a subscription.  `ok` says that it succeeds. -/
def Registers (rule : Rule Call Input World) (referredBy : Option String) (n : String → ℤ)
    (s : World) (ok : Prop) (s' : World) : Prop :=
  ∃ subId i, rule _ [] (.ask .uuid) i s subId = true ∧
    ((¬ok ∧ CreditPhase rule referredBy n s false s') ∨
      ∃ s₁ s₂ sub added, CreditPhase rule referredBy n s true s₁ ∧ sub.id = subId ∧
        Exec rule (addSub sub) s₁ added s₂ ∧
        ((¬ok ∧ (∀ id, added ≠ .ok (.ok id)) ∧ s' = s₂) ∨
          (∃ id, added = .ok (.ok id)) ∧ KeepsSubs s₂ s'))

section Registers

variable {rule : Rule Call Input World} {s s' : World} {subId : Uuid} {n : ℤ} {r : Reply}

lemma registers_postSubscriptionHandler {req : SubReq} {bonus : ℤ} {codes : List String}
    (h : Exec rule (postSubscriptionHandler req bonus codes) s r s') :
    Registers rule req.referredBy (fun _ => bonus) s (r.status = 200) s' := by
  obtain ⟨subId, i, hrule, hend⟩ := exec_postSubscriptionHandler h
  refine ⟨subId, i, hrule, ?_⟩
  rcases hend with hearly | ⟨s₁, now, created, added, hphase, hadd, hdone⟩
  · exact .inl hearly
  · refine .inr ⟨s₁, s', _, added, hphase, rfl, hadd, ?_⟩
    by_cases hok : r.status = 200
    · exact .inr ⟨hdone.mp hok, rfl, rfl⟩
    · refine .inl ⟨hok, fun id hid => hok (hdone.mpr ⟨id, hid⟩), rfl⟩

lemma registers_grantTrial {cfg : TrialConfig} {req : Trial}
    (h : Exec rule (grantTrial cfg req) s r s') :
    Registers rule req.referredBy cfg.earned s (r.status = 200) s' := by
  obtain ⟨subId, i, hrule, hend⟩ := exec_grantTrial h
  refine ⟨subId, i, hrule, ?_⟩
  rcases hend with hearly | ⟨s₁, hphase, hcreate⟩
  · exact .inl hearly
  · obtain ⟨sub, added, s₂, hid, -, hadd, hend⟩ := exec_createTrial hcreate
    refine .inr ⟨s₁, s₂, sub, added, hphase, hid, hadd, ?_⟩
    rcases hend with ⟨hfailed, hrefused, hs'⟩ | ⟨hdone, prog, huses, hrest⟩
    · exact .inl ⟨hrefused, hfailed, hs'⟩
    · exact .inr ⟨hdone, keepsSubs_of_uses hrest (huses.mono fun _ _ => subsQuiet_trialEnd)⟩

/-! ### Credits -/

/-- The same connections are there, in memory and in the table. -/
def KeepsConnIds (s s' : World) : Prop :=
  (∀ id, (s'.memory.connections.get id).isSome = (s.memory.connections.get id).isSome) ∧
    ∀ id, (s'.db.connections.get id).isSome = (s.db.connections.get id).isSome

lemma keepsConnIds_of_restore {ids : List Uuid}
    (h : Exec rule (restoreConnectionsBySubscription subId) s ids s') : KeepsConnIds s s' := by
  have hchange : ∀ {α : Type} (t : Table Uuid α) (k id : Uuid) (f : α → α),
      ((t.change k f).get id).isSome = (t.get id).isSome := by
    intro α t k id f
    rw [Table.get_change]
    split_ifs with hid
    · rw [hid, Option.isSome_map]
    · rfl
  refine h.inv_of_uses (uses_restoreConnectionsBySubscription subId) ?_ ⟨fun _ => rfl, fun _ => rfl⟩
  rintro β c i s₁ s₂ b hc hexec ⟨hmem, hrows⟩
  cases hc with
  | restore id' =>
      obtain ⟨rfl, -⟩ := exec_sql.mp hexec
      refine ⟨hmem, fun id => ?_⟩
      rw [← hrows id]
      simp only [Sql.run, Db.connSetDeleted]
      split_ifs
      · exact hchange _ _ _ _
      · rfl
  | undelete id' =>
      obtain ⟨-, rfl, -⟩ := exec_edit.mp hexec
      exact ⟨fun id => (hchange _ _ _ _).trans (hmem id), hrows⟩
  | connection id' | toRestore sub | bus p | ask a =>
      rw [KeepsConnIds, connections_of_exec hexec rfl, db_of_exec hexec (by simp)]
      exact ⟨hmem, hrows⟩

/-- What a credit of a subscription in memory does to the subscriptions. -/
lemma subs_of_addDays {sub : Subscription} {r : Except SyncError Status}
    (h : Exec rule (addDays subId n) s r s') (hsub : s.memory.subscriptions.get subId = some sub) :
    ∃ i j s₁ reply, rule _ [] (.edit (.credit subId n)) i s true = true ∧
      rule _ [] (.sql (.subAddDays subId n)) j s₁ reply = true ∧ reply.isOk = r.isOk ∧
      s'.memory.subscriptions = s.memory.subscriptions.change subId
        (fun sub => sub.credit n i.now) ∧
      KeepsConnIds s s' ∧
      ((r.isOk = false ∧ s'.db.subscriptions = s.db.subscriptions) ∨
        r.isOk = true ∧ ∃ row, s.db.subscriptions.get subId = some row ∧
          s'.db.subscriptions = s.db.subscriptions.put subId (Db.subRowCredit row n j.now)) := by
  rcases exec_addDays h with ⟨-, hnone, -⟩ | ⟨sub', k, i, j, s₁, -, -, hedit, -, hsql, hend⟩
  · rw [hsub] at hnone
    cases hnone
  refine ⟨i, j, s₁, _, hedit, hsql, ?_⟩
  have hconns : KeepsConnIds s (credited subId n i j s) := by
    refine ⟨fun _ => rfl, fun id => ?_⟩
    rw [credited, Sql.run_connections rfl]
  rcases hend with ⟨e, hreply, rfl, rfl⟩ | ⟨row, hreply, rfl, hend⟩
  · rw [hreply]
    refine ⟨rfl, rfl, hconns, .inl ⟨rfl, ?_⟩⟩
    rcases subAddDays_cases subId n j s.db with ⟨hdb, -⟩ | ⟨-, row, hok⟩
    · rw [credited, hdb]
    · rw [hok] at hreply
      cases hreply
  · obtain ⟨old, hold, hput⟩ := subAddDays_ok hreply
    rw [hreply]
    rcases hend with ⟨-, rfl⟩ | ⟨-, ids, hrestore⟩
    · exact ⟨rfl, rfl, hconns, .inr ⟨rfl, old, hold, hput⟩⟩
    · obtain ⟨hmem, hrows⟩ := keepsSubs_of_restore hrestore
      have hrestored := keepsConnIds_of_restore hrestore
      refine ⟨rfl, hmem, ?_, .inr ⟨rfl, old, hold, hrows.trans hput⟩⟩
      exact ⟨fun id => (hrestored.1 id).trans (hconns.1 id),
        fun id => (hrestored.2 id).trans (hconns.2 id)⟩

end Registers

/-! ### Side effects -/

/-- Nothing has been added, and no expiry has changed. -/
structure Untouched (s s' : World) : Prop where
  memory : ∀ id, (s'.memory.subscriptions.get id).map Subscription.expiresAt =
    (s.memory.subscriptions.get id).map Subscription.expiresAt
  database : ∀ id, (s'.db.subscriptions.get id).map Subscription.expiresAt =
    (s.db.subscriptions.get id).map Subscription.expiresAt
  connections : KeepsConnIds s s'

lemma Untouched.refl (s : World) : Untouched s s :=
  ⟨fun _ => rfl, fun _ => rfl, fun _ => rfl, fun _ => rfl⟩

/-- The outcomes of the steps of a registration: whom the search for the refer code finds, the
instants of the credit, and whether the database takes the credit and the new subscription. -/
structure Outcomes where
  owner : Option Uuid
  memoryAt : DateTime
  databaseAt : DateTime
  creditTaken : Bool
  insertTaken : Bool

/-- The steps have these outcomes, and identifiers are fresh. -/
def meets (p : Outcomes) : Rule Call Input World
  | _, _, .look (.referrer _), _, _, b => b == p.owner
  | _, _, .edit (.credit _ _), i, _, _ => i.now == p.memoryAt
  | _, _, .sql (.subAddDays _ _), i, _, b => i.now == p.databaseAt && b.isOk == p.creditTaken
  | _, _, .sql (.subCreate _), _, _, b => b.isOk == p.insertTaken
  | _, _, .ask .uuid, _, s, id => (s.memory.subscriptions.get id).isNone
  | _, _, _, _, _, _ => true

/-- The memory refuses the new expiry, or it is the old one; and if the database takes the credit,
then the row keeps its expiry and the new subscription is not inserted. -/
def Outcomes.Harmless (p : Outcomes) (referredBy : Option String) (n : String → ℤ)
    (s : World) : Prop :=
  match referredBy, p.owner with
  | none, _ => p.insertTaken = false
  | some _, none => True
  | some code, some owner =>
      match s.memory.subscriptions.get owner with
      | none => p.insertTaken = false
      | some sub =>
          (sub.creditExpiry (n code) p.memoryAt ≤ p.memoryAt ∨
            sub.expiresAt = some (sub.creditExpiry (n code) p.memoryAt)) ∧
          (p.creditTaken = true → p.insertTaken = false ∧
            ∀ row ∈ s.db.subscriptions.get owner,
              row.expiresAt = some (pgRound (row.creditExpiry (n code) p.databaseAt)))

section Harmless

variable {p : Outcomes} {s s' : World} {referredBy : Option String} {n : String → ℤ} {ok : Prop}

lemma Subscription.credit_keeps_iff (sub : Subscription) (n : ℤ) (t : DateTime) :
    (sub.credit n t).expiresAt = sub.expiresAt ↔
      sub.creditExpiry n t ≤ t ∨ sub.expiresAt = some (sub.creditExpiry n t) := by
  rw [credit_expiresAt_ite]
  split_ifs with hlate
  · exact iff_of_true rfl (.inl hlate)
  · rw [or_iff_right hlate, eq_comm]

/-- What a credit leaves untouched. -/
lemma untouched_addDays_iff {owner : Uuid} {n : ℤ} {sub : Subscription}
    {r : Except SyncError Status}
    (h : Exec (meets p) (addDays owner n) s r s')
    (hsub : s.memory.subscriptions.get owner = some sub) :
    r.isOk = p.creditTaken ∧ (Untouched s s' ↔
      (sub.creditExpiry n p.memoryAt ≤ p.memoryAt ∨
        sub.expiresAt = some (sub.creditExpiry n p.memoryAt)) ∧
      (p.creditTaken = true → ∀ row ∈ s.db.subscriptions.get owner,
        row.expiresAt = some (pgRound (row.creditExpiry n p.databaseAt)))) := by
  obtain ⟨i, j, s₁, reply, hedit, hsql, hreply, hmem, hconns, hrows⟩ := subs_of_addDays h hsub
  have hi : i.now = p.memoryAt := by simpa [meets] using hedit
  obtain ⟨hj, htaken⟩ : j.now = p.databaseAt ∧ reply.isOk = p.creditTaken := by
    simpa [meets] using hsql
  rw [hi] at hmem
  rw [hreply] at htaken
  refine ⟨htaken, ?_⟩
  have hmemory : (∀ id, (s'.memory.subscriptions.get id).map Subscription.expiresAt =
      (s.memory.subscriptions.get id).map Subscription.expiresAt) ↔
        sub.creditExpiry n p.memoryAt ≤ p.memoryAt ∨
          sub.expiresAt = some (sub.creditExpiry n p.memoryAt) := by
    rw [hmem, Table.map_get_change_iff, hsub]
    simp only [Option.mem_def, Option.some.injEq, forall_eq']
    exact sub.credit_keeps_iff n p.memoryAt
  have hdatabase : (∀ id, (s'.db.subscriptions.get id).map Subscription.expiresAt =
      (s.db.subscriptions.get id).map Subscription.expiresAt) ↔
        (p.creditTaken = true → ∀ row ∈ s.db.subscriptions.get owner,
          row.expiresAt = some (pgRound (row.creditExpiry n p.databaseAt))) := by
    rw [← htaken]
    rcases hrows with ⟨hfailed, hdb⟩ | ⟨hok, row, hrow, hput⟩
    · simp [hfailed, hdb]
    · rw [hput, Table.put_eq_change hrow, Table.map_get_change_iff, hrow, hj]
      simp only [Option.mem_def, Option.some.injEq, forall_eq', hok, forall_const]
      rw [Db.subRowCredit_expiresAt, ← Subscription.creditExpiry, eq_comm]
  rw [← hmemory, ← hdatabase]
  exact ⟨fun h => ⟨h.memory, h.database⟩, fun h => ⟨h.1, h.2, hconns⟩⟩

/-- No subscription comes to the memory in the credit phase. -/
lemma CreditPhase.get_eq_none {rule : Rule Call Input World} {goes : Bool} {id : Uuid}
    (h : CreditPhase rule referredBy n s goes s') (hnone : s.memory.subscriptions.get id = none) :
    s'.memory.subscriptions.get id = none := by
  cases h with
  | nobody | unknown => exact hnone
  | credit code i owner r s₁ hby hlook hrule hcredit =>
      cases hsub : s.memory.subscriptions.get owner with
      | none =>
          rcases exec_addDays hcredit with ⟨rfl, -, -⟩ | ⟨sub, -, -, -, -, hget, -⟩
          · exact hnone
          · rw [hsub] at hget
            cases hget
      | some sub =>
          obtain ⟨j, -, -, -, -, -, -, hmem, -⟩ := subs_of_addDays hcredit hsub
          rw [hmem, Table.get_change]
          split_ifs with hid
          · rw [← hid, hnone]
            rfl
          · exact hnone

/-- The credit phase ends the registration. -/
lemma CreditPhase.untouched_iff_of_false (h : CreditPhase (meets p) referredBy n s false s') :
    Untouched s s' ↔ p.Harmless referredBy n s := by
  generalize hgoes : false = goes at h
  cases h with
  | nobody hby => cases hgoes
  | unknown code i hby hlook hrule =>
      have howner : p.owner = none := (beq_iff_eq.mp hrule).symm
      simp only [hby, Outcomes.Harmless, howner]
      exact iff_of_true (Untouched.refl s) trivial
  | credit code i owner r s₁ hby hlook hrule hcredit =>
      have howner : p.owner = some owner := (beq_iff_eq.mp hrule).symm
      cases hsub : s.memory.subscriptions.get owner with
      | none =>
          rcases exec_addDays hcredit with ⟨-, -, rfl⟩ | ⟨sub, -, -, -, -, hget, -⟩
          · cases hgoes
          · rw [hsub] at hget
            cases hget
      | some sub =>
          obtain ⟨htaken, hiff⟩ := untouched_addDays_iff hcredit hsub
          rw [← hgoes] at htaken
          simp [hiff, hby, Outcomes.Harmless, howner, hsub, ← htaken]

/-- The registration goes on behind the credit phase. -/
lemma CreditPhase.untouched_iff_of_true (h : CreditPhase (meets p) referredBy n s true s') :
    Untouched s s' ∧ p.insertTaken = false ↔ p.Harmless referredBy n s := by
  generalize hgoes : true = goes at h
  cases h with
  | nobody hby =>
      rw [hby, Outcomes.Harmless]
      exact and_iff_right (Untouched.refl s)
  | unknown code i hby hlook hrule => cases hgoes
  | credit code i owner r s₁ hby hlook hrule hcredit =>
      have howner : p.owner = some owner := (beq_iff_eq.mp hrule).symm
      cases hsub : s.memory.subscriptions.get owner with
      | none =>
          rcases exec_addDays hcredit with ⟨rfl, -, -⟩ | ⟨sub, -, -, -, -, hget, -⟩
          · simp only [hby, Outcomes.Harmless, howner, hsub]
            exact and_iff_right (Untouched.refl _)
          · rw [hsub] at hget
            cases hget
      | some sub =>
          obtain ⟨htaken, hiff⟩ := untouched_addDays_iff hcredit hsub
          rw [← hgoes] at htaken
          simp only [hiff, hby, Outcomes.Harmless, howner, hsub, ← htaken, forall_const]
          rw [and_assoc, and_comm (a := ∀ _, _)]

/-- A registration leaves everything untouched exactly if it is harmless. -/
lemma Registers.untouched_iff (h : Registers (meets p) referredBy n s ok s') :
    Untouched s s' ↔ p.Harmless referredBy n s := by
  obtain ⟨subId, i, hfresh, ⟨-, hphase⟩ | ⟨s₁, s₂, sub, added, hphase, hid, hadd, hend⟩⟩ := h
  · exact hphase.untouched_iff_of_false
  have hnone : s.memory.subscriptions.get sub.id = none := by
    rw [hid]
    simpa [meets] using hfresh
  rw [← hphase.untouched_iff_of_true]
  obtain ⟨j, hrule, ⟨e, hreply, rfl, rfl⟩ | ⟨row, hreply, rfl, rfl⟩⟩ := exec_addSub hadd
  · -- the insertion fails, and the handler returns
    have htaken : p.insertTaken = false := by
      rw [hreply] at hrule
      exact (beq_iff_eq.mp hrule).symm
    rcases hend with ⟨-, -, rfl⟩ | ⟨⟨id, hdone⟩, -⟩
    · exact (and_iff_left htaken).symm
    · cases hdone
  · -- the subscription is there, whatever comes behind it
    have htaken : p.insertTaken = true := by
      rw [hreply] at hrule
      exact (beq_iff_eq.mp hrule).symm
    have hadded : (s₁.memory.subscriptions.add sub).2 = .ok sub.id := by
      rw [Subscriptions.add, hphase.get_eq_none hnone]
    rcases hend with ⟨-, hfailed, -⟩ | ⟨-, hkept, -⟩
    · exact absurd (congrArg Except.ok hadded) (hfailed sub.id)
    · refine iff_of_false (fun huntouched => ?_) (by simp [htaken])
      have hthere := huntouched.memory sub.id
      rw [hkept, hnone, Subscriptions.get_add, if_pos rfl] at hthere
      cases hthere

end Harmless

/-- **A refused registration has no side effects exactly if it is rejected at once or
harmless.** -/
theorem refused_registration_harmless_iff (p : Outcomes) (s s' : World) :
    (∀ req bonus codes r, Exec (meets p) (postSubscriptionHandler req bonus codes) s r s' →
      r.status ≠ 200 →
        (Untouched s s' ↔ p.Harmless req.referredBy (fun _ => bonus) s)) ∧
    (∀ cfg req r, Exec (meets p) (postTrialHandler cfg req) s r s' → succeeded r = false →
      (Untouched s s' ↔ cfg.rejects req s = true ∨ p.Harmless req.referredBy cfg.earned s)) := by
  constructor
  · intro req bonus codes r h _
    exact (registers_postSubscriptionHandler h).untouched_iff
  · intro cfg req r h _
    rcases exec_postTrialHandler h with ⟨hrejects, rfl, -⟩ | ⟨hrejects, reply, rfl, hgrant⟩
    · exact iff_of_true (Untouched.refl _) (.inl hrejects)
    · rw [(registers_grantTrial hgrant).untouched_iff, hrejects]
      simp

/-- The state of a service with a subscription that owns the refer code "alpha". -/
def referrerWorld : World :=
  { World.empty with
    memory := ⟨∅, (∅ : Table Uuid Subscription).put 7 { tenDaySub with referCode := "alpha" }⟩
    db := ⟨∅, (∅ : Table Uuid Subscription).put 7 { tenDaySub with referCode := "alpha" }, ∅, []⟩ }

/-- A request that names the code "alpha". -/
def referredReq : SubReq := ⟨some "alpha", none, some 30, none⟩

/-- Trials with one WireGuard connection from a network of one address. -/
def narrowTrialConfig : TrialConfig :=
  { sampleTrialConfig with net := ⟨.v4 0x0A000000, 32⟩, protos := [.wireguard] }

/-- A draw of the identifier 9. -/
def freshInput : Input := { Input.at 5 with uuid := 9 }

/-- Nobody is credited, and the insertion fails. -/
theorem refused_registration_harmless_nobody :
    ∃ r s', Exec (meets ⟨none, 5, 5, true, false⟩)
      (postSubscriptionHandler { referredReq with referredBy := none } 5 []) referrerWorld r s' ∧
      r.status ≠ 200 ∧ Untouched referrerWorld s' := by
  have hrun : (execWith (meets ⟨none, 5, 5, true, false⟩)
      (List.replicate 3 freshInput ++ [{ freshInput with ok := false }])
      (postSubscriptionHandler { referredReq with referredBy := none } 5 []) referrerWorld).map
        (fun r => r.2.status) = some 500 := by
    decide +kernel
  obtain ⟨⟨s', r⟩, hexec, hstatus⟩ := Option.map_eq_some_iff.mp hrun
  have hrefused : r.status ≠ 200 := by
    rw [hstatus]
    norm_num
  have hiff := (refused_registration_harmless_iff _ _ s').1 _ _ _ r (exec_of_execWith hexec) hrefused
  exact ⟨r, s', exec_of_execWith hexec, hrefused, hiff.mpr rfl⟩

/-- The insertion fails behind the credit, and a trial gets no address behind its subscription. -/
theorem refused_registration_extends :
    (∃ r s', Exec Rule.any (postSubscriptionHandler referredReq 5 []) referrerWorld r s' ∧
      r.status ≠ 200 ∧ ¬Untouched referrerWorld s') ∧
    ∃ r s', Exec Rule.any (postTrialHandler narrowTrialConfig ⟨some "ann", none, none⟩)
      World.empty r s' ∧ succeeded r = false ∧ ¬Untouched World.empty s' := by
  have hpost : (execWith Rule.any (List.replicate 7 freshInput ++ [{ freshInput with ok := false }])
      (postSubscriptionHandler referredReq 5 []) referrerWorld).map
        (fun r => (r.2.status, memExpiry 7 r.1)) = some (500, some (days 15)) := by
    decide +kernel
  have htrial : (execWith Rule.any (List.replicate 7 freshInput)
      (postTrialHandler narrowTrialConfig ⟨some "ann", none, none⟩) World.empty).map
        (fun r => (succeeded r.2, (r.1.db.subscriptions.get 9).isSome)) = some (false, true) := by
    decide +kernel
  obtain ⟨⟨s₁, r₁⟩, hexec₁, heq₁⟩ := Option.map_eq_some_iff.mp hpost
  obtain ⟨hstatus₁, hexpiry⟩ := Prod.mk.inj heq₁
  obtain ⟨⟨s₂, r₂⟩, hexec₂, heq₂⟩ := Option.map_eq_some_iff.mp htrial
  obtain ⟨hrefused, hadded⟩ := Prod.mk.inj heq₂
  refine ⟨⟨r₁, s₁, exec_of_execWith hexec₁, ?_, fun huntouched => ?_⟩,
    r₂, s₂, exec_of_execWith hexec₂, hrefused, fun huntouched => ?_⟩
  · rw [hstatus₁]
    norm_num
  · -- ten days were left
    obtain ⟨sub, hget, hfifteen⟩ := Option.bind_eq_some_iff.mp hexpiry
    have hkept := huntouched.memory 7
    rw [hget, Option.map_some, hfifteen] at hkept
    have hdays : days 15 = days 10 := Option.some.inj (Option.some.inj hkept)
    rw [days, days] at hdays
    omega
  · -- there was no subscription
    have hkept := huntouched.database 9
    obtain ⟨row, hrow⟩ := Option.isSome_iff_exists.mp hadded
    rw [hrow] at hkept
    cases hkept

/-! ### The bonus of the referrer -/

/-- The instants at which a credit is made, in memory and in the database. -/
def creditAt (t u : DateTime) : Rule Call Input World
  | _, _, .edit (.credit _ _), i, _, _ => i.now == t
  | _, _, .sql (.subAddDays _ _), i, _, _ => i.now == u
  | _, _, _, _, _, _ => true

/-- The subscription has been credited with `n` days, at `t` in memory and at `u` in the
database. -/
structure CreditedWith (t u : DateTime) (id : Uuid) (n : ℤ) (s s' : World) : Prop where
  memory : s'.memory.subscriptions.get id =
    (s.memory.subscriptions.get id).map fun sub => sub.credit n t
  database : s'.db.subscriptions.get id =
    (s.db.subscriptions.get id).map fun row => Db.subRowCredit row n u

/-- One subscription has the code. -/
def OwnedBy (code : String) (owner : Uuid) (s : World) : Prop :=
  ∃ sub, s.memory.subscriptions.get owner = some sub ∧ sub.id = owner ∧
    sub.referCodeTrimmed = code ∧
      ∀ id sub', s.memory.subscriptions.get id = some sub' → sub'.referCodeTrimmed = code →
        id = owner

section CreditedWith

variable {t u : DateTime} {code : String} {owner : Uuid} {n : String → ℤ} {s s' : World}

/-- The search finds the one that has the code. -/
lemma OwnedBy.found {i : Input} (h : OwnedBy code owner s) :
    Look.run (.referrer code) i s.memory = some owner := by
  obtain ⟨sub, hget, hid, hcode, hone⟩ := h
  have hfound : s.memory.subscriptions.findByReferCode i.order code = some sub := by
    refine (Subscriptions.findByReferCode_iff ?_ i.order sub).mpr ⟨owner, hget, hcode⟩
    intro id id' sub sub' hget hget' hcode hcode'
    rw [hone id sub hget hcode, hone id' sub' hget' hcode']
  rw [Look.run, hfound, Option.map_some, hid]

/-- Different numbers of days make different rows. -/
lemma Db.subRowCredit_inj {row : Subscription} {m n : ℤ} {u : DateTime}
    (h : Db.subRowCredit row m u = Db.subRowCredit row n u) : m = n := by
  have hexp := congrArg Subscription.expiresAt h
  rw [subRowCredit_expiresAt, subRowCredit_expiresAt, Option.some.injEq] at hexp
  have hm := abs_lt.mp (sameMicros_pgRound (creditBase u row.expiresAt + days m))
  have hn := abs_lt.mp (sameMicros_pgRound (creditBase u row.expiresAt + days n))
  rw [hexp] at hm
  simp only [days] at hm hn
  -- a day is longer than what two roundings take away
  have hlt : (m - n) * 86400000000000 < 2000 := by linarith only [hm.1, hn.2]
  have hgt : -2000 < (m - n) * 86400000000000 := by linarith only [hm.2, hn.1]
  omega

/-- A successful registration credits the owner of the code it names. -/
lemma Registers.creditedWith {ok : Prop} (h : Registers (creditAt t u) (some code) n s ok s')
    (hok : ok) (howned : OwnedBy code owner s) :
    (∃ row, s.db.subscriptions.get owner = some row) ∧ CreditedWith t u owner (n code) s s' := by
  obtain ⟨subId, i, -, ⟨hrefused, -⟩ | ⟨s₁, s₂, sub, added, hphase, -, hadd, hend⟩⟩ := h
  · exact absurd hok hrefused
  -- the credit
  obtain ⟨hrow, hcredited⟩ : (∃ row, s.db.subscriptions.get owner = some row) ∧
      CreditedWith t u owner (n code) s s₁ := by
    generalize hgoes : true = goes at hphase
    cases hphase with
    | nobody hby => cases hby
    | unknown code' i hby hlook hrule => cases hgoes
    | credit code' i id r s₁ hby hlook hrule hcredit =>
        obtain rfl := Option.some.inj hby
        obtain rfl := Option.some.inj (howned.found.symm.trans hlook)
        obtain ⟨owning, hsub, -⟩ := howned
        obtain ⟨i, j, s₀, reply, hedit, hsql, -, hmem, -, hrows⟩ := subs_of_addDays hcredit hsub
        rcases hrows with ⟨hfailed, -⟩ | ⟨-, row, hrow, hput⟩
        · rw [← hgoes] at hfailed
          cases hfailed
        · refine ⟨⟨row, hrow⟩, ?_, ?_⟩
          · rw [hmem, Table.get_change_self, beq_iff_eq.mp hedit]
          · rw [hput, Table.get_put_self, hrow, Option.map_some, beq_iff_eq.mp hsql]
  -- the insertion is under another key, for that of the owner is taken
  rcases hend with ⟨hrefused, -⟩ | ⟨⟨id, rfl⟩, hkept⟩
  · exact absurd hok hrefused
  obtain ⟨j, -, ⟨e, -, hfailed, -⟩ | ⟨new, hreply, -, rfl⟩⟩ := exec_addSub hadd
  · cases hfailed
  obtain ⟨hnone, -, hput⟩ := subCreate_ok hreply
  have hne : owner ≠ sub.id := by
    rintro rfl
    obtain ⟨row, hrow⟩ := hrow
    rw [hcredited.database, hrow] at hnone
    cases hnone
  refine ⟨hrow, ?_, ?_⟩
  · rw [hkept.1, Subscriptions.get_add, if_neg hne, hcredited.memory]
  · rw [hkept.2, hput, Table.get_put_of_ne _ _ hne, hcredited.database]

end CreditedWith

/-- **Both routes credit the owner of a code with the days that it earns exactly if the code is no
system code or there is no bonus.** -/
theorem referrer_credited_alike_iff (cfg : TrialConfig) (code : String) (owner : Uuid)
    (s s₁ s₂ : World) (t u t' u' : DateTime) (req : SubReq) (req' : Trial) (r r' : Reply)
    (howned : OwnedBy code owner s) (hby : req.referredBy = some code)
    (hby' : req'.referredBy = some code)
    (hpost : Exec (creditAt t u) (postSubscriptionHandler req cfg.bonus cfg.systemReferCodes) s r s₁)
    (hr : r.status = 200)
    (htrial : Exec (creditAt t' u') (postTrialHandler cfg req') s (.ok r') s₂)
    (hr' : r'.status = 200) :
    (CreditedWith t u owner (cfg.earned code) s s₁ ∧
      CreditedWith t' u' owner (cfg.earned code) s s₂) ↔
        (code ∈ cfg.systemReferCodes → cfg.bonus = 0) := by
  have hregisters := registers_postSubscriptionHandler hpost
  rw [hby] at hregisters
  obtain ⟨⟨row, hrow⟩, hcredited⟩ := hregisters.creditedWith hr howned
  have hearned : CreditedWith t' u' owner (cfg.earned code) s s₂ := by
    rcases exec_postTrialHandler htrial with ⟨-, -, hrefused⟩ | ⟨-, reply, hreply, hgrant⟩
    · exact absurd hr' (hrefused r' rfl)
    · have hregisters' := registers_grantTrial hgrant
      rw [hby'] at hregisters'
      rw [← Except.ok.inj hreply] at hregisters'
      exact (hregisters'.creditedWith hr' howned).2
  rw [and_iff_left hearned, TrialConfig.earned, List.contains_eq_mem]
  by_cases hsystem : code ∈ cfg.systemReferCodes
  · rw [if_pos (by simpa using hsystem)]
    simp only [hsystem, forall_const]
    constructor
    · intro hnothing
      have hrows := hcredited.database.symm.trans hnothing.database
      rw [hrow, Option.map_some, Option.map_some, Option.some.injEq] at hrows
      exact Db.subRowCredit_inj hrows
    · intro hbonus
      rwa [hbonus] at hcredited
  · rw [if_neg (by simpa using hsystem)]
    exact iff_of_true hcredited fun h => absurd h hsystem

lemma ownedBy_referrerWorld : OwnedBy "alpha" 7 referrerWorld := by
  refine ⟨{ tenDaySub with referCode := "alpha" }, rfl, rfl, by decide +kernel, ?_⟩
  intro id sub hget _
  by_contra hid
  rw [show referrerWorld.memory.subscriptions =
    (∅ : Table Uuid Subscription).put 7 { tenDaySub with referCode := "alpha" } from rfl,
    Table.get_put_of_ne _ _ hid] at hget
  cases hget

/-- Five days for the owner of the code "alpha". -/
theorem referrer_credited_alike_five :
    ∃ s₁ s₂, CreditedWith 5 5 7 5 referrerWorld s₁ ∧ CreditedWith 5 5 7 5 referrerWorld s₂ := by
  have hpost : (execWith (creditAt 5 5) (List.replicate 9 freshInput)
      (postSubscriptionHandler referredReq 5 []) referrerWorld).map
        (fun r => r.2.status) = some 200 := by
    decide +kernel
  have htrial : (execWith (creditAt 5 5) (List.replicate 18 freshInput)
      (postTrialHandler sampleTrialConfig ⟨some "ann", none, some "alpha"⟩) referrerWorld).map
        (fun r => r.2.toOption.map Reply.status) = some (some 200) := by
    decide +kernel
  obtain ⟨⟨s₁, r⟩, hexec, hr⟩ := Option.map_eq_some_iff.mp hpost
  obtain ⟨⟨s₂, e | r'⟩, hexec', hr'⟩ := Option.map_eq_some_iff.mp htrial
  · cases hr'
  have halike := referrer_credited_alike_iff sampleTrialConfig "alpha" 7 referrerWorld s₁ s₂ 5 5 5 5
    referredReq ⟨some "ann", none, some "alpha"⟩ r r' ownedBy_referrerWorld rfl rfl
    (exec_of_execWith hexec) hr (exec_of_execWith hexec') (Option.some.inj hr')
  exact ⟨s₁, s₂, halike.mpr fun hsystem => absurd hsystem (by decide)⟩

/-- The code "alpha" is a system code, and only `POST /subscription` gives the bonus. -/
theorem system_code_earns_bonus :
    OwnedBy "alpha" 7 referrerWorld ∧
    (∃ r s₁, Exec (creditAt 5 5) (postSubscriptionHandler referredReq 5 ["alpha"]) referrerWorld r s₁ ∧
      r.status = 200 ∧ memExpiry 7 s₁ = some (days 15)) ∧
    ∃ r s₂, Exec (creditAt 5 5)
        (postTrialHandler { sampleTrialConfig with systemReferCodes := ["alpha"] }
          ⟨some "ann", none, some "alpha"⟩) referrerWorld (.ok r) s₂ ∧
      r.status = 200 ∧ memExpiry 7 s₂ = some (days 10) := by
  have hpost : (execWith (creditAt 5 5) (List.replicate 9 freshInput)
      (postSubscriptionHandler referredReq 5 ["alpha"]) referrerWorld).map
        (fun r => (r.2.status, memExpiry 7 r.1)) = some (200, some (days 15)) := by
    decide +kernel
  have htrial : (execWith (creditAt 5 5) (List.replicate 18 freshInput)
      (postTrialHandler { sampleTrialConfig with systemReferCodes := ["alpha"] }
        ⟨some "ann", none, some "alpha"⟩) referrerWorld).map
        (fun r => (r.2.toOption.map Reply.status, memExpiry 7 r.1)) =
      some (some 200, some (days 10)) := by
    decide +kernel
  obtain ⟨⟨s₁, r⟩, hexec, heq⟩ := Option.map_eq_some_iff.mp hpost
  obtain ⟨hr, hexpiry⟩ := Prod.mk.inj heq
  obtain ⟨⟨s₂, e | r'⟩, hexec', heq'⟩ := Option.map_eq_some_iff.mp htrial
  · cases (Prod.mk.inj heq').1
  obtain ⟨hr', hexpiry'⟩ := Prod.mk.inj heq'
  exact ⟨ownedBy_referrerWorld, ⟨r, s₁, exec_of_execWith hexec, hr, hexpiry⟩,
    r', s₂, exec_of_execWith hexec', Option.some.inj hr', hexpiry'⟩

end Fcore
