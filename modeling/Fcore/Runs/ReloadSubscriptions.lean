import Fcore.Api.Handlers
import Fcore.Api.SubRows
import Fcore.Api.Tasks
import Fcore.Runs.DayCredits

/-!
Subscriptions over a reload (`post_subscription_handler`, `post_trial_handler`,
`put_subscription_handler`, `get_state_from_db`).

Every request that changes a subscription changes the memory and the database.  The
traffic limit is written to the memory only, so a reload takes it away.

* `SubOp`: the requests; `Served`: requests that were answered with success one after
  the other, from an empty service on;
* `SubOp.setsLimit`: the requests that set a traffic limit, all trials among them;
* `creditsInTime`: days for a referral are not negative and credited before the expiry
  of the referring subscription;
* `SubsStored`: every subscription of the memory has its row, and there are no others;
* `Carried`: what one operation keeps of this, and what it does to limits;
* `reload_keeps_subscriptions_iff`: a reload keeps all subscriptions exactly when no
  request has set a limit;
* `reload_drops_limit`: a limit that a reload takes away.
-/

namespace Fcore

open Calculus
open Calculus.Prog (perform)

/-! ### Requests -/

/-- The requests that make or change subscriptions. -/
inductive SubOp where
  | post (req : SubReq) (bonus : ℤ) (systemReferCodes : List String)
  | trial (cfg : TrialConfig) (req : Trial)
  | put (subId : Uuid) (req : SubReq)

/-- The program of a request. -/
def SubOp.prog : SubOp → Api (Except Error Reply)
  | post req bonus systemReferCodes => do
      let r ← postSubscriptionHandler req bonus systemReferCodes
      return .ok r
  | trial cfg req => postTrialHandler cfg req
  | put subId req => do
      let r ← putSubscriptionHandler subId req
      return .ok r

/-- The answer is a success. -/
def succeeded : Except Error Reply → Bool
  | .ok r => r.status == 200
  | .error _ => false

/-- Requests that were answered with success one after the other, on a service that was
empty. -/
inductive Served (rule : Rule Call Input World) : List SubOp → World → Prop where
  | nil : Served rule [] World.empty
  | snoc {ops : List SubOp} {op : SubOp} {s s' : World} {r : Except Error Reply}
      (hrun : Served rule ops s) (hexec : Exec rule op.prog s r s') (hok : succeeded r = true) :
      Served rule (ops ++ [op]) s'

/-- The request sets a traffic limit. -/
def SubOp.setsLimit : SubOp → Bool
  | post req _ _ => req.limitBytes.isSome
  | trial _ _ => true
  | put _ req => req.limitBytes.isSome

/-- Days for a referral are not negative and are credited before the expiry of the
subscription, in memory and in the database. -/
def creditsInTime : Rule Call Input World
  | _, _, .edit (.credit id n), i, s, _ =>
      decide (0 ≤ n) && (memExpiry id s).any fun e => decide (i.now < e)
  | _, _, .sql (.subAddDays id _), i, s, _ => (dbExpiry id s).any fun e => decide (i.now < e)
  | _, _, _, _, _, _ => true

/-! ### What the operations keep -/

/-- Every subscription of the memory has its row, and there are no other rows. -/
def SubsStored (s : World) : Prop :=
  ∀ id, Option.Rel StoredAs (s.memory.subscriptions.get id) (s.db.subscriptions.get id)

/-- A subscription of the memory has a traffic limit. -/
def Limited (s : World) : Prop :=
  ∃ id sub, s.memory.subscriptions.get id = some sub ∧ sub.limitBytes.isSome = true

/-- Every subscription still has its row, and there is a limit if there was one before or
one has been set. -/
structure Carried (s s' : World) (sets : Prop) : Prop where
  stored : SubsStored s'
  limited : Limited s' ↔ Limited s ∨ sets

section Carried

variable {rule : Rule Call Input World} {s s₁ s' : World} {p q : Prop}

lemma Carried.trans (h : Carried s s₁ p) (h' : Carried s₁ s' q) : Carried s s' (p ∨ q) := by
  refine ⟨h'.stored, ?_⟩
  rw [h'.limited, h.limited, or_assoc]

lemma Carried.congr (h : Carried s s' p) (hpq : p ↔ q) : Carried s s' q :=
  ⟨h.stored, by rw [h.limited, hpq]⟩

/-- A step that touches no subscription. -/
lemma SubsStored.frame (h : SubsStored s) (hmem : s'.memory.subscriptions = s.memory.subscriptions)
    (hdb : s'.db.subscriptions = s.db.subscriptions) : Carried s s' False := by
  refine ⟨fun id => ?_, ?_⟩
  · rw [hmem, hdb]
    exact h id
  · rw [Limited, hmem, or_false]
    exact Iff.rfl

/-- One subscription and its row are written. -/
lemma SubsStored.write (h : SubsStored s) {id : Uuid} {sub row : Subscription}
    (hstored : StoredAs sub row)
    (hmem : ∀ id', s'.memory.subscriptions.get id' =
      if id' = id then some sub else s.memory.subscriptions.get id')
    (hdb : s'.db.subscriptions = s.db.subscriptions.put id row)
    (hold : ∀ old, s.memory.subscriptions.get id = some old → old.limitBytes.isSome = true →
      sub.limitBytes.isSome = true) : Carried s s' (sub.limitBytes.isSome = true) := by
  refine ⟨fun id' => ?_, ?_, ?_⟩
  · rw [hmem, hdb, Table.get_put]
    by_cases hid : id' = id
    · rw [if_pos hid, if_pos hid]
      exact .some hstored
    · rw [if_neg hid, if_neg hid]
      exact h id'
  · rintro ⟨id', sub', hget, hlimit⟩
    rw [hmem] at hget
    split_ifs at hget with hid
    · rw [Option.some.inj hget]
      exact .inr hlimit
    · exact .inl ⟨id', sub', hget, hlimit⟩
  · have hnew : s'.memory.subscriptions.get id = some sub := by rw [hmem, if_pos rfl]
    rintro (⟨id', sub', hget, hlimit⟩ | hlimit)
    · by_cases hid : id' = id
      · subst hid
        exact ⟨id', sub, hnew, hold sub' hget hlimit⟩
      · exact ⟨id', sub', by rw [hmem, if_neg hid, hget], hlimit⟩
    · exact ⟨id, sub, hnew, hlimit⟩

/-- A subscription that is there and its row are written, and `p` says whether this sets a
limit. -/
lemma SubsStored.rewrite (h : SubsStored s) {id : Uuid} {sub sub' row : Subscription}
    (hsub : s.memory.subscriptions.get id = some sub) (hstored : StoredAs sub' row)
    (hmem : ∀ id', s'.memory.subscriptions.get id' =
      if id' = id then some sub' else s.memory.subscriptions.get id')
    (hdb : s'.db.subscriptions = s.db.subscriptions.put id row)
    (hlimit : sub'.limitBytes.isSome = true ↔ p ∨ sub.limitBytes.isSome = true) :
    Carried s s' p := by
  have hwritten : Carried s s' (sub'.limitBytes.isSome = true) := by
    refine h.write hstored hmem hdb fun old hold hset => ?_
    rw [← Option.some.inj (hsub.symm.trans hold)] at hset
    exact hlimit.mpr (.inr hset)
  refine ⟨hwritten.stored, hwritten.limited.trans ?_⟩
  rw [hlimit]
  constructor
  · rintro (hbefore | hp | hset)
    · exact .inl hbefore
    · exact .inr hp
    · exact .inl ⟨id, sub, hsub, hset⟩
  · rintro (hbefore | hp)
    · exact .inl hbefore
    · exact .inr (.inl hp)

/-- The row of a subscription in memory. -/
lemma SubsStored.row (h : SubsStored s) {id : Uuid} {sub row : Subscription}
    (hsub : s.memory.subscriptions.get id = some sub)
    (hrow : s.db.subscriptions.get id = some row) :
    StoredAs sub row := by
  have hrel := h id
  rw [hsub, hrow] at hrel
  cases hrel with
  | some hstored => exact hstored

/-- `add_sub`. -/
lemma SubsStored.addSub (h : SubsStored s) {sub : Subscription} {r : Except SyncError Status}
    (hexec : Exec rule (addSub sub) s r s') (hr : ∃ id, r = .ok (.ok id)) :
    Carried s s' (sub.limitBytes.isSome = true) := by
  obtain ⟨id, rfl⟩ := hr
  obtain ⟨i, -, ⟨e, -, hr, -⟩ | ⟨row, hreply, -, rfl⟩⟩ := exec_addSub hexec
  · cases hr
  · obtain ⟨hnone, hrow, hput⟩ := subCreate_ok hreply
    refine h.write (storedAs_subRow hrow) (fun id' => Subscriptions.get_add _ sub id') hput ?_
    -- what has no row is not in memory either
    intro old hold
    have hrel := h sub.id
    rw [hold, hnone] at hrel
    cases hrel

lemma get_change_eq {t : Subscriptions} {id : Uuid} {sub : Subscription}
    (h : t.get id = some sub) (f : Subscription → Subscription) (id' : Uuid) :
    (t.change id f).get id' = if id' = id then some (f sub) else t.get id' := by
  rw [Table.get_change]
  by_cases hid : id' = id
  · rw [if_pos hid, if_pos hid, h]
    rfl
  · rw [if_neg hid, if_neg hid]

/-- `update_sub`. -/
lemma SubsStored.updateSub (h : SubsStored s) {id : Uuid} {req : SubReq}
    {r : Except SyncError Status} (hexec : Exec rule (updateSub id req) s r s')
    (hr : ∃ id', r = .ok (.updated id')) : Carried s s' (req.limitBytes.isSome = true) := by
  obtain ⟨id', rfl⟩ := hr
  obtain ⟨i, -, ⟨-, hr, -⟩ | ⟨sub, hsub, ⟨-, hr, -⟩ | ⟨v, j, q, hv, rfl, rfl, hend⟩⟩⟩ :=
    exec_updateSub hexec
  · cases hr
  · cases hr
  rcases hend with ⟨e, -, hr⟩ | ⟨row, hreply, -⟩
  · cases hr
  · obtain ⟨old, hold, hrow, hput⟩ := subUpdate_ok hreply
    refine h.rewrite hsub ((h.row hsub hold).update hv hrow) (get_change_eq hsub _) hput ?_
    rw [Subscription.update_limitBytes, Option.isSome_or, Bool.or_eq_true]

/-- The calls that touch no subscription. -/
def SubsQuiet : (β : Type) → Call β → Prop
  | _, .sql q => q.writesSubscriptions = false
  | _, c => c.writesSubscriptions = false

/-- The subscriptions are those of the state `s`, in memory and in the table. -/
def KeepsSubs (s s' : World) : Prop :=
  s'.memory.subscriptions = s.memory.subscriptions ∧ s'.db.subscriptions = s.db.subscriptions

lemma keepsSubs_of_uses {α : Type} {x : α} {prog : Api α} (hexec : Exec rule prog s x s')
    (hquiet : Uses SubsQuiet prog) : KeepsSubs s s' := by
  have hstep : ∀ {β : Type} {c : Call β} {i : Input} {s₁ s₂ : World} {b : β}, SubsQuiet β c →
      Machine.exec c i s₁ = some (s₂, b) → KeepsSubs s s₁ → KeepsSubs s s₂ := by
    intro β c i s₁ s₂ b hc hexec hsame
    cases c with
    | sql q =>
        obtain ⟨rfl, -⟩ := exec_sql.mp hexec
        exact ⟨hsame.1, (Sql.run_subscriptions hc i s₁.db).trans hsame.2⟩
    | _ =>
        refine ⟨(subscriptions_of_exec hexec hc).trans hsame.1, ?_⟩
        rw [db_of_exec hexec (by simp)]
        exact hsame.2
  exact hexec.inv_of_uses hquiet hstep ⟨rfl, rfl⟩

/-- A program of such calls. -/
lemma SubsStored.quiet (h : SubsStored s) {α : Type} {x : α} {prog : Api α}
    (hexec : Exec rule prog s x s') (hquiet : Uses SubsQuiet prog) : Carried s s' False := by
  have hkept : KeepsSubs s s' := keepsSubs_of_uses hexec hquiet
  exact h.frame hkept.1 hkept.2

lemma subsQuiet_restore {β : Type} {c : Call β} (hc : RestoreCall β c) : SubsQuiet β c := by
  cases hc <;> exact rfl

lemma subsQuiet_trial {β : Type} {c : Call β} (hc : TrialCall β c) : SubsQuiet β c := by
  cases hc with
  | quiet hquiet => cases hquiet <;> exact rfl
  | _ => exact rfl

lemma subsQuiet_mail {β : Type} {c : Call β} (hc : MailCall β c) : SubsQuiet β c := by
  cases hc
  exact rfl

lemma subsQuiet_trialEnd {β : Type} {c : Call β} (hc : TrialEndCall β c) : SubsQuiet β c := by
  cases hc with
  | trial hc => exact subsQuiet_trial hc
  | mail hc => exact subsQuiet_mail hc

/-- `add_days`, in time. -/
lemma SubsStored.addDays (h : SubsStored s) {id : Uuid} {n : ℤ} {r : Except SyncError Status}
    (hexec : Exec creditsInTime (addDays id n) s r s') (hr : r.isOk = true) :
    Carried s s' False := by
  rcases exec_addDays hexec with ⟨rfl, -, -⟩ | ⟨sub, k, i, j, s₁, hsub, -, hedit, hdb, hsql, hend⟩
  · exact h.frame rfl rfl
  rcases hend with ⟨e, -, rfl, -⟩ | ⟨row, hreply, -, hend⟩
  · cases hr
  obtain ⟨old, hold, hput⟩ := subAddDays_ok hreply
  -- the rule finds both expiries
  obtain ⟨hn, e, he, hnow⟩ : 0 ≤ n ∧ ∃ e, memExpiry id s = some e ∧ i.now < e := by
    simpa [creditsInTime, Option.any_eq_true] using hedit
  obtain ⟨e', he', hnow'⟩ : ∃ e', dbExpiry id s = some e' ∧ j.now < e' := by
    simpa [creditsInTime, dbExpiry, hdb, Option.any_eq_true] using hsql
  rw [memExpiry, hsub] at he
  rw [dbExpiry, hold] at he'
  obtain ⟨x, t, hcredit⟩ := sub.credit_eq n i.now
  have hlimit : (sub.credit n i.now).limitBytes = sub.limitBytes := by rw [hcredit]
  have hcredited : Carried s (credited id n i j s) False := by
    refine h.rewrite hsub ((h.row hsub hold).credit hn he hnow he' hnow')
      (get_change_eq hsub _) hput ?_
    rw [hlimit, false_or]
  rcases hend with ⟨-, rfl⟩ | ⟨-, ids, hrestore⟩
  · exact hcredited
  · have hquiet : Uses SubsQuiet (restoreConnectionsBySubscription id) :=
      (uses_restoreConnectionsBySubscription id).mono fun _ _ => subsQuiet_restore
    exact (hcredited.trans (hcredited.stored.quiet hrestore hquiet)).congr (or_self_iff)

/-- The credit for a referral. -/
lemma SubsStored.phase (h : SubsStored s) {referredBy : Option String} {n : String → ℤ}
    (hphase : CreditPhase creditsInTime referredBy n s true s') : Carried s s' False := by
  generalize hgoes : true = goes at hphase
  cases hphase with
  | nobody hby => exact h.frame rfl rfl
  | unknown code i hby hlook hrule => cases hgoes
  | credit code i id r s₁ hby hlook hrule hcredit => exact h.addDays hcredit hgoes.symm

/-- `POST /subscription`, answered with success. -/
lemma SubsStored.post (h : SubsStored s) {req : SubReq} {bonus : ℤ} {codes : List String}
    {r : Reply} (hexec : Exec creditsInTime (postSubscriptionHandler req bonus codes) s r s')
    (hok : r.status = 200) : Carried s s' (req.limitBytes.isSome = true) := by
  obtain ⟨subId, i, -, ⟨hrefused, -⟩ | ⟨s₁, now, created, added, hphase, hadd, hdone⟩⟩ :=
    exec_postSubscriptionHandler hexec
  · exact absurd hok hrefused
  · have hcredited := h.phase hphase
    have hadded := hcredited.trans (hcredited.stored.addSub hadd (hdone.mp hok))
    exact hadded.congr (or_iff_right not_false)

/-- `PUT /subscription`, answered with success. -/
lemma SubsStored.put (h : SubsStored s) {id : Uuid} {req : SubReq} {r : Reply}
    (hexec : Exec rule (putSubscriptionHandler id req) s r s') (hok : r.status = 200) :
    Carried s s' (req.limitBytes.isSome = true) := by
  obtain ⟨updated, s₁, hupdate, hrest⟩ := Exec.of_bind hexec
  have hdone : (∃ id', updated = .ok (.updated id')) ∧ s' = s₁ := by
    rcases updated with e | status
    · obtain ⟨rfl, -⟩ := hrest.of_pure
      cases hok
    · cases status with
      | updated id' => exact ⟨⟨id', rfl⟩, hrest.of_pure.2⟩
      | _ =>
          obtain ⟨rfl, -⟩ := hrest.of_pure
          cases hok
  rw [hdone.2]
  exact h.updateSub hupdate hdone.1

/-- A trial that is created has a limit. -/
lemma SubsStored.createTrial (h : SubsStored s) {cfg : TrialConfig} {req : Trial} {subId : Uuid}
    {r : Reply} (hexec : Exec rule (createTrial cfg req subId) s r s') (hok : r.status = 200) :
    Carried s s' True := by
  obtain ⟨sub, added, s₁, -, hlimit, hadd, hend⟩ := exec_createTrial hexec
  rcases hend with ⟨-, hrefused, -⟩ | ⟨hdone, prog, huses, hrest⟩
  · exact absurd hok hrefused
  · have hadded := h.addSub hadd hdone
    -- the loop and the marks touch no subscription
    have hquiet := hadded.stored.quiet hrest (huses.mono fun _ _ => subsQuiet_trialEnd)
    exact (hadded.trans hquiet).congr (by simp [hlimit])

/-- `POST /trial`, answered with success. -/
lemma SubsStored.trial (h : SubsStored s) {cfg : TrialConfig} {req : Trial}
    {r : Except Error Reply} (hexec : Exec creditsInTime (postTrialHandler cfg req) s r s')
    (hok : succeeded r = true) : Carried s s' True := by
  rcases exec_postTrialHandler hexec with ⟨-, -, hrefused⟩ | ⟨-, reply, rfl, hgrant⟩
  · rcases r with e | reply
    · cases hok
    · exact absurd (by simpa [succeeded] using hok) (hrefused reply rfl)
  · have hstatus : reply.status = 200 := by simpa [succeeded] using hok
    obtain ⟨subId, i, -, ⟨hrefused, -⟩ | ⟨s₁, hphase, hcreate⟩⟩ := exec_grantTrial hgrant
    · exact absurd hstatus hrefused
    · have hcredited := h.phase hphase
      exact (hcredited.trans (hcredited.stored.createTrial hcreate hstatus)).congr (by simp)

/-- **One request**: every subscription keeps its row, and a limit comes from a request that
sets one. -/
lemma SubsStored.op (h : SubsStored s) {op : SubOp} {r : Except Error Reply}
    (hexec : Exec creditsInTime op.prog s r s') (hok : succeeded r = true) :
    Carried s s' (op.setsLimit = true) := by
  cases op with
  | post req bonus codes =>
      obtain ⟨reply, s₁, hpost, hrest⟩ := Exec.of_bind hexec
      obtain ⟨rfl, rfl⟩ := hrest.of_pure
      exact h.post hpost (by simpa [succeeded] using hok)
  | trial cfg req => exact (h.trial hexec hok).congr (iff_of_true trivial rfl)
  | put id req =>
      obtain ⟨reply, s₁, hput, hrest⟩ := Exec.of_bind hexec
      obtain ⟨rfl, rfl⟩ := hrest.of_pure
      exact h.put hput (by simpa [succeeded] using hok)

/-- A reload keeps all subscriptions exactly if none has a limit. -/
lemma SubsStored.reload_iff (h : SubsStored s) {lower : String → String}
    (hexec : Exec rule (getStateFromDb lower) s (.ok ()) s') :
    (∀ id, Option.Rel SameSub (s.memory.subscriptions.get id) (s'.memory.subscriptions.get id)) ↔
      ¬ Limited s := by
  obtain ⟨-, -, ⟨⟨e, he⟩, -⟩ | ⟨-, i, order', l, -, hcache⟩⟩ := exec_getStateFromDb hexec
  · cases he
  -- the new memory has the rows that are not deleted
  have hread : ∀ id sub, s'.memory.subscriptions.get id = some sub ↔
      ∃ row, s.db.subscriptions.get id = some row ∧ row.isDeleted = false ∧
        sub = { row with id := id } := by
    intro id sub
    rw [buildCache_subscriptions hcache (s.db.subAll_nodup order'), Db.mem_subAll]
    constructor
    · rintro ⟨hrow, rfl⟩
      exact hrow
    · rintro ⟨row, hget, hlive, rfl⟩
      exact ⟨⟨row, hget, hlive, rfl⟩, rfl⟩
  -- so each subscription comes back as its row
  have hkept : ∀ id, Option.Rel SameSub (s.memory.subscriptions.get id)
      (s'.memory.subscriptions.get id) ↔
        ∀ sub, s.memory.subscriptions.get id = some sub → sub.limitBytes = none := by
    intro id
    have hrel := h id
    cases hsub : s.memory.subscriptions.get id with
    | none =>
        rw [hsub] at hrel
        cases hrow : s.db.subscriptions.get id with
        | some row =>
            rw [hrow] at hrel
            cases hrel
        | none =>
            have hnone : s'.memory.subscriptions.get id = none := by
              rw [Option.eq_none_iff_forall_ne_some]
              intro sub hnew
              obtain ⟨row, hget, -⟩ := (hread id sub).mp hnew
              rw [hrow] at hget
              cases hget
            rw [hnone]
            constructor
            · exact fun _ sub hget => nomatch hget
            · exact fun _ => .none
    | some sub =>
        rw [hsub] at hrel
        cases hrow : s.db.subscriptions.get id with
        | none =>
            rw [hrow] at hrel
            cases hrel
        | some row =>
            have hstored := h.row hsub hrow
            rw [(hread id _).mpr ⟨row, hrow, hstored.live, rfl⟩]
            constructor
            · rintro hsame sub' hget
              rw [← Option.some.inj hget]
              cases hsame with
              | some hsame => exact (hstored.sameSub_iff id).mp hsame
            · intro hlimit
              exact .some ((hstored.sameSub_iff id).mpr (hlimit sub rfl))
  rw [forall_congr' hkept]
  constructor
  · rintro hnone ⟨id, sub, hget, hset⟩
    rw [hnone id sub hget] at hset
    cases hset
  · intro hnot id sub hget
    by_contra hset
    exact hnot ⟨id, sub, hget, Option.isSome_iff_ne_none.mpr hset⟩

end Carried

/-! ### Runs -/

lemma subsStored_empty : SubsStored World.empty := fun _ => .none

lemma not_limited_empty : ¬ Limited World.empty := by
  rintro ⟨id, sub, hget, -⟩
  cases hget

/-- After any requests every subscription has its row, and there is a limit exactly if one of
them has set one. -/
lemma Served.carried {ops : List SubOp} {s : World} (h : Served creditsInTime ops s) :
    SubsStored s ∧ (Limited s ↔ ∃ op ∈ ops, op.setsLimit = true) := by
  induction h with
  | nil => exact ⟨subsStored_empty, iff_of_false not_limited_empty (by simp)⟩
  | @snoc ops op s s' r hrun hexec hok ih =>
      have hop := ih.1.op hexec hok
      refine ⟨hop.stored, ?_⟩
      rw [hop.limited, ih.2]
      simp [or_and_right, exists_or]

/-- **A reload keeps all subscriptions exactly when no limit has been set**: after any
sequence of successful requests on an empty service whose referral credits are not negative
and made before the expiry of the referring subscription, a reload leaves the expiry of
every subscription to the microsecond, its referrer, its code and its limit as they were, if
and only if none of the requests sets a traffic limit. -/
theorem reload_keeps_subscriptions_iff {lower : String → String} {rule : Rule Call Input World}
    {ops : List SubOp} {s s' : World} (hrun : Served creditsInTime ops s)
    (hreload : Exec rule (getStateFromDb lower) s (.ok ()) s') :
    (∀ id, Option.Rel SameSub (s.memory.subscriptions.get id) (s'.memory.subscriptions.get id)) ↔
      ∀ op ∈ ops, op.setsLimit = false := by
  obtain ⟨hstored, hlimited⟩ := hrun.carried
  rw [hstored.reload_iff hreload, hlimited]
  simp

/-- Requests served on given lists of inputs. -/
def serveWith (rule : Rule Call Input World) : List (SubOp × List Input) → World → Option World
  | [], s => some s
  | (op, is) :: rest, s => match execWith rule is op.prog s with
      | some (s', r) => if succeeded r then serveWith rule rest s' else none
      | none => none

lemma served_of_serveWith {rule : Rule Call Input World} {xs : List (SubOp × List Input)}
    {ops : List SubOp} {s s' : World} (h : Served rule ops s)
    (hrun : serveWith rule xs s = some s') :
    Served rule (ops ++ xs.map Prod.fst) s' := by
  induction xs generalizing ops s with
  | nil =>
      obtain rfl : s = s' := Option.some.inj hrun
      rwa [List.map_nil, List.append_nil]
  | cons x xs ih =>
      obtain ⟨op, is⟩ := x
      rw [serveWith] at hrun
      cases hexec : execWith rule is op.prog s with
      | none =>
          rw [hexec] at hrun
          cases hrun
      | some res =>
          obtain ⟨s₁, r⟩ := res
          simp only [hexec] at hrun
          split_ifs at hrun with hok
          have hone := ih (h.snoc (exec_of_execWith hexec) hok) hrun
          rwa [List.append_assoc, List.singleton_append] at hone

/-- Two subscriptions, the second one referred by the first, and ten more days for the
first. -/
def referredOps : List (SubOp × List Input) :=
  [(.post ⟨none, some "alpha", some 30, none⟩ 7 [],
      List.replicate 5 { Input.at 1000000500 with uuid := 1 }),
    (.post ⟨some "alpha", some "beta", some 30, none⟩ 7 [],
      List.replicate 9 { Input.at 2000000700 with uuid := 2 }),
    (.put 1 ⟨none, none, some 10, none⟩, List.replicate 4 (Input.at 3000000900))]

/-- One subscription with a traffic limit. -/
def limitedOps : List (SubOp × List Input) :=
  [(.post ⟨none, some "alpha", some 30, some 1000⟩ 7 [],
    List.replicate 5 { Input.at 1000000500 with uuid := 1 })]

/-- The inputs of a reload. -/
def reloadInputs : List Input := List.replicate 5 (Input.at 4000000000)

/-- The reload went through. -/
def reloaded : Except Error Unit → Bool
  | .ok _ => true
  | .error _ => false

/-- A reload after requests that set no limit. -/
theorem reload_keeps_referred :
    ∃ s s', Served creditsInTime (referredOps.map Prod.fst) s ∧
      Exec nothingFails (getStateFromDb id) s (.ok ()) s' ∧
      memExpiry 1 s = some (days 47 + 1000000500) ∧
      ∀ id, Option.Rel SameSub (s.memory.subscriptions.get id) (s'.memory.subscriptions.get id) := by
  have hrun : ((serveWith creditsInTime referredOps World.empty).bind fun s =>
      (execWith nothingFails reloadInputs (getStateFromDb id) s).map fun r =>
        (reloaded r.2, memExpiry 1 s)) = some (true, some (days 47 + 1000000500)) := by
    decide +kernel
  obtain ⟨s, hserve, hreload⟩ := Option.bind_eq_some_iff.mp hrun
  obtain ⟨⟨s', r⟩, hexec, hseen⟩ := Option.map_eq_some_iff.mp hreload
  simp only [Prod.mk.injEq] at hseen
  cases r with
  | error e => cases hseen.1
  | ok u =>
      have hserved := served_of_serveWith .nil hserve
      rw [List.nil_append] at hserved
      refine ⟨s, s', hserved, exec_of_execWith hexec, hseen.2, ?_⟩
      exact (reload_keeps_subscriptions_iff hserved (exec_of_execWith hexec)).mpr (by decide)

/-- **A reload takes a limit away**: one subscription is created with a limit of 1000 bytes,
and after a reload it has none. -/
theorem reload_drops_limit :
    ∃ s s' old new, Served nothingFails (limitedOps.map Prod.fst) s ∧
      Exec nothingFails (getStateFromDb id) s (.ok ()) s' ∧
      s.memory.subscriptions.get 1 = some old ∧ old.limitBytes = some 1000 ∧
      s'.memory.subscriptions.get 1 = some new ∧ new.limitBytes = none ∧ ¬ SameSub old new := by
  have hrun : ((serveWith nothingFails limitedOps World.empty).bind fun s =>
      (execWith nothingFails reloadInputs (getStateFromDb id) s).map fun r =>
        (reloaded r.2, (s.memory.subscriptions.get 1).map Subscription.limitBytes,
          (r.1.memory.subscriptions.get 1).map Subscription.limitBytes)) =
      some (true, some (some 1000), some none) := by
    decide +kernel
  obtain ⟨s, hserve, hreload⟩ := Option.bind_eq_some_iff.mp hrun
  obtain ⟨⟨s', r⟩, hexec, hseen⟩ := Option.map_eq_some_iff.mp hreload
  simp only [Prod.mk.injEq, Option.map_eq_some_iff] at hseen
  obtain ⟨hok, ⟨old, hold, hlimit⟩, new, hnew, hnone⟩ := hseen
  cases r with
  | error e => cases hok
  | ok u =>
      have hserved := served_of_serveWith .nil hserve
      refine ⟨s, s', old, new, hserved, exec_of_execWith hexec, hold, hlimit, hnew, hnone, ?_⟩
      intro hsame
      have hkept := hsame.limitBytes
      rw [hnone, hlimit] at hkept
      cases hkept

end Fcore
