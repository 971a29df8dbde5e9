import Fcore.Calculus.Triple
import Fcore.Runs.ReloadSubscriptions
import Fcore.Runs.TrialCounts

/-!
Refer codes (`post_subscription_handler`, `update_sub`, `post_trial_handler`,
`find_by_refer_code`).

A refer code names the subscription that is credited for a referral.  Neither the
requests that set a code nor its column ask whether another subscription has it.

* `CodeOp`: the requests that write codes, and the reload;
* `HasCode`: a subscription has a code, in memory or in the database;
* `CodesApart`: no code has two owners;
* `defaultsApart`: default codes are new; `requestsFree`: a code that a request
  writes has no other owner;
* `codes_identify`: then a code has one owner in every state that is reached, and the
  search finds it in any order;
* `same_code_twice`: two requests with the same code.
-/

namespace Fcore

open Calculus
open Calculus.Prog (perform)
open Machine (exec)

/-! ### Operations -/

/-- The requests that write subscriptions, and the reload. -/
inductive CodeOp where
  | request (op : SubOp)
  | reload

/-- The program of an operation. -/
def CodeOp.prog (lower : String → String) : CodeOp → Prog Call Unit
  | request op => op.prog.forget
  | reload => (getStateFromDb lower).forget

/-! ### Codes -/

/-- The refer code of a subscription row. -/
def rowCode (s : World) (id : Uuid) : Option String :=
  (s.db.subscriptions.get id).map Subscription.referCodeTrimmed

/-- The subscription has the code, in memory or in the database. -/
def HasCode (s : World) (id : Uuid) (code : String) : Prop :=
  codeOf s id = some code ∨ rowCode s id = some code

/-- No code has two owners. -/
def CodesApart (s : World) : Prop :=
  ∀ ⦃id id' code⦄, HasCode s id code → HasCode s id' code → id = id'

/-- No other subscription has the code, in memory or in the database. -/
def codeFree (id : Uuid) (code : String) (s : World) : Bool :=
  [s.memory.subscriptions, s.db.subscriptions].all fun t =>
    t.entries.all fun e => e.1 == id || e.2.referCodeTrimmed != code

/-- A subscription that is created with the default code of its id is the only one with
that code. -/
def defaultsApart : Rule Call Input World
  | _, _, .sql (.subCreate sub), _, s, _ =>
      sub.referCode != getUuidLastOctetSimple sub.id || codeFree sub.id sub.referCodeTrimmed s
  | _, _, _, _, _, _ => true

/-- A code that a request asks for has no other owner when it is written. -/
def requestsFree : Rule Call Input World
  | _, _, .sql (.subCreate sub), _, s, _ =>
      sub.referCode == getUuidLastOctetSimple sub.id || codeFree sub.id sub.referCodeTrimmed s
  | _, _, .within (.update id req), _, s, _ =>
      (s.memory.subscriptions.get id).isNone ||
        req.referCode.all fun code => codeFree id (trim code) s
  | _, _, _, _, _, _ => true

/-- Both together. -/
def codesFree : Rule Call Input World := fun β ts c i s b =>
  defaultsApart β ts c i s b && requestsFree β ts c i s b

section Codes

variable {s s' : World} {id : Uuid} {code : String}

/-- What the entries of a table say of a code. -/
lemma entries_free_iff {t : Table Uuid Subscription} :
    (t.entries.all fun e => e.1 == id || e.2.referCodeTrimmed != code) = true ↔
      ∀ id', (t.get id').map Subscription.referCodeTrimmed = some code → id' = id := by
  rw [List.all_eq_true]
  constructor
  · intro h id' hid'
    obtain ⟨sub, hsub, hcode⟩ := Option.map_eq_some_iff.mp hid'
    have hfree := h ⟨id', sub⟩ (Table.mem_entries.mpr hsub)
    simpa [hcode] using hfree
  · rintro h ⟨id', sub⟩ hmem
    have hget := Table.mem_entries.mp hmem
    by_cases hcode : sub.referCodeTrimmed = code
    · have hid := h id' (by rw [hget, Option.map_some, hcode])
      simp [hid]
    · simp [hcode]

lemma codeFree_iff : codeFree id code s = true ↔ ∀ id', HasCode s id' code → id' = id := by
  simp only [codeFree, List.all_cons, List.all_nil, Bool.and_true, Bool.and_eq_true,
    entries_free_iff]
  constructor
  · rintro ⟨hmem, hdb⟩ id' (h | h)
    · exact hmem id' h
    · exact hdb id' h
  · intro h
    exact ⟨fun id' hid' => h id' (.inl hid'), fun id' hid' => h id' (.inr hid')⟩

/-- A created subscription brings a code without another owner. -/
lemma free_of_subCreate {sub : Subscription} {ts : List (Prog Call Unit)} {i : Input}
    {r : Except Error Subscription} (h : codesFree _ ts (.sql (.subCreate sub)) i s r = true) :
    ∀ id', HasCode s id' sub.referCodeTrimmed → id' = sub.id := by
  rw [← codeFree_iff]
  have hboth : (sub.referCode != getUuidLastOctetSimple sub.id ||
      codeFree sub.id sub.referCodeTrimmed s) = true ∧
      (sub.referCode == getUuidLastOctetSimple sub.id ||
        codeFree sub.id sub.referCodeTrimmed s) = true := Bool.and_eq_true_iff.mp h
  by_cases hdefault : sub.referCode = getUuidLastOctetSimple sub.id
  · simpa [hdefault] using hboth.1
  · simpa [hdefault] using hboth.2

/-- An update sets the code or leaves it. -/
lemma Subscription.update_referCode (sub : Subscription) (req : SubReq) (now : DateTime) :
    (sub.update req now).referCode = req.referCode.getD sub.referCode := by
  simp only [Subscription.update]
  cases req.days <;> cases req.referredBy <;> cases req.referCode <;> cases req.limitBytes <;> rfl

/-- So does an updated one, or it keeps its own. -/
lemma free_of_update {sub : Subscription} {req : SubReq} {ts : List (Prog Call Unit)} {i : Input}
    {r : Option Subscription} (h : codesFree _ ts (.within (.update id req)) i s r = true)
    (hsub : s.memory.subscriptions.get id = some sub) (hapart : CodesApart s) (now : DateTime) :
    ∀ id', HasCode s id' (sub.update req now).referCodeTrimmed → id' = id := by
  intro id' hid'
  rw [Subscription.referCodeTrimmed, Subscription.update_referCode] at hid'
  cases hreq : req.referCode with
  | none =>
      rw [hreq] at hid'
      have hown : HasCode s id (trim sub.referCode) := by
        rw [HasCode, codeOf, hsub]
        exact .inl rfl
      exact hapart hid' hown
  | some code =>
      rw [hreq] at hid'
      have hrule : ((s.memory.subscriptions.get id).isNone ||
          req.referCode.all fun code => codeFree id (trim code) s) = true := h
      rw [hsub, hreq] at hrule
      exact codeFree_iff.mp hrule id' hid'

/-- One subscription takes one code. -/
lemma CodesApart.write (h : CodesApart s) (hfree : ∀ id', HasCode s id' code → id' = id)
    (hnew : ∀ id' code', HasCode s' id' code' → HasCode s id' code' ∨ id' = id ∧ code' = code) :
    CodesApart s' := by
  intro id₁ id₂ c h₁ h₂
  rcases hnew id₁ c h₁ with hold₁ | ⟨rfl, rfl⟩
  · rcases hnew id₂ c h₂ with hold₂ | ⟨rfl, rfl⟩
    · exact h hold₁ hold₂
    · exact hfree id₁ hold₁
  · rcases hnew id₂ c h₂ with hold₂ | ⟨rfl, -⟩
    · exact (hfree id₂ hold₂).symm
    · rfl

/-- All codes are codes of before. -/
lemma CodesApart.of_le (h : CodesApart s)
    (hold : ∀ id' code', HasCode s' id' code' → HasCode s id' code') : CodesApart s' :=
  fun _ _ _ h₁ h₂ => h (hold _ _ h₁) (hold _ _ h₂)

end Codes

/-! ### Programs -/

/-- The calls that write no code. -/
def CodeQuiet : (β : Type) → Call β → Prop
  | _, .sql (.subCreate _) => False
  | _, .sql (.subUpdate _ _ _ _) => False
  | _, .edit (.credit _ _) => True
  | _, .edit w => w.writesSubscriptions = false
  | _, .within w => w.writesSubscriptions = false
  | _, _ => True

section Programs

variable {α : Type} {s s' : World}

/-- A credit leaves the code of a row alone. -/
lemma rowCode_of_subAddDays (id : Uuid) (n : ℤ) (i : Input) (db : Db) (id' : Uuid) :
    ((Sql.run (.subAddDays id n) i db).1.subscriptions.get id').map Subscription.referCodeTrimmed =
      (db.subscriptions.get id').map Subscription.referCodeTrimmed := by
  rcases hrun : (Sql.run (.subAddDays id n) i db).2 with e | row
  · rcases subAddDays_cases id n i db with ⟨hdb, -⟩ | ⟨-, row, hrow⟩
    · rw [hdb]
    · rw [hrun] at hrow
      cases hrow
  · obtain ⟨old, hold, hput⟩ := subAddDays_ok hrun
    rw [hput, Table.get_put]
    split_ifs with hid
    · rw [hid, hold]
      rfl
    · rfl

/-- A quiet call keeps all codes. -/
lemma codes_of_quiet {β : Type} {c : Call β} {i : Input} {b : β} (hc : CodeQuiet β c)
    (hexec : exec c i s = some (s', b)) (id : Uuid) :
    codeOf s' id = codeOf s id ∧ rowCode s' id = rowCode s id := by
  cases c with
  | sql q =>
      obtain ⟨rfl, -⟩ := exec_sql.mp hexec
      refine ⟨rfl, ?_⟩
      cases q with
      | subCreate | subUpdate => exact hc.elim
      | subAddDays id' n => exact rowCode_of_subAddDays id' n i s.db id
      | _ => rw [rowCode, Sql.run_subscriptions rfl, rowCode]
  | edit w =>
      refine ⟨?_, by rw [rowCode, db_of_exec hexec (by simp), rowCode]⟩
      cases w with
      | credit id' n =>
          obtain ⟨-, rfl, -⟩ := exec_edit.mp hexec
          show ((s.memory.subscriptions.change id' fun sub => sub.credit n i.now).get id).map _ = _
          rw [Table.get_change, codeOf]
          split_ifs with hid
          · rw [Option.map_map, hid]
            refine Option.map_congr fun sub _ => ?_
            rw [Function.comp_apply, Subscription.referCodeTrimmed, Subscription.credit_referCode,
              Subscription.referCodeTrimmed]
          · rfl
      | _ => rw [codeOf, subscriptions_of_exec hexec hc, codeOf]
  | within w =>
      refine ⟨?_, by rw [rowCode, db_of_exec hexec (by simp), rowCode]⟩
      rw [codeOf, subscriptions_of_exec hexec hc, codeOf]
  | _ =>
      rw [codeOf, subscriptions_of_exec hexec rfl, rowCode, db_of_exec hexec (by simp)]
      exact ⟨rfl, rfl⟩

/-- The program keeps the codes apart. -/
def KeepsApart (p : Api α) : Prop := Triple codesFree CodesApart p fun _ => CodesApart

lemma KeepsApart.of_quiet {p : Api α} (hp : Uses CodeQuiet p) : KeepsApart p := by
  refine Triple.of_uses hp ?_
  intro β c i s s' b hc hexec h
  refine h.of_le fun id code hcode => ?_
  obtain ⟨hmem, hdb⟩ := codes_of_quiet hc hexec id
  rwa [HasCode, hmem, hdb] at hcode

lemma KeepsApart.bind {β : Type} {p : Api α} {f : α → Api β} (hp : KeepsApart p)
    (hf : ∀ x, KeepsApart (f x)) : KeepsApart (p >>= f) := Triple.bind hp hf

lemma KeepsApart.pure {x : α} : KeepsApart (.pure x : Api α) := Triple.pure fun _ h => h

/-- `add_sub`: the row is created with a code that nobody else has, and the memory
follows. -/
lemma keepsApart_addSub (sub : Subscription) : KeepsApart (addSub sub) := by
  intro s s' r hexec h
  obtain ⟨i, hrule, ⟨e, -, -, rfl⟩ | ⟨row, hreply, -, rfl⟩⟩ := exec_addSub hexec
  · exact h
  · obtain ⟨-, hrow, hput⟩ := subCreate_ok hreply
    refine h.write (free_of_subCreate hrule) fun id code hcode => ?_
    rcases hcode with hmem | hdb
    · change ((Subscriptions.add s.memory.subscriptions sub).1.get id).map _ = _ at hmem
      rw [Subscriptions.get_add] at hmem
      split_ifs at hmem with hid
      · exact .inr ⟨hid, (Option.some.inj hmem).symm⟩
      · exact .inl (.inl hmem)
    · rw [rowCode, hput, Table.get_put] at hdb
      split_ifs at hdb with hid
      · rw [Option.map_some, (storedAs_subRow hrow).referCode] at hdb
        exact .inr ⟨hid, (Option.some.inj hdb).symm⟩
      · exact .inl (.inr hdb)

/-- The memory takes the code of an update. -/
lemma CodesApart.update (h : CodesApart s) {id : Uuid} {req : SubReq} {i : Input}
    {ts : List (Prog Call Unit)} {r : Option Subscription}
    (hrule : codesFree _ ts (.within (.update id req)) i s r = true) {sub : Subscription}
    (hsub : s.memory.subscriptions.get id = some sub) :
    codeOf { s with memory := (Edit.run (.update id req) i s.memory).1 } id =
        some (sub.update req i.now).referCodeTrimmed ∧
      CodesApart { s with memory := (Edit.run (.update id req) i s.memory).1 } := by
  have hget := get_change_eq hsub fun sub => sub.update req i.now
  have hown : codeOf { s with memory := (Edit.run (.update id req) i s.memory).1 } id =
      some (sub.update req i.now).referCodeTrimmed := by
    show ((s.memory.subscriptions.change id _).get id).map _ = _
    rw [hget, if_pos rfl]
    rfl
  refine ⟨hown, h.write (free_of_update hrule hsub h i.now) fun id' code hcode => ?_⟩
  rcases hcode with hmem | hdb
  · change ((s.memory.subscriptions.change id _).get id').map _ = _ at hmem
    rw [hget] at hmem
    split_ifs at hmem with hid
    · exact .inr ⟨hid, (Option.some.inj hmem).symm⟩
    · exact .inl (.inl hmem)
  · exact .inl (.inr hdb)

/-- The codes of the rows after `UPDATE subscriptions`. -/
lemma rowCode_of_subUpdate {id : Uuid} {v : DateTime} {r : Option String} {c : String} {i : Input}
    {db : Db} {id' : Uuid} {code : String}
    (h : ((Sql.run (.subUpdate id v r c) i db).1.subscriptions.get id').map
      Subscription.referCodeTrimmed = some code) :
    (db.subscriptions.get id').map Subscription.referCodeTrimmed = some code ∨
      id' = id ∧ code = trim c := by
  cases hres : (Sql.run (.subUpdate id v r c) i db).2 with
  | error e =>
      rw [subUpdate_error hres] at h
      exact .inl h
  | ok row =>
      obtain ⟨old, -, hrow, hput⟩ := subUpdate_ok hres
      rw [hput, Table.get_put] at h
      split_ifs at h with hid
      · refine .inr ⟨hid, (Option.some.inj h).symm.trans ?_⟩
        obtain ⟨_, -, hrow⟩ := referrer_of_bind_eq_ok hrow
        obtain ⟨c', hc', hrow⟩ := of_bind_eq_ok hrow
        rw [← Except.ok.inj hrow]
        exact trim_of_fitChar hc'
      · exact .inl h

/-- A row takes the code that the memory has. -/
lemma CodesApart.subUpdate (h : CodesApart s) {sub : Subscription} {id : Uuid}
    (hown : codeOf s id = some sub.referCodeTrimmed) (v : DateTime) (r : Option String)
    (i : Input) :
    CodesApart { s with db := (Sql.run (.subUpdate id v r sub.referCodeTrimmed) i s.db).1 } := by
  refine h.write (fun id' hid' => h hid' (.inl hown)) fun id' code hcode => ?_
  rcases hcode with hmem | hdb
  · exact .inl (.inl hmem)
  · rcases rowCode_of_subUpdate hdb with hold | ⟨hid, hcode⟩
    · exact .inl (.inr hold)
    · exact .inr ⟨hid, hcode.trans (trim_trim _)⟩

/-- `update_sub`: the memory takes a code that nobody else has, and the row follows if the
statement goes through. -/
lemma keepsApart_updateSub (id : Uuid) (req : SubReq) : KeepsApart (updateSub id req) := by
  intro s s' r hexec h
  obtain ⟨i, hrule, hend⟩ := exec_updateSub hexec
  set s₁ : World := { s with lock := { s.lock with writer := true } }
  have h₁ : CodesApart s₁ := h
  rcases hend with ⟨hnone, -, rfl⟩ | ⟨sub, hsub, hend⟩
  · -- nothing has been found, and nothing changes
    refine h.of_le fun id' code hcode => ?_
    rcases hcode with hmem | hdb
    · change ((s.memory.subscriptions.change id _).get id').map _ = _ at hmem
      rw [Table.get_change] at hmem
      split_ifs at hmem with hid
      · rw [hnone] at hmem
        cases hmem
      · exact .inl hmem
    · exact .inr hdb
  · obtain ⟨hown, htaken⟩ := h₁.update hrule hsub
    rcases hend with ⟨-, -, rfl⟩ | ⟨v, j, q, -, rfl, rfl, -⟩
    · exact htaken
    · exact htaken.subUpdate hown v (sub.update req i.now).referredByTrimmed j

lemma codeQuiet_trial {β : Type} {c : Call β} (hc : TrialCall β c) : CodeQuiet β c := by
  cases hc with
  | quiet hquiet => cases hquiet <;> exact trivial
  | connAdd => exact rfl
  | _ => exact trivial

lemma codeQuiet_addDays {β : Type} {c : Call β} (hc : AddDaysCall β c) : CodeQuiet β c := by
  cases hc with
  | restore hrestore =>
      cases hrestore with
      | undelete => exact rfl
      | _ => exact trivial
  | _ => exact trivial

lemma keepsApart_addDays (id : Uuid) (n : ℤ) : KeepsApart (addDays id n) :=
  .of_quiet ((uses_addDays id n).mono fun _ _ => codeQuiet_addDays)

lemma keepsApart_mail {p : Api α} (hp : Uses MailCall p) : KeepsApart p := by
  refine .of_quiet (hp.mono fun _ _ hc => ?_)
  cases hc
  exact trivial

lemma keepsApart_ask (a : Ask α) : KeepsApart (perform (.ask a)) :=
  .of_quiet ⟨trivial, fun _ => trivial⟩

lemma keepsApart_referral (by' : Option String) (codes : List String) (bonus : ℤ)
    (missing : String) : KeepsApart (referral by' codes bonus missing) := by
  intro s s' r hexec h
  rwa [(exec_referral hexec).1]

lemma keepsApart_postSubscriptionHandler (req : SubReq) (bonus : ℤ) (codes : List String) :
    KeepsApart (postSubscriptionHandler req bonus codes) := by
  refine (keepsApart_ask .uuid).bind fun subId => ?_
  refine (keepsApart_referral _ _ _ _).bind fun owner => ?_
  cases owner with
  | error reply => exact .pure
  | ok owner =>
      refine KeepsApart.bind ?_ fun credited => ?_
      · cases owner with
        | none => exact .pure
        | some owner => exact keepsApart_addDays owner.1 bonus
      · cases credited with
        | error e => exact .pure
        | ok status =>
            refine (keepsApart_ask .now).bind fun now =>
              (keepsApart_ask .now).bind fun created => ?_
            refine (keepsApart_addSub _).bind fun added => ?_
            rcases added with e | st
            · exact .pure
            · cases st <;> exact .pure

lemma keepsApart_putSubscriptionHandler (id : Uuid) (req : SubReq) :
    KeepsApart (putSubscriptionHandler id req) := by
  refine (keepsApart_updateSub id req).bind fun r => ?_
  rcases r with e | st
  · exact .pure
  · cases st <;> exact .pure

lemma keepsApart_createTrial (cfg : TrialConfig) (req : Trial) (subId : Uuid) :
    KeepsApart (createTrial cfg req subId) := by
  refine (keepsApart_ask .now).bind fun now => (keepsApart_ask .now).bind fun created => ?_
  refine (keepsApart_addSub _).bind fun added => ?_
  rcases added with e | st
  · exact .pure
  · cases st with
    | ok newSubId =>
        have hloop : KeepsApart (trialConns cfg.net newSubId cfg.pairs) :=
          .of_quiet ((uses_trialConns _ _ _).mono fun _ _ => codeQuiet_trial)
        refine hloop.bind fun looped => ?_
        cases looped with
        | error reply => exact .pure
        | ok u =>
            refine (keepsApart_mail (uses_saveTrialHmac _ _ _ _ _)).bind fun _ => ?_
            exact (keepsApart_mail (uses_saveTrialHmac _ _ _ _ _)).bind fun _ => .pure
    | _ => exact .pure

lemma keepsApart_grantTrial (cfg : TrialConfig) (req : Trial) :
    KeepsApart (grantTrial cfg req) := by
  refine (keepsApart_ask .uuid).bind fun subId => ?_
  refine (keepsApart_referral _ _ _ _).bind fun owner => ?_
  rcases owner with reply | _ | owner
  · exact .pure
  · exact keepsApart_createTrial cfg req subId
  · refine (keepsApart_addDays owner.1 owner.2).bind fun credited => ?_
    cases credited with
    | error e => exact .pure
    | ok status => exact keepsApart_createTrial cfg req subId

lemma keepsApart_postTrialHandler (cfg : TrialConfig) (req : Trial) :
    KeepsApart (postTrialHandler cfg req) := by
  rw [postTrialHandler]
  cases req.validate with
  | error e => exact .pure
  | ok u =>
      refine (keepsApart_mail (uses_checkEmailHmac cfg.hmac req.user)).bind fun known => ?_
      cases known with
      | true => exact .pure
      | false =>
          refine (keepsApart_mail (uses_checkEmailHmac cfg.hmac req.email)).bind fun known => ?_
          cases known with
          | true => exact .pure
          | false => exact (keepsApart_grantTrial cfg req).bind fun _ => .pure

/-- A reload takes the codes of the rows. -/
lemma keepsApart_getStateFromDb (lower : String → String) : KeepsApart (getStateFromDb lower) := by
  intro s s' r hexec h
  obtain ⟨hdb, -, ⟨-, hmemory⟩ | ⟨-, i, order, l, -, hcache⟩⟩ := exec_getStateFromDb hexec
  · refine h.of_le fun id code hcode => ?_
    rwa [HasCode, codeOf, hmemory, rowCode, hdb] at hcode
  · refine h.of_le fun id code hcode => .inr ?_
    rcases hcode with hmem | hrow
    · obtain ⟨sub, hsub, rfl⟩ := Option.map_eq_some_iff.mp hmem
      obtain ⟨hread, rfl⟩ := (buildCache_subscriptions hcache (s.db.subAll_nodup order)).mp hsub
      obtain ⟨row, hrow, -, hsame⟩ := Db.mem_subAll.mp hread
      rw [rowCode, hrow, Option.map_some, hsame]
      rfl
    · rwa [rowCode, hdb] at hrow

/-- **One operation** keeps the codes apart. -/
lemma keepsApart_op (lower : String → String) (op : CodeOp) : KeepsApart (op.prog lower) := by
  cases op with
  | reload => exact Triple.forget (keepsApart_getStateFromDb lower)
  | request op =>
      refine Triple.forget ?_
      cases op with
      | post req bonus codes =>
          exact (keepsApart_postSubscriptionHandler req bonus codes).bind fun _ => .pure
      | trial cfg req => exact keepsApart_postTrialHandler cfg req
      | put id req => exact (keepsApart_putSubscriptionHandler id req).bind fun _ => .pure

end Programs

/-! ### Runs -/

lemma codesApart_empty : CodesApart World.empty := by
  rintro id id' code (h | h)
  · cases h
  · cases h

/-- Where codes are apart, the search finds the owner of a code, in any order. -/
lemma Subscriptions.findByReferCode_iff {t : Subscriptions} {code : String}
    (h : ∀ id id' sub sub', t.get id = some sub → t.get id' = some sub' →
      sub.referCodeTrimmed = code → sub'.referCodeTrimmed = code → id = id')
    (order : List Uuid) (sub : Subscription) :
    t.findByReferCode order code = some sub ↔
      ∃ id, t.get id = some sub ∧ sub.referCodeTrimmed = code := by
  refine ⟨findByReferCode_some, ?_⟩
  rintro ⟨id, hget, hcode⟩
  cases hfind : t.findByReferCode order code with
  | none =>
      rw [findByReferCode, Option.map_eq_none_iff, List.find?_eq_none] at hfind
      have hmiss := hfind (id, sub) (Table.mem_iter.mpr hget)
      simp [hcode] at hmiss
  | some found =>
      obtain ⟨id', hget', hcode'⟩ := findByReferCode_some hfind
      have hid : id' = id := h id' id found sub hget' hget hcode' hcode
      rw [hid, hget] at hget'
      exact hget'.symm

/-- **A refer code identifies one subscription**: in every state that requests and reloads
reach one after another from an empty service, if default codes are new and every code
that a request writes has no other owner in memory and in the database at that moment, two
different subscriptions have different codes and the search for a code does not depend on
the order of the iteration. -/
theorem codes_identify {lower : String → String} {ops : List CodeOp} {s : World}
    (hrun : Serial codesFree (CodeOp.prog lower) World.empty ops s) :
    (∀ id id' sub sub', s.memory.subscriptions.get id = some sub →
      s.memory.subscriptions.get id' = some sub' → id ≠ id' →
      sub.referCodeTrimmed ≠ sub'.referCodeTrimmed) ∧
    ∀ code order order', s.memory.subscriptions.findByReferCode order code =
      s.memory.subscriptions.findByReferCode order' code := by
  have happart : CodesApart s := hrun.of_triple (keepsApart_op lower) codesApart_empty
  have howner : ∀ {id sub}, s.memory.subscriptions.get id = some sub →
      HasCode s id sub.referCodeTrimmed := by
    intro id sub hget
    rw [HasCode, codeOf, hget]
    exact .inl rfl
  constructor
  · intro id id' sub sub' hget hget' hne hcode
    have hother := howner hget'
    rw [← hcode] at hother
    exact hne (happart (howner hget) hother)
  · intro code order order'
    have hone : ∀ id id' sub sub', s.memory.subscriptions.get id = some sub →
        s.memory.subscriptions.get id' = some sub' → sub.referCodeTrimmed = code →
        sub'.referCodeTrimmed = code → id = id' := by
      intro id id' sub sub' hget hget' hcode hcode'
      exact happart (hcode ▸ howner hget) (hcode' ▸ howner hget')
    refine Option.ext fun sub => ?_
    rw [Subscriptions.findByReferCode_iff hone order sub,
      Subscriptions.findByReferCode_iff hone order' sub]

/-- A subscription is created with an id and a code. -/
def createWithCode (id : Uuid) (code : Option String) : CodeOp × List Input :=
  (.request (.post ⟨none, code, some 30, none⟩ 7 []),
    List.replicate 5 { Input.at 1000 with uuid := id })

/-- Two subscriptions, the second with its default code; the first takes another code, and
the memory is loaded again. -/
def codeRequests : List (CodeOp × List Input) :=
  [createWithCode 1 (some "alpha"), createWithCode 2 none,
    (.request (.put 1 ⟨none, some " beta", none, none⟩), List.replicate 4 (Input.at 2000)),
    (.reload, List.replicate 5 (Input.at 3000))]

/-- After these requests the new code of the first subscription is found, and no other
subscription has it. -/
theorem codes_identify_beta :
    ∃ s sub, Serial codesFree (CodeOp.prog id) World.empty (codeRequests.map Prod.fst) s ∧
      s.memory.subscriptions.get 1 = some sub ∧
      (s.memory.subscriptions.findByReferCode [2, 1] "beta").map Subscription.id = some 1 ∧
      (s.memory.subscriptions.findByReferCode [1, 2] "beta").map Subscription.id = some 1 ∧
      ∀ sub', s.memory.subscriptions.get 2 = some sub' →
        sub.referCodeTrimmed ≠ sub'.referCodeTrimmed := by
  have hrun : (serialWith codesFree (CodeOp.prog id) codeRequests World.empty).map (fun s =>
      ((s.memory.subscriptions.get 1).map Subscription.referCodeTrimmed,
        (s.memory.subscriptions.findByReferCode [2, 1] "beta").map Subscription.id)) =
      some (some "beta", some 1) := by
    decide +kernel
  obtain ⟨s, hserial, hseen⟩ := exists_serial_of_serialWith hrun
  obtain ⟨hcode, hfound⟩ := Prod.mk.inj hseen
  obtain ⟨sub, hget, -⟩ := Option.map_eq_some_iff.mp hcode
  obtain ⟨happart, horder⟩ := codes_identify hserial
  refine ⟨s, sub, hserial, hget, hfound, ?_, fun sub' hget' => ?_⟩
  · rw [horder "beta" [1, 2] [2, 1]]
    exact hfound
  · exact happart 1 2 sub sub' hget hget' (by decide)

/-- **Two subscriptions with one code**: two requests ask for the same code, both are
served, and who is credited for a referral depends on the order of the iteration. -/
theorem same_code_twice :
    ∃ s sub sub', Serial defaultsApart (CodeOp.prog id) World.empty
        [(createWithCode 1 (some "alpha")).1, (createWithCode 2 (some "alpha")).1] s ∧
      s.memory.subscriptions.get 1 = some sub ∧ s.memory.subscriptions.get 2 = some sub' ∧
      sub.referCodeTrimmed = sub'.referCodeTrimmed ∧
      s.memory.subscriptions.findByReferCode [1, 2] "alpha" ≠
        s.memory.subscriptions.findByReferCode [2, 1] "alpha" := by
  have hrun : (serialWith defaultsApart (CodeOp.prog id)
      [createWithCode 1 (some "alpha"), createWithCode 2 (some "alpha")] World.empty).map (fun s =>
        ((s.memory.subscriptions.get 1).map Subscription.referCodeTrimmed,
          (s.memory.subscriptions.get 2).map Subscription.referCodeTrimmed,
          (s.memory.subscriptions.findByReferCode [1, 2] "alpha").map Subscription.id,
          (s.memory.subscriptions.findByReferCode [2, 1] "alpha").map Subscription.id)) =
      some (some "alpha", some "alpha", some 1, some 2) := by
    decide +kernel
  obtain ⟨s, hserial, hseen⟩ := exists_serial_of_serialWith hrun
  simp only [Prod.mk.injEq] at hseen
  obtain ⟨hone, htwo, hfirst, hsecond⟩ := hseen
  obtain ⟨sub, hget, hcode⟩ := Option.map_eq_some_iff.mp hone
  obtain ⟨sub', hget', hcode'⟩ := Option.map_eq_some_iff.mp htwo
  refine ⟨s, sub, sub', hserial, hget, hget', hcode.trans hcode'.symm, fun hsame => ?_⟩
  rw [hsame, hsecond] at hfirst
  exact absurd hfirst (by decide)

end Fcore
