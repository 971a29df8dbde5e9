import Fcore.Runs.TrialOverlap

/-!
How many trials and referral bonuses a sequence of requests can obtain
(`post_trial_handler`, `Trial::validate`).

A trial is checked and recorded by the identity that the request carries, and
`Trial::validate` only refuses a request that carries two.  A request without an
identity passes every check and leaves no record, so one caller obtains as many
trials as it likes.

* `identities`, `identitiesWith`: the identities that requests present;
* `TrialStage`, `stageProtocol`: how far a single request has come;
* `Visit`, `visit_of_exec`: what one request does to rows, credits and records;
* `trial_without_identity`: a request without an identity obtains a trial;
* `trials_bounded`: with an identity in every request, and when neither a
  subscription query fails nor an address is refused, trials and bonuses are
  bounded by the identities presented.
-/

namespace Fcore

open Calculus
open Machine (exec)

/-! ### Sequences of requests -/

/-- The identity that a request carries. -/
def Trial.identity (req : Trial) : Option String := req.user.or req.email

/-- The distinct identities that requests present. -/
def identities (reqs : List Trial) : Finset String := (reqs.filterMap Trial.identity).toFinset

/-- The distinct identities presented together with a refer code. -/
def identitiesWith (code : String) (reqs : List Trial) : Finset String :=
  identities (reqs.filter fun req => req.referredBy = some code)

/-- Neither a subscription query fails nor a WireGuard address is refused, and
the identifier of a new subscription is new to the memory. -/
def nothingRefused : Rule Call Input World
  | _, _, .sql (.subAddDays _ _), _, _, .error _ => false
  | _, _, .sql (.subCreate _), _, _, .error _ => false
  | _, _, .look (.wgProto _), _, _, .error _ => false
  | _, _, .edit (.subAdd sub), _, s, _ => (s.memory.subscriptions.get sub.id).isNone
  | _, _, _, _, _, _ => true

/-- The refer code of a subscription in memory. -/
def codeOf (s : World) (o : Uuid) : Option String :=
  (s.memory.subscriptions.get o).map Subscription.referCodeTrimmed

/-- Subscriptions are stored under their ids. -/
def SubsById (s : World) : Prop :=
  ∀ ⦃id : Uuid⦄ ⦃sub : Subscription⦄, s.memory.subscriptions.get id = some sub → sub.id = id

/-- The days credited to a subscription so far. -/
def creditedTo (o : Uuid) (s : World) : ℤ :=
  ((s.db.credits.filter fun e => e.1 = o).map Prod.snd).sum

/-! ### The stages of a request -/

/-- How far a request has come; `e` is the credit that it has executed. -/
inductive TrialStage where
  | start
  | cleared
  | found (id : Uuid)
  | paid (e : Option (Uuid × ℤ))
  | made (e : Option (Uuid × ℤ))
  | saved (e : Option (Uuid × ℤ))

/-- The protocol of a request with the identity hash `h`. -/
def stageProtocol (h : String) (code : Option String) (bonus : ℤ) :
    Protocol Call TrialStage where
  admits
    | _, .sql (.subAddDays _ _), .error _ => False
    | _, .sql (.subCreate _), .error _ => False
    | _, .look (.wgProto _), .error _ => False
    | _, .edit (.subAdd _), b => ∃ id, b = .ok id
    | _, _, _ => True
  may
    | _, .mail (.has h'), a => a = .start ∧ h' = h
    | _, .look (.referrer c), a => a = .cleared ∧ code = some c
    | _, .edit (.credit id _), a => a = .found id
    | _, .sql (.subAddDays id n), a => a = .found id ∧ (n = 0 ∨ n = bonus)
    | _, .sql (.subCreate _), a => a = .cleared ∨ ∃ e, a = .paid e
    | _, .mail (.save h' _), a => (∃ e, a = .made e) ∧ h' = h
    | _, .edit (.update _ _), _ => False
    | _, .edit (.install _), _ => False
    | _, .within _, _ => False
    | _, _, _ => True
  moves
    | _, .mail (.has _), false, _, a' => a' = .cleared
    | _, .look (.referrer _), some id, _, a' => a' = .found id
    | _, .edit (.credit _ _), false, _, a' => a' = .paid none
    | _, .sql (.subAddDays id n), _, _, a' => a' = .paid (some (id, n))
    | _, .sql (.subCreate _), _, a, a' =>
        match a with
        | .paid e => a' = .made e
        | _ => a' = .made none
    | _, .mail (.save _ _), _, a, a' => ∀ e, a = .made e → a' = .saved e
    | _, _, _, a, a' => a' = a

/-- The stages in which a request can end. -/
def Ended (a : TrialStage) : Prop := a = .start ∨ a = .cleared ∨ ∃ e, a = .saved e

section Programs

variable {h : String} {code : Option String} {bonus : ℤ}

lemma stageProtocol_restore {a : TrialStage} {β : Type} {c : Call β} (hc : RestoreCall β c) :
    (stageProtocol h code bonus).may β c a ∧
      ∀ b, (stageProtocol h code bonus).moves β c b a a := by
  cases hc <;> exact ⟨trivial, fun _ => rfl⟩

lemma stageProtocol_trial {a : TrialStage} {β : Type} {c : Call β} (hc : TrialCall β c) :
    (stageProtocol h code bonus).may β c a ∧
      ∀ b, (stageProtocol h code bonus).moves β c b a a := by
  cases hc with
  | quiet hc => cases hc <;> exact ⟨trivial, fun _ => rfl⟩
  | _ => exact ⟨trivial, fun _ => rfl⟩

lemma stageProtocol_addDays {id : Uuid} {n : ℤ} (hn : n = 0 ∨ n = bonus) :
    Obeys (stageProtocol h code bonus) (fun r a => (∃ st, r = .ok st) ∧ ∃ e, a = .paid e)
      (addDays id n) (.found id) := by
  refine ⟨trivial, fun wasInactive _ => ⟨_, rfl, rfl, fun found _ => ?_⟩⟩
  cases found with
  | false => exact ⟨_, rfl, ⟨_, rfl⟩, _, rfl⟩
  | true =>
      refine ⟨.found id, rfl, ⟨rfl, hn⟩, fun r hr => ⟨.paid (some (id, n)), rfl, ?_⟩⟩
      cases r with
      | error e => exact hr.elim
      | ok row =>
          cases wasInactive with
          | false => exact ⟨⟨_, rfl⟩, _, rfl⟩
          | true =>
              refine Obeys.bind (p := restoreConnectionsBySubscription id)
                (Obeys.of_uses (uses_restoreConnectionsBySubscription id)
                  fun _ _ => stageProtocol_restore) ?_
              rintro _ _ rfl
              exact ⟨⟨_, rfl⟩, _, rfl⟩

lemma stageProtocol_save {cfg : TrialConfig} {x : String} (hx : cfg.hmac x = h)
    {e : Option (Uuid × ℤ)} (subId : Uuid) (time : DateTime) (refBy : String) :
    Obeys (stageProtocol h code bonus) (fun _ a => a = .saved e)
      (saveTrialHmac cfg (some x) subId time refBy) (.made e) := by
  refine ⟨⟨⟨e, rfl⟩, hx⟩, fun _ _ => ⟨.saved e, ?_, trivial, fun _ _ => ⟨_, rfl, rfl⟩⟩⟩
  intro e' he'
  cases he'
  rfl

/-- A request that carries the identity `x` and no other. -/
def CarriesOnly (req : Trial) (x : String) : Prop :=
  (req.user = some x ∧ req.email = none) ∨ (req.user = none ∧ req.email = some x)

lemma stageProtocol_createTrial {cfg : TrialConfig} {req : Trial} {x : String}
    (hx : cfg.hmac x = h) (hid : CarriesOnly req x) (subId : Uuid) {a : TrialStage}
    (ha : a = .cleared ∨ ∃ e, a = .paid e) :
    Obeys (stageProtocol h code bonus) (fun _ a => Ended a) (createTrial cfg req subId) a := by
  refine ⟨trivial, fun now _ => ⟨_, rfl, trivial, fun created _ => ⟨_, rfl, ?_⟩⟩⟩
  -- the row is created with the credit of the request on record
  have hmade : ∃ e, match a with
      | .paid e' => TrialStage.made e = .made e'
      | _ => TrialStage.made e = .made none := by
    rcases ha with rfl | ⟨e, rfl⟩
    · exact ⟨none, rfl⟩
    · exact ⟨e, rfl⟩
  obtain ⟨e, hmade⟩ := hmade
  refine ⟨ha, fun r hr => ⟨.made e, hmade, ?_⟩⟩
  cases r with
  | error e => exact hr.elim
  | ok row =>
      refine ⟨trivial, fun st hst => ⟨_, rfl, ?_⟩⟩
      obtain ⟨newSubId, rfl⟩ := hst
      refine (obeys_trialConns_of_calls cfg.net newSubId cfg.pairs
        (fun _ _ => stageProtocol_trial) fun _ _ hadm => hadm).bind ?_
      rintro r a ⟨rfl, rfl⟩
      have hend : ∀ a, a = TrialStage.saved e → Ended a := fun a ha => Or.inr (Or.inr ⟨e, ha⟩)
      rcases hid with ⟨hu, he⟩ | ⟨hu, he⟩
      · simp only [hu, he]
        exact (stageProtocol_save hx _ now _).bind fun _ a ha => hend a ha
      · simp only [hu, he]
        exact (stageProtocol_save hx _ now _).bind fun _ a ha => hend a ha

/-- The owner of the code is found with the bonus that the code earns, or nothing is due. -/
lemma stageProtocol_referral (codes : List String) (missing : String) :
    Obeys (stageProtocol h code bonus)
      (fun r a => match r with
        | .ok (some (id, n)) => a = .found id ∧ (n = 0 ∨ n = bonus)
        | _ => a = .cleared)
      (referral code codes bonus missing) .cleared := by
  cases code with
  | none => exact rfl
  | some code =>
      refine ⟨⟨rfl, rfl⟩, fun r _ => ?_⟩
      cases r with
      | none => exact ⟨_, rfl, rfl⟩
      | some id =>
          refine ⟨.found id, rfl, rfl, ?_⟩
          split
          · exact Or.inl rfl
          · exact Or.inr rfl

lemma stageProtocol_grantTrial {cfg : TrialConfig} {req : Trial} {x : String}
    (hx : cfg.hmac x = h) (hid : CarriesOnly req x) :
    Obeys (stageProtocol h req.referredBy cfg.bonus) (fun _ a => Ended a) (grantTrial cfg req)
      .cleared := by
  refine ⟨trivial, fun subId _ => ⟨_, rfl, ?_⟩⟩
  refine (stageProtocol_referral _ _).bind fun r a ha => ?_
  rcases r with r | _ | ⟨id, bonusDays⟩
  · rw [show a = .cleared from ha]
    exact Or.inr (Or.inl rfl)
  · exact stageProtocol_createTrial hx hid subId (Or.inl ha)
  · obtain ⟨rfl, hn⟩ := ha
    refine (stageProtocol_addDays hn).bind ?_
    rintro r a ⟨⟨st, rfl⟩, hpaid⟩
    exact stageProtocol_createTrial hx hid subId (Or.inr hpaid)

/-- A request with an identity ends refused, or with its identity on record. -/
lemma stageProtocol_postTrialHandler {cfg : TrialConfig} {req : Trial} {x : String}
    (hx : req.identity = some x) :
    Obeys (stageProtocol (cfg.hmac x) req.referredBy cfg.bonus) (fun _ a => Ended a)
      (postTrialHandler cfg req) .start := by
  have hgrant : ∀ hid : CarriesOnly req x,
      Obeys (stageProtocol (cfg.hmac x) req.referredBy cfg.bonus) (fun _ a => Ended a)
        (grantTrial cfg req >>= fun r => (pure (.ok r) : Api (Except Error Reply))) .cleared :=
    fun hid => (stageProtocol_grantTrial rfl hid).bind fun _ _ h => h
  rw [postTrialHandler, Trial.validate]
  rw [Trial.identity] at hx
  cases hu : req.user with
  | some u =>
      obtain rfl : u = x := by simpa [hu] using hx
      cases he : req.email with
      | some e => exact Or.inl rfl
      | none =>
          refine ⟨⟨rfl, rfl⟩, fun known _ => ?_⟩
          cases known with
          | true => exact ⟨_, rfl, Or.inl rfl⟩
          | false => exact ⟨_, rfl, hgrant (Or.inl ⟨hu, he⟩)⟩
  | none =>
      have he : req.email = some x := by simpa [hu] using hx
      rw [he]
      refine ⟨⟨rfl, rfl⟩, fun known _ => ?_⟩
      cases known with
      | true => exact ⟨_, rfl, Or.inl rfl⟩
      | false => exact ⟨_, rfl, hgrant (Or.inr ⟨hu, he⟩)⟩

end Programs

/-! ### What one request does -/

/-- The executed credit of a stage. -/
def TrialStage.credit : TrialStage → Option (Uuid × ℤ)
  | .paid e => e
  | .made e => e
  | .saved e => e
  | _ => none

/-- The number of rows that a request has created. -/
def TrialStage.created : TrialStage → ℕ
  | .made _ => 1
  | .saved _ => 1
  | _ => 0

/-- The request has found its identity unknown. -/
def TrialStage.admitted : TrialStage → Prop
  | .start => False
  | _ => True

/-- Refer codes stay with their subscriptions from one state to another. -/
def CodesKept (s s' : World) : Prop := ∀ o c, codeOf s o = some c → codeOf s' o = some c

/-- The state in the course of a request, compared with the state `s₁` in which
it started. -/
structure StageInv (h : String) (code : Option String) (bonus : ℤ) (s₁ s : World)
    (a : TrialStage) : Prop where
  byId : SubsById s
  codes : CodesKept s₁ s
  known : ∀ h', (s₁.store.get h').isSome = true → (s.store.get h').isSome = true
  unknown : a.admitted → s₁.store.get h = none
  owner : ∀ id, a = .found id → ∃ c, codeOf s id = some c ∧ code = some c
  paid : ∀ id n, a.credit = some (id, n) →
    (n = 0 ∨ n = bonus) ∧ ∃ c, codeOf s id = some c ∧ code = some c
  credits : s.db.credits = s₁.db.credits ++ a.credit.toList
  rows : s.db.subscriptions.size = s₁.db.subscriptions.size + a.created
  recorded : ∀ e, a = .saved e → (s.store.get h).isSome = true

section StageInv

variable {h : String} {code : Option String} {bonus : ℤ} {s₁ s s' : World} {a : TrialStage}

/-- A step on the subscriptions of the memory that keeps ids and refer codes. -/
lemma StageInv.frame (hinv : StageInv h code bonus s₁ s a) (hbyId : SubsById s')
    (hkept : CodesKept s s') (hcredits : s'.db.credits = s.db.credits)
    (hsize : s'.db.subscriptions.size = s.db.subscriptions.size)
    (hstore : s'.store = s.store) : StageInv h code bonus s₁ s' a where
  byId := hbyId
  codes o c hc := hkept o c (hinv.codes o c hc)
  known := by
    rw [hstore]
    exact hinv.known
  unknown := hinv.unknown
  owner id ha := by
    obtain ⟨c, hc, hcode⟩ := hinv.owner id ha
    exact ⟨c, hkept id c hc, hcode⟩
  paid id n ha := by
    obtain ⟨hn, c, hc, hcode⟩ := hinv.paid id n ha
    exact ⟨hn, c, hkept id c hc, hcode⟩
  credits := by
    rw [hcredits]
    exact hinv.credits
  rows := by
    rw [hsize]
    exact hinv.rows
  recorded := by
    rw [hstore]
    exact hinv.recorded

/-- A step that leaves the subscriptions of the memory alone. -/
lemma StageInv.still (hinv : StageInv h code bonus s₁ s a)
    (hsubs : s'.memory.subscriptions = s.memory.subscriptions)
    (hcredits : s'.db.credits = s.db.credits)
    (hsize : s'.db.subscriptions.size = s.db.subscriptions.size)
    (hstore : s'.store = s.store) : StageInv h code bonus s₁ s' a := by
  refine hinv.frame ?_ ?_ hcredits hsize hstore
  · intro id sub hget
    rw [hsubs] at hget
    exact hinv.byId hget
  · intro o c hc
    rwa [codeOf, hsubs]

/-- A credit in memory touches neither ids nor refer codes. -/
lemma StageInv.credit (hinv : StageInv h code bonus s₁ s a) {id : Uuid} {n : ℤ} {now : DateTime}
    {m : Cache} (hm : m.subscriptions = s.memory.subscriptions.change id fun x => x.credit n now) :
    StageInv h code bonus s₁ { s with memory := m } a := by
  refine hinv.frame ?_ ?_ rfl rfl rfl
  · intro o x hget
    change m.subscriptions.get o = some x at hget
    rw [hm, Table.get_change] at hget
    split_ifs at hget with hid
    · obtain ⟨y, hy, rfl⟩ := Option.map_eq_some_iff.mp hget
      rw [Subscription.credit_id, hinv.byId hy, hid]
    · exact hinv.byId hget
  · intro o c hc
    obtain ⟨y, hy, hyc⟩ := Option.map_eq_some_iff.mp hc
    show (m.subscriptions.get o).map Subscription.referCodeTrimmed = some c
    rw [hm, Table.get_change]
    split_ifs with hid
    · rw [← hid, hy, Option.map_some, Option.map_some, Subscription.referCodeTrimmed,
        Subscription.credit_referCode]
      exact congrArg some hyc
    · rw [hy, Option.map_some, hyc]

/-- A new subscription in memory. -/
lemma StageInv.add (hinv : StageInv h code bonus s₁ s a) {sub : Subscription}
    (hnew : s.memory.subscriptions.get sub.id = none) {m : Cache}
    (hm : m.subscriptions = s.memory.subscriptions.put sub.id sub) :
    StageInv h code bonus s₁ { s with memory := m } a := by
  refine hinv.frame ?_ ?_ rfl rfl rfl
  · intro o x hget
    change m.subscriptions.get o = some x at hget
    rw [hm, Table.get_put] at hget
    split_ifs at hget with hid
    · rw [← Option.some.inj hget, hid]
    · exact hinv.byId hget
  · intro o c hc
    obtain ⟨y, hy, hyc⟩ := Option.map_eq_some_iff.mp hc
    show (m.subscriptions.get o).map Subscription.referCodeTrimmed = some c
    have hne : o ≠ sub.id := by
      rintro rfl
      rw [hnew] at hy
      cases hy
    rw [hm, Table.get_put_of_ne _ _ hne, hy, Option.map_some, hyc]

/-- The owner of a refer code is stored under the id that the lookup returns. -/
lemma codeOf_of_referrer (hbyId : SubsById s) {i : Input} {c : String} {id : Uuid}
    (hr : (Look.referrer c).run i s.memory = some id) : codeOf s id = some c := by
  obtain ⟨sub, hsub, rfl⟩ := Option.map_eq_some_iff.mp hr
  obtain ⟨key, hkey, hcode⟩ := Subscriptions.findByReferCode_some hsub
  rw [codeOf, hbyId hkey, hkey, Option.map_some, hcode]

/-- An identity check that finds the identity unknown. -/
lemma StageInv.clear (hinv : StageInv h code bonus s₁ s .start)
    (hnow : (s.store.get h).isSome = false) : StageInv h code bonus s₁ s .cleared := by
  refine ⟨hinv.byId, hinv.codes, hinv.known, fun _ => ?_, by simp, by simp [TrialStage.credit],
    hinv.credits, hinv.rows, by simp⟩
  cases hs₁ : s₁.store.get h with
  | none => rfl
  | some t =>
      have hknown := hinv.known h (by rw [hs₁]; rfl)
      rw [hnow] at hknown
      cases hknown

/-- The record of the identity. -/
lemma StageInv.save {e : Option (Uuid × ℤ)} (hinv : StageInv h code bonus s₁ s (.made e))
    (time : DateTime) :
    StageInv h code bonus s₁ { s with store := s.store.put h time } (.saved e) := by
  refine ⟨hinv.byId, hinv.codes, fun h' hk => ?_, fun _ => hinv.unknown trivial, by simp,
    hinv.paid, hinv.credits, hinv.rows, fun _ _ => ?_⟩
  · show ((s.store.put h time).get h').isSome = true
    rw [Table.get_put]
    split_ifs
    · rfl
    · exact hinv.known h' hk
  · show ((s.store.put h time).get h).isSome = true
    rw [Table.get_put_self]
    rfl

/-- The credit in the database. -/
lemma StageInv.pay {id : Uuid} {n : ℤ} {db : Db} (hinv : StageInv h code bonus s₁ s (.found id))
    (hn : n = 0 ∨ n = bonus) (hcredits : db.credits = s.db.credits ++ [(id, n)])
    (hsize : db.subscriptions.size = s.db.subscriptions.size) :
    StageInv h code bonus s₁ { s with db := db } (.paid (some (id, n))) := by
  refine ⟨hinv.byId, hinv.codes, hinv.known, fun _ => hinv.unknown trivial, by simp, ?_, ?_, ?_,
    by simp⟩
  · intro id' n' he
    cases he
    exact ⟨hn, hinv.owner id rfl⟩
  · show db.credits = _
    rw [hcredits, hinv.credits]
    simp [TrialStage.credit]
  · show db.subscriptions.size = _
    rw [hsize, hinv.rows]
    rfl

/-- The subscription row. -/
lemma StageInv.make {e : Option (Uuid × ℤ)} {db : Db} (hinv : StageInv h code bonus s₁ s a)
    (ha : a = .cleared ∧ e = none ∨ a = .paid e) (hcredits : db.credits = s.db.credits)
    (hsize : db.subscriptions.size = s.db.subscriptions.size + 1) :
    StageInv h code bonus s₁ { s with db := db } (.made e) := by
  have hstage : a.credit = e ∧ a.created = 0 ∧ a.admitted := by
    rcases ha with ⟨rfl, rfl⟩ | rfl
    · exact ⟨rfl, rfl, trivial⟩
    · exact ⟨rfl, rfl, trivial⟩
  obtain ⟨hcredit, hcreated, hadm⟩ := hstage
  refine ⟨hinv.byId, hinv.codes, hinv.known, fun _ => hinv.unknown hadm, by simp, ?_, ?_, ?_,
    by simp⟩
  · intro id n he
    exact hinv.paid id n (hcredit.trans he)
  · show db.credits = _
    rw [hcredits, hinv.credits, hcredit]
    rfl
  · show db.subscriptions.size = _
    rw [hsize, hinv.rows, hcreated]
    rfl

end StageInv

/-- One step of a request keeps the invariant. -/
lemma keeps_stageInv (h : String) (code : Option String) (bonus : ℤ) (s₁ : World) :
    KeepsAlone nothingRefused (stageProtocol h code bonus) (StageInv h code bonus s₁) := by
  intro β c i s s' b a hexec hrule hmay hinv
  -- a step that touches nothing the invariant looks at
  have hsame : c.writesSubscriptions = false → s'.db.credits = s.db.credits →
      s'.db.subscriptions.size = s.db.subscriptions.size → s'.store = s.store →
      StageInv h code bonus s₁ s' a :=
    fun hc => hinv.still (subscriptions_of_exec hexec hc)
  cases c with
  | mail m =>
      obtain ⟨hs', hb⟩ := exec_mail.mp hexec
      cases m with
      | has h' =>
          obtain ⟨rfl, rfl⟩ := hmay
          obtain rfl : s' = s := hs'
          refine ⟨trivial, fun a' hm => ?_⟩
          cases b with
          | true => rwa [show a' = .start from hm]
          | false =>
              rw [show a' = .cleared from hm]
              exact hinv.clear hb.symm
      | save h' time =>
          obtain ⟨⟨e, rfl⟩, rfl⟩ := hmay
          refine ⟨trivial, fun a' hm => ?_⟩
          rw [hm e rfl, hs']
          exact hinv.save time
      | append line =>
          refine ⟨trivial, fun a' hm => ?_⟩
          rw [show a' = a from hm]
          have heq : s'.db = s.db ∧ s'.store = s.store := by
            rw [hs', Call.execMail]
            split <;> exact ⟨rfl, rfl⟩
          exact hsame rfl (by rw [heq.1]) (by rw [heq.1]) heq.2
  | look r =>
      obtain ⟨-, rfl, hb⟩ := exec_look.mp hexec
      cases r with
      | referrer c =>
          obtain ⟨rfl, rfl⟩ := hmay
          refine ⟨trivial, fun a' hm => ?_⟩
          cases b with
          | none => rwa [show a' = .cleared from hm]
          | some id =>
              rw [show a' = .found id from hm]
              refine ⟨hinv.byId, hinv.codes, hinv.known, hinv.unknown, ?_,
                by simp [TrialStage.credit], hinv.credits, hinv.rows, by simp⟩
              intro id' hid'
              cases hid'
              exact ⟨c, codeOf_of_referrer hinv.byId hb.symm, rfl⟩
      | wgProto net =>
          cases b with
          | error r => cases hrule
          | ok proto => exact ⟨trivial, fun a' hm => by rwa [show a' = a from hm]⟩
      | _ => exact ⟨trivial, fun a' hm => by rwa [show a' = a from hm]⟩
  | edit w =>
      have hdb := db_of_exec hexec (by simp)
      have hstore := store_of_exec hexec (by simp)
      cases w with
      | credit id n =>
          obtain rfl : a = .found id := hmay
          obtain ⟨-, rfl, -⟩ := exec_edit.mp hexec
          refine ⟨trivial, fun a' hm => ?_⟩
          have hkeep := hinv.credit (m := (Edit.run (.credit id n) i s.memory).1) rfl
          cases b with
          | true => rwa [show a' = .found id from hm]
          | false =>
              rw [show a' = .paid none from hm]
              exact ⟨hkeep.byId, hkeep.codes, hkeep.known, hkeep.unknown, by simp,
                by simp [TrialStage.credit], hkeep.credits, hkeep.rows, by simp⟩
      | subAdd sub =>
          obtain ⟨-, rfl, rfl⟩ := exec_edit.mp hexec
          have hnew : (s.memory.subscriptions.get sub.id).isNone = true := hrule
          rw [Option.isNone_iff_eq_none] at hnew
          refine ⟨⟨sub.id, ?_⟩, fun a' hm => ?_⟩
          · simp only [Edit.run, Subscriptions.add, hnew]
          · rw [show a' = a from hm]
            refine hinv.add hnew ?_
            simp only [Edit.run, Subscriptions.add, hnew]
      | update id req => exact hmay.elim
      | install cache => exact hmay.elim
      | _ =>
          refine ⟨trivial, fun a' hm => ?_⟩
          rw [show a' = a from hm]
          exact hsame rfl (by rw [hdb]) (by rw [hdb]) hstore
  | within w => exact hmay.elim
  | sql q =>
      have hstore := store_of_exec hexec (by simp)
      obtain ⟨rfl, rfl⟩ := exec_sql.mp hexec
      cases q with
      | subAddDays id n =>
          obtain ⟨rfl, hn⟩ := hmay
          have hsize := subscriptions_size_run (q := .subAddDays id n) rfl i s.db
          rcases subAddDays_cases id n i s.db with ⟨-, e, hr⟩ | ⟨hcredits, row, hr⟩
          · rw [hr] at hrule
            cases hrule
          · rw [hr]
            refine ⟨trivial, fun a' hm => ?_⟩
            rw [show a' = .paid (some (id, n)) from hm]
            exact hinv.pay hn hcredits hsize
      | subCreate sub =>
          rcases subCreate_cases sub i s.db with ⟨-, e, hr⟩ | ⟨hnone, row, hdb, hr⟩
          · rw [hr] at hrule
            cases hrule
          · rw [hr, hdb]
            refine ⟨trivial, fun a' hm => ?_⟩
            have hsize := Table.size_put_of_none row hnone
            rcases hmay with rfl | ⟨e, rfl⟩
            · rw [show a' = .made none from hm]
              exact hinv.make (Or.inl ⟨rfl, rfl⟩) rfl hsize
            · rw [show a' = .made e from hm]
              exact hinv.make (Or.inr rfl) rfl hsize
      | _ =>
          refine ⟨trivial, fun a' hm => ?_⟩
          rw [show a' = a from hm]
          exact hsame rfl (Sql.run_credits rfl i s.db) (subscriptions_size_run rfl i s.db) hstore
  | _ =>
      have hdb := db_of_exec hexec (by simp)
      have hstore := store_of_exec hexec (by simp)
      refine ⟨trivial, fun a' hm => ?_⟩
      rw [show a' = a from hm]
      exact hsame rfl (by rw [hdb]) (by rw [hdb]) hstore

/-- What a request with the identity `x` does to the state. -/
structure Visit (cfg : TrialConfig) (req : Trial) (x : String) (s s' : World) : Prop where
  byId : SubsById s'
  codes : CodesKept s s'
  known : ∀ h, (s.store.get h).isSome = true → (s'.store.get h).isSome = true
  outcome :
    (s'.db.subscriptions.size = s.db.subscriptions.size ∧ s'.db.credits = s.db.credits) ∨
      (s.store.get (cfg.hmac x) = none ∧ (s'.store.get (cfg.hmac x)).isSome = true ∧
        s'.db.subscriptions.size = s.db.subscriptions.size + 1 ∧
        ∃ e : Option (Uuid × ℤ), s'.db.credits = s.db.credits ++ e.toList ∧
          ∀ id n, e = some (id, n) → (n = 0 ∨ n = cfg.bonus) ∧
            ∃ c, codeOf s' id = some c ∧ req.referredBy = some c)

/-- A request either changes nothing that counts, or creates one subscription and
records its identity, which was unknown before. -/
lemma visit_of_exec {cfg : TrialConfig} {req : Trial} {x : String} {s s' : World}
    {r : Except Error Reply} (hx : req.identity = some x) (hbyId : SubsById s)
    (h : Exec nothingRefused (postTrialHandler cfg req) s r s') : Visit cfg req x s s' := by
  have hinit : StageInv (cfg.hmac x) req.referredBy cfg.bonus s s .start :=
    ⟨hbyId, fun _ _ h => h, fun _ h => h, fun h => h.elim, by simp, by simp [TrialStage.credit],
      by simp [TrialStage.credit], rfl, by simp⟩
  obtain ⟨a, hend, hinv⟩ := Exec.sound (keeps_stageInv _ _ _ s) h
    (stageProtocol_postTrialHandler hx) hinit
  refine ⟨hinv.byId, hinv.codes, hinv.known, ?_⟩
  rcases hend with rfl | rfl | ⟨e, rfl⟩
  · exact Or.inl ⟨hinv.rows, by simpa [TrialStage.credit] using hinv.credits⟩
  · exact Or.inl ⟨hinv.rows, by simpa [TrialStage.credit] using hinv.credits⟩
  · exact Or.inr ⟨hinv.unknown trivial, hinv.recorded e rfl, hinv.rows, e, hinv.credits,
      hinv.paid⟩

/-! ### Counting -/

/-- The identities of a set that are on record. -/
def onRecord (cfg : TrialConfig) (D : Finset String) (s : World) : Finset String :=
  D.filter fun x => (s.store.get (cfg.hmac x)).isSome = true

section Counting

variable {cfg : TrialConfig} {req : Trial} {x : String} {s s' : World} {D D' : Finset String}

/-- Records only grow. -/
lemma Visit.card_le (hv : Visit cfg req x s s') (hD : D ⊆ D') :
    (onRecord cfg D s).card ≤ (onRecord cfg D' s').card := by
  refine Finset.card_le_card fun y hy => ?_
  rw [onRecord, Finset.mem_filter] at hy ⊢
  exact ⟨hD hy.1, hv.known _ hy.2⟩

/-- A request that records its identity makes one more of them. -/
lemma Visit.card_lt (hv : Visit cfg req x s s') (hD : D ⊆ D') (hx : x ∈ D')
    (hbefore : s.store.get (cfg.hmac x) = none)
    (hafter : (s'.store.get (cfg.hmac x)).isSome = true) :
    (onRecord cfg D s).card + 1 ≤ (onRecord cfg D' s').card := by
  have hnot : x ∉ onRecord cfg D s := by
    rw [onRecord, Finset.mem_filter, hbefore]
    simp
  rw [← Finset.card_insert_of_notMem hnot]
  refine Finset.card_le_card fun y hy => ?_
  rw [onRecord, Finset.mem_filter]
  rcases Finset.mem_insert.mp hy with rfl | hy
  · exact ⟨hx, hafter⟩
  · rw [onRecord, Finset.mem_filter] at hy
    exact ⟨hD hy.1, hv.known _ hy.2⟩

end Counting

lemma identities_append (reqs : List Trial) (req : Trial) {x : String}
    (hx : req.identity = some x) : identities (reqs ++ [req]) = insert x (identities reqs) := by
  rw [identities, List.filterMap_append, List.filterMap_cons, hx]
  ext y
  simp [identities]

lemma identitiesWith_append (code : String) (reqs : List Trial) (req : Trial) {x : String}
    (hx : req.identity = some x) : identitiesWith code (reqs ++ [req]) =
      if req.referredBy = some code then insert x (identitiesWith code reqs)
      else identitiesWith code reqs := by
  rw [identitiesWith, List.filter_append]
  split_ifs with hcode
  · rw [show [req].filter (fun req => req.referredBy = some code) = [req] by simp [hcode]]
    exact identities_append _ req hx
  · rw [show [req].filter (fun req => req.referredBy = some code) = [] by simp [hcode],
      List.append_nil]
    rfl

/-- At most one more credit, to one subscription. -/
lemma creditedTo_append {o : Uuid} {s s' : World} {e : Option (Uuid × ℤ)}
    (h : s'.db.credits = s.db.credits ++ e.toList) :
    creditedTo o s' = creditedTo o s + e.elim 0 fun c => if c.1 = o then c.2 else 0 := by
  rw [creditedTo, h, List.filter_append, List.map_append, List.sum_append, ← creditedTo,
    add_right_inj]
  cases e with
  | none => rfl
  | some c =>
      rw [Option.toList_some, List.filter_singleton, Option.elim_some]
      by_cases hc : c.1 = o
      · simp [hc]
      · simp [hc]

/-- The invariant of a sequence of requests. -/
structure Counted (cfg : TrialConfig) (s₀ : World) (reqs : List Trial) (s : World) : Prop where
  byId : SubsById s
  rows : s.db.subscriptions.size ≤
    s₀.db.subscriptions.size + (onRecord cfg (identities reqs) s).card
  owners : ∀ o code, codeOf s o = some code → creditedTo o s ≤
    creditedTo o s₀ + cfg.bonus * (onRecord cfg (identitiesWith code reqs) s).card
  others : ∀ o, codeOf s o = none → creditedTo o s = creditedTo o s₀

/-- What a subscription was credited with before a request, by the code that it has after
it. -/
lemma Counted.credited_le {cfg : TrialConfig} {s₀ s s' : World} {reqs : List Trial} {req : Trial}
    {x : String} (hbonus : 0 ≤ cfg.bonus) (h : Counted cfg s₀ reqs s) (hv : Visit cfg req x s s')
    {o : Uuid} {code : String} (ho : codeOf s' o = some code) :
    creditedTo o s ≤ creditedTo o s₀ +
      cfg.bonus * (onRecord cfg (identitiesWith code reqs) s).card := by
  cases hc : codeOf s o with
  | none =>
      rw [h.others o hc]
      have hnonneg := mul_nonneg hbonus
        (Int.natCast_nonneg (onRecord cfg (identitiesWith code reqs) s).card)
      omega
  | some c =>
      have hcode := hv.codes o c hc
      rw [ho] at hcode
      cases hcode
      exact h.owners o code hc

/-- One more request keeps the counts. -/
lemma Counted.visit {cfg : TrialConfig} {s₀ s s' : World} {reqs : List Trial} {req : Trial}
    {x : String} (hbonus : 0 ≤ cfg.bonus) (hx : req.identity = some x)
    (h : Counted cfg s₀ reqs s) (hv : Visit cfg req x s s') :
    Counted cfg s₀ (reqs ++ [req]) s' := by
  have hids : identities reqs ⊆ identities (reqs ++ [req]) := by
    rw [identities_append reqs req hx]
    exact Finset.subset_insert _ _
  have hwith : ∀ code, identitiesWith code reqs ⊆ identitiesWith code (reqs ++ [req]) := by
    intro code
    rw [identitiesWith_append code reqs req hx]
    split_ifs
    · exact Finset.subset_insert _ _
    · exact Finset.Subset.refl _
  -- a subscription that has no code after the request had none before it
  have hnone : ∀ o, codeOf s' o = none → codeOf s o = none := by
    intro o ho
    cases hc : codeOf s o with
    | none => rfl
    | some c =>
        rw [hv.codes o c hc] at ho
        cases ho
  -- what was credited before the request, counted by its new records
  have hgrows : ∀ o code, codeOf s' o = some code → creditedTo o s ≤ creditedTo o s₀ +
      cfg.bonus * (onRecord cfg (identitiesWith code (reqs ++ [req])) s').card := by
    intro o code ho
    refine (h.credited_le hbonus hv ho).trans (add_le_add_right ?_ _)
    exact mul_le_mul_of_nonneg_left (by exact_mod_cast hv.card_le (hwith code)) hbonus
  rcases hv.outcome with ⟨hsize, hcredits⟩ | ⟨hbefore, hafter, hsize, e, hcredits, hpaid⟩
  · have hsame : ∀ o, creditedTo o s' = creditedTo o s := fun o => by
      rw [creditedTo, hcredits, creditedTo]
    refine ⟨hv.byId, ?_, fun o code ho => ?_, fun o ho => ?_⟩
    · rw [hsize]
      exact h.rows.trans (Nat.add_le_add_left (hv.card_le hids) _)
    · rw [hsame]
      exact hgrows o code ho
    · rw [hsame]
      exact h.others o (hnone o ho)
  · refine ⟨hv.byId, ?_, fun o code ho => ?_, fun o ho => ?_⟩
    · have hlt := hv.card_lt hids (by rw [identities_append reqs req hx]; simp) hbefore hafter
      have := h.rows
      omega
    · rw [creditedTo_append hcredits]
      rcases e with _ | ⟨id, n⟩
      · rw [Option.elim_none, add_zero]
        exact hgrows o code ho
      · obtain ⟨hn, c, hc, hcode⟩ := hpaid id n rfl
        rw [Option.elim_some]
        by_cases hio : id = o
        · -- the credit went to the owner of the code that the request carries
          obtain rfl : c = code := by
            rw [hio, ho] at hc
            exact (Option.some.inj hc).symm
          have hmem : x ∈ identitiesWith c (reqs ++ [req]) := by
            rw [identitiesWith_append c reqs req hx, if_pos hcode]
            exact Finset.mem_insert_self _ _
          have hcount := h.credited_le hbonus hv ho
          have hlt := hv.card_lt (hwith c) hmem hbefore hafter
          have hmul := mul_le_mul_of_nonneg_left
            (show ((onRecord cfg (identitiesWith c reqs) s).card + 1 : ℤ) ≤
              (onRecord cfg (identitiesWith c (reqs ++ [req])) s').card by exact_mod_cast hlt)
            hbonus
          have hle : n ≤ cfg.bonus := by
            rcases hn with rfl | rfl
            · exact hbonus
            · exact le_refl _
          rw [if_pos hio]
          rw [mul_add, mul_one] at hmul
          omega
        · rw [if_neg hio, add_zero]
          exact hgrows o code ho
    · rw [creditedTo_append hcredits, ← h.others o (hnone o ho)]
      rcases e with _ | ⟨id, n⟩
      · rw [Option.elim_none, add_zero]
      · obtain ⟨-, c, hc, -⟩ := hpaid id n rfl
        have hio : id ≠ o := by
          rintro rfl
          rw [ho] at hc
          cases hc
        rw [Option.elim_some, if_neg hio, add_zero]

/-- The counts hold after every sequence of requests. -/
lemma counted_of_serial {cfg : TrialConfig} {s₀ s : World} {reqs : List Trial}
    (hbonus : 0 ≤ cfg.bonus) (hbyId : SubsById s₀)
    (hids : ∀ req ∈ reqs, req.identity.isSome = true)
    (hrun : Serial nothingRefused (postTrialHandler cfg) s₀ reqs s) : Counted cfg s₀ reqs s := by
  induction hrun with
  | nil =>
      refine ⟨hbyId, Nat.le_add_right _ _, fun o code _ => ?_, fun o _ => rfl⟩
      have := mul_nonneg hbonus
        (Int.natCast_nonneg (onRecord cfg (identitiesWith code []) s₀).card)
      omega
  | @snoc reqs req s s' r hrun hexec ih =>
      have hcounted := ih fun req hreq => hids req (List.mem_append_left _ hreq)
      obtain ⟨x, hx⟩ := Option.isSome_iff_exists.mp
        (hids req (List.mem_append_right _ (List.mem_singleton_self req)))
      exact hcounted.visit hbonus hx (visit_of_exec hx hcounted.byId hexec)

/-- **Trials and bonuses are bounded by identities** in every sequence of requests
that all carry one, in which neither a subscription query fails nor an address is
refused, and drawn identifiers are new. -/
theorem trials_bounded {cfg : TrialConfig} {s₀ s : World} {reqs : List Trial}
    (hbonus : 0 ≤ cfg.bonus) (hbyId : SubsById s₀)
    (hids : ∀ req ∈ reqs, req.identity.isSome = true)
    (hrun : Serial nothingRefused (postTrialHandler cfg) s₀ reqs s) :
    s.db.subscriptions.size ≤ s₀.db.subscriptions.size + (identities reqs).card ∧
      ∀ o code, codeOf s o = some code →
        creditedTo o s ≤ creditedTo o s₀ + cfg.bonus * (identitiesWith code reqs).card := by
  have hcounted := counted_of_serial hbonus hbyId hids hrun
  have hsub : ∀ D, (onRecord cfg D s).card ≤ D.card := fun D =>
    Finset.card_le_card (Finset.filter_subset _ D)
  constructor
  · have := hcounted.rows
    have := hsub (identities reqs)
    omega
  · intro o code ho
    refine (hcounted.owners o code ho).trans (add_le_add_right ?_ _)
    exact mul_le_mul_of_nonneg_left (by exact_mod_cast hsub _) hbonus

/-- A trial without an identity. -/
def anonymousTrial : Trial := ⟨none, none, none⟩

/-- One request without an identity is accepted and obtains a subscription. -/
theorem trial_without_identity :
    (∀ req ∈ [anonymousTrial], req.validate = .ok ()) ∧
      ∃ s, Serial Rule.any (postTrialHandler sampleTrialConfig) World.empty [anonymousTrial] s ∧
        ¬ s.db.subscriptions.size ≤
          World.empty.db.subscriptions.size + (identities [anonymousTrial]).card := by
  constructor
  · simp [anonymousTrial, Trial.validate]
  · have hrun : (execWith Rule.any (List.replicate 20 (trialInput 1))
        (postTrialHandler sampleTrialConfig anonymousTrial) World.empty).map
        (fun r => r.1.db.subscriptions.size) = some 1 := by
      decide +kernel
    obtain ⟨⟨s, r⟩, hexec, hsize⟩ := Option.map_eq_some_iff.mp hrun
    refine ⟨s, Serial.snoc Serial.nil (exec_of_execWith hexec), ?_⟩
    rw [show s.db.subscriptions.size = 1 from hsize]
    decide

/-- Two requests by the same user meet the condition. -/
theorem trials_bounded_for_one_user :
    ∃ s, Serial nothingRefused (postTrialHandler sampleTrialConfig) World.empty
        [annTrial, annTrial] s ∧
      s.db.subscriptions.size = 1 ∧ s.db.subscriptions.size ≤
        World.empty.db.subscriptions.size + (identities [annTrial, annTrial]).card := by
  have hrun : ((execWith nothingRefused (List.replicate 20 (trialInput 1))
      (postTrialHandler sampleTrialConfig annTrial) World.empty).bind fun r =>
        execWith nothingRefused (List.replicate 20 (trialInput 2))
          (postTrialHandler sampleTrialConfig annTrial) r.1).map
      (fun r => r.1.db.subscriptions.size) = some 1 := by
    decide +kernel
  obtain ⟨⟨s', r'⟩, hboth, hsize⟩ := Option.map_eq_some_iff.mp hrun
  obtain ⟨⟨s, r⟩, hfirst, hsecond⟩ := Option.bind_eq_some_iff.mp hboth
  have htrials : Serial nothingRefused (postTrialHandler sampleTrialConfig) World.empty
        [annTrial, annTrial] s' :=
    .snoc (.snoc .nil (exec_of_execWith hfirst)) (exec_of_execWith hsecond)
  refine ⟨s', htrials, hsize, (trials_bounded (by decide) ?_ ?_ htrials).1⟩
  · intro id sub hget
    cases hget
  · intro req hreq
    obtain rfl : req = annTrial := by simpa using hreq
    rfl

end Fcore
