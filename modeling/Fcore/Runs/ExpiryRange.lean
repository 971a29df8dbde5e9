import Fcore.Calculus.Checked
import Fcore.Runs.Registrations

/-!
The range of the dates that `POST` and `PUT /subscription` compute
(`src/bin/api/http/handlers/subscription.rs`, `update_sub` and `add_days` in
`src/bin/api/sync/tasks.rs`, `Subscription::extend`, `PgSubscription::add_days`).

The days of a request are an unchecked `i64`.  A sum of days may overflow, a duration may be too
long for `chrono` and a date may lie outside of its calendar; the last two are panics, and a panic
ends the service.  A credit is computed twice in the process, in memory and from the expiry of the
row, which need not be the same.

* `durationDays`, `addDuration`: the operations of `chrono`, with `none` for a panic;
* `tryExtend`, `tryUpdate`, `tryCredit`, `tryRowCredit`, `tryExpiresAt`: the computations of
  dates, with `none` where one of them overflows or panics;
* `serveDates`: the subscriptions in memory after a request, or `none`;
* `serveDates_of_put`, `serveDates_of_post`: what the handlers leave in memory is what
  `serveDates` says;
* `Dated`: all dates are in the calendar; `dated_of_serveDates`: requests keep it;
* `isSome_serveDates_iff`: a request is served exactly if the calendar has room for its days;
* `all_dates_served_iff`: the same for a whole history of requests;
  `not_served_too_many_days`: requests that are not served.
-/

namespace Fcore

open Calculus

/-! ### Dates of chrono -/

/-- `i64::MAX`. -/
def i64Max : ℤ := 9223372036854775807

/-- `i64::MIN`. -/
def i64Min : ℤ := -9223372036854775808

/-- `DateTime::<Utc>::MIN_UTC`, the begin of the year -262143. -/
def minUtc : DateTime := -8334601228800000000000

/-- `DateTime::<Utc>::MAX_UTC`, the end of the year 262142. -/
def maxUtc : DateTime := 8210266876799999999999

/-- The instants that a `DateTime<Utc>` can be. -/
def InUtc (t : DateTime) : Prop := minUtc ≤ t ∧ t ≤ maxUtc

/-- `chrono::Duration::days`: a duration has at most as many milliseconds as an `i64` counts. -/
def durationDays (n : ℤ) : Option ℤ :=
  (within (-i64Max) i64Max (n * 86400000)).map fun millis => millis * 1000000

/-- The sum of a `DateTime<Utc>` and a duration. -/
def addDuration (t : DateTime) (d : ℤ) : Option DateTime := within minUtc maxUtc (t + d)

/-- `t + Duration::days(n)`. -/
def plusDays (t : DateTime) (n : ℤ) : Option DateTime := do
  let d ← durationDays n
  addDuration t d

/-- The calendar has room for `n` days from the instant `t` on. -/
def RoomFor (t : DateTime) (n : ℤ) : Prop := minUtc - t ≤ days n ∧ days n ≤ maxUtc - t

/-- From an instant of the calendar no other limit matters: the calendar has fewer days than a
duration. -/
lemma plusDays_eq_some {t e : DateTime} {n : ℤ} (ht : InUtc t) :
    plusDays t n = some e ↔ RoomFor t n ∧ e = t + days n := by
  simp only [plusDays, durationDays, addDuration, Option.bind_eq_bind, Option.bind_eq_some_iff,
    Option.map_eq_some_iff, within_eq_some]
  simp only [RoomFor, days, InUtc, i64Max, minUtc, maxUtc] at ht ⊢
  constructor
  · rintro ⟨d, ⟨millis, ⟨-, -, rfl⟩, rfl⟩, hlo, hhi, rfl⟩
    refine ⟨⟨?_, ?_⟩, ?_⟩ <;> linarith
  · rintro ⟨⟨hlo, hhi⟩, rfl⟩
    refine ⟨n * 86400000 * 1000000, ⟨n * 86400000, ⟨?_, ?_, rfl⟩, rfl⟩, ?_, ?_, ?_⟩ <;> linarith

lemma inUtc_creditBase {now : DateTime} {expiresAt : Option DateTime} (hnow : InUtc now)
    (h : ∀ e ∈ expiresAt, InUtc e) : InUtc (creditBase now expiresAt) := by
  cases expiresAt with
  | none => exact hnow
  | some e =>
      rw [creditBase]
      split_ifs
      · exact h e rfl
      · exact hnow

lemma inUtc_add_days {t : DateTime} {n : ℤ} (h : RoomFor t n) : InUtc (t + days n) := by
  obtain ⟨hlo, hhi⟩ := h
  constructor <;> linarith

/-- The expiry of a new subscription: `Utc::now() + Duration::days(days + bonus_days)`. -/
def tryExpiresAt (now : DateTime) (n bonusDays : ℤ) : Option DateTime := do
  let total ← within i64Min i64Max (n + bonusDays)
  plusDays now total

/-- A sum of days that the calendar has room for does not overflow. -/
lemma tryExpiresAt_eq_some {now e : DateTime} {n bonusDays : ℤ} (hnow : InUtc now) :
    tryExpiresAt now n bonusDays = some e ↔
      RoomFor now (n + bonusDays) ∧ e = now + days (n + bonusDays) := by
  simp only [tryExpiresAt, Option.bind_eq_bind, Option.bind_eq_some_iff, within_eq_some]
  constructor
  · rintro ⟨total, ⟨-, -, rfl⟩, hplus⟩
    exact (plusDays_eq_some hnow).mp hplus
  · rintro ⟨hroom, rfl⟩
    refine ⟨n + bonusDays, ⟨?_, ?_, rfl⟩, (plusDays_eq_some hnow).mpr ⟨hroom, rfl⟩⟩
    all_goals
      simp only [RoomFor, days, InUtc, i64Min, i64Max, minUtc, maxUtc] at hnow hroom ⊢
      linarith [hnow.1, hnow.2, hroom.1, hroom.2]

/-! ### Dates of a subscription -/

namespace Subscription

/-- `extend`. -/
def tryExtend (s : Subscription) (n : ℤ) (now : DateTime) : Option Subscription :=
  match s.expiresAt with
  | some e => do
      let newExp ← plusDays e n
      return { s with expiresAt := some newExp, updatedAt := now }
  | none => some { s with updatedAt := now }

/-- The changes of `update_sub`; the fields other than the expiry follow. -/
def tryUpdate (s : Subscription) (req : SubReq) (now : DateTime) : Option Subscription := do
  let s ← match req.days with
    | some n => s.tryExtend n now
    | none => some s
  return s.update { req with days := none } now

/-- `set_expires_at` with its result ignored. -/
def setOrKeep (s : Subscription) (e now : DateTime) : Subscription :=
  match s.setExpiresAt e now with
  | .ok s => s
  | .error _ => s

/-- The section of `add_days` in memory. -/
def tryCredit (s : Subscription) (n : ℤ) (now : DateTime) : Option Subscription := do
  let newExpires ← match s.expiresAt with
    | some e => if now < e then plusDays e n else plusDays now n
    | none => plusDays now n
  return s.setOrKeep newExpires now

/-- The expiry is a date of the calendar. -/
def Dated (s : Subscription) : Prop := ∀ e ∈ s.expiresAt, InUtc e

variable {s s' : Subscription} {n : ℤ} {now : DateTime}

lemma tryExtend_eq_some (hs : s.Dated) :
    s.tryExtend n now = some s' ↔ (∀ e ∈ s.expiresAt, RoomFor e n) ∧ s' = s.extend n now := by
  rw [tryExtend]
  cases he : s.expiresAt with
  | none => simp [extend, he, eq_comm]
  | some e =>
      simp only [Option.bind_eq_bind, Option.bind_eq_some_iff, plusDays_eq_some (hs e he),
        Option.pure_def, Option.some.injEq, Option.mem_def, forall_eq']
      constructor
      · rintro ⟨newExp, ⟨hroom, rfl⟩, rfl⟩
        exact ⟨hroom, by rw [extend, he, Option.map_some]⟩
      · rintro ⟨hroom, rfl⟩
        exact ⟨e + days n, ⟨hroom, rfl⟩, by rw [extend, he, Option.map_some]⟩

/-- The changes of a request are its extension and then the rest. -/
lemma update_eq_extend (s : Subscription) (req : SubReq) (now : DateTime) :
    s.update req now = (match req.days with
      | some n => s.extend n now
      | none => s).update { req with days := none } now := rfl

lemma tryUpdate_eq_some (hs : s.Dated) {req : SubReq} :
    s.tryUpdate req now = some s' ↔
      (∀ e ∈ s.expiresAt, ∀ n ∈ req.days, RoomFor e n) ∧ s' = s.update req now := by
  rw [update_eq_extend, tryUpdate]
  cases hn : req.days with
  | none => simp [eq_comm]
  | some n =>
      simp only [Option.bind_eq_bind, Option.bind_eq_some_iff, tryExtend_eq_some hs,
        Option.pure_def, Option.some.injEq, Option.mem_def, forall_eq']
      constructor
      · rintro ⟨s₁, ⟨hroom, rfl⟩, rfl⟩
        exact ⟨hroom, rfl⟩
      · rintro ⟨hroom, rfl⟩
        exact ⟨_, ⟨hroom, rfl⟩, rfl⟩

lemma setOrKeep_eq (s : Subscription) (e now : DateTime) :
    s.setOrKeep e now =
      if e ≤ now then s else { s with expiresAt := some e, updatedAt := now } := by
  rw [setOrKeep, setExpiresAt]
  split_ifs <;> rfl

lemma tryCredit_eq (s : Subscription) (n : ℤ) (now : DateTime) :
    s.tryCredit n now =
      (plusDays (creditBase now s.expiresAt) n).map fun e => s.setOrKeep e now := by
  rw [tryCredit, Option.map_eq_bind]
  cases s.expiresAt with
  | none => rfl
  | some e =>
      simp only [creditBase]
      split_ifs <;> rfl

lemma tryCredit_eq_some (hs : s.Dated) (hnow : InUtc now) :
    s.tryCredit n now = some s' ↔
      RoomFor (creditBase now s.expiresAt) n ∧ s' = s.credit n now := by
  rw [tryCredit_eq, credit_eq_ite, ← setOrKeep_eq, Option.map_eq_some_iff]
  simp only [plusDays_eq_some (inUtc_creditBase hnow hs)]
  constructor
  · rintro ⟨newExpires, ⟨hroom, rfl⟩, rfl⟩
    exact ⟨hroom, rfl⟩
  · rintro ⟨hroom, rfl⟩
    exact ⟨_, ⟨hroom, rfl⟩, rfl⟩

/-! ### Dates stay in the calendar -/

lemma dated_extend (hroom : ∀ e ∈ s.expiresAt, RoomFor e n) : (s.extend n now).Dated := by
  intro e he
  obtain ⟨e', he', rfl⟩ := Option.map_eq_some_iff.mp he
  exact inUtc_add_days (hroom e' he')

/-- The rest of an update leaves the expiry alone. -/
lemma expiresAt_update_none (s : Subscription) (req : SubReq) (now : DateTime) :
    (s.update { req with days := none } now).expiresAt = s.expiresAt := by
  rw [update_eq]
  rfl

lemma Dated.update (hs : s.Dated) {req : SubReq}
    (hroom : ∀ e ∈ s.expiresAt, ∀ n ∈ req.days, RoomFor e n) : (s.update req now).Dated := by
  rw [update_eq_extend, Dated, expiresAt_update_none]
  cases hn : req.days with
  | none => exact hs
  | some n => exact dated_extend fun e he => hroom e he n hn

lemma Dated.credit (hs : s.Dated) (hroom : RoomFor (creditBase now s.expiresAt) n) :
    (s.credit n now).Dated := by
  rw [credit_eq_ite]
  split_ifs
  · exact hs
  · rintro e ⟨⟩
    exact inUtc_add_days hroom

end Subscription

/-! ### Requests -/

/-- What `PgSubscription::add_days` meets: the expiry of the row that it reads, its clock, and
whether the row is written. -/
structure RowMeets where
  expiresAt : Option DateTime
  now : DateTime
  written : Bool

/-- What a request of `POST /subscription` meets: the identifier that is drawn, the order in which
the subscriptions are searched, the clock of `add_days`, the row of the owner unless it is not read,
the clocks of the new subscription and whether its row is inserted. -/
structure PostMeets where
  subId : Uuid
  order : List Uuid
  creditNow : DateTime
  row : Option RowMeets
  now : DateTime
  created : DateTime
  inserted : Bool

/-- A request that computes dates. -/
inductive DateRequest where
  | post (req : SubReq) (meets : PostMeets)
  | put (subId : Uuid) (req : SubReq) (now : DateTime)

/-- The clock shows a date of the calendar, and the expiry of the row is one. -/
def RowMeets.Clocked (row : RowMeets) : Prop := InUtc row.now ∧ ∀ e ∈ row.expiresAt, InUtc e

/-- The clocks of a request show dates of the calendar, and the expiry of a row that it reads is
one. -/
def DateRequest.Clocked : DateRequest → Prop
  | .post _ meets => InUtc meets.creditNow ∧ InUtc meets.now ∧ ∀ row ∈ meets.row, row.Clocked
  | .put _ _ now => InUtc now

/-- `PgSubscription::add_days`: whether the row is credited. -/
def tryRowCredit (n : ℤ) (row : Option RowMeets) : Option Bool :=
  match row with
  | none => some false
  | some row => (plusDays (creditBase row.now row.expiresAt) n).map fun _ => row.written

/-- The end of `post_subscription_handler`: the new subscription, with the bonus that its code
earns. -/
def tryCreate (bonusDays : ℤ) (req : SubReq) (meets : PostMeets) (subs : Subscriptions) :
    Option Subscriptions := do
  let expiresAt ← match req.days with
    | some n => (tryExpiresAt meets.now n bonusDays).map some
    | none => some none
  let sub := Subscription.new meets.subId req.referredBy
    (req.referCode.getD (getUuidLastOctetSimple meets.subId)) expiresAt req.limitBytes meets.created
  return if meets.inserted then (subs.add sub).1 else subs

/-- The rest of `post_subscription_handler` once the owner of the code is found: the bonus for the
owner in memory and in its row and, unless this fails, the new subscription. -/
def tryReferred (bonus bonusDays : ℤ) (owner : Uuid) (req : SubReq) (meets : PostMeets)
    (subs : Subscriptions) : Option Subscriptions :=
  match subs.get owner with
  | none => tryCreate bonusDays req meets subs
  | some sub => do
      let sub ← sub.tryCredit bonus meets.creditNow
      let credited ← tryRowCredit bonus meets.row
      if credited then tryCreate bonusDays req meets (subs.put owner sub)
      else return subs.put owner sub

/-- The subscriptions in memory after a request; `none` where a computation of a date overflows or
panics. -/
def serveDates (bonus : ℤ) (codes : List String) (subs : Subscriptions) :
    DateRequest → Option Subscriptions
  | .post req meets =>
      match req.referredBy with
      | none => tryCreate 0 req meets subs
      | some code =>
          match subs.findByReferCode meets.order code with
          | none => some subs
          | some owner =>
              tryReferred bonus (if codes.contains code then 0 else bonus) owner.id req meets subs
  | .put subId req now =>
      match subs.get subId with
      | none => some subs
      | some sub => (sub.tryUpdate req now).map fun sub => subs.put subId sub

/-- The calendar has room for the days of a request from `t` on. -/
def SubReq.RoomFrom (req : SubReq) (t : DateTime) (bonusDays : ℤ) : Prop :=
  ∀ n ∈ req.days, RoomFor t (n + bonusDays)

/-- The calendar has room for the bonus of the owner, from its expiry in memory or the clock on, and
again from that of its row or the clock there on, if this is read, and then for the new
subscription, which is not reached if the row is not written. -/
def PostMeets.RoomReferred (meets : PostMeets) (bonus bonusDays : ℤ) (owner : Uuid) (req : SubReq)
    (subs : Subscriptions) : Prop :=
  match subs.get owner with
  | none => req.RoomFrom meets.now bonusDays
  | some sub => RoomFor (creditBase meets.creditNow sub.expiresAt) bonus ∧
      ∀ row ∈ meets.row, RoomFor (creditBase row.now row.expiresAt) bonus ∧
        (row.written = true → req.RoomFrom meets.now bonusDays)

/-- The calendar has room for all that a request adds: a new subscription from the clock on, the
bonus of the owner of its code twice, an extension from the expiry on. -/
def DateRequest.HasRoom (bonus : ℤ) (codes : List String) (subs : Subscriptions) :
    DateRequest → Prop
  | .post req meets =>
      match req.referredBy with
      | none => req.RoomFrom meets.now 0
      | some code => ∀ owner, subs.findByReferCode meets.order code = some owner →
          meets.RoomReferred bonus (if codes.contains code then 0 else bonus) owner.id req subs
  | .put subId req _ => ∀ sub, subs.get subId = some sub → ∀ e ∈ sub.expiresAt, req.RoomFrom e 0

/-- All expiries in memory are dates of the calendar. -/
def Subscriptions.Dated (subs : Subscriptions) : Prop :=
  ∀ id sub, subs.get id = some sub → sub.Dated

section

variable {bonus : ℤ} {codes : List String} {subs subs' : Subscriptions} {req : SubReq}
  {meets : PostMeets}

lemma tryCreate_eq_some {bonusDays : ℤ} (hnow : InUtc meets.now) :
    tryCreate bonusDays req meets subs = some subs' ↔ req.RoomFrom meets.now bonusDays ∧
      subs' = if meets.inserted then
          (subs.add (req.newSub bonusDays meets.subId meets.now meets.created)).1
        else subs := by
  rw [tryCreate, SubReq.RoomFrom, SubReq.newSub]
  cases hn : req.days with
  | none =>
      simp only [Option.bind_eq_bind, Option.bind_some, Option.pure_def, Option.some.injEq,
        Option.map_none]
      exact ⟨fun h => ⟨nofun, h.symm⟩, fun h => h.2.symm⟩
  | some n =>
      simp only [Option.bind_eq_bind, Option.bind_eq_some_iff, Option.map_eq_some_iff,
        tryExpiresAt_eq_some hnow, Option.pure_def, Option.some.injEq, Option.mem_def, forall_eq',
        Option.map_some]
      constructor
      · rintro ⟨_, ⟨e, ⟨hroom, rfl⟩, rfl⟩, rfl⟩
        exact ⟨hroom, rfl⟩
      · rintro ⟨hroom, rfl⟩
        exact ⟨_, ⟨_, ⟨hroom, rfl⟩, rfl⟩, rfl⟩

lemma isSome_tryCreate_iff {bonusDays : ℤ} (hnow : InUtc meets.now) :
    (tryCreate bonusDays req meets subs).isSome ↔ req.RoomFrom meets.now bonusDays := by
  simp only [Option.isSome_iff_exists, tryCreate_eq_some hnow, exists_and_left, exists_eq, and_true]

/-! ### Requests keep the dates in the calendar -/

lemma Subscriptions.Dated.put (hsubs : subs.Dated) {id : Uuid} {sub : Subscription}
    (hsub : sub.Dated) : Subscriptions.Dated (Table.put subs id sub) := by
  intro id' sub' hget
  rw [Table.get_put] at hget
  split_ifs at hget
  · rwa [← Option.some.inj hget]
  · exact hsubs id' sub' hget

lemma dated_of_tryCreate {bonusDays : ℤ} (hsubs : subs.Dated) (hnow : InUtc meets.now)
    (h : tryCreate bonusDays req meets subs = some subs') : subs'.Dated := by
  obtain ⟨hroom, rfl⟩ := (tryCreate_eq_some hnow).mp h
  split_ifs
  · intro id sub hget
    rw [Subscriptions.get_add] at hget
    split_ifs at hget
    · obtain rfl := Option.some.inj hget
      intro e he
      obtain ⟨n, hn, rfl⟩ := Option.map_eq_some_iff.mp he
      exact inUtc_add_days (hroom n hn)
    · exact hsubs id sub hget
  · exact hsubs

lemma tryRowCredit_eq_some {row : Option RowMeets} {credited : Bool}
    (hrow : ∀ r ∈ row, r.Clocked) :
    tryRowCredit bonus row = some credited ↔
      (∀ r ∈ row, RoomFor (creditBase r.now r.expiresAt) bonus) ∧
        credited = row.any RowMeets.written := by
  cases row with
  | none => simp [tryRowCredit, eq_comm]
  | some row =>
      obtain ⟨hnow, hexpires⟩ := hrow row rfl
      simp only [tryRowCredit, Option.map_eq_some_iff,
        plusDays_eq_some (inUtc_creditBase hnow hexpires), Option.mem_def, Option.some.injEq,
        forall_eq', Option.any_some]
      constructor
      · rintro ⟨_, ⟨hroom, rfl⟩, rfl⟩
        exact ⟨hroom, rfl⟩
      · rintro ⟨hroom, rfl⟩
        exact ⟨_, ⟨hroom, rfl⟩, rfl⟩

lemma tryReferred_of_some {bonusDays : ℤ} {owner : Uuid} {sub : Subscription} (hsubs : subs.Dated)
    (hnow : InUtc meets.creditNow) (hrow : ∀ row ∈ meets.row, row.Clocked)
    (hget : subs.get owner = some sub) :
    tryReferred bonus bonusDays owner req meets subs = some subs' ↔
      RoomFor (creditBase meets.creditNow sub.expiresAt) bonus ∧
        (∀ row ∈ meets.row, RoomFor (creditBase row.now row.expiresAt) bonus) ∧
        (if meets.row.any RowMeets.written then
          tryCreate bonusDays req meets (subs.put owner (sub.credit bonus meets.creditNow))
        else some (subs.put owner (sub.credit bonus meets.creditNow))) = some subs' := by
  rw [tryReferred, hget]
  simp only [Option.bind_eq_bind, Option.bind_eq_some_iff,
    Subscription.tryCredit_eq_some (hsubs owner sub hget) hnow, tryRowCredit_eq_some hrow,
    Option.pure_def]
  constructor
  · rintro ⟨_, ⟨hroom, rfl⟩, _, ⟨hrows, rfl⟩, h⟩
    exact ⟨hroom, hrows, h⟩
  · rintro ⟨hroom, hrows, h⟩
    exact ⟨_, ⟨hroom, rfl⟩, _, ⟨hrows, rfl⟩, h⟩

lemma dated_of_tryReferred {bonusDays : ℤ} {owner : Uuid} (hsubs : subs.Dated)
    (hclocked : (DateRequest.post req meets).Clocked)
    (h : tryReferred bonus bonusDays owner req meets subs = some subs') : subs'.Dated := by
  obtain ⟨hcredit, hnow, hrow⟩ := hclocked
  cases hget : subs.get owner with
  | none =>
      rw [tryReferred, hget] at h
      exact dated_of_tryCreate hsubs hnow h
  | some sub =>
      obtain ⟨hroom, -, h⟩ := (tryReferred_of_some hsubs hcredit hrow hget).mp h
      have hput : Subscriptions.Dated (Table.put subs owner (sub.credit bonus meets.creditNow)) :=
        hsubs.put ((hsubs owner sub hget).credit hroom)
      split_ifs at h
      · exact dated_of_tryCreate hput hnow h
      · rwa [← Option.some.inj h]

lemma isSome_tryReferred_iff {bonusDays : ℤ} {owner : Uuid} (hsubs : subs.Dated)
    (hclocked : (DateRequest.post req meets).Clocked) :
    (tryReferred bonus bonusDays owner req meets subs).isSome ↔
      meets.RoomReferred bonus bonusDays owner req subs := by
  obtain ⟨hcredit, hnow, hrow⟩ := hclocked
  rw [PostMeets.RoomReferred]
  cases hget : subs.get owner with
  | none =>
      rw [tryReferred, hget]
      exact isSome_tryCreate_iff hnow
  | some sub =>
      simp only [Option.isSome_iff_exists, tryReferred_of_some hsubs hcredit hrow hget,
        exists_and_left]
      refine and_congr_right fun _ => ?_
      cases meets.row with
      | none => simp
      | some row =>
          simp only [Option.mem_def, Option.some.injEq, forall_eq', Option.any_some]
          refine and_congr_right fun _ => ?_
          by_cases hwritten : row.written = true
          · simp only [hwritten, if_true, forall_const]
            rw [← Option.isSome_iff_exists, isSome_tryCreate_iff hnow]
          · simp [hwritten]

/-- A request that is served leaves dates of the calendar. -/
lemma dated_of_serveDates {q : DateRequest} (hsubs : subs.Dated) (hq : q.Clocked)
    (h : serveDates bonus codes subs q = some subs') : subs'.Dated := by
  cases q with
  | post req meets =>
      rw [serveDates] at h
      split at h
      · exact dated_of_tryCreate hsubs hq.2.1 h
      · split at h
        · rwa [← Option.some.inj h]
        · exact dated_of_tryReferred hsubs hq h
  | put subId req now =>
      rw [serveDates] at h
      split at h
      · rwa [← Option.some.inj h]
      · next sub hget =>
          obtain ⟨sub', hsub', rfl⟩ := Option.map_eq_some_iff.mp h
          have hsub := hsubs subId sub hget
          obtain ⟨hroom, rfl⟩ := (Subscription.tryUpdate_eq_some hsub).mp hsub'
          exact hsubs.put (hsub.update hroom)

/-- A request is served exactly if the calendar has room for what it adds. -/
lemma isSome_serveDates_iff {q : DateRequest} (hsubs : subs.Dated) (hq : q.Clocked) :
    (serveDates bonus codes subs q).isSome ↔ q.HasRoom bonus codes subs := by
  cases q with
  | post req meets =>
      rw [serveDates, DateRequest.HasRoom]
      cases req.referredBy with
      | none => exact isSome_tryCreate_iff hq.2.1
      | some code =>
          cases howner : subs.findByReferCode meets.order code with
          | none => simp [howner]
          | some owner =>
              simp only [howner, Option.some.injEq, forall_eq']
              exact isSome_tryReferred_iff hsubs hq
  | put subId req now =>
      rw [serveDates, DateRequest.HasRoom]
      cases hget : subs.get subId with
      | none => simp
      | some sub =>
          simp only [Option.some.injEq, forall_eq', Option.isSome_map, SubReq.RoomFrom, add_zero]
          simp only [Option.isSome_iff_exists,
            Subscription.tryUpdate_eq_some (hsubs subId sub hget),
            exists_and_left, exists_eq, and_true]

/-! ### The handlers -/

variable {rule : Rule Call Input World} {s s' : World}

lemma subscriptions_of_addSub {sub : Subscription} {r : Except SyncError Status}
    (h : Exec rule (addSub sub) s r s') :
    ∃ inserted : Bool, s'.memory.subscriptions =
      if inserted then (s.memory.subscriptions.add sub).1 else s.memory.subscriptions := by
  obtain ⟨i, -, ⟨e, -, -, rfl⟩ | ⟨row, -, -, rfl⟩⟩ := exec_addSub h
  · exact ⟨false, rfl⟩
  · exact ⟨true, rfl⟩

/-- `add_days` credits a subscription that it finds, in memory and, if that succeeds, in its
row. -/
lemma subscriptions_of_addDays {subId : Uuid} {n : ℤ} {r : Except SyncError Status}
    (h : Exec rule (addDays subId n) s r s') :
    (s.memory.subscriptions.get subId = none ∧ s' = s ∧ ∃ st, r = .ok st) ∨
      ∃ sub now rowNow, s.memory.subscriptions.get subId = some sub ∧
        s'.memory.subscriptions = s.memory.subscriptions.put subId (sub.credit n now) ∧
        (r.isOk = true → ∃ row, s.db.subscriptions.get subId = some row ∧
          s'.db.subscriptions = s.db.subscriptions.put subId (Db.subRowCredit row n rowNow)) := by
  cases hget : s.memory.subscriptions.get subId with
  | none =>
      rcases exec_addDays h with ⟨rfl, -, rfl⟩ | ⟨sub, k, i, j, s₁, hsub, -⟩
      · exact .inl ⟨rfl, rfl, _, rfl⟩
      · rw [hget] at hsub
        cases hsub
  | some sub =>
      obtain ⟨i, j, -, -, -, -, -, hmemory, -, hrows⟩ := subs_of_addDays h hget
      refine .inr ⟨sub, i.now, j.now, rfl, ?_, fun hok => ?_⟩
      · rw [hmemory, Table.change, hget]
      · rcases hrows with ⟨hfailed, -⟩ | ⟨-, hrow⟩
        · rw [hok] at hfailed
          cases hfailed
        · exact hrow

/-- What `PUT /subscription` leaves in memory. -/
lemma serveDates_of_put {subId : Uuid} {r : Reply}
    (h : Exec rule (putSubscriptionHandler subId req) s r s')
    (hsubs : s.memory.subscriptions.Dated) :
    ∃ now, ∀ subs',
      serveDates bonus codes s.memory.subscriptions (.put subId req now) = some subs' →
        s'.memory.subscriptions = subs' := by
  obtain ⟨updated, s₁, hupdate, hrest⟩ := Exec.of_bind h
  obtain rfl : s' = s₁ := by
    rcases updated with e | st
    · exact hrest.of_pure.2
    · cases st <;> exact hrest.of_pure.2
  obtain ⟨i, -, hcases⟩ := exec_updateSub hupdate
  have hmemory : s'.memory.subscriptions =
      s.memory.subscriptions.change subId fun sub => sub.update req i.now := by
    rcases hcases with ⟨-, -, rfl⟩ | ⟨sub, -, ⟨-, -, rfl⟩ | ⟨v, j, q, -, -, rfl, -⟩⟩ <;> rfl
  refine ⟨i.now, fun subs' hserve => ?_⟩
  rw [hmemory, Table.change]
  rw [serveDates] at hserve
  cases hget : s.memory.subscriptions.get subId with
  | none =>
      simp only [hget] at hserve
      exact Option.some.inj hserve
  | some sub =>
      simp only [hget] at hserve
      obtain ⟨sub', hsub', rfl⟩ := Option.map_eq_some_iff.mp hserve
      rw [((Subscription.tryUpdate_eq_some (hsubs subId sub hget)).mp hsub').2]

/-- The owner of a code is found among the subscriptions in memory. -/
lemma creditPhase_cases {referredBy : Option String} {n : String → ℤ} {goes : Bool}
    (h : CreditPhase rule referredBy n s goes s') :
    (referredBy = none ∧ goes = true ∧ s' = s) ∨ ∃ code order, referredBy = some code ∧
      ((s.memory.subscriptions.findByReferCode order code = none ∧ goes = false ∧ s' = s) ∨
        ∃ owner r, s.memory.subscriptions.findByReferCode order code = some owner ∧
          goes = r.isOk ∧ Exec rule (addDays owner.id (n code)) s r s') := by
  cases h with
  | nobody hby => exact .inl ⟨hby, rfl, rfl⟩
  | unknown code i hby hlook =>
      exact .inr ⟨code, i.order, hby, .inl ⟨Option.map_eq_none_iff.mp hlook, rfl, rfl⟩⟩
  | credit code i id r s₁ hby hlook hrule hcredit =>
      obtain ⟨owner, howner, rfl⟩ := Option.map_eq_some_iff.mp hlook
      exact .inr ⟨code, i.order, hby, .inr ⟨owner, r, howner, rfl, hcredit⟩⟩

/-- The row that a request reads is the one of the owner of its code. -/
def PostMeets.ReadsRow (meets : PostMeets) (req : SubReq) (s : World) : Prop :=
  ∀ code owner, req.referredBy = some code →
    s.memory.subscriptions.findByReferCode meets.order code = some owner →
      meets.row.map RowMeets.expiresAt =
        (s.db.subscriptions.get owner.id).map Subscription.expiresAt

/-- The row of a subscription as `PgSubscription::add_days` meets it. -/
def rowOf (s : World) (subId : Uuid) (now : DateTime) (written : Bool) : Option RowMeets :=
  (s.db.subscriptions.get subId).map fun row => ⟨row.expiresAt, now, written⟩

lemma readsRow_rowOf {order : List Uuid} {code : String} {owner : Subscription}
    (hby : req.referredBy = some code)
    (howner : s.memory.subscriptions.findByReferCode order code = some owner)
    {subId : Uuid} {creditNow rowNow now created : DateTime} {written inserted : Bool} :
    PostMeets.ReadsRow
      ⟨subId, order, creditNow, rowOf s owner.id rowNow written, now, created, inserted⟩ req s := by
  intro code' owner' hby' howner'
  obtain rfl : code = code' := Option.some.inj (hby.symm.trans hby')
  obtain rfl : owner = owner' := Option.some.inj (howner.symm.trans howner')
  rw [rowOf, Option.map_map]
  rfl

lemma any_written_rowOf (s : World) (subId : Uuid) (now : DateTime) {written : Bool}
    (h : written = true → ∃ row, s.db.subscriptions.get subId = some row) :
    (rowOf s subId now written).any RowMeets.written = written := by
  rw [rowOf]
  cases hrow : s.db.subscriptions.get subId with
  | some row => rfl
  | none =>
      cases written with
      | false => rfl
      | true => simp [hrow] at h

/-- A registration that ends before the new subscription. -/
lemma serveDates_of_refused (hphase : CreditPhase rule req.referredBy (fun _ => bonus) s false s')
    (hsubs : s.memory.subscriptions.Dated) (subId : Uuid) :
    ∃ meets : PostMeets, meets.ReadsRow req s ∧
      ((DateRequest.post req meets).Clocked → ∀ subs',
        serveDates bonus codes s.memory.subscriptions (.post req meets) = some subs' →
          s'.memory.subscriptions = subs') := by
  obtain ⟨-, hgoes, -⟩ |
    ⟨code, order, hby, ⟨hnone, -, rfl⟩ | ⟨owner, res, howner, hgoes, hcredit⟩⟩ :=
    creditPhase_cases hphase
  · cases hgoes
  · refine ⟨⟨subId, order, 0, none, 0, 0, false⟩, fun code' owner hby' howner => ?_,
      fun _ subs' hserve => ?_⟩
    · obtain rfl : code = code' := Option.some.inj (hby.symm.trans hby')
      rw [hnone] at howner
      cases howner
    · simp only [serveDates, hby, hnone] at hserve
      exact Option.some.inj hserve
  · obtain ⟨-, -, st, rfl⟩ | ⟨sub, creditNow, rowNow, hget, hmemory, -⟩ :=
      subscriptions_of_addDays hcredit
    · cases hgoes
    · refine ⟨⟨subId, order, creditNow, rowOf s owner.id rowNow false, 0, 0, false⟩,
        readsRow_rowOf hby howner, fun hclocked subs' hserve => ?_⟩
      simp only [serveDates, hby, howner] at hserve
      obtain ⟨-, -, hserve⟩ := (tryReferred_of_some hsubs hclocked.1 hclocked.2.2 hget).mp hserve
      rw [any_written_rowOf s owner.id rowNow (by simp)] at hserve
      rw [hmemory]
      exact Option.some.inj hserve

/-- A registration that comes to the new subscription. -/
lemma serveDates_of_registered {s₁ : World} {subId : Uuid} {now created : DateTime}
    {added : Except SyncError Status}
    (hphase : CreditPhase rule req.referredBy (fun _ => bonus) s true s₁)
    (hadd : Exec rule (addSub (req.newSub (req.earned codes bonus) subId now created)) s₁ added s')
    (hsubs : s.memory.subscriptions.Dated) :
    ∃ meets : PostMeets, meets.ReadsRow req s ∧
      ((DateRequest.post req meets).Clocked → ∀ subs',
        serveDates bonus codes s.memory.subscriptions (.post req meets) = some subs' →
          s'.memory.subscriptions = subs') := by
  obtain ⟨inserted, hinserted⟩ := subscriptions_of_addSub hadd
  obtain ⟨hby, -, rfl⟩ |
    ⟨code, order, hby, ⟨-, hgoes, -⟩ | ⟨owner, res, howner, hgoes, hcredit⟩⟩ :=
    creditPhase_cases hphase
  · refine ⟨⟨subId, [], 0, none, now, created, inserted⟩, fun code owner hby' => ?_,
      fun hclocked subs' hserve => ?_⟩
    · rw [hby] at hby'
      cases hby'
    · simp only [serveDates, hby] at hserve
      rw [hinserted, ((tryCreate_eq_some hclocked.2.1).mp hserve).2, SubReq.earned, hby]
  · cases hgoes
  · have hearned : req.earned codes bonus = if codes.contains code then 0 else bonus := by
      rw [SubReq.earned, hby]
    rw [hearned] at hinserted
    obtain ⟨hget, rfl, -⟩ | ⟨sub, creditNow, rowNow, hget, hmemory, hrow⟩ :=
      subscriptions_of_addDays hcredit
    · refine ⟨⟨subId, order, 0, rowOf s₁ owner.id 0 true, now, created, inserted⟩,
        readsRow_rowOf hby howner, fun hclocked subs' hserve => ?_⟩
      simp only [serveDates, hby, howner, tryReferred, hget] at hserve
      rw [hinserted, ((tryCreate_eq_some hclocked.2.1).mp hserve).2]
    · refine ⟨⟨subId, order, creditNow, rowOf s owner.id rowNow true, now, created, inserted⟩,
        readsRow_rowOf hby howner, fun hclocked subs' hserve => ?_⟩
      simp only [serveDates, hby, howner] at hserve
      obtain ⟨-, -, hserve⟩ := (tryReferred_of_some hsubs hclocked.1 hclocked.2.2 hget).mp hserve
      obtain ⟨row, hstored, -⟩ := hrow hgoes.symm
      rw [any_written_rowOf s owner.id rowNow fun _ => ⟨row, hstored⟩, if_pos rfl] at hserve
      rw [hinserted, hmemory, ((tryCreate_eq_some hclocked.2.1).mp hserve).2]

/-- What `POST /subscription` leaves in memory. -/
lemma serveDates_of_post {r : Reply}
    (h : Exec rule (postSubscriptionHandler req bonus codes) s r s')
    (hsubs : s.memory.subscriptions.Dated) :
    ∃ meets : PostMeets, meets.ReadsRow req s ∧
      ((DateRequest.post req meets).Clocked → ∀ subs',
        serveDates bonus codes s.memory.subscriptions (.post req meets) = some subs' →
          s'.memory.subscriptions = subs') := by
  obtain ⟨subId, i, -, ⟨-, hphase⟩ | ⟨s₁, now, created, added, hphase, hadd, -⟩⟩ :=
    exec_postSubscriptionHandler h
  · exact serveDates_of_refused hphase hsubs subId
  · exact serveDates_of_registered hphase hadd hsubs

end

/-- **Dates in range.**  In every history of registrations and updates, from stored dates of the
calendar, no sum of days overflows, no duration is too long and no date lies outside of the
calendar exactly if the calendar has room for the days of each request, in the state that the
request meets. -/
theorem all_dates_served_iff (bonus : ℤ) (codes : List String) (subs : Subscriptions)
    (requests : List DateRequest) (hsubs : subs.Dated) (hclocks : ∀ q ∈ requests, q.Clocked) :
    (requests.foldlM (serveDates bonus codes) subs).isSome ↔
      ∀ before q after, requests = before ++ q :: after →
        ∀ subs', before.foldlM (serveDates bonus codes) subs = some subs' →
          q.HasRoom bonus codes subs' := by
  rw [isSome_foldlM_iff]
  refine forall_congr' fun before => forall_congr' fun q => forall_congr' fun after => ?_
  refine forall_congr' fun heq => forall_congr' fun subs' => forall_congr' fun hbefore => ?_
  have hmem : ∀ p ∈ before ++ q :: after, p.Clocked := heq ▸ hclocks
  -- the requests before it have left dates of the calendar
  have hsubs' : subs'.Dated := foldlM_sound
    (fun p hp _ _ hserve hdated => dated_of_serveDates hdated (hmem p (by simp [hp])) hserve)
    hbefore hsubs
  exact isSome_serveDates_iff hsubs' (hmem q (by simp))

/-- One subscription, until November 2023, with the code `code`. -/
def datedSubs : Subscriptions :=
  (∅ : Table Uuid Subscription).put 7
    ⟨7, some 1700000000000000000, none, "code", 0, 0, false, none, none⟩

lemma dated_datedSubs : datedSubs.Dated := by
  intro id sub hget e he
  rw [datedSubs, Table.get_put] at hget
  split_ifs at hget
  · obtain rfl := Option.some.inj hget
    obtain rfl := Option.some.inj he
    exact ⟨by decide, by decide⟩
  · cases hget

/-- An update by `n` days. -/
def putDays (n : ℤ) : DateRequest := .put 7 ⟨none, none, some n, none⟩ 1690000000000000000

/-- A registration for `n` days with the code `code`, whose owner has a row with the given
expiry. -/
def postDays (n : ℤ) (rowExpiry : DateTime) : DateRequest :=
  .post ⟨some "code", none, some n, none⟩
    ⟨9, [], 1690000000000000000, some ⟨some rowExpiry, 1690000000000000000, true⟩,
      1690000000000000000, 1690000000000000000, true⟩

lemma clocked_postDays {n : ℤ} {rowExpiry : DateTime} (h : InUtc rowExpiry) :
    (postDays n rowExpiry).Clocked := by
  have hnow : InUtc 1690000000000000000 := ⟨by decide, by decide⟩
  refine ⟨hnow, hnow, fun row hrow => ?_⟩
  obtain rfl := Option.some.inj hrow
  exact ⟨hnow, fun e he => Option.some.inj he ▸ h⟩

/-- A month for the subscription and a month for a new one: the calendar has room for both. -/
theorem all_dates_served_month :
    datedSubs.Dated ∧ (∀ q ∈ [putDays 30, postDays 30 1700000000000000000], q.Clocked) ∧
      ∀ before q after, [putDays 30, postDays 30 1700000000000000000] = before ++ q :: after →
        ∀ subs', before.foldlM (serveDates 5 []) datedSubs = some subs' → q.HasRoom 5 [] subs' := by
  have hclocks : ∀ q ∈ [putDays 30, postDays 30 1700000000000000000], q.Clocked := by
    intro q hq
    rcases List.mem_pair.mp hq with rfl | rfl
    · exact ⟨by decide, by decide⟩
    · exact clocked_postDays ⟨by decide, by decide⟩
  exact ⟨dated_datedSubs, hclocks,
    (all_dates_served_iff 5 [] datedSubs [putDays 30, postDays 30 1700000000000000000]
      dated_datedSubs hclocks).mp (by decide +kernel)⟩

/-- **Days that are too many**: a date behind the calendar, a duration that is too long, a sum
with the bonus that overflows, and a bonus for which the row of the owner has no room. -/
theorem not_served_too_many_days :
    datedSubs.Dated ∧ (putDays 100000000).Clocked ∧ (putDays i64Max).Clocked ∧
      (postDays i64Max 1700000000000000000).Clocked ∧ (postDays 30 maxUtc).Clocked ∧
      (serveDates 5 [] datedSubs (putDays 100000000)).isSome = false ∧
      (serveDates 5 [] datedSubs (putDays i64Max)).isSome = false ∧
      (serveDates 5 [] datedSubs (postDays i64Max 1700000000000000000)).isSome = false ∧
      (serveDates 5 [] datedSubs (postDays 30 maxUtc)).isSome = false := by
  have hnow : InUtc 1690000000000000000 := ⟨by decide, by decide⟩
  exact ⟨dated_datedSubs, hnow, hnow, clocked_postDays ⟨by decide, by decide⟩,
    clocked_postDays ⟨by decide, by decide⟩, by decide +kernel, by decide +kernel,
    by decide +kernel, by decide +kernel⟩

end Fcore
