import Fcore.Api.ConnRows
import Fcore.Api.World
import Fcore.Calculus.Text

/-!
Subscriptions and their rows (`src/memory/subscription.rs`,
`src/bin/api/postgres/subscription.rs`).

The memory keeps the texts of a request as they came and expiries to the nanosecond.
The table cuts and pads texts, keeps whole microseconds, and has a column for the
traffic limit that no statement writes.

* `trim_of_fitVarchar`, `trim_of_fitChar`: a text that a column takes is the same
  after trimming;
* `StoredAs`: a row is the row of a subscription;
* `storedAs_subRow`, `StoredAs.update`, `StoredAs.credit`: so it stays when both are
  written;
* `SameSub`: what a reload is to leave as it was; `StoredAs.sameSub_iff`: the row is
  the same subscription exactly if this has no limit.
-/

namespace Fcore

open Calculus

/-! ### Texts -/

lemma trim_eq_strip (s : String) : trim s = String.ofList (strip isWhitespace s.toList) := rfl

lemma trim_trim (s : String) : trim (trim s) = trim s := by
  rw [trim_eq_strip (trim s), trim_eq_strip s, String.toList_ofList, strip_strip]

/-- Blanks after a text are trimmed away. -/
lemma trim_ofList_append {b : List Char} (hb : ∀ c ∈ b, c = ' ') (l : List Char) :
    trim (String.ofList (l ++ b)) = trim (String.ofList l) := by
  have hwhite : ∀ c ∈ b, isWhitespace c = true := by
    intro c hc
    rw [hb c hc]
    rfl
  rw [trim_eq_strip, trim_eq_strip, String.toList_ofList, String.toList_ofList,
    strip_append hwhite]

/-- A text without an excess that is blank. -/
lemma trim_take {n : ℕ} {s : String} (h : (s.toList.drop n).all (· == ' ') = true) :
    trim (String.ofList (s.toList.take n)) = trim s := by
  have hblank : ∀ c ∈ s.toList.drop n, c = ' ' := by simpa using h
  have hsplit : s = String.ofList (s.toList.take n ++ s.toList.drop n) := by
    rw [List.take_append_drop, String.ofList_toList]
  calc trim (String.ofList (s.toList.take n))
      = trim (String.ofList (s.toList.take n ++ s.toList.drop n)) :=
        (trim_ofList_append hblank _).symm
    _ = trim s := by rw [← hsplit]

lemma trim_of_fitVarchar {n : ℕ} {s s' : String} (h : fitVarchar n s = .ok s') :
    trim s' = trim s := by
  rw [fitVarchar] at h
  split_ifs at h with hblank
  rw [← Except.ok.inj h]
  exact trim_take hblank

lemma trim_of_fitChar {n : ℕ} {s s' : String} (h : fitChar n s = .ok s') : trim s' = trim s := by
  rw [fitChar] at h
  split_ifs at h with hblank
  rw [← Except.ok.inj h, trim_ofList_append fun c hc => (List.mem_replicate.mp hc).2]
  exact trim_take hblank

/-! ### Rows -/

/-- The row of a subscription. -/
structure StoredAs (sub row : Subscription) : Prop where
  expiresAt : Option.Rel (fun e e' => SameMicros e' e ∧ pgRound e' = e') sub.expiresAt row.expiresAt
  referredBy : row.referredByTrimmed = sub.referredByTrimmed
  referCode : row.referCodeTrimmed = sub.referCodeTrimmed
  limitBytes : row.limitBytes = none
  live : row.isDeleted = false

lemma map_trim_of_rel {r r' : Option String}
    (h : Option.Rel (fun s s' => fitVarchar 13 s = .ok s') r r') : r'.map trim = r.map trim := by
  cases h with
  | none => rfl
  | some hfit => rw [Option.map_some, Option.map_some, trim_of_fitVarchar hfit]

/-- An expiry and what its column keeps. -/
lemma rel_map_pgRound (o : Option DateTime) :
    Option.Rel (fun e e' => SameMicros e' e ∧ pgRound e' = e') o (o.map pgRound) := by
  cases o with
  | none => exact .none
  | some e => exact .some ⟨sameMicros_pgRound e, pgRound_idem e⟩

/-- `PgSubscription::create` writes the row of a subscription. -/
lemma storedAs_subRow {sub row : Subscription} {now : DateTime} (h : Db.subRow sub now = .ok row) :
    StoredAs sub row := by
  obtain ⟨r, hr, h⟩ := referrer_of_bind_eq_ok h
  obtain ⟨c, hc, h⟩ := of_bind_eq_ok h
  rw [← Except.ok.inj h]
  exact ⟨rel_map_pgRound sub.expiresAt, map_trim_of_rel hr, trim_of_fitChar hc, rfl, rfl⟩

/-- A limit is set or stays. -/
lemma Subscription.update_limitBytes (sub : Subscription) (req : SubReq) (now : DateTime) :
    (sub.update req now).limitBytes = req.limitBytes.or sub.limitBytes := by
  simp only [Subscription.update]
  cases req.days <;> cases req.referredBy <;> cases req.referCode <;> cases req.limitBytes <;> rfl

/-- `update_sub` on both sides. -/
lemma StoredAs.update {sub row row' : Subscription} {req : SubReq} {now now' v : DateTime}
    (h : StoredAs sub row) (hv : (sub.update req now).expiresAt = some v)
    (hrow : Db.subRowUpdate row v (sub.update req now).referredByTrimmed
      (sub.update req now).referCodeTrimmed now' = .ok row') :
    StoredAs (sub.update req now) row' := by
  obtain ⟨r, hr, hrow⟩ := referrer_of_bind_eq_ok hrow
  obtain ⟨c, hc, hrow⟩ := of_bind_eq_ok hrow
  rw [← Except.ok.inj hrow]
  refine ⟨?_, ?_, ?_, h.limitBytes, h.live⟩
  · rw [hv]
    exact .some ⟨sameMicros_pgRound v, pgRound_idem v⟩
  · have htrim : (sub.update req now).referredByTrimmed.map trim =
        (sub.update req now).referredByTrimmed := by
      rw [Subscription.referredByTrimmed, Option.map_map]
      exact Option.map_congr fun s _ => trim_trim s
    exact (map_trim_of_rel hr).trans htrim
  · exact (trim_of_fitChar hc).trans (trim_trim _)

/-- The fields that a credit leaves alone. -/
lemma Subscription.credit_eq (sub : Subscription) (n : ℤ) (now : DateTime) :
    ∃ e t, sub.credit n now = { sub with expiresAt := e, updatedAt := t } := by
  simp only [Subscription.credit, Subscription.setExpiresAt]
  split_ifs
  · exact ⟨sub.expiresAt, sub.updatedAt, rfl⟩
  · exact ⟨_, now, rfl⟩

/-- A credit in memory before the expiry. -/
lemma Subscription.credit_of_lt {sub : Subscription} {n : ℤ} (hn : 0 ≤ n) {e now : DateTime}
    (he : sub.expiresAt = some e) (hnow : now < e) :
    (sub.credit n now).expiresAt = some (e + days n) := by
  have hdays : 0 ≤ days n := mul_nonneg hn (by norm_num)
  have hlater : ¬ e + days n ≤ now := by
    rw [not_le]
    exact hnow.trans_le (le_add_of_nonneg_right hdays)
  simp only [Subscription.credit, he, if_pos hnow, Subscription.setExpiresAt, if_neg hlater]

/-- `add_days` on both sides, before the expiry on either. -/
lemma StoredAs.credit {sub row : Subscription} {n : ℤ} (h : StoredAs sub row) (hn : 0 ≤ n)
    {e e' now now' : DateTime} (he : sub.expiresAt = some e) (hnow : now < e)
    (he' : row.expiresAt = some e') (hnow' : now' < e') :
    StoredAs (sub.credit n now) (Db.subRowCredit row n now') := by
  have hexp := h.expiresAt
  rw [he, he'] at hexp
  obtain ⟨hsame, hround⟩ : SameMicros e' e ∧ pgRound e' = e' := by
    cases hexp with
    | some hboth => exact hboth
  have hdb : (Db.subRowCredit row n now').expiresAt = some (e' + days n) := by
    simp only [Db.subRowCredit, he', if_pos hnow', pgRound_add_days hround]
  obtain ⟨x, t, hcredit⟩ := sub.credit_eq n now
  refine ⟨?_, ?_, ?_, h.limitBytes, h.live⟩
  · rw [Subscription.credit_of_lt hn he hnow, hdb]
    refine .some ⟨?_, pgRound_add_days hround n⟩
    rwa [SameMicros, add_sub_add_right_eq_sub]
  · rw [hcredit]
    exact h.referredBy
  · rw [hcredit]
    exact h.referCode

/-! ### Statements -/

section Statements

variable {i : Input} {db : Db} {id : Uuid} {row : Subscription}

lemma subCreate_ok {sub : Subscription} (h : (Sql.run (.subCreate sub) i db).2 = .ok row) :
    db.subscriptions.get sub.id = none ∧ Db.subRow sub i.now = .ok row ∧
      (Sql.run (.subCreate sub) i db).1.subscriptions = db.subscriptions.put sub.id row := by
  simp only [Sql.run, Db.subCreate] at h ⊢
  split_ifs at h ⊢ with hi hsome
  rw [Bool.not_eq_true, Option.isSome_eq_false_iff, Option.isNone_iff_eq_none] at hsome
  refine ⟨hsome, ?_⟩
  cases hrow : Db.subRow sub i.now with
  | error text =>
      rw [hrow] at h
      cases h
  | ok row' =>
      rw [hrow] at h
      rw [Except.ok.inj h]
      exact ⟨rfl, rfl⟩

lemma subUpdate_ok {v : DateTime} {r : Option String} {c : String}
    (h : (Sql.run (.subUpdate id v r c) i db).2 = .ok row) :
    ∃ old, db.subscriptions.get id = some old ∧ Db.subRowUpdate old v r c i.now = .ok row ∧
      (Sql.run (.subUpdate id v r c) i db).1.subscriptions = db.subscriptions.put id row := by
  simp only [Sql.run, Db.subUpdate] at h ⊢
  split_ifs at h ⊢
  cases hget : db.subscriptions.get id with
  | none =>
      rw [hget] at h
      cases h
  | some old =>
      rw [hget] at h
      simp only at h ⊢
      cases hrow : Db.subRowUpdate old v r c i.now with
      | error text =>
          rw [hrow] at h
          cases h
      | ok row' =>
          rw [hrow] at h
          obtain rfl : row' = row := Except.ok.inj h
          exact ⟨old, rfl, hrow, rfl⟩

/-- An update that fails changes nothing. -/
lemma subUpdate_error {v : DateTime} {r : Option String} {c : String} {e : Error}
    (h : (Sql.run (.subUpdate id v r c) i db).2 = .error e) :
    (Sql.run (.subUpdate id v r c) i db).1 = db := by
  simp only [Sql.run, Db.subUpdate] at h ⊢
  split_ifs at h ⊢
  · cases hget : db.subscriptions.get id with
    | none => rfl
    | some old =>
        rw [hget] at h
        simp only at h ⊢
        cases hrow : Db.subRowUpdate old v r c i.now with
        | error text => rfl
        | ok row =>
            rw [hrow] at h
            cases h
  · rfl

lemma subAddDays_ok {n : ℤ} (h : (Sql.run (.subAddDays id n) i db).2 = .ok row) :
    ∃ old, db.subscriptions.get id = some old ∧
      (Sql.run (.subAddDays id n) i db).1.subscriptions =
        db.subscriptions.put id (Db.subRowCredit old n i.now) := by
  simp only [Sql.run, Db.subAddDays] at h ⊢
  split_ifs at h ⊢
  cases hget : db.subscriptions.get id with
  | none =>
      rw [hget] at h
      cases h
  | some old => exact ⟨old, rfl, rfl⟩

end Statements

/-! ### Reloads -/

/-- What a reload is to leave as it was. -/
structure SameSub (old new : Subscription) : Prop where
  expiresAt : Option.Rel SameMicros old.expiresAt new.expiresAt
  referredBy : new.referredByTrimmed = old.referredByTrimmed
  referCode : new.referCodeTrimmed = old.referCodeTrimmed
  limitBytes : new.limitBytes = old.limitBytes

lemma sameMicros_comm {a b : DateTime} : SameMicros a b ↔ SameMicros b a := by
  rw [SameMicros, SameMicros, abs_sub_comm]

/-- The row of a subscription is the same subscription, up to the limit. -/
lemma StoredAs.sameSub_iff {sub row : Subscription} (h : StoredAs sub row) (id : Uuid) :
    SameSub sub { row with id := id } ↔ sub.limitBytes = none := by
  constructor
  · intro hsame
    exact hsame.limitBytes.symm.trans h.limitBytes
  · intro hlimit
    refine ⟨?_, h.referredBy, h.referCode, h.limitBytes.trans hlimit.symm⟩
    have hexp := h.expiresAt
    show Option.Rel SameMicros sub.expiresAt row.expiresAt
    generalize sub.expiresAt = o at hexp ⊢
    generalize row.expiresAt = o' at hexp ⊢
    cases hexp with
    | none => exact .none
    | some hboth => exact .some (sameMicros_comm.mp hboth.1)

end Fcore
