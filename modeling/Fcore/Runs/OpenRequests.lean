import Fcore.Runs.DurableDeletes
import Fcore.Runs.Routes
import Fcore.Runs.TrialOverlap

/-!
What requests without the token can do (`src/bin/api/http/routes.rs`,
`src/bin/api/http/handlers/trial.rs`, `src/bin/api/http/handlers/key.rs`).

* `Spares`: what was there stays: connections and rows with all their data, live ones live,
  subscriptions with no earlier expiry, keys, identities, and nothing is published to be deleted;
* `openProtocol`: a request without the token adds, restores and credits, and puts a new
  subscription into memory after its row;
* `keeps_openInv`: one step of it spares what was there;
* `open_requests_take_nothing`: so do any such requests, interleaved step by step, whatever
  fails.
-/

namespace Fcore

open Calculus
open Calculus.Prog (perform)
open Machine (exec)

/-! ### What is spared -/

/-- The connection with all its data, and live if it was. -/
def SparedConn (c c' : Conn) : Prop :=
  { c' with isDeleted := c.isDeleted, modifiedAt := c.modifiedAt } = c ∧
    (c'.isDeleted = true → c.isDeleted = true)

def SparedRow (r r' : ConnRow) : Prop :=
  { r' with isDeleted := r.isDeleted } = r ∧ (r'.isDeleted = true → r.isDeleted = true)

/-- The subscription with all its data and no earlier expiry, as a column keeps it. -/
def SparedSub (s s' : Subscription) : Prop :=
  { s' with expiresAt := s.expiresAt, updatedAt := s.updatedAt } = s ∧
    ∀ t, s.expiresAt = some t → ∃ t', s'.expiresAt = some t' ∧ pgRound t ≤ pgRound t'

/-- The key with its code and its days, and activated if it was. -/
def SparedKey (k k' : Key) : Prop :=
  { k' with activated := k.activated, subscriptionId := k.subscriptionId,
            modifiedAt := k.modifiedAt } = k ∧ (k.activated = true → k'.activated = true)

/-- What was there before is there afterwards. -/
structure Spares (w w' : World) : Prop where
  connections : w.memory.connections.Preserves SparedConn w'.memory.connections
  rows : w.db.connections.Preserves SparedRow w'.db.connections
  subscriptions : w.memory.subscriptions.Preserves SparedSub w'.memory.subscriptions
  subRows : w.db.subscriptions.Preserves SparedSub w'.db.subscriptions
  keys : w.db.keys.Preserves SparedKey w'.db.keys
  identities : w.store.Preserves (fun _ _ => True) w'.store
  file : w.file <+: w'.file
  bus : ∃ news, w'.bus = news ++ w.bus ∧ ∀ e ∈ news, ∀ m ∈ e.2, m.action ≠ .delete

lemma SparedConn.refl (c : Conn) : SparedConn c c := ⟨rfl, id⟩

lemma SparedConn.trans {c c' c'' : Conn} (h : SparedConn c c') (h' : SparedConn c' c'') :
    SparedConn c c'' := by
  obtain ⟨hdata, hlive⟩ := h
  obtain ⟨hdata', hlive'⟩ := h'
  rw [← hdata'] at hdata
  exact ⟨hdata, fun hdel => hlive (hlive' hdel)⟩

lemma SparedRow.refl (r : ConnRow) : SparedRow r r := ⟨rfl, id⟩

lemma SparedRow.trans {r r' r'' : ConnRow} (h : SparedRow r r') (h' : SparedRow r' r'') :
    SparedRow r r'' := by
  obtain ⟨hdata, hlive⟩ := h
  obtain ⟨hdata', hlive'⟩ := h'
  rw [← hdata'] at hdata
  exact ⟨hdata, fun hdel => hlive (hlive' hdel)⟩

lemma SparedSub.refl (s : Subscription) : SparedSub s s := ⟨rfl, fun t ht => ⟨t, ht, le_rfl⟩⟩

lemma SparedSub.trans {s s' s'' : Subscription} (h : SparedSub s s') (h' : SparedSub s' s'') :
    SparedSub s s'' := by
  obtain ⟨hdata, hlater⟩ := h
  obtain ⟨hdata', hlater'⟩ := h'
  refine ⟨?_, fun t ht => ?_⟩
  · rw [← hdata'] at hdata
    exact hdata
  · obtain ⟨t', ht', hle⟩ := hlater t ht
    obtain ⟨t'', ht'', hle'⟩ := hlater' t' ht'
    exact ⟨t'', ht'', hle.trans hle'⟩

lemma SparedKey.refl (k : Key) : SparedKey k k := ⟨rfl, id⟩

lemma SparedKey.trans {k k' k'' : Key} (h : SparedKey k k') (h' : SparedKey k' k'') :
    SparedKey k k'' := by
  obtain ⟨hdata, hused⟩ := h
  obtain ⟨hdata', hused'⟩ := h'
  rw [← hdata'] at hdata
  exact ⟨hdata, fun hact => hused' (hused hact)⟩

lemma Spares.refl (w : World) : Spares w w where
  connections := .refl SparedConn.refl
  rows := .refl SparedRow.refl
  subscriptions := .refl SparedSub.refl
  subRows := .refl SparedSub.refl
  keys := .refl SparedKey.refl
  identities := .refl fun _ => trivial
  file := List.prefix_rfl
  bus := ⟨[], rfl, fun _ he => absurd he List.not_mem_nil⟩

lemma Spares.trans {w w' w'' : World} (h : Spares w w') (h' : Spares w' w'') : Spares w w'' where
  connections := h.connections.trans SparedConn.trans h'.connections
  rows := h.rows.trans SparedRow.trans h'.rows
  subscriptions := h.subscriptions.trans SparedSub.trans h'.subscriptions
  subRows := h.subRows.trans SparedSub.trans h'.subRows
  keys := h.keys.trans SparedKey.trans h'.keys
  identities := h.identities.trans (fun _ _ => trivial) h'.identities
  file := h.file.trans h'.file
  bus := by
    obtain ⟨news, hnews, hkind⟩ := h.bus
    obtain ⟨news', hnews', hkind'⟩ := h'.bus
    refine ⟨news' ++ news, by rw [hnews', hnews, List.append_assoc], fun e he => ?_⟩
    rcases List.mem_append.mp he with hin | hin
    · exact hkind' e hin
    · exact hkind e hin

/-! ### What one step spares -/

/-- Rounding keeps the order. -/
lemma pgRound_mono {t t' : DateTime} (h : t ≤ t') : pgRound t ≤ pgRound t' := by
  have hdiv : Int.tdiv (t - pgEpoch) 1000 ≤ Int.tdiv (t' - pgEpoch) 1000 :=
    Int.tdiv_le_tdiv (by norm_num) (Int.sub_le_sub_right h pgEpoch)
  rw [pgRound, pgRound]
  exact Int.add_le_add_left (Int.mul_le_mul_of_nonneg_left hdiv (by norm_num)) pgEpoch

/-- A credit of no negative number of days makes no expiry earlier. -/
lemma sparedSub_credit {n : ℤ} (hn : 0 ≤ n) (s : Subscription) (now : DateTime) :
    SparedSub s (s.credit n now) := by
  have hdays : 0 ≤ days n := Int.mul_nonneg hn (by norm_num)
  obtain ⟨id, expiresAt, referredBy, referCode, createdAt, updatedAt, isDeleted, limit, down⟩ := s
  simp only [Subscription.credit, Subscription.setExpiresAt]
  split_ifs with hle
  · exact SparedSub.refl _
  · refine ⟨rfl, fun t ht => ?_⟩
    dsimp only at ht
    subst ht
    refine ⟨_, rfl, pgRound_mono ?_⟩
    dsimp only
    split_ifs with hlt
    · exact Int.le_add_of_nonneg_right hdays
    · exact le_trans (not_lt.mp hlt) (Int.le_add_of_nonneg_right hdays)

lemma sparedSub_subRowCredit {n : ℤ} (hn : 0 ≤ n) (row : Subscription) (now : DateTime) :
    SparedSub row (Db.subRowCredit row n now) := by
  have hdays : 0 ≤ days n := Int.mul_nonneg hn (by norm_num)
  refine ⟨rfl, fun t ht => ⟨_, rfl, ?_⟩⟩
  rw [pgRound_idem, ht]
  refine pgRound_mono ?_
  dsimp only
  split_ifs with hlt
  · exact Int.le_add_of_nonneg_right hdays
  · exact le_trans (not_lt.mp hlt) (Int.le_add_of_nonneg_right hdays)

/-- A request without the token adds, restores and credits.  The account has the subscriptions
whose rows it has written and that it has still to put into memory. -/
def openProtocol : Protocol Call (Multiset Uuid) where
  admits
    | _, .sql (.keyGet _), b => ∀ k, b = some k → 0 ≤ k.days
    | _, _, _ => True
  may
    | _, .look _, _ | _, .mail _, _ | _, .ask _, _ => True
    | _, .bus (.publish _ messages), _ => ∀ m ∈ messages, m.action ≠ .delete
    | _, .sql (.connInsert _), _ | _, .sql (.connRestore _), _ | _, .sql (.subCreate _), _ => True
    | _, .sql (.keyGet _), _ | _, .sql (.keyActivate _), _ => True
    | _, .sql (.subAddDays _ n), _ => 0 ≤ n
    | _, .edit (.connAdd _ _), _ => True
    | _, .edit (.setDeleted _ v), _ => v = false
    | _, .edit (.subAdd sub), a => sub.id ∈ a
    | _, .edit (.credit _ n), _ => 0 ≤ n
    | _, _, _ => False
  moves
    | _, .sql (.subCreate sub), .ok _, a, a' => a' = sub.id ::ₘ a
    | _, .edit (.subAdd sub), _, a, a' => a = sub.id ::ₘ a'
    | _, _, _, a, a' => a' = a

/-- What was there is spared, no key takes days away, the subscriptions in memory have rows, and
those still to come are in the database, not in memory, and each comes once. -/
structure OpenInv (w₀ w : World) (a : Multiset Uuid) : Prop where
  spares : Spares w₀ w
  keys : ∀ {id k}, w.db.keys.get id = some k → 0 ≤ k.days
  rows : ∀ id, (w.memory.subscriptions.get id).isSome → (w.db.subscriptions.get id).isSome
  owed : ∀ id ∈ a, (w.db.subscriptions.get id).isSome ∧ w.memory.subscriptions.get id = none
  once : a.Nodup

section Steps

variable {w₀ w w' : World} {a : Multiset Uuid}

/-- The invariant is about the subscriptions and keys, beside what is spared. -/
lemma OpenInv.frame (h : OpenInv w₀ w a) (hspares : Spares w w')
    (hmem : w'.memory.subscriptions = w.memory.subscriptions)
    (hsubs : w'.db.subscriptions = w.db.subscriptions) (hkeys : w'.db.keys = w.db.keys) :
    OpenInv w₀ w' a where
  spares := h.spares.trans hspares
  keys := by rw [hkeys]; exact h.keys
  rows := by rw [hmem, hsubs]; exact h.rows
  owed := by rw [hmem, hsubs]; exact h.owed
  once := h.once

/-- A publication of creations and updates. -/
lemma OpenInv.publish (h : OpenInv w₀ w a) {topic : Topic} {messages : List Message}
    (hkind : ∀ m ∈ messages, m.action ≠ .delete) (i : Input) :
    OpenInv w₀ (Call.execBus (.publish topic messages) i w).1 a := by
  rw [Call.execBus]
  split_ifs
  · refine h.frame { Spares.refl w with bus := ⟨[(topic, messages)], rfl, ?_⟩ } rfl rfl rfl
    intro e he
    rw [List.mem_singleton.mp he]
    exact hkind
  · exact h

/-- A step on the identity store. -/
lemma OpenInv.mail (h : OpenInv w₀ w a) {β : Type} (m : Mail β) (i : Input) :
    OpenInv w₀ (Call.execMail m i w).1 a := by
  cases m with
  | has hmac => exact h
  | save hmac time =>
      refine h.frame { Spares.refl w with identities := ?_ } rfl rfl rfl
      exact Table.preserves_put (fun _ => trivial) fun _ _ => trivial
  | append line =>
      rw [Call.execMail]
      split_ifs
      · exact h.frame { Spares.refl w with file := List.prefix_append _ _ } rfl rfl rfl
      · exact h

/-- A new row. -/
lemma OpenInv.connInsert (h : OpenInv w₀ w a) (row : ConnRow) (i : Input) :
    OpenInv w₀ { w with db := (Sql.run (.connInsert row) i w.db).1 } a := by
  rcases connInsert_cases row i w.db with ⟨hdb, -⟩ | ⟨hnone, hdb, -⟩
  · rw [hdb]
    exact h
  · rw [hdb]
    refine h.frame { Spares.refl w with rows := ?_ } rfl rfl rfl
    exact Table.preserves_put SparedRow.refl fun r hr => absurd (hr.symm.trans hnone) (by simp)

/-- A restored row. -/
lemma OpenInv.connRestore (h : OpenInv w₀ w a) (id : Uuid) (i : Input) :
    OpenInv w₀ { w with db := (Sql.run (.connRestore id) i w.db).1 } a := by
  simp only [Sql.run]
  split_ifs
  · refine h.frame { Spares.refl w with rows := ?_ } rfl rfl rfl
    exact Table.preserves_change SparedRow.refl id fun r => ⟨rfl, fun hdel => absurd hdel (by simp)⟩
  · exact h

/-- The row of a new subscription is owed to the memory. -/
lemma OpenInv.subCreate (h : OpenInv w₀ w a) (sub : Subscription) (i : Input) :
    (∃ e, (Sql.run (.subCreate sub) i w.db).2 = .error e ∧
      OpenInv w₀ { w with db := (Sql.run (.subCreate sub) i w.db).1 } a) ∨
    ∃ row, (Sql.run (.subCreate sub) i w.db).2 = .ok row ∧
      OpenInv w₀ { w with db := (Sql.run (.subCreate sub) i w.db).1 } (sub.id ::ₘ a) := by
  rcases subCreate_cases sub i w.db with ⟨hdb, e, hr⟩ | ⟨hnone, row, hdb, hr⟩
  · rw [hdb]
    exact .inl ⟨e, hr, h⟩
  · rw [hdb]
    refine .inr ⟨row, hr, ?_⟩
    have hspares : Spares w { w with
        db := { w.db with subscriptions := w.db.subscriptions.put sub.id row } } :=
      { Spares.refl w with
        subRows := Table.preserves_put SparedSub.refl fun v hv =>
          absurd (hv.symm.trans hnone) (by simp) }
    have hsome : ∀ id, ((w.db.subscriptions.put sub.id row).get id).isSome ↔
        id = sub.id ∨ (w.db.subscriptions.get id).isSome := by
      intro id
      rw [Table.get_put]
      split_ifs with hid <;> simp [hid]
    -- without a row the subscription is neither in memory nor owed
    have hout : w.memory.subscriptions.get sub.id = none := by
      cases hget : w.memory.subscriptions.get sub.id with
      | none => rfl
      | some s =>
          have hrow := h.rows sub.id (by rw [hget]; rfl)
          rw [hnone] at hrow
          cases hrow
    refine ⟨h.spares.trans hspares, h.keys,
      fun id hid => (hsome id).mpr (.inr (h.rows id hid)), ?_, ?_⟩
    · intro id hid
      rcases Multiset.mem_cons.mp hid with rfl | hin
      · exact ⟨(hsome sub.id).mpr (.inl rfl), hout⟩
      · exact ⟨(hsome id).mpr (.inr (h.owed id hin).1), (h.owed id hin).2⟩
    · refine Multiset.nodup_cons.mpr ⟨fun hin => ?_, h.once⟩
      have hrow := (h.owed sub.id hin).1
      rw [hnone] at hrow
      cases hrow

/-- An owed subscription is put into memory, where none is lost by it. -/
lemma OpenInv.subAdd {sub : Subscription} (h : OpenInv w₀ w (sub.id ::ₘ a)) :
    OpenInv w₀ { w with memory := { w.memory with
      subscriptions := (w.memory.subscriptions.add sub).1 } } a := by
  obtain ⟨hrow, hnone⟩ := h.owed sub.id (Multiset.mem_cons_self _ _)
  obtain ⟨hnotin, honce⟩ := Multiset.nodup_cons.mp h.once
  have hget := Subscriptions.get_add w.memory.subscriptions sub
  refine ⟨h.spares.trans { Spares.refl w with subscriptions := ?_ }, h.keys, fun id hid => ?_,
    fun id hid => ?_, honce⟩
  · intro id s hs
    refine ⟨s, ?_, SparedSub.refl s⟩
    rw [hget, if_neg, hs]
    rintro rfl
    rw [hnone] at hs
    cases hs
  · rw [hget] at hid
    split_ifs at hid with heq
    · exact heq ▸ hrow
    · exact h.rows id hid
  · obtain ⟨hsome, hout⟩ := h.owed id (Multiset.mem_cons_of_mem hid)
    refine ⟨hsome, ?_⟩
    rw [hget, if_neg, hout]
    rintro rfl
    exact hnotin hid

/-- A credit in memory. -/
lemma OpenInv.credit (h : OpenInv w₀ w a) {n : ℤ} (hn : 0 ≤ n) (id : Uuid) (now : DateTime) :
    OpenInv w₀ { w with memory := { w.memory with
      subscriptions := w.memory.subscriptions.change id fun s => s.credit n now } } a := by
  have hnone : ∀ id', (w.memory.subscriptions.change id fun s => s.credit n now).get id' = none ↔
      w.memory.subscriptions.get id' = none := by
    intro id'
    rw [Table.get_change]
    split_ifs with hid
    · rw [Option.map_eq_none_iff, hid]
    · exact Iff.rfl
  refine ⟨h.spares.trans { Spares.refl w with subscriptions := ?_ }, h.keys, fun id' hid => ?_,
    fun id' hid => ⟨(h.owed id' hid).1, (hnone id').mpr (h.owed id' hid).2⟩, h.once⟩
  · exact Table.preserves_change SparedSub.refl id fun s => sparedSub_credit hn s now
  · refine h.rows id' (Option.isSome_iff_ne_none.mpr fun hget => ?_)
    rw [(hnone id').mpr hget] at hid
    cases hid

/-- A credit in the database. -/
lemma OpenInv.subAddDays (h : OpenInv w₀ w a) {n : ℤ} (hn : 0 ≤ n) (id : Uuid) (i : Input) :
    OpenInv w₀ { w with db := (Sql.run (.subAddDays id n) i w.db).1 } a := by
  simp only [Sql.run, Db.subAddDays]
  split_ifs
  · cases hget : w.db.subscriptions.get id with
    | none => exact h
    | some row =>
        have hsome : ∀ id', (w.db.subscriptions.get id').isSome →
            ((w.db.subscriptions.put id (Db.subRowCredit row n i.now)).get id').isSome := by
          intro id' hid
          rw [Table.get_put]
          split_ifs
          · rfl
          · exact hid
        refine ⟨h.spares.trans { Spares.refl w with subRows := ?_ }, h.keys,
          fun id' hid => hsome id' (h.rows id' hid),
          fun id' hid => ⟨hsome id' (h.owed id' hid).1, (h.owed id' hid).2⟩, h.once⟩
        refine Table.preserves_put SparedSub.refl fun v hv => ?_
        obtain rfl := Option.some.inj (hget.symm.trans hv)
        exact sparedSub_subRowCredit hn row i.now
  · exact h

/-- A key is used up. -/
lemma OpenInv.keyActivate (h : OpenInv w₀ w a) (key : Key) (i : Input) :
    OpenInv w₀ { w with db := (Sql.run (.keyActivate key) i w.db).1 } a := by
  simp only [Sql.run, Db.keyActivate]
  split_ifs
  · refine ⟨h.spares.trans { Spares.refl w with keys := ?_ }, fun {id k} hk => ?_, h.rows, h.owed,
      h.once⟩
    · exact Table.preserves_change SparedKey.refl key.id fun k => ⟨rfl, fun _ => rfl⟩
    · rw [Table.get_change] at hk
      split_ifs at hk with hid
      · obtain ⟨k', hk', rfl⟩ := Option.map_eq_some_iff.mp hk
        have hdays : 0 ≤ k'.days := h.keys hk'
        exact hdays
      · exact h.keys hk
  · exact h

/-- A new connection in memory. -/
lemma OpenInv.connAdd (h : OpenInv w₀ w a) (id : Uuid) (c : Conn) :
    OpenInv w₀ { w with memory := { w.memory with
      connections := (Connections.add w.memory.connections id c).1 } } a := by
  refine h.frame { Spares.refl w with connections := ?_ } rfl rfl rfl
  exact Table.preserves_vacant SparedConn.refl id c

/-- A restored connection. -/
lemma OpenInv.undelete (h : OpenInv w₀ w a) (id : Uuid) (now : DateTime) :
    OpenInv w₀ { w with memory := { w.memory with
      connections := w.memory.connections.change id fun c => c.setDeleted false now } } a := by
  refine h.frame { Spares.refl w with connections := ?_ } rfl rfl rfl
  exact Table.preserves_change SparedConn.refl id fun c =>
    ⟨rfl, fun hdel => absurd hdel Bool.false_ne_true⟩

end Steps

/-- One step of any request without the token keeps the invariant. -/
lemma keeps_openInv (w₀ : World) :
    Keeps Rule.any openProtocol (fun _ a => a = 0) (OpenInv w₀) := by
  intro β c i w w' b a others gs _ hexec _ hmay hinv
  -- a step without a change of the account
  have hsame : OpenInv w₀ w' (a + gs.sum) → (∀ a', openProtocol.moves β c b a a' → a' = a) →
      ∀ a', openProtocol.moves β c b a a' → OpenInv w₀ w' (a' + gs.sum) := by
    intro hkept hmoves a' hm
    rw [hmoves a' hm]
    exact hkept
  cases c with
  | look r =>
      obtain ⟨-, rfl, -⟩ := exec_look.mp hexec
      exact ⟨trivial, hsame hinv fun _ hm => hm⟩
  | ask x =>
      obtain ⟨rfl, -⟩ := exec_ask.mp hexec
      exact ⟨trivial, hsame hinv fun _ hm => hm⟩
  | mail m =>
      obtain ⟨rfl, -⟩ := exec_mail.mp hexec
      exact ⟨trivial, hsame (hinv.mail m i) fun _ hm => hm⟩
  | bus p =>
      obtain ⟨rfl, -⟩ := exec_bus.mp hexec
      cases p with
      | publish topic messages =>
          exact ⟨trivial, hsame (hinv.publish hmay i) fun _ hm => hm⟩
  | guard g => cases hmay
  | within e => cases hmay
  | edit e =>
      obtain ⟨-, rfl, rfl⟩ := exec_edit.mp hexec
      cases e with
      | connAdd id c => exact ⟨trivial, hsame (hinv.connAdd id c) fun _ hm => hm⟩
      | setDeleted id v =>
          obtain rfl : v = false := hmay
          exact ⟨trivial, hsame (hinv.undelete id i.now) fun _ hm => hm⟩
      | subAdd sub =>
          refine ⟨trivial, fun a' hm => ?_⟩
          have hm : a = sub.id ::ₘ a' := hm
          rw [hm, Multiset.cons_add] at hinv
          exact hinv.subAdd
      | credit id n => exact ⟨trivial, hsame (hinv.credit hmay id i.now) fun _ hm => hm⟩
      | update id req => cases hmay
      | install m => cases hmay
  | sql q =>
      obtain ⟨rfl, rfl⟩ := exec_sql.mp hexec
      cases q with
      | connInsert row => exact ⟨trivial, hsame (hinv.connInsert row i) fun _ hm => hm⟩
      | connRestore id => exact ⟨trivial, hsame (hinv.connRestore id i) fun _ hm => hm⟩
      | subCreate sub =>
          refine ⟨trivial, fun a' hm => ?_⟩
          rcases hinv.subCreate sub i with ⟨e, hr, hkept⟩ | ⟨row, hr, hkept⟩
          · rw [hr] at hm
            rw [show a' = a from hm]
            exact hkept
          · rw [hr] at hm
            rw [show a' = sub.id ::ₘ a from hm, Multiset.cons_add]
            exact hkept
      | subAddDays id n => exact ⟨trivial, hsame (hinv.subAddDays hmay id i) fun _ hm => hm⟩
      | keyGet code =>
          refine ⟨fun k hk => ?_, hsame ?_ fun _ hm => hm⟩
          · simp only [Sql.run] at hk
            split_ifs at hk with hok
            obtain ⟨⟨id, k'⟩, hfind, rfl⟩ := Option.map_eq_some_iff.mp hk
            have hdays : 0 ≤ k'.days :=
              hinv.keys (Table.mem_iter.mp (List.mem_of_find?_eq_some hfind))
            exact hdays
          · have hdb : (Sql.run (.keyGet code) i w.db).1 = w.db := by
              simp only [Sql.run]
              split_ifs <;> rfl
            rw [hdb]
            exact hinv
      | keyActivate key => exact ⟨trivial, hsame (hinv.keyActivate key i) fun _ hm => hm⟩
      | connDelete | connAll | subUpdate | subAll | keyInsert => cases hmay

/-! ### The programs -/

/-- The steps that a request without the token may take at any time. -/
def OpenStep (β : Type) (c : Call β) : Prop :=
  openProtocol.may β c 0 ∧ ∀ b, openProtocol.moves β c b 0 0

/-- The programs of requests without the token: they owe nothing in the end. -/
def ObeysOpen {α : Type} (p : Api α) : Prop := Obeys openProtocol (fun _ a => a = 0) p 0

lemma obeysOpen_of_uses {α : Type} {p : Api α} (h : Uses OpenStep p) : ObeysOpen p :=
  Obeys.of_uses h fun _ _ hc => hc

lemma ObeysOpen.bind {α β : Type} {p : Api α} {f : α → Api β} (hp : ObeysOpen p)
    (hf : ∀ x, ObeysOpen (f x)) : ObeysOpen (p >>= f) := by
  refine Obeys.bind hp fun x a ha => ?_
  rw [ha]
  exact hf x

/-- Only creations are announced. -/
lemma openStep_publishCreated (connId : Uuid) (conn : Conn) :
    Uses OpenStep (publishCreated connId conn) := by
  rw [publishCreated]
  cases conn.createTopic with
  | none => exact trivial
  | some topic =>
      refine ⟨⟨fun m hm => ?_, fun _ => rfl⟩, fun _ => trivial⟩
      rw [List.mem_singleton.mp hm]
      rintro ⟨⟩

lemma openStep_restoreConnection (connId : Uuid) : Uses OpenStep (restoreConnection connId) := by
  refine ⟨⟨trivial, fun _ => rfl⟩, fun found => ?_⟩
  cases found with
  | none => exact trivial
  | some c =>
      refine ⟨⟨trivial, fun _ => rfl⟩, fun r => ?_⟩
      cases r with
      | error e => exact trivial
      | ok u => exact ⟨⟨rfl, fun _ => rfl⟩, fun _ => trivial⟩

/-- A connection is restored after an update of it has been published. -/
lemma openStep_restoreOne (e : Uuid × Conn) : Uses OpenStep (restoreOne e) := by
  refine ⟨⟨fun m hm => ?_, fun _ => rfl⟩, fun r => ?_⟩
  · rw [List.mem_singleton.mp hm]
    rintro ⟨⟩
  · cases r with
    | error err => exact trivial
    | ok u =>
        refine (openStep_restoreConnection e.1).bind fun r => ?_
        rcases r with err | st
        · exact trivial
        · cases st <;> exact trivial

lemma openStep_addDays (subId : Uuid) {n : ℤ} (hn : 0 ≤ n) : Uses OpenStep (addDays subId n) := by
  refine ⟨⟨trivial, fun _ => rfl⟩, fun wasInactive => ⟨⟨hn, fun _ => rfl⟩, fun found => ?_⟩⟩
  cases found with
  | false => exact trivial
  | true =>
      refine ⟨⟨hn, fun _ => rfl⟩, fun r => ?_⟩
      cases r with
      | error e => exact trivial
      | ok row =>
          cases wasInactive with
          | false => exact trivial
          | true =>
              refine Uses.bind (p := restoreConnectionsBySubscription subId) ?_ fun _ => trivial
              refine ⟨⟨trivial, fun _ => rfl⟩, fun es => ?_⟩
              cases es with
              | nil => exact trivial
              | cons e es =>
                  refine (Uses.joinAll ⟨trivial, fun _ => rfl⟩ fun p hp => ?_).bind fun _ => trivial
                  obtain ⟨e', -, rfl⟩ := List.mem_map.mp hp
                  exact openStep_restoreOne e'

lemma openStep_trialProto (net : IpAddrMask) (tag : Tag) : Uses OpenStep (trialProto net tag) := by
  cases tag with
  | wireguard | shadowsocks | mtproto | hysteria2 =>
      exact ⟨⟨trivial, fun _ => rfl⟩, fun _ => trivial⟩
  | vlessTcpReality | vlessGrpcReality | vlessXhttpReality | vmess => exact trivial

lemma openStep_addConn (connId : Uuid) (conn : Conn) : Uses OpenStep (addConn connId conn) := by
  refine ⟨⟨trivial, fun _ => rfl⟩, fun r => ?_⟩
  cases r with
  | error e => exact trivial
  | ok u =>
      refine ⟨⟨trivial, fun _ => rfl⟩, fun r => ?_⟩
      rcases r with e | st
      · exact trivial
      · cases st <;> exact trivial

lemma openStep_trialConns (net : IpAddrMask) (subId : Uuid) (pairs : List (Env × Tag)) :
    Uses OpenStep (trialConns net subId pairs) := by
  induction pairs with
  | nil => exact trivial
  | cons pair rest ih =>
      refine (openStep_trialProto net pair.2).bind fun r => ?_
      cases r with
      | error r => exact trivial
      | ok proto =>
          refine ⟨⟨trivial, fun _ => rfl⟩, fun now => ⟨⟨trivial, fun _ => rfl⟩, fun connId => ?_⟩⟩
          refine (openStep_addConn connId _).bind fun r => ?_
          rcases r with e | st
          · exact ih
          · cases st with
            | ok id => exact (openStep_publishCreated connId _).bind fun _ => ih
            | _ => exact ih

lemma openStep_of_mail {β : Type} {c : Call β} (h : MailCall β c) : OpenStep β c := by
  cases h
  exact ⟨trivial, fun _ => rfl⟩

/-- A new subscription is put into memory by the request that has written its row. -/
lemma obeysOpen_addSub (sub : Subscription) : ObeysOpen (addSub sub) := by
  refine ⟨trivial, fun r _ => ?_⟩
  cases r with
  | error e => exact ⟨0, rfl, rfl⟩
  | ok row =>
      refine ⟨{sub.id}, rfl, Multiset.mem_singleton_self _, fun st _ => ⟨0, rfl, ?_⟩⟩
      cases st <;> exact rfl

lemma obeysOpen_createTrial (cfg : TrialConfig) (req : Trial) (subId : Uuid) :
    ObeysOpen (createTrial cfg req subId) := by
  refine ⟨trivial, fun now _ => ⟨0, rfl, trivial, fun created _ => ⟨0, rfl, ?_⟩⟩⟩
  refine ObeysOpen.bind (p := addSub _) (obeysOpen_addSub _) fun r => ?_
  rcases r with e | st
  · exact rfl
  · cases st with
    | ok newSubId =>
        refine ObeysOpen.bind (obeysOpen_of_uses (openStep_trialConns _ _ _)) fun r => ?_
        cases r with
        | error r => exact rfl
        | ok u =>
            have hsave : ∀ email, Uses OpenStep (saveTrialHmac cfg email subId now
                (req.referredBy.getD "WEB")) := fun email =>
              (uses_saveTrialHmac cfg email subId now _).mono fun _ _ h => openStep_of_mail h
            exact ObeysOpen.bind (obeysOpen_of_uses (hsave _)) fun _ =>
              ObeysOpen.bind (obeysOpen_of_uses (hsave _)) fun _ => rfl
    | _ => exact rfl

/-- The owner of a code is owed no negative number of days. -/
lemma obeysOpen_referral {bonus : ℤ} (hbonus : 0 ≤ bonus) (referredBy : Option String)
    (codes : List String) (missing : String) :
    Obeys openProtocol (fun r a => a = 0 ∧ ∀ id n, r = .ok (some (id, n)) → 0 ≤ n)
      (referral referredBy codes bonus missing) 0 := by
  cases referredBy with
  | none => exact ⟨rfl, by rintro _ _ ⟨⟩⟩
  | some code =>
      refine ⟨trivial, fun owner _ => ⟨0, rfl, ?_⟩⟩
      cases owner with
      | none => exact ⟨rfl, by rintro _ _ ⟨⟩⟩
      | some id =>
          refine ⟨rfl, fun _ n hr => ?_⟩
          have hn : (if codes.contains code then 0 else bonus) = n :=
            congrArg Prod.snd (Option.some.inj (Except.ok.inj hr))
          rw [← hn]
          split_ifs
          · exact le_rfl
          · exact hbonus

lemma obeysOpen_postTrialHandler {cfg : TrialConfig} (hbonus : 0 ≤ cfg.bonus) (req : Trial) :
    ObeysOpen (postTrialHandler cfg req) := by
  have hcheck : ∀ email, ObeysOpen (checkEmailHmac cfg.hmac email) := fun email =>
    obeysOpen_of_uses ((uses_checkEmailHmac _ email).mono fun _ _ h => openStep_of_mail h)
  have hgrant : ObeysOpen (grantTrial cfg req) := by
    refine ⟨trivial, fun subId _ => ⟨0, rfl, ?_⟩⟩
    refine (obeysOpen_referral hbonus _ _ _).bind fun r a ha => ?_
    obtain ⟨rfl, hdays⟩ := ha
    rcases r with r | _ | ⟨id, bonusDays⟩
    · exact rfl
    · exact obeysOpen_createTrial cfg req subId
    · refine ObeysOpen.bind (obeysOpen_of_uses (openStep_addDays id (hdays id _ rfl))) fun r => ?_
      cases r with
      | error e => exact rfl
      | ok st => exact obeysOpen_createTrial cfg req subId
  rw [postTrialHandler]
  cases req.validate with
  | error e => exact rfl
  | ok u =>
      refine ObeysOpen.bind (hcheck _) fun known => ?_
      cases known with
      | true => exact rfl
      | false =>
          refine ObeysOpen.bind (hcheck _) fun known => ?_
          cases known with
          | true => exact rfl
          | false => exact ObeysOpen.bind hgrant fun _ => rfl

/-- The key that is read has no negative number of days. -/
lemma obeysOpen_postActivateKeyHandler (req : ActivateKeyReq) :
    ObeysOpen (postActivateKeyHandler req) := by
  refine ⟨trivial, fun found hfound => ⟨0, rfl, ?_⟩⟩
  cases found with
  | none => exact rfl
  | some key =>
      show ObeysOpen (if key.activated then _ else _)
      split
      · exact rfl
      · refine ObeysOpen.bind
          (obeysOpen_of_uses (openStep_addDays req.subscriptionId (hfound key rfl))) fun r => ?_
        rcases r with e | st
        · exact rfl
        · cases st with
          | updated id =>
              refine ⟨trivial, fun now _ => ⟨0, rfl, trivial, fun r _ => ⟨0, rfl, ?_⟩⟩⟩
              cases r <;> exact rfl
          | _ => exact rfl

lemma obeysOpen_prog {cfg : RouteConfig} (hbonus : 0 ≤ cfg.trial.bonus) (random : Vector UInt8 6)
    {e : Endpoint} (hopen : e.isOpen = true) : ObeysOpen (e.prog cfg random) := by
  cases e with
  | activateKey req => exact ObeysOpen.bind (obeysOpen_postActivateKeyHandler req) fun _ => rfl
  | trial req => exact ObeysOpen.bind (obeysOpen_postTrialHandler hbonus req) fun _ => rfl
  | validateKey code =>
      refine ObeysOpen.bind ?_ fun _ => rfl
      rw [getKeyValidateHandler]
      split
      · exact rfl
      · refine ⟨trivial, fun found _ => ⟨0, rfl, ?_⟩⟩
        cases found with
        | none => exact rfl
        | some key =>
            show ObeysOpen (if key.activated then _ else _)
            split <;> exact rfl
  | healthcheck | subscriptionLink | subscriptionInfo | getNodes | mtprotoConnections
  | wireguardConnections | wsAll | wsAggregate => exact ⟨trivial, fun _ _ => ⟨0, rfl, rfl⟩⟩
  | postSubscription | putSubscription | getNode | postNode | createConnection | getConnections
  | deleteConnection | getConnection | postKey => cases hopen

/-- A request without the token obeys the protocol. -/
lemma obeysOpen_request {cfg : RouteConfig} (hbonus : 0 ≤ cfg.trial.bonus) (d : Decoding)
    (random : Vector UInt8 6) {rq : HttpRequest} (hno : rq.authorized cfg.token = false) :
    ObeysOpen (rq.prog cfg d random) := by
  have hserve : ∀ es : List Endpoint, (∀ e ∈ es, e.isOpen = true) →
      ObeysOpen (serve cfg random es) := by
    intro es
    induction es with
    | nil => exact fun _ => rfl
    | cons e rest ih =>
        intro hes
        refine ObeysOpen.bind (obeysOpen_prog hbonus random (hes e List.mem_cons_self)) fun r => ?_
        cases r with
        | true => exact rfl
        | false => exact ih fun e' he' => hes e' (List.mem_cons_of_mem e he')
  exact hserve _ fun e he => isOpen_of_taken he hno

/-- **Requests without the token take nothing away**: from any state in which the subscriptions in
memory have rows and no key has a negative number of days, any requests without the token,
interleaved step by step and failing wherever they may, leave every connection with its data
and live if it was, every subscription with its data and no earlier expiry, every key and every
recorded identity, in memory as in the database, and have no connection deleted at a node. -/
theorem open_requests_take_nothing {cfg : RouteConfig} (hbonus : 0 ≤ cfg.trial.bonus)
    (d : Decoding) (rqs : List (HttpRequest × Vector UInt8 6))
    (hno : ∀ rq ∈ rqs, rq.1.authorized cfg.token = false) {w : World}
    (hkeys : ∀ id k, w.db.keys.get id = some k → 0 ≤ k.days)
    (hrows : ∀ id, (w.memory.subscriptions.get id).isSome → (w.db.subscriptions.get id).isSome)
    {p : Pool Call World}
    (h : Reach Rule.any ⟨w, rqs.map fun rq => rq.1.prog cfg d rq.2⟩ p) : Spares w p.state := by
  have hobey : AllObey openProtocol (fun _ a => a = 0) (rqs.map fun _ => (0 : Multiset Uuid))
      (rqs.map fun rq => rq.1.prog cfg d rq.2) := by
    refine List.forall₂_map_left_iff.mpr (List.forall₂_map_right_iff.mpr ?_)
    exact List.forall₂_same.mpr fun rq hrq => obeysOpen_request hbonus d rq.2 (hno rq hrq)
  have hsum : (rqs.map fun _ => (0 : Multiset Uuid)).sum = 0 := by simp
  have hstart : OpenInv w w (rqs.map fun _ => (0 : Multiset Uuid)).sum := by
    rw [hsum]
    exact ⟨Spares.refl w, fun {id k} hk => hkeys id k hk, hrows,
      fun id hid => absurd hid (Multiset.notMem_zero id), Multiset.nodup_zero⟩
  obtain ⟨gs, -, hinv⟩ := h.sound (keeps_openInv w) hobey hstart
  exact hinv.spares

/-- The configuration of a service with the token `secret`. -/
def openConfig : RouteConfig := ⟨"secret", sampleTrialConfig, [], sampleCrates, CaseTable.ascii⟩

/-- The bodies of an activation of the sample key and of the trial of `ann`. -/
def openDecoding : Decoding where
  uuid _ := none
  series _ := none
  nodesQuery _ := none
  idQuery _ := none
  subInfoQuery _ := none
  connInfoQuery _ := none
  keyQuery _ := none
  nodeRequest _ := none
  subReq _ := none
  connCreateRequest _ := none
  connType _ := none
  keyReq _ := none
  activateKeyReq _ := some ⟨"KEY", 7⟩
  trial _ := some annTrial

/-- The state of a service with an expired subscription, its connection and a key. -/
def openWorld : World :=
  { activeWorld with db := { activeWorld.db with keys := (∅ : Table Uuid Key).put 3 sampleKey } }

/-- The input at the time 200, when the subscription has expired, with a new identifier. -/
def openInput : Input := { Input.at 200 with uuid := 9 }

/-- A `POST` without a header. -/
def openRequest (segments : List String) : HttpRequest × Vector UInt8 6 :=
  (⟨.post, segments, none, false, "", ""⟩, .replicate 6 0)

/-- An activation and a trial in turns; the activation credits the thirty days of the key. -/
theorem open_requests_take_nothing_in_turns :
    ∃ p, Reach Rule.any ⟨openWorld, [openRequest ["key", "activate"], openRequest ["trial"]].map
        fun rq => rq.1.prog openConfig openDecoding rq.2⟩ p ∧
      p.finished = true ∧ p.state.db.subscriptions.size = 2 ∧ Spares openWorld p.state := by
  have hrun : (runWith Rule.any
      ((List.replicate 3 [(0, openInput), (1, openInput)]).flatten ++
        List.replicate 4 (0, openInput) ++ List.replicate 10 (1, openInput))
      ⟨openWorld, [openRequest ["key", "activate"], openRequest ["trial"]].map
        fun rq => rq.1.prog openConfig openDecoding rq.2⟩).map
      (fun p => (p.finished, p.state.db.subscriptions.size)) = some (true, 2) := by
    decide +kernel
  obtain ⟨p, hp, hseen⟩ := exists_reach_of_runWith hrun
  obtain ⟨hfin, hsize⟩ : _ ∧ _ := Prod.mk.inj hseen
  refine ⟨p, hp, hfin, hsize, open_requests_take_nothing (by decide) _ _ ?_ ?_ (fun _ h => h) hp⟩
  · intro rq hrq
    rcases List.mem_pair.mp hrq with rfl | rfl <;> rfl
  · intro id k hk
    change Table.get (Table.put ∅ 3 sampleKey) id = some k at hk
    rw [Table.get_put] at hk
    split_ifs at hk with hid
    · obtain rfl := Option.some.inj hk
      decide
    · cases hk

end Fcore
