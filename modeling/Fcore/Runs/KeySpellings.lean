import Fcore.Memory.Code
import Fcore.Runs.KeyActivation

/-!
Spellings of activation keys (`src/bin/api/http/handlers/key.rs`).

Whether a code is valid is decided on its capitals without the dashes, and whether it
exists on its text.

* `Steps`: any steps of any requests and tasks;
* `Steps.codesUnique`, `Steps.key_kept`: the codes stay unique, and no step takes a key
  with its code away;
* `LooksUp`: a handler begins with a lookup, and what it finds is the key;
* `looksUp_iff_same_text`: both handlers find a key exactly under its own text.
-/

namespace Fcore

open Calculus
open Calculus.Prog (perform)
open Machine (exec)

/-! ### Keys in the table -/

/-- Some step of some request or task. -/
def Step (s s' : World) : Prop :=
  ∃ (β : Type) (c : Call β) (i : Input) (b : β), exec c i s = some (s', b)

/-- Any steps, in any order. -/
abbrev Steps : World → World → Prop := Relation.ReflTransGen Step

/-- The keys of the one table are in the other, with their codes. -/
def KeepsCodes (db db' : Db) : Prop :=
  ∀ id k, db.keys.get id = some k → ∃ k', db'.keys.get id = some k' ∧ k'.code = k.code

lemma KeepsCodes.of_eq {db db' : Db} (h : db'.keys = db.keys) : KeepsCodes db db' :=
  fun _ k hk => ⟨k, by rw [h]; exact hk, rfl⟩

lemma CodesUnique.of_eq {keys keys' : Table Uuid Key} (h : keys' = keys)
    (hkeys : CodesUnique keys) :
    CodesUnique keys' := by
  rw [h]
  exact hkeys

lemma mem_keys_keyActivate {db : Db} {key : Key} {now : DateTime} {id : Uuid} {k : Key}
    (h : (db.keyActivate key now).keys.get id = some k) :
    ∃ k', db.keys.get id = some k' ∧ k.code = k'.code := by
  rw [Db.keyActivate, Table.get_change] at h
  split_ifs at h with hid
  · subst hid
    obtain ⟨k', hk', rfl⟩ := Option.map_eq_some_iff.mp h
    exact ⟨k', hk', rfl⟩
  · exact ⟨k, h, rfl⟩

lemma keepsCodes_keyActivate (db : Db) (key : Key) (now : DateTime) :
    KeepsCodes db (db.keyActivate key now) := by
  intro id k hk
  rw [Db.keyActivate, Table.get_change]
  split_ifs with hid
  · subst hid
    rw [hk, Option.map_some]
    exact ⟨_, rfl, rfl⟩
  · exact ⟨k, hk, rfl⟩

/-- What an insertion does: nothing, or a key comes in whose identifier and code are new. -/
lemma keyInsert_cases (db : Db) (key : Key) :
    (∃ e, db.keyInsert key = (db, .error e)) ∨
      db.keyInsert key = ({ db with keys := db.keys.put key.id key.stored }, .ok ()) ∧
        db.keys.get key.id = none ∧ ∀ id k, db.keys.get id = some k → k.code ≠ key.code := by
  rw [Db.keyInsert]
  split_ifs with h
  · exact Or.inl ⟨_, rfl⟩
  · rw [Bool.or_eq_true, not_or, Bool.not_eq_true, Option.isSome_eq_false_iff,
      Option.isNone_iff_eq_none] at h
    refine Or.inr ⟨rfl, h.1, fun id k hk heq => h.2 ?_⟩
    exact List.any_eq_true.mpr ⟨(id, k), Table.mem_iter.mpr hk, by simpa using heq⟩

lemma keyInsert_keeps (db : Db) (key : Key) (hdb : CodesUnique db.keys) :
    CodesUnique (db.keyInsert key).1.keys ∧ KeepsCodes db (db.keyInsert key).1 := by
  rcases keyInsert_cases db key with ⟨e, heq⟩ | ⟨heq, hid, hcode⟩
  · rw [heq]
    exact ⟨hdb, KeepsCodes.of_eq rfl⟩
  · rw [heq]
    constructor
    · intro id id' k k' hk hk' hkk'
      simp only [Table.get_put] at hk hk'
      split_ifs at hk hk' with h h'
      · rw [h, h']
      · cases hk
        exact absurd hkk'.symm (hcode id' k' hk')
      · cases hk'
        exact absurd hkk' (hcode id k hk)
      · exact hdb hk hk' hkk'
    · intro id k hk
      refine ⟨k, ?_, rfl⟩
      have hne : id ≠ key.id := by
        rintro rfl
        rw [hid] at hk
        cases hk
      exact (Table.get_put_of_ne _ _ hne).trans hk

/-- One method of the database. -/
lemma run_keeps_codes {β : Type} (q : Sql β) (i : Input) {db : Db} (hdb : CodesUnique db.keys) :
    CodesUnique (q.run i db).1.keys ∧ KeepsCodes db (q.run i db).1 := by
  cases q with
  | keyInsert key =>
      rw [Sql.run]
      split_ifs
      · exact keyInsert_keeps db key hdb
      · exact ⟨hdb, KeepsCodes.of_eq rfl⟩
  | keyActivate key =>
      rw [Sql.run]
      split_ifs
      · refine ⟨fun id id' k k' hk hk' hkk' => ?_, keepsCodes_keyActivate db key i.now⟩
        obtain ⟨k₀, hk₀, hcode⟩ := mem_keys_keyActivate hk
        obtain ⟨k₀', hk₀', hcode'⟩ := mem_keys_keyActivate hk'
        exact hdb hk₀ hk₀' (by rw [← hcode, hkk', hcode'])
      · exact ⟨hdb, KeepsCodes.of_eq rfl⟩
  | _ => exact ⟨hdb.of_eq (Sql.run_keys rfl i db), KeepsCodes.of_eq (Sql.run_keys rfl i db)⟩

/-- One step of any request or task. -/
lemma Step.keeps_codes {s s' : World} (h : Step s s') (hs : CodesUnique s.db.keys) :
    CodesUnique s'.db.keys ∧ KeepsCodes s.db s'.db := by
  obtain ⟨β, c, i, b, hexec⟩ := h
  have hsame (hdb : s'.db = s.db) : CodesUnique s'.db.keys ∧ KeepsCodes s.db s'.db := by
    rw [hdb]
    exact ⟨hs, KeepsCodes.of_eq rfl⟩
  cases c with
  | sql q =>
      obtain ⟨rfl, -⟩ := exec_sql.mp hexec
      exact run_keeps_codes q i hs
  | look r => exact hsame (by rw [(exec_look.mp hexec).2.1])
  | edit w => exact hsame (by rw [(exec_edit.mp hexec).2.1])
  | within w => exact hsame (by rw [(exec_within.mp hexec).2.1])
  | guard g =>
      obtain ⟨l, -, rfl⟩ := exec_guard.mp hexec
      exact hsame rfl
  | bus p =>
      cases p
      obtain ⟨rfl, -⟩ := exec_bus.mp hexec
      rw [Call.execBus] at hsame ⊢
      split_ifs at hsame ⊢ <;> exact hsame rfl
  | mail m =>
      cases m
      all_goals
        obtain ⟨rfl, -⟩ := exec_mail.mp hexec
        simp only [Call.execMail] at hsame ⊢
      · exact hsame trivial
      · exact hsame trivial
      · split_ifs at hsame ⊢ <;> exact hsame rfl
  | ask a => exact hsame (by rw [(exec_ask.mp hexec).1])

lemma Steps.codesUnique {s s' : World} (h : Steps s s') (hs : CodesUnique s.db.keys) :
    CodesUnique s'.db.keys := by
  induction h with
  | refl => exact hs
  | tail _ hstep ih => exact (hstep.keeps_codes ih).1

/-- A key stays in the table, and keeps its code. -/
lemma Steps.key_kept {s s' : World} (h : Steps s s') (hs : CodesUnique s.db.keys) {id : Uuid}
    {k : Key}
    (hk : s.db.keys.get id = some k) : ∃ k', s'.db.keys.get id = some k' ∧ k'.code = k.code := by
  induction h with
  | refl => exact ⟨k, hk, rfl⟩
  | tail hsteps hstep ih =>
      obtain ⟨k₁, hk₁, hcode₁⟩ := ih
      obtain ⟨k₂, hk₂, hcode₂⟩ := (hstep.keeps_codes (Steps.codesUnique hsteps hs)).2 _ k₁ hk₁
      exact ⟨k₂, hk₂, hcode₂.trans hcode₁⟩

/-! ### Lookups -/

/-- A row is found under its code, in whatever order the rows are visited. -/
lemma keyGet_id_iff {db : Db} (hdb : CodesUnique db.keys) {order : List Uuid} {code : String}
    {id : Uuid} :
    (∃ key, db.keyGet order code = some key ∧ key.id = id) ↔
      ∃ k, db.keys.get id = some k ∧ k.code = code := by
  rw [Db.keyGet]
  constructor
  · rintro ⟨key, hkey, rfl⟩
    obtain ⟨⟨id, k⟩, hfind, rfl⟩ := Option.map_eq_some_iff.mp hkey
    refine ⟨k, Table.mem_iter.mp (List.mem_of_find?_eq_some hfind), ?_⟩
    simpa using List.find?_some hfind
  · rintro ⟨k, hk, rfl⟩
    cases hfind : (db.keys.iter order).find? fun e => e.2.code == k.code with
    | none =>
        have hnone := List.find?_eq_none.mp hfind (id, k) (Table.mem_iter.mpr hk)
        simp at hnone
    | some e =>
        obtain ⟨id', k'⟩ := e
        have hk' := Table.mem_iter.mp (List.mem_of_find?_eq_some hfind)
        have hcode : k'.code = k.code := by simpa using List.find?_some hfind
        exact ⟨_, rfl, hdb hk' hk hcode⟩

/-- The code that a program looks up with its first call. -/
def firstLookup {α : Type} : Api α → Option String
  | .call (.sql (.keyGet code)) _ => some code
  | _ => none

/-- The program begins with a lookup, and when the database answers it is with the key `id`. -/
def LooksUp {α : Type} (p : Api α) (s : World) (id : Uuid) : Prop :=
  ∃ code, firstLookup p = some code ∧
    ∀ i : Input, i.ok = true → ∃ key, ((Sql.keyGet code).run i s.db).2 = some key ∧ key.id = id

lemma looksUp_iff {α : Type} {p : Api α} {s : World} {id : Uuid} {code : String} {k : Key}
    (hs : CodesUnique s.db.keys) (hk : s.db.keys.get id = some k) (hp : firstLookup p = some code) :
    LooksUp p s id ↔ code = k.code := by
  have hrun (i : Input) (hi : i.ok = true) :
      (∃ key, ((Sql.keyGet code).run i s.db).2 = some key ∧ key.id = id) ↔ k.code = code := by
    rw [Sql.run, if_pos hi]
    refine (keyGet_id_iff hs).trans ?_
    rw [hk]
    simp
  constructor
  · rintro ⟨code', hcode', hfound⟩
    rw [hp, Option.some.injEq] at hcode'
    subst hcode'
    exact ((hrun (Input.at 0) rfl).mp (hfound _ rfl)).symm
  · rintro rfl
    exact ⟨_, hp, fun i hi => (hrun i hi).mpr rfl⟩

/-- What `POST /key` leaves when it succeeds. -/
lemma exec_postKeyHandler {crates : CodeCrates} {T : CaseTable} {secret : List UInt8}
    {random : Vector UInt8 6} {req : KeyReq} {s s' : World} {reply : Reply}
    (h : Exec Rule.any (postKeyHandler crates T secret random req) s (.ok reply) s')
    (hok : reply.status = 200) :
    ∃ id key distributor, reply.response = some (id, .key key) ∧ key.id = id ∧
      key.code = (Code.new crates T random req.days distributor secret).text ∧
      Steps s s' ∧ ∃ k, s'.db.keys.get id = some k ∧ k.code = key.code := by
  rw [postKeyHandler] at h
  cases hname : distributorNew (req.distributor.getD "FRKN") with
  | error e =>
      rw [hname] at h
      cases h.of_pure.1
  | ok distributor =>
      rw [hname] at h
      simp only [Prog.perform_bind] at h
      obtain ⟨i₁, s₁, id, huuid, -, h₁⟩ := h.of_call
      obtain ⟨rfl, -⟩ := exec_ask.mp huuid
      obtain ⟨i₂, s₂, now, hnow, -, h₂⟩ := h₁.of_call
      obtain ⟨rfl, -⟩ := exec_ask.mp hnow
      obtain ⟨i₃, s₃, result, hinsert, -, h₃⟩ := h₂.of_call
      have hsteps : Steps s₂ s₃ := .single ⟨_, _, i₃, result, hinsert⟩
      obtain ⟨rfl, hresult⟩ := exec_sql.mp hinsert
      cases result with
      | error e =>
          obtain ⟨hreply, -⟩ := h₃.of_pure
          cases hreply
          cases hok
      | ok u =>
          obtain ⟨hreply, rfl⟩ := h₃.of_pure
          cases hreply
          refine ⟨id, _, distributor, rfl, rfl, rfl, hsteps, ?_⟩
          rw [Sql.run] at hresult ⊢
          split_ifs at hresult ⊢
          rcases keyInsert_cases s₂.db
            (Key.new crates T secret id now random req.days
              (req.distributor.getD "FRKN") distributor)
            with ⟨e, heq⟩ | ⟨heq, -, -⟩
          · rw [heq] at hresult
            cases hresult
          · rw [heq]
            exact ⟨_, Table.get_put_self _ _ _, rfl⟩

/-- **Spellings of a key.**  After `POST /key` has stored a key, and whatever happens before and
after it, both handlers look the key up under a spelling of its code exactly if the spelling is
the text of the code. -/
theorem looksUp_iff_same_text (crates : CodeCrates) (T : CaseTable) (secret : List UInt8)
    (random : Vector UInt8 6) (req : KeyReq) (s₀ s₁ s₂ : World) (reply : Reply) (id : Uuid)
    (key : Key) (spelling : String) (hbefore : Steps World.empty s₀)
    (hpost : Exec Rule.any (postKeyHandler crates T secret random req) s₀ (.ok reply) s₁)
    (hok : reply.status = 200) (hkey : reply.response = some (id, .key key))
    (hafter : Steps s₁ s₂) (hspelling : Respelled key.code spelling) :
    (LooksUp (getKeyValidateHandler crates T secret ⟨spelling⟩) s₂ key.id ↔
        spelling = key.code) ∧
      ∀ sub, LooksUp (postActivateKeyHandler ⟨spelling, sub⟩) s₂ key.id ↔ spelling = key.code := by
  obtain ⟨id', key', distributor, hresponse, rfl, hcode, hsteps, k₁, hk₁, hcode₁⟩ :=
    exec_postKeyHandler hpost hok
  rw [hkey, Option.some.injEq, Prod.mk.injEq, Instance.key.injEq] at hresponse
  obtain ⟨-, rfl⟩ := hresponse
  have hempty : CodesUnique World.empty.db.keys := by
    intro id id' k k' hk
    cases hk
  have hunique₁ : CodesUnique s₁.db.keys := Steps.codesUnique (hbefore.trans hsteps) hempty
  have hunique₂ : CodesUnique s₂.db.keys := Steps.codesUnique hafter hunique₁
  obtain ⟨k₂, hk₂, hcode₂⟩ := Steps.key_kept hafter hunique₁ hk₁
  have htext : k₂.code = key.code := hcode₂.trans hcode₁
  have hvalid : Code.parse crates T spelling secret = some (req.days, distributor) := by
    rw [hcode] at hspelling
    obtain ⟨hascii, hcapitals⟩ := hspelling.capitals_eq Code.isAscii_new
    exact Code.parse_of_decode (Code.decode_of_capitals hascii hcapitals)
  constructor
  · have hfirst :
        firstLookup (getKeyValidateHandler crates T secret ⟨spelling⟩) = some spelling := by
      rw [getKeyValidateHandler, hvalid]
      rfl
    rw [looksUp_iff hunique₂ hk₂ hfirst, htext]
  · intro sub
    have hfirst : firstLookup (postActivateKeyHandler ⟨spelling, sub⟩) = some spelling := rfl
    rw [looksUp_iff hunique₂ hk₂ hfirst, htext]

/-- A key of 30 days. -/
def frknKey : Key :=
  Key.new sampleCrates CaseTable.ascii "sign-token".toUTF8.data.toList 5 0 #v[1, 2, 3, 4, 5, 6] 30
    "FRKN" #v[70, 82, 75, 78]

/-- The key is stored, and the code of the answer is not the other spelling of it. -/
lemma exec_post_frknKey : ∃ s,
    Exec Rule.any (postKeyHandler sampleCrates CaseTable.ascii "sign-token".toUTF8.data.toList
      #v[1, 2, 3, 4, 5, 6] ⟨30, none⟩) World.empty
      (.ok (successResponse "Key 00000000-0000-0000-0000-000000000005 is created" (some 5)
        (.key frknKey))) s ∧
      s.db.keyGet [] "aEBAG-BAFAY-AB4RS-SJNHG-O376H-A" = none := by
  have heval : (execWith Rule.any [{ Input.at 0 with uuid := 5 }, Input.at 0, Input.at 0]
      (postKeyHandler sampleCrates CaseTable.ascii "sign-token".toUTF8.data.toList
        #v[1, 2, 3, 4, 5, 6] ⟨30, none⟩) World.empty).map
      (fun r => (r.2, r.1.db.keyGet [] "aEBAG-BAFAY-AB4RS-SJNHG-O376H-A")) =
      some (.ok (successResponse "Key 00000000-0000-0000-0000-000000000005 is created" (some 5)
        (.key frknKey)), none) := by
    decide +kernel
  obtain ⟨⟨s, reply⟩, hrun, heq⟩ := Option.map_eq_some_iff.mp heval
  obtain ⟨hreply, hget⟩ := Prod.mk.inj heq
  subst hreply
  exact ⟨s, exec_of_execWith hrun, hget⟩

/-- The key under its own text. -/
theorem looksUp_frknKey : ∃ s,
    LooksUp (getKeyValidateHandler sampleCrates CaseTable.ascii "sign-token".toUTF8.data.toList
      ⟨frknKey.code⟩) s 5 := by
  obtain ⟨s, hpost, -⟩ := exec_post_frknKey
  refine ⟨s, (looksUp_iff_same_text sampleCrates CaseTable.ascii _ _ _ World.empty s s _ 5 frknKey
    frknKey.code .refl hpost rfl rfl .refl .refl).1.mpr rfl⟩

/-- The key with a small letter: the code is valid, and no handler finds the key. -/
theorem not_looksUp_small_letter : ∃ s spelling,
    Exec Rule.any (postKeyHandler sampleCrates CaseTable.ascii "sign-token".toUTF8.data.toList
      #v[1, 2, 3, 4, 5, 6] ⟨30, none⟩) World.empty
      (.ok (successResponse "Key 00000000-0000-0000-0000-000000000005 is created" (some 5)
        (.key frknKey))) s ∧
      Respelled frknKey.code spelling ∧
      Code.parse sampleCrates CaseTable.ascii spelling "sign-token".toUTF8.data.toList =
        some (30, #v[70, 82, 75, 78]) ∧
      ¬ LooksUp (getKeyValidateHandler sampleCrates CaseTable.ascii
        "sign-token".toUTF8.data.toList ⟨spelling⟩) s 5 ∧
      ∀ sub, ¬ LooksUp (postActivateKeyHandler ⟨spelling, sub⟩) s 5 := by
  obtain ⟨s, hpost, hget⟩ := exec_post_frknKey
  have hcode : frknKey.code = "AEBAG-BAFAY-AB4RS-SJNHG-O376H-A" := by decide +kernel
  have hsmall : Respelled frknKey.code "aEBAG-BAFAY-AB4RS-SJNHG-O376H-A" := by
    rw [hcode]
    exact .lower [] "EBAG-BAFAY-AB4RS-SJNHG-O376H-A".toList 'A' .refl
  have hnone {α : Type} (p : Api α)
      (hp : firstLookup p = some "aEBAG-BAFAY-AB4RS-SJNHG-O376H-A") : ¬ LooksUp p s 5 := by
    rintro ⟨code, hfirst, hfound⟩
    rw [hp, Option.some.injEq] at hfirst
    subst hfirst
    obtain ⟨key, hkey, -⟩ := hfound (Input.at 0) rfl
    change s.db.keyGet [] _ = some key at hkey
    rw [hget] at hkey
    cases hkey
  have hvalid : Code.parse sampleCrates CaseTable.ascii "aEBAG-BAFAY-AB4RS-SJNHG-O376H-A"
      "sign-token".toUTF8.data.toList = some (30, #v[70, 82, 75, 78]) := by
    decide +kernel
  refine ⟨s, "aEBAG-BAFAY-AB4RS-SJNHG-O376H-A", hpost, hsmall, hvalid, hnone _ ?_,
    fun sub => hnone _ rfl⟩
  rw [getKeyValidateHandler, hvalid]
  rfl

end Fcore
