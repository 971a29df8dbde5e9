import Mathlib.Data.List.DropRight
import Mathlib.Tactic

/-!
Case folding of texts.

The lower case of a text is taken character by character from the Unicode
tables, with the one exception of the standard: a capital sigma at the end of a
word becomes `ς` instead of `σ`.

* `CaseTable`: the tables, with what is used of them: a character has a lower
  case of at least one character, and ASCII is as usual;
* `CaseTable.toLowercase`, `CaseTable.toUppercase`: the lower and the upper case of
  a text;
* `CaseTable.length_le`: a text does not get shorter;
* `CaseTable.toLowercase_eq_self_iff`: a text is its own lower case exactly if
  each of its characters is;
* `CaseTable.toLowercase_append`: a head that is its own lower case stays in
  front;
* `CaseTable.Stable`, `CaseTable.Stable.toLowercase_ne`: where lower case is final, a text
  is not lengthened in front by it;
* `isPrefix_of_bytes`: a head of the bytes that is a text is a head of the text;
* `strip`, `strip_append`, `strip_strip`: a list without the elements of a kind at its
  ends.
-/

namespace Calculus

/-- The Unicode tables behind the case of a text. -/
structure CaseTable where
  lower : Char → List Char
  upper : Char → List Char
  cased : Char → Bool
  caseIgnorable : Char → Bool
  lower_ne_nil : ∀ c, lower c ≠ []
  lower_ascii : ∀ c, c.toNat < 128 → lower c = [c.toLower]
  upper_ascii : ∀ c, c.toNat < 128 → upper c = [c.toUpper]

namespace CaseTable

variable (T : CaseTable)

/-- The first character that is not ignorable is a cased one. -/
def ignorableThenCased (l : List Char) : Bool :=
  match l.dropWhile T.caseIgnorable with
  | c :: _ => T.cased c
  | [] => false

/-- The lower case of one character, between the text before it, read backwards,
and the text after it. -/
def lowerAt (before : List Char) (c : Char) (after : List Char) : List Char :=
  if c = 'Σ' then
    if T.ignorableThenCased before && !T.ignorableThenCased after then ['ς'] else ['σ']
  else T.lower c

/-- The lower case of a text behind `before`. -/
def lowerFrom : List Char → List Char → List Char
  | _, [] => []
  | before, c :: after => T.lowerAt before c after ++ lowerFrom (c :: before) after

/-- The lower case of a text. -/
def toLowercase (s : String) : String := String.ofList (T.lowerFrom [] s.toList)

/-- The upper case of a text. -/
def toUppercase (s : String) : String := String.ofList (s.toList.flatMap T.upper)

@[simp] lemma toList_toLowercase (s : String) :
    (T.toLowercase s).toList = T.lowerFrom [] s.toList := String.toList_ofList

/-- The character is its own lower case, wherever it stands. -/
def IsLower (c : Char) : Prop := c ≠ 'Σ' ∧ T.lower c = [c]

instance (c : Char) : Decidable (T.IsLower c) := inferInstanceAs (Decidable (_ ∧ _))

variable {T}

lemma lowerAt_ne_nil (before : List Char) (c : Char) (after : List Char) :
    T.lowerAt before c after ≠ [] := by
  rw [lowerAt]
  split_ifs
  · simp
  · simp
  · exact T.lower_ne_nil c

/-- In no place does another character stay as it is. -/
lemma lowerAt_eq_self_iff {before : List Char} {c : Char} {after : List Char} :
    T.lowerAt before c after = [c] ↔ T.IsLower c := by
  rw [lowerAt, IsLower]
  by_cases hc : c = 'Σ'
  · subst hc
    rw [if_pos rfl]
    split_ifs <;> simp
  · simp [hc]

/-- A text does not get shorter. -/
lemma length_le (before l : List Char) : l.length ≤ (T.lowerFrom before l).length := by
  induction l generalizing before with
  | nil => simp
  | cons c after ih =>
      have hpos : 0 < (T.lowerAt before c after).length :=
        List.length_pos_iff.mpr (lowerAt_ne_nil before c after)
      have hrest := ih (c :: before)
      rw [lowerFrom, List.length_append, List.length_cons]
      omega

/-- A text is its own lower case exactly if each of its characters is. -/
lemma lowerFrom_eq_self_iff {before l : List Char} :
    T.lowerFrom before l = l ↔ ∀ c ∈ l, T.IsLower c := by
  induction l generalizing before with
  | nil => simp [lowerFrom]
  | cons c after ih =>
      rw [lowerFrom, List.forall_mem_cons]
      constructor
      · intro h
        have hpos : 0 < (T.lowerAt before c after).length :=
          List.length_pos_iff.mpr (lowerAt_ne_nil before c after)
        have hrest := T.length_le (c :: before) after
        -- the rest is no shorter, so the first character has one in its place
        have hone : (T.lowerAt before c after).length = [c].length := by
          have hlen := congrArg List.length h
          rw [List.length_append, List.length_cons] at hlen
          simp only [List.length_singleton]
          omega
        obtain ⟨hc, hafter⟩ := List.append_inj (h.trans List.singleton_append.symm) hone
        exact ⟨lowerAt_eq_self_iff.mp hc, ih.mp hafter⟩
      · rintro ⟨hc, hafter⟩
        rw [lowerAt_eq_self_iff.mpr hc, ih.mpr hafter, List.singleton_append]

lemma toLowercase_eq_self_iff {s : String} :
    T.toLowercase s = s ↔ ∀ c ∈ s.toList, T.IsLower c := by
  rw [← String.toList_inj, toList_toLowercase, lowerFrom_eq_self_iff]

/-- A head that is its own lower case stays in front, and the rest gets no
shorter. -/
lemma lowerFrom_append {head : List Char} (hhead : ∀ c ∈ head, T.IsLower c)
    (before l : List Char) :
    T.lowerFrom before (head ++ l) = head ++ T.lowerFrom (head.reverse ++ before) l := by
  induction head generalizing before with
  | nil => simp
  | cons c head ih =>
      rw [List.forall_mem_cons] at hhead
      rw [List.cons_append, lowerFrom, lowerAt_eq_self_iff.mpr hhead.1, ih hhead.2]
      simp

lemma toLowercase_append {head : String} (hhead : ∀ c ∈ head.toList, T.IsLower c) (l : List Char) :
    T.toLowercase (String.ofList (head.toList ++ l)) =
      String.ofList (head.toList ++ T.lowerFrom head.toList.reverse l) := by
  rw [← String.toList_inj, toList_toLowercase, String.toList_ofList, String.toList_ofList,
    lowerFrom_append hhead, List.append_nil]

/-- The ASCII characters that are no capitals are their own lower case. -/
lemma isLower_of_ascii {c : Char} (hascii : c.toNat < 128) (hlower : c.toLower = c) :
    T.IsLower c := by
  constructor
  · rintro rfl
    exact absurd hascii (by decide)
  · rw [T.lower_ascii c hascii, hlower]

/-- Lower case throughout, for a text written in ASCII. -/
lemma isLower_of_all {l : List Char}
    (h : l.all fun c => decide (c.toNat < 128) && decide (c.toLower = c)) :
    ∀ c ∈ l, T.IsLower c := by
  intro c hc
  have hboth := List.all_eq_true.mp h c hc
  rw [Bool.and_eq_true, decide_eq_true_eq, decide_eq_true_eq] at hboth
  exact isLower_of_ascii hboth.1 hboth.2

/-- A lower case is its own lower case. -/
structure Stable (T : CaseTable) : Prop where
  lower : ∀ c, c ≠ 'Σ' → ∀ d ∈ T.lower c, T.IsLower d
  final : T.IsLower 'ς'
  medial : T.IsLower 'σ'

lemma Stable.isLower_of_mem (h : T.Stable) {before l : List Char} {d : Char}
    (hd : d ∈ T.lowerFrom before l) : T.IsLower d := by
  induction l generalizing before with
  | nil => cases hd
  | cons c after ih =>
      rw [lowerFrom, List.mem_append] at hd
      rcases hd with hd | hd
      · rw [lowerAt] at hd
        split_ifs at hd with hc hfinal
        · rw [List.mem_singleton.mp hd]
          exact h.final
        · rw [List.mem_singleton.mp hd]
          exact h.medial
        · exact h.lower c hc d hd
      · exact ih hd

/-- The lower case of a text is not the text behind something else. -/
lemma Stable.toLowercase_ne (h : T.Stable) {head : String} (hhead : head.toList ≠ []) (s : String) :
    T.toLowercase s ≠ head ++ s := by
  intro heq
  have hlower : ∀ c ∈ s.toList, T.IsLower c := by
    intro c hc
    have hmem : c ∈ T.lowerFrom [] s.toList := by
      rw [← toList_toLowercase, heq, String.toList_append]
      exact List.mem_append_right _ hc
    exact h.isLower_of_mem hmem
  rw [toLowercase_eq_self_iff.mpr hlower, ← String.toList_inj, String.toList_append] at heq
  have hlen := congrArg List.length heq
  rw [List.length_append] at hlen
  exact hhead (List.eq_nil_of_length_eq_zero (by omega))

/-- The upper case of a text in ASCII. -/
lemma toUppercase_of_ascii {l : List Char} (h : ∀ c ∈ l, c.toNat < 128) :
    T.toUppercase (String.ofList l) = String.ofList (l.map Char.toUpper) := by
  have hflat : l.flatMap T.upper = l.map Char.toUpper := by
    induction l with
    | nil => simp
    | cons c l ih =>
        rw [List.forall_mem_cons] at h
        rw [List.flatMap_cons, T.upper_ascii c h.1, ih h.2, List.map_cons, List.singleton_append]
  rw [toUppercase, String.toList_ofList, hflat]

/-- The tables as far as ASCII goes. -/
def ascii : CaseTable where
  lower c := [c.toLower]
  upper c := [c.toUpper]
  cased c := c.isAlpha
  caseIgnorable c := c.toNat ∈ [0x27, 0x2E, 0x3A, 0x5E, 0x60]
  lower_ne_nil _ := List.cons_ne_nil _ _
  lower_ascii _ _ := rfl
  upper_ascii _ _ := rfl

end CaseTable

/-- A head of the bytes of a text that is itself a text is a head of the text. -/
lemma isPrefix_of_bytes {s t : String}
    (h : s.toByteArray.data.toList <+: t.toByteArray.data.toList) : s.toList <+: t.toList := by
  obtain ⟨rest, hrest⟩ := h
  refine List.isPrefix_of_utf8Encode_append_eq_utf8Encode ⟨rest.toArray⟩ ?_
  rw [String.utf8Encode_toList, String.utf8Encode_toList]
  apply ByteArray.ext
  rw [ByteArray.data_append]
  apply Array.ext'
  simpa using hrest

/-! ### Ends -/

section Strip

variable {α : Type} {p : α → Bool}

/-- The list without the elements of a kind at its two ends. -/
def strip (p : α → Bool) (l : List α) : List α := ((l.dropWhile p).reverse.dropWhile p).reverse

/-- Elements of the kind at the end make no difference. -/
lemma strip_append {b : List α} (hb : ∀ x ∈ b, p x = true) (l : List α) :
    strip p (l ++ b) = strip p l := by
  have hreverse : ∀ x ∈ b.reverse, p x = true := fun x hx => hb x (List.mem_reverse.mp hx)
  rw [strip, strip, List.dropWhile_append]
  split_ifs with hempty
  · rw [List.dropWhile_eq_nil_iff.mpr hb, List.isEmpty_iff.mp hempty]
  · rw [List.reverse_append, List.dropWhile_append_of_pos hreverse]

/-- Stripping twice is stripping once. -/
lemma strip_strip (l : List α) : strip p (strip p l) = strip p l := by
  -- what is left begins where the first pass stopped
  have hhead : (strip p l).dropWhile p = strip p l := by
    cases hstrip : strip p l with
    | nil => rfl
    | cons a rest =>
        have hprefix : strip p l <+: l.dropWhile p := List.rdropWhile_prefix p _
        rw [hstrip] at hprefix
        obtain ⟨tail, htail⟩ := hprefix
        have hidem : (l.dropWhile p).dropWhile p = l.dropWhile p := List.dropWhile_idempotent p l
        rw [← htail, List.cons_append, List.dropWhile_cons] at hidem
        split_ifs at hidem with ha
        · have hlength := congrArg List.length hidem
          have hle := (List.dropWhile_suffix (l := rest ++ tail) p).length_le
          rw [List.length_cons] at hlength
          omega
        · rw [List.dropWhile_cons, if_neg ha]
  have hlast : (strip p l).rdropWhile p = strip p l := List.rdropWhile_idempotent p _
  rw [strip, hhead]
  exact hlast

end Strip

end Calculus
