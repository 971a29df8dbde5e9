import Fcore.Calculus.Base32
import Fcore.Calculus.Text
import Fcore.Memory.Types

/-!
The codes of activation keys (`Code` in `src/memory/key.rs`).

A code is 16 bytes: six random ones, the days, the distributor, three bytes of
the signature and a checksum, written in base32 in groups of five symbols.

* `Code.new`, `Code.parse`, `Code.fromStr`, `Code.validate`: the functions of the
  source; the random bytes are an argument;
* `Respelled`: a text with the case of letters changed and dashes put in or taken
  out;
* `parse_respelled`: every spelling of a code is read as what the code was made of.
-/

namespace Fcore

open Calculus

/-- The crates behind the codes: base32 with the alphabet of RFC 4648 without padding, and
HMAC-SHA256. -/
structure CodeCrates where
  encode : List UInt8 → String
  decode : String → Option (List UInt8)
  /-- The data and the secret. -/
  sign : List UInt8 → List UInt8 → List UInt8
  encode_eq : ∀ bytes, encode bytes = String.ofList (Base32.encode bytes)
  /-- Small letters are left open. -/
  decode_eq : ∀ s, (∀ c ∈ s.toList, c.toUpper = c) → decode s = Base32.decode s.toList
  length_sign : ∀ data secret, (sign data secret).length = 32

/-- `i16::to_be_bytes`. -/
def toBeBytes (n : Int16) : List UInt8 :=
  [UInt8.ofNat (n.toUInt16.toNat / 256), UInt8.ofNat (n.toUInt16.toNat % 256)]

/-- `i16::from_be_bytes`, of a slice that is an array of two bytes. -/
def fromBeBytes : List UInt8 → Option Int16
  | [a, b] => some (UInt16.ofNat (256 * a.toNat + b.toNat)).toInt16
  | _ => none

/-- `try_into`, of a slice that is an array of four bytes. -/
def toArray4 (l : List UInt8) : Option (Vector UInt8 4) :=
  if h : l.length = 4 then some ⟨l.toArray, by simpa using h⟩ else none

/-- `key::Code`. -/
structure Code where
  text : String
  deriving DecidableEq, Repr

/-- `key::CodeError`. -/
inductive CodeError where
  | invalidFormat
  | invalidChecksum
  deriving DecidableEq, Repr

/-- `s.replace("-", "")`. -/
def withoutDashes (s : String) : String := String.ofList (s.toList.filter (· ≠ '-'))

namespace Code

/-- `Code::checksum`. -/
def checksum (data : List UInt8) : UInt8 := data.foldl (· + ·) 0

/-- `Code::format`. -/
def format (s : String) : String := String.ofList (['-'].intercalate (chunks 5 s.toList))

section

variable (crates : CodeCrates) (T : CaseTable)

/-- The bytes of a code. -/
def payload (random : Vector UInt8 6) (days : Int16) (distributor : Vector UInt8 4)
    (secret : List UInt8) : List UInt8 :=
  let data := random.toList ++ toBeBytes days ++ distributor.toList
  let signed := data ++ (crates.sign data secret).take 3
  signed ++ [checksum signed]

/-- `Code::new`. -/
def new (random : Vector UInt8 6) (days : Int16) (distributor : Vector UInt8 4)
    (secret : List UInt8) : Code :=
  let encoded := T.toUppercase (crates.encode (payload crates random days distributor secret))
  ⟨format encoded⟩

/-- `Code::parse`. -/
def parse (s : String) (secret : List UInt8) : Option (Int16 × Vector UInt8 4) :=
  match crates.decode (T.toUppercase (withoutDashes s)) with
  | none => none
  | some bytes =>
      if bytes.length ≠ 16 then none
      else
        let dataWithSig := bytes.take 15
        let checkByte := bytes.drop 15
        if some (checksum dataWithSig) ≠ checkByte.head? then none
        else
          let data := dataWithSig.take 12
          let sig := dataWithSig.drop 12
          if (crates.sign data secret).take 3 ≠ sig.take 3 then none
          else match fromBeBytes ((data.drop 6).take 2), toArray4 ((data.drop 8).take 4) with
            | some days, some distributor => some (days, distributor)
            | _, _ => none

/-- `Code::from_str`. -/
def fromStr (s : String) : Except CodeError Code :=
  match crates.decode (T.toUppercase (withoutDashes s)) with
  | none => .error .invalidFormat
  | some bytes =>
      if bytes.length ≠ 16 then .error .invalidFormat else .ok ⟨T.toUppercase s⟩

/-- `Code::validate`. -/
def validate (code : Code) (secret : List UInt8) : Except CodeError (Int16 × Vector UInt8 4) :=
  match parse crates T code.text secret with
  | some data => .ok data
  | none => .error .invalidChecksum

end

end Code

/-! ### The bytes of a code -/

lemma fromBeBytes_toBeBytes (n : Int16) : fromBeBytes (toBeBytes n) = some n := by
  have hlt : n.toUInt16.toNat < 65536 := n.toUInt16.toNat_lt
  have hhigh : (UInt8.ofNat (n.toUInt16.toNat / 256)).toNat = n.toUInt16.toNat / 256 :=
    UInt8.toNat_ofNat_of_lt' (by simp only [UInt8.size]; omega)
  have hlow : (UInt8.ofNat (n.toUInt16.toNat % 256)).toNat = n.toUInt16.toNat % 256 :=
    UInt8.toNat_ofNat_of_lt' (by simp only [UInt8.size]; omega)
  rw [toBeBytes, fromBeBytes, hhigh, hlow, Nat.div_add_mod, UInt16.ofNat_toNat]
  rfl

lemma toArray4_toList (v : Vector UInt8 4) : toArray4 v.toList = some v := by
  rw [toArray4, dif_pos v.length_toList]
  congr

section

variable {crates : CodeCrates} {T : CaseTable}

/-- The bytes of a code are accepted and tell what they were made of. -/
lemma Code.parse_of_decode {s : String} {random : Vector UInt8 6} {days : Int16}
    {distributor : Vector UInt8 4} {secret : List UInt8}
    (h : crates.decode (T.toUppercase (withoutDashes s)) =
      some (payload crates random days distributor secret)) :
    parse crates T s secret = some (days, distributor) := by
  obtain ⟨data, hdata⟩ : ∃ data, data = random.toList ++ toBeBytes days ++ distributor.toList :=
    ⟨_, rfl⟩
  obtain ⟨sig, hsig⟩ : ∃ sig, sig = (crates.sign data secret).take 3 := ⟨_, rfl⟩
  have hdays : (toBeBytes days).length = 2 := rfl
  have hlen : data.length = 12 := by simp [hdata, hdays]
  have hsiglen : sig.length = 3 := by simp [hsig, crates.length_sign]
  have hpayload : payload crates random days distributor secret =
      data ++ sig ++ [checksum (data ++ sig)] := by
    rw [payload, ← hdata, ← hsig]
  -- the cuts at 15, 12, 6 and 8 are the joints of the bytes
  have htake : (data ++ sig ++ [checksum (data ++ sig)]).take 15 = data ++ sig :=
    List.take_left' (by simp [hlen, hsiglen])
  have hdrop : (data ++ sig ++ [checksum (data ++ sig)]).drop 15 = [checksum (data ++ sig)] :=
    List.drop_left' (by simp [hlen, hsiglen])
  have hhead : (data ++ sig).take 12 = data := List.take_left' hlen
  have htail : (data ++ sig).drop 12 = sig := List.drop_left' hlen
  have hdaysCut : (data.drop 6).take 2 = toBeBytes days := by
    rw [hdata, List.append_assoc, List.drop_left' random.length_toList, List.take_left' hdays]
  have hdistributorCut : (data.drop 8).take 4 = distributor.toList := by
    rw [hdata, List.drop_left' (by simp [hdays]), List.take_of_length_le (by simp)]
  have hsigTake : sig.take 3 = sig := List.take_of_length_le hsiglen.le
  rw [parse, h, hpayload]
  simp only [htake, hdrop, hhead, htail, hdaysCut, hdistributorCut, hsigTake, ← hsig,
    List.head?_cons, fromBeBytes_toBeBytes, toArray4_toList]
  simp [hlen, hsiglen]

end

/-! ### Spellings -/

/-- The text is the other one up to the case of ASCII letters and up to dashes. -/
inductive Respelled (s : String) : String → Prop
  | refl : Respelled s s
  | lower (l r : List Char) (c : Char) (h : Respelled s (String.ofList (l ++ c :: r))) :
      Respelled s (String.ofList (l ++ c.toLower :: r))
  | upper (l r : List Char) (c : Char) (h : Respelled s (String.ofList (l ++ c :: r))) :
      Respelled s (String.ofList (l ++ c.toUpper :: r))
  | insert (l r : List Char) (h : Respelled s (String.ofList (l ++ r))) :
      Respelled s (String.ofList (l ++ '-' :: r))
  | remove (l r : List Char) (h : Respelled s (String.ofList (l ++ '-' :: r))) :
      Respelled s (String.ofList (l ++ r))

/-- What all spellings have in common: the capitals without the dashes. -/
def capitals (l : List Char) : List Char := (l.filter (· ≠ '-')).map Char.toUpper

/-- The characters are ASCII. -/
def IsAscii (l : List Char) : Prop := ∀ c ∈ l, c.toNat < 128

/-- Case and dashes do not interfere in ASCII. -/
lemma case_of_ascii {c : Char} (h : c.toNat < 128) :
    (c.toLower.toUpper = c.toUpper ∧ c.toUpper.toUpper = c.toUpper) ∧
      (c.toLower = '-' ↔ c = '-') ∧ (c.toUpper = '-' ↔ c = '-') ∧
        c.toLower.toNat < 128 ∧ c.toUpper.toNat < 128 := by
  have hall : ∀ n < 128, ((Char.ofNat n).toLower.toUpper = (Char.ofNat n).toUpper ∧
      (Char.ofNat n).toUpper.toUpper = (Char.ofNat n).toUpper) ∧
        ((Char.ofNat n).toLower = '-' ↔ Char.ofNat n = '-') ∧
          ((Char.ofNat n).toUpper = '-' ↔ Char.ofNat n = '-') ∧
            (Char.ofNat n).toLower.toNat < 128 ∧ (Char.ofNat n).toUpper.toNat < 128 := by
    decide +kernel
  have hc := hall c.toNat h
  rwa [Char.ofNat_toNat] at hc

lemma capitals_append (l r : List Char) : capitals (l ++ r) = capitals l ++ capitals r := by
  simp [capitals]

lemma capitals_dash (r : List Char) : capitals ('-' :: r) = capitals r := by
  simp [capitals]

lemma capitals_cons {c d : Char} (hcase : d.toUpper = c.toUpper) (hdash : d = '-' ↔ c = '-')
    (r : List Char) : capitals (d :: r) = capitals (c :: r) := by
  by_cases hc : c = '-'
  · simp [capitals, hc, hdash.mpr hc]
  · have hd : d ≠ '-' := fun hd => hc (hdash.mp hd)
    simp [capitals, hc, hd, hcase]

/-- The capitals of a text in ASCII are their own. -/
lemma capitals_map_toUpper {l : List Char} (h : IsAscii l) :
    capitals (l.map Char.toUpper) = capitals l := by
  induction l with
  | nil => simp
  | cons c l ih =>
      rw [IsAscii, List.forall_mem_cons] at h
      have hc := case_of_ascii h.1
      have hsplit : ∀ (d : Char) (r : List Char), capitals (d :: r) = capitals [d] ++ capitals r :=
        fun d r => capitals_append [d] r
      rw [List.map_cons, capitals_cons hc.1.2 hc.2.2.1, hsplit, ih h.2, ← hsplit]

/-- A spelling is in ASCII and has the same capitals. -/
lemma Respelled.capitals_eq {s t : String} (h : Respelled s t) (hs : IsAscii s.toList) :
    IsAscii t.toList ∧ capitals t.toList = capitals s.toList := by
  induction h with
  | refl => exact ⟨hs, rfl⟩
  | lower l r c h ih =>
      simp only [String.toList_ofList, IsAscii, List.forall_mem_append,
        List.forall_mem_cons] at ih ⊢
      have hc := case_of_ascii ih.1.2.1
      refine ⟨⟨ih.1.1, hc.2.2.2.1, ih.1.2.2⟩, ?_⟩
      rw [← ih.2, capitals_append, capitals_append, capitals_cons hc.1.1 hc.2.1]
  | upper l r c h ih =>
      simp only [String.toList_ofList, IsAscii, List.forall_mem_append,
        List.forall_mem_cons] at ih ⊢
      have hc := case_of_ascii ih.1.2.1
      refine ⟨⟨ih.1.1, hc.2.2.2.2, ih.1.2.2⟩, ?_⟩
      rw [← ih.2, capitals_append, capitals_append, capitals_cons hc.1.2 hc.2.2.1]
  | insert l r h ih =>
      simp only [String.toList_ofList, IsAscii, List.forall_mem_append,
        List.forall_mem_cons] at ih ⊢
      refine ⟨⟨ih.1.1, by decide, ih.1.2⟩, ?_⟩
      rw [← ih.2, capitals_append, capitals_append, capitals_dash]
  | remove l r h ih =>
      simp only [String.toList_ofList, IsAscii, List.forall_mem_append,
        List.forall_mem_cons] at ih ⊢
      refine ⟨⟨ih.1.1, ih.1.2.2⟩, ?_⟩
      rw [← ih.2, capitals_append, capitals_append, capitals_dash]

/-- What is decoded of a text in ASCII are its capitals. -/
lemma toUppercase_withoutDashes {T : CaseTable} {s : String} (h : IsAscii s.toList) :
    T.toUppercase (withoutDashes s) = String.ofList (capitals s.toList) :=
  CaseTable.toUppercase_of_ascii fun c hc => h c (List.mem_of_mem_filter hc)

/-! ### The text of a code -/

lemma filter_intercalate (parts : List (List Char)) :
    (['-'].intercalate parts).filter (· ≠ '-') = parts.flatten.filter (· ≠ '-') := by
  induction parts with
  | nil => simp
  | cons part parts ih =>
      cases parts with
      | nil => simp
      | cons part' parts =>
          rw [List.intercalate_cons_cons, List.flatten_cons, List.filter_append, List.filter_append,
            ih, List.filter_append]
          simp

lemma eq_or_mem_of_mem_intercalate {parts : List (List Char)} {c : Char}
    (hc : c ∈ ['-'].intercalate parts) : c = '-' ∨ c ∈ parts.flatten := by
  by_contra hnot
  rw [not_or] at hnot
  have hkept : c ∈ (['-'].intercalate parts).filter (· ≠ '-') :=
    List.mem_filter.mpr ⟨hc, by simpa using hnot.1⟩
  rw [filter_intercalate] at hkept
  exact hnot.2 (List.mem_of_mem_filter hkept)

/-- Symbols are ASCII, no dashes, and in capitals. -/
lemma symbol_facts {c : Char} (hc : c ∈ Base32.alphabet) :
    c.toNat < 128 ∧ c ≠ '-' ∧ c.toUpper = c := by
  have hall : Base32.alphabet.all
      (fun c => decide (c.toNat < 128) && (decide (c ≠ '-') && decide (c.toUpper = c))) = true := by
    decide
  have hone := List.all_eq_true.mp hall c hc
  simpa only [Bool.and_eq_true, decide_eq_true_eq] using hone

section

variable {crates : CodeCrates} {T : CaseTable} {random : Vector UInt8 6} {days : Int16}
  {distributor : Vector UInt8 4} {secret : List UInt8}

lemma Code.toList_text_new : (Code.new crates T random days distributor secret).text.toList =
    ['-'].intercalate
      (chunks 5 (Base32.encode (payload crates random days distributor secret))) := by
  have hsymbols : ∀ c ∈ Base32.encode (payload crates random days distributor secret),
      c ∈ Base32.alphabet := fun c hc => Base32.mem_alphabet_of_mem_encode hc
  have hupper : T.toUppercase (crates.encode (payload crates random days distributor secret)) =
      String.ofList (Base32.encode (payload crates random days distributor secret)) := by
    have hmap := List.map_congr_left fun c hc => (symbol_facts (hsymbols c hc)).2.2
    rw [crates.encode_eq,
      CaseTable.toUppercase_of_ascii fun c hc => (symbol_facts (hsymbols c hc)).1,
      hmap, List.map_id']
  rw [new, hupper, format]
  simp

lemma Code.isAscii_new :
    IsAscii (Code.new crates T random days distributor secret).text.toList := by
  intro c hc
  rw [toList_text_new] at hc
  rcases eq_or_mem_of_mem_intercalate hc with rfl | hc
  · decide
  · rw [flatten_chunks (by norm_num)] at hc
    exact (symbol_facts (Base32.mem_alphabet_of_mem_encode hc)).1

/-- The capitals of a code are its symbols. -/
lemma Code.capitals_new : capitals (Code.new crates T random days distributor secret).text.toList =
    Base32.encode (payload crates random days distributor secret) := by
  have hsymbols : ∀ c ∈ Base32.encode (payload crates random days distributor secret),
      c ∈ Base32.alphabet := fun c hc => Base32.mem_alphabet_of_mem_encode hc
  have hkept : (Base32.encode (payload crates random days distributor secret)).filter (· ≠ '-') =
      Base32.encode (payload crates random days distributor secret) :=
    List.filter_eq_self.mpr fun c hc => decide_eq_true (symbol_facts (hsymbols c hc)).2.1
  have hmap := List.map_congr_left fun c hc => (symbol_facts (hsymbols c hc)).2.2
  rw [capitals, toList_text_new, filter_intercalate, flatten_chunks (by norm_num), hkept, hmap,
    List.map_id']

/-- A text with the capitals of a code is decoded to the bytes of the code. -/
lemma Code.decode_of_capitals {s : String} (hascii : IsAscii s.toList)
    (hcapitals : capitals s.toList =
      capitals (Code.new crates T random days distributor secret).text.toList) :
    crates.decode (T.toUppercase (withoutDashes s)) =
      some (payload crates random days distributor secret) := by
  rw [toUppercase_withoutDashes hascii, hcapitals, capitals_new, crates.decode_eq,
    String.toList_ofList, Base32.decode_encode]
  intro c hc
  rw [String.toList_ofList] at hc
  exact (symbol_facts (Base32.mem_alphabet_of_mem_encode hc)).2.2

lemma Code.length_payload : (payload crates random days distributor secret).length = 16 := by
  simp [payload, toBeBytes, crates.length_sign]

end

/-- Every spelling of a code is read as what the code was made of, and so is the code that
`from_str` makes of the spelling. -/
theorem parse_respelled (crates : CodeCrates) (T : CaseTable) (random : Vector UInt8 6)
    (days : Int16) (distributor : Vector UInt8 4) (secret : List UInt8) (s : String)
    (hs : Respelled (Code.new crates T random days distributor secret).text s) :
    Code.parse crates T s secret = some (days, distributor) ∧
      ∃ code, Code.fromStr crates T s = .ok code ∧
        code.validate crates T secret = .ok (days, distributor) := by
  obtain ⟨hascii, hcapitals⟩ := hs.capitals_eq Code.isAscii_new
  have hdecode := Code.decode_of_capitals hascii hcapitals
  have hupper : T.toUppercase s = String.ofList (s.toList.map Char.toUpper) := by
    have hlist := CaseTable.toUppercase_of_ascii (T := T) hascii
    rwa [String.ofList_toList] at hlist
  have hdecode' : crates.decode (T.toUppercase (withoutDashes (T.toUppercase s))) =
      some (Code.payload crates random days distributor secret) := by
    rw [hupper]
    apply Code.decode_of_capitals
    · intro c hc
      rw [String.toList_ofList, List.mem_map] at hc
      obtain ⟨d, hd, rfl⟩ := hc
      exact (case_of_ascii (hascii d hd)).2.2.2.2
    · rw [String.toList_ofList, capitals_map_toUpper hascii, hcapitals]
  refine ⟨Code.parse_of_decode hdecode, ⟨T.toUppercase s⟩, ?_, ?_⟩
  · simp [Code.fromStr, hdecode, Code.length_payload]
  · simp [Code.validate, Code.parse_of_decode hdecode']

/-- The crates, with the signature of one code. -/
def sampleCrates : CodeCrates where
  encode bytes := String.ofList (Base32.encode bytes)
  decode s := Base32.decode s.toList
  sign data secret := if data = [1, 2, 3, 4, 5, 6, 0, 30] ++ "FRKN".toUTF8.data.toList ∧
      secret = "sign-token".toUTF8.data.toList then
    [103, 111, 254, 159, 2, 246, 148, 75, 199, 191, 104, 98, 82, 39, 12, 239, 94, 169, 156,
     192, 77, 244, 27, 254, 179, 43, 193, 63, 90, 91, 230, 198]
    else List.replicate 32 0
  encode_eq _ := rfl
  decode_eq _ _ := rfl
  length_sign data secret := by split <;> simp

/-- A code of 30 days, without its first dash and with a small letter. -/
theorem parse_respelled_frkn :
    (Code.new sampleCrates CaseTable.ascii #v[1, 2, 3, 4, 5, 6] 30 #v[70, 82, 75, 78]
      "sign-token".toUTF8.data.toList).text = "AEBAG-BAFAY-AB4RS-SJNHG-O376H-A" ∧
    Code.parse sampleCrates CaseTable.ascii "aEBAGBAFAY-AB4RS-SJNHG-O376H-A"
      "sign-token".toUTF8.data.toList = some (30, #v[70, 82, 75, 78]) := by
  have htext : (Code.new sampleCrates CaseTable.ascii #v[1, 2, 3, 4, 5, 6] 30 #v[70, 82, 75, 78]
      "sign-token".toUTF8.data.toList).text = "AEBAG-BAFAY-AB4RS-SJNHG-O376H-A" := by
    decide +kernel
  have hdash : Respelled "AEBAG-BAFAY-AB4RS-SJNHG-O376H-A" "AEBAGBAFAY-AB4RS-SJNHG-O376H-A" :=
    .remove "AEBAG".toList "BAFAY-AB4RS-SJNHG-O376H-A".toList .refl
  have hsmall : Respelled "AEBAG-BAFAY-AB4RS-SJNHG-O376H-A" "aEBAGBAFAY-AB4RS-SJNHG-O376H-A" :=
    .lower [] "EBAGBAFAY-AB4RS-SJNHG-O376H-A".toList 'A' hdash
  rw [← htext] at hsmall
  exact ⟨htext, (parse_respelled _ _ _ _ _ _ _ hsmall).1⟩

end Fcore
