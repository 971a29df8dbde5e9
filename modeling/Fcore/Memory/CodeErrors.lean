import Fcore.Memory.Code

/-!
What damaged codes are taken for.

A code is 26 symbols of five bits for 16 bytes, so the last symbol carries two bits
that belong to no byte.

* `eq_of_checksum`: two payloads that differ in one symbol do not both have the right
  checksum;
* `changed_symbol_refused`: the checksum refuses a code with one symbol changed;
* `Tight`: a spelling of 26 symbols without leftover bits;
* `accepted_canonical_iff`: exactly the accepted spellings of that kind are what is
  written for their bytes.
-/

namespace Fcore

open Calculus

/-! ### The checksum and the bits -/

/-- The checksum is the weight of the bits. -/
lemma Code.toNat_checksum (data : List UInt8) :
    (Code.checksum data).toNat = Base32.weight 0 (Base32.bits data) % 256 := by
  have hfold : ∀ (l : List UInt8) (a : UInt8),
      (l.foldl (· + ·) a).toNat = (a.toNat + (l.map UInt8.toNat).sum) % 256 := by
    intro l
    induction l with
    | nil =>
        intro a
        have ha := a.toNat_lt
        rw [List.foldl_nil, List.map_nil, List.sum_nil]
        omega
    | cons b l ih =>
        intro a
        rw [List.foldl_cons, ih, UInt8.toNat_add, List.map_cons, List.sum_cons]
        omega
  rw [Code.checksum, hfold, Base32.weight_bits]
  simp

/-- The payload and the check byte as parts of the bits. -/
lemma cut_bits {data : List UInt8} {tail m : List Bool} (hdata : data.length = 15)
    (hbits : Base32.bits (data ++ [Code.checksum data]) ++ tail = m) :
    Base32.bits data = m.take 120 ∧ Base32.bits [Code.checksum data] ++ tail = m.drop 120 := by
  have hlen : (Base32.bits data).length = 120 := by rw [Base32.length_bits, hdata]
  rw [Base32.bits_append, List.append_assoc] at hbits
  rw [← hbits]
  exact ⟨(List.take_left' hlen).symm, (List.drop_left' hlen).symm⟩

/-- Two payloads with the right checksum that differ at most in one group of five bits are
the same. -/
lemma eq_of_checksum {data data' : List UInt8} {n : ℕ} {a b tail tail' : List Bool} {v w : ℕ}
    (hdata : data.length = 15) (hdata' : data'.length = 15) (ha : a.length = 5 * n)
    (hv : v < 32) (hw : w < 32)
    (hbits : Base32.bits (data ++ [Code.checksum data]) ++ tail = a ++ (bitsOf 5 v ++ b))
    (hbits' : Base32.bits (data' ++ [Code.checksum data']) ++ tail' = a ++ (bitsOf 5 w ++ b)) :
    data = data' := by
  obtain ⟨hfront, hback⟩ := cut_bits hdata hbits
  obtain ⟨hfront', hback'⟩ := cut_bits hdata' hbits'
  rcases Nat.lt_or_ge n 24 with hn | hn
  · -- the group is among the data: the check bytes are the same, and so are the sums
    have hle : a.length ≤ 120 := by omega
    have hfive : ∀ u, (bitsOf 5 u).length ≤ 120 - a.length := fun u => by
      rw [length_bitsOf]
      omega
    have htake : ∀ u, (a ++ (bitsOf 5 u ++ b)).take 120 =
        a ++ (bitsOf 5 u ++ b.take (120 - a.length - 5)) := by
      intro u
      rw [List.take_append, List.take_append, List.take_of_length_le hle,
        List.take_of_length_le (hfive u), length_bitsOf]
    have hdrop : ∀ u, (a ++ (bitsOf 5 u ++ b)).drop 120 = b.drop (120 - a.length - 5) := by
      intro u
      rw [List.drop_append, List.drop_append, List.drop_of_length_le hle,
        List.drop_of_length_le (hfive u), length_bitsOf, List.nil_append, List.nil_append]
    rw [htake] at hfront hfront'
    rw [hdrop] at hback hback'
    have hcheck : Code.checksum data = Code.checksum data' := by
      have hbyte := (List.append_inj (hback.trans hback'.symm) (by simp [Base32.length_bits])).1
      simpa using Base32.bits_injective hbyte
    have hgroup : Base32.weight (a.length % 8) (bitsOf 5 v) % 256 =
        Base32.weight (a.length % 8) (bitsOf 5 w) % 256 := by
      have hsum := congrArg UInt8.toNat hcheck
      rw [Code.toNat_checksum, Code.toNat_checksum, hfront, hfront'] at hsum
      simp only [Base32.weight_append, zero_add, length_bitsOf] at hsum
      rw [← Base32.weight_mod, ← Base32.weight_mod]
      omega
    have hvw : v = w :=
      Base32.weight_group_inj _ (Nat.mod_lt _ (by norm_num)) _ hv _ hw hgroup
    exact Base32.bits_injective (by rw [hfront, hfront', hvw])
  · -- the group is behind the data
    have hle : 120 ≤ a.length := by omega
    rw [List.take_append_of_le_length hle] at hfront hfront'
    exact Base32.bits_injective (hfront.trans hfront'.symm)

/-! ### One symbol changed -/

lemma capitals_around {l r : List Char} {c : Char} (hc : c ∈ Base32.alphabet) :
    capitals (l ++ c :: r) = capitals l ++ c :: capitals r := by
  have hfacts := symbol_facts hc
  rw [capitals_append]
  simp [capitals, hfacts.2.1, hfacts.2.2]

/-- What is read of a text in ASCII. -/
lemma CodeCrates.decode_ascii (crates : CodeCrates) {T : CaseTable} {s : String}
    (h : IsAscii s.toList) :
    crates.decode (T.toUppercase (withoutDashes s)) = Base32.decode (capitals s.toList) := by
  rw [toUppercase_withoutDashes h, crates.decode_eq, String.toList_ofList]
  intro c hc
  rw [String.toList_ofList, capitals, List.mem_map] at hc
  obtain ⟨d, hd, rfl⟩ := hc
  exact (case_of_ascii (h d (List.mem_of_mem_filter hd))).1.2

/-- The checksum of a code with one symbol changed is wrong if it has other bytes, so it is
refused whatever the signature. -/
theorem changed_symbol_refused (crates crates' : CodeCrates) (T : CaseTable)
    (random : Vector UInt8 6) (days : Int16) (distributor : Vector UInt8 4)
    (secret secret' : List UInt8) (l r : List Char) (c c' : Char) (bytes : List UInt8)
    (htext : (Code.new crates T random days distributor secret).text.toList = l ++ c :: r)
    (hc : c ∈ Base32.alphabet) (hc' : c' ∈ Base32.alphabet)
    (hbytes : crates'.decode (T.toUppercase (withoutDashes (String.ofList (l ++ c' :: r)))) =
      some bytes) (hlen : bytes.length = 16)
    (hother : bytes ≠ Code.payload crates random days distributor secret) :
    some (Code.checksum (bytes.take 15)) ≠ (bytes.drop 15).head? ∧
      Code.parse crates' T (String.ofList (l ++ c' :: r)) secret' = none := by
  have hascii : IsAscii (l ++ c :: r) := htext ▸ Code.isAscii_new
  have hascii' : IsAscii (String.ofList (l ++ c' :: r)).toList := by
    rw [String.toList_ofList]
    simp only [IsAscii, List.forall_mem_append, List.forall_mem_cons] at hascii ⊢
    exact ⟨hascii.1, (symbol_facts hc').1, hascii.2.2⟩
  -- both texts are read as bits that agree around one group
  have hread : Base32.decode (capitals l ++ c :: capitals r) =
      some (Code.payload crates random days distributor secret) := by
    rw [← capitals_around hc, ← htext, Code.capitals_new, Base32.decode_encode]
  have hread' : Base32.decode (capitals l ++ c' :: capitals r) = some bytes := by
    rw [← hbytes, crates'.decode_ascii hascii', String.toList_ofList, capitals_around hc']
  obtain ⟨values, tail, hvalues, -, hbits⟩ := Base32.exists_of_decode hread
  obtain ⟨values', tail', hvalues', -, hbits'⟩ := Base32.exists_of_decode hread'
  obtain ⟨front, v, back, hfront, hv, hback, rfl⟩ := Base32.exists_of_mapM_append hvalues
  obtain ⟨front', w, back', hfront', hw, hback', rfl⟩ := Base32.exists_of_mapM_append hvalues'
  obtain rfl : front = front' := Option.some.inj (hfront.symm.trans hfront')
  obtain rfl : back = back' := Option.some.inj (hback.symm.trans hback')
  rw [List.flatMap_append, List.flatMap_cons] at hbits hbits'
  have hchecksum : some (Code.checksum (bytes.take 15)) ≠ (bytes.drop 15).head? := by
    intro hcheck
    obtain ⟨check, hlast⟩ : ∃ check, bytes.drop 15 = [check] :=
      List.length_eq_one_iff.mp (by rw [List.length_drop]; omega)
    rw [hlast, List.head?_cons, Option.some.injEq] at hcheck
    have hsplit : bytes = bytes.take 15 ++ [Code.checksum (bytes.take 15)] := by
      rw [hcheck, ← hlast, List.take_append_drop]
    have hpayload : ∃ signed : List UInt8, signed.length = 15 ∧
        Code.payload crates random days distributor secret = signed ++ [Code.checksum signed] :=
      ⟨_, by simp [toBeBytes, crates.length_sign], rfl⟩
    obtain ⟨signed, hsigned, hpayload⟩ := hpayload
    have hgroups : (front.flatMap (bitsOf 5)).length = 5 * front.length := by
      simp [List.length_flatMap, mul_comm]
    rw [hpayload] at hbits
    rw [hsplit] at hbits'
    have hsame := eq_of_checksum hsigned (by rw [List.length_take]; omega) hgroups
      (Base32.value_lt hv) (Base32.value_lt hw) hbits.symm hbits'.symm
    exact hother (by rw [hpayload, hsame, ← hsplit])
  refine ⟨hchecksum, ?_⟩
  rw [Code.parse, hbytes]
  simp only [ne_eq, hlen, not_true_eq_false, if_false]
  rw [if_pos hchecksum]

/-- A code of 30 days with its first symbol changed. -/
theorem changed_symbol_refused_first :
    (Code.new sampleCrates CaseTable.ascii #v[1, 2, 3, 4, 5, 6] 30 #v[70, 82, 75, 78]
      "sign-token".toUTF8.data.toList).text = "AEBAG-BAFAY-AB4RS-SJNHG-O376H-A" ∧
    Code.parse sampleCrates CaseTable.ascii "BEBAG-BAFAY-AB4RS-SJNHG-O376H-A"
      "sign-token".toUTF8.data.toList = none := by
  have htext : (Code.new sampleCrates CaseTable.ascii #v[1, 2, 3, 4, 5, 6] 30 #v[70, 82, 75, 78]
      "sign-token".toUTF8.data.toList).text = "AEBAG-BAFAY-AB4RS-SJNHG-O376H-A" := by
    decide +kernel
  refine ⟨htext, ?_⟩
  have hread : sampleCrates.decode (CaseTable.ascii.toUppercase
      (withoutDashes (String.ofList ([] ++ 'B' :: "EBAG-BAFAY-AB4RS-SJNHG-O376H-A".toList)))) =
        some [9, 2, 3, 4, 5, 6, 0, 30, 70, 82, 75, 78, 103, 111, 254, 56] := by
    decide +kernel
  have hrefused := changed_symbol_refused sampleCrates sampleCrates CaseTable.ascii
    #v[1, 2, 3, 4, 5, 6] 30 #v[70, 82, 75, 78] "sign-token".toUTF8.data.toList
    "sign-token".toUTF8.data.toList [] "EBAG-BAFAY-AB4RS-SJNHG-O376H-A".toList 'A' 'B' _
    (by rw [htext]; decide) (by decide) (by decide) hread rfl (by decide +kernel)
  exact hrefused.2

/-! ### Spellings without leftover bits -/

/-- The 26 symbols of 16 bytes, the last without leftover bits. -/
def Tight (s : List Char) : Prop :=
  s.length = 26 ∧ s.all Base32.alphabet.contains = true ∧
    s.getLast?.any "AEIMQUY4".toList.contains = true

instance (s : List Char) : Decidable (Tight s) := inferInstanceAs (Decidable (_ ∧ _ ∧ _))

/-- The two lowest bits of a group. -/
lemma bitsOf_five (v : ℕ) :
    bitsOf 5 v = bitsOf 3 (v / 4) ++ [decide (v / 2 % 2 = 1), decide (v % 2 = 1)] := by
  have hquarter : v / 2 / 2 = v / 4 := by omega
  rw [bitsOf, bitsOf, hquarter, List.append_assoc]
  rfl

lemma Tight.mem_alphabet {s : List Char} (h : Tight s) {c : Char} (hc : c ∈ s) :
    c ∈ Base32.alphabet :=
  List.contains_iff_mem.mp (List.all_eq_true.mp h.2.1 c hc)

lemma value_of_tight {c : Char} (hc : c ∈ "AEIMQUY4".toList) :
    (Base32.value c).any (· % 4 == 0) = true := by
  have hall : "AEIMQUY4".toList.all (fun c => (Base32.value c).any (· % 4 == 0)) = true := by
    decide
  exact List.all_eq_true.mp hall c hc

lemma symbol_of_tight : ∀ v < 32, v % 4 = 0 → Base32.symbol v ∈ "AEIMQUY4".toList := by
  decide

/-- Symbols of the alphabet have values. -/
lemma exists_mapM_value {s : List Char} (h : ∀ c ∈ s, c ∈ Base32.alphabet) :
    ∃ values, s.mapM Base32.value = some values := by
  induction s with
  | nil => exact ⟨[], rfl⟩
  | cons c s ih =>
      rw [List.forall_mem_cons] at h
      obtain ⟨v, hv⟩ := Base32.exists_value h.1
      obtain ⟨values, hvalues⟩ := ih h.2
      exact ⟨v :: values, by rw [List.mapM_cons, hv, hvalues]; rfl⟩

/-- A tight spelling is what is written for the bytes it is read as. -/
lemma Tight.exists_bytes {s : List Char} (h : Tight s) :
    ∃ bytes, bytes.length = 16 ∧ Base32.decode s = some bytes ∧ Base32.encode bytes = s := by
  have hsymbols : ∀ c ∈ s, c ∈ Base32.alphabet := fun c hc => h.mem_alphabet hc
  obtain ⟨hlen, -, hlast⟩ := h
  obtain ⟨c, hc, hsymbol⟩ := (Option.any_eq_true _ _).mp hlast
  obtain ⟨front, rfl⟩ : ∃ front, s = front ++ [c] := List.getLast?_eq_some_iff.mp hc
  obtain ⟨values, hvalues⟩ := exists_mapM_value hsymbols
  obtain ⟨vs, v, back, hvs, hv, hback, rfl⟩ := Base32.exists_of_mapM_append hvalues
  obtain rfl : [] = back := by simpa using hback
  have hzero := value_of_tight (List.contains_iff_mem.mp hsymbol)
  rw [hv, Option.any_some, beq_iff_eq] at hzero
  have hvslen : vs.length = 25 := by
    have hfront := congrArg List.length (Base32.map_symbol_of_mapM hvs)
    rw [List.length_map] at hfront
    rw [List.length_append, List.length_singleton] at hlen
    omega
  -- the bits of the bytes, and two zeros
  have hbits : (vs ++ [v]).flatMap (bitsOf 5) =
      (vs.flatMap (bitsOf 5) ++ bitsOf 3 (v / 4)) ++ List.replicate 2 false := by
    have hhalf : v / 2 % 2 = 0 := by omega
    have hlow : v % 2 = 0 := by omega
    rw [List.flatMap_append, List.flatMap_cons, List.flatMap_nil, bitsOf_five, hhalf, hlow]
    simp
  have hwhole : (vs.flatMap (bitsOf 5) ++ bitsOf 3 (v / 4)).length = 8 * 16 := by
    simp [List.length_flatMap, hvslen]
  refine ⟨_, Base32.length_wholeBytes hwhole, ?_, ?_⟩
  · rw [Base32.decode, hvalues, Option.map_some, hbits,
      Base32.wholeBytes_append hwhole (by rw [List.length_replicate]; omega)]
  · rw [← Base32.map_symbol_of_mapM hvalues]
    refine (Base32.map_symbol_eq_encode (k := 2) (by norm_num) ?_ ?_).symm
    · intro u hu
      obtain ⟨d, -, hd⟩ := Base32.exists_mem_of_mapM hvalues hu
      exact Base32.value_lt hd
    · rw [hbits, Base32.bits_wholeBytes hwhole]

/-- What is written for 16 bytes is tight. -/
lemma tight_encode {bytes : List UInt8} (h : bytes.length = 16) : Tight (Base32.encode bytes) := by
  obtain ⟨values, k, hk, hvalues, hbits⟩ := Base32.exists_values_encode bytes
  have hlen := congrArg List.length hbits
  rw [List.length_append, List.length_replicate, Base32.length_bits, h, List.length_flatMap] at hlen
  simp only [length_bitsOf, List.map_const', List.sum_replicate, smul_eq_mul] at hlen
  have hk : k = 2 := by omega
  have hcount : values.length = 26 := by omega
  have hsymbols := Base32.map_symbol_of_mapM hvalues
  obtain ⟨vs, v, rfl⟩ : ∃ vs v, values = vs ++ [v] := by
    rcases List.eq_nil_or_concat values with rfl | ⟨vs, v, rfl⟩
    · simp at hcount
    · exact ⟨vs, v, List.concat_eq_append⟩
  obtain ⟨c, -, hv⟩ := Base32.exists_mem_of_mapM hvalues
    (List.mem_append_right vs List.mem_cons_self)
  have hzero : v % 4 = 0 := by
    rw [List.flatMap_append, List.flatMap_cons, List.flatMap_nil, List.append_nil, bitsOf_five,
      ← List.append_assoc, hk] at hbits
    have hlow := (List.append_inj' hbits rfl).2
    simp at hlow
    omega
  refine ⟨?_, List.all_eq_true.mpr fun c hc => ?_, ?_⟩
  · rw [← hsymbols, List.length_map, hcount]
  · exact List.contains_iff_mem.mpr (Base32.mem_alphabet_of_mem_encode hc)
  · rw [← hsymbols, List.map_append, List.map_singleton, List.getLast?_concat, Option.any_some]
    exact List.contains_iff_mem.mpr (symbol_of_tight v (Base32.value_lt hv) hzero)

/-- What is accepted is read as 16 bytes. -/
lemma Code.exists_decode_of_parse {crates : CodeCrates} {T : CaseTable} {s : String}
    {secret : List UInt8} {r : Int16 × Vector UInt8 4} (h : parse crates T s secret = some r) :
    ∃ bytes, crates.decode (T.toUppercase (withoutDashes s)) = some bytes ∧ bytes.length = 16 := by
  rw [parse] at h
  cases hread : crates.decode (T.toUppercase (withoutDashes s)) with
  | none =>
      rw [hread] at h
      cases h
  | some bytes =>
      rw [hread] at h
      refine ⟨bytes, rfl, ?_⟩
      by_contra hlen
      simp [hlen] at h

/-- The crates read a tight spelling as they write it. -/
lemma CodeCrates.decode_tight (crates : CodeCrates) {s : String} (h : Tight s.toList) :
    ∃ bytes, bytes.length = 16 ∧ crates.decode s = some bytes ∧ crates.encode bytes = s := by
  obtain ⟨bytes, hlen, hread, hwritten⟩ := h.exists_bytes
  refine ⟨bytes, hlen, ?_, ?_⟩
  · rw [crates.decode_eq s fun c hc => (symbol_facts (h.mem_alphabet hc)).2.2, hread]
  · rw [crates.encode_eq, hwritten, String.ofList_toList]

/-- An accepted text is, in capitals and without dashes, what is written for its bytes exactly if
it is tight; and then every other text with these bytes is the same up to case and dashes exactly
if it is tight, too. -/
theorem accepted_canonical_iff (crates : CodeCrates) (T : CaseTable) (s : String)
    (secret : List UInt8) (r : Int16 × Vector UInt8 4) (h : Code.parse crates T s secret = some r) :
    ((∀ bytes, crates.decode (T.toUppercase (withoutDashes s)) = some bytes →
        T.toUppercase (withoutDashes s) = crates.encode bytes) ↔
      Tight (T.toUppercase (withoutDashes s)).toList) ∧
    (Tight (T.toUppercase (withoutDashes s)).toList →
      ∀ s' : String, crates.decode (T.toUppercase (withoutDashes s')) =
          crates.decode (T.toUppercase (withoutDashes s)) →
        (T.toUppercase (withoutDashes s') = T.toUppercase (withoutDashes s) ↔
          Tight (T.toUppercase (withoutDashes s')).toList)) := by
  refine ⟨⟨?_, ?_⟩, ?_⟩
  · intro hcanonical
    obtain ⟨bytes, hread, hlen⟩ := Code.exists_decode_of_parse h
    rw [hcanonical bytes hread, crates.encode_eq, String.toList_ofList]
    exact tight_encode hlen
  · intro htight bytes hread
    obtain ⟨bytes', -, hread', hwritten⟩ := crates.decode_tight htight
    rw [hread, Option.some.injEq] at hread'
    rw [hread', hwritten]
  · intro htight s' hsame
    constructor
    · intro heq
      rwa [heq]
    · intro htight'
      obtain ⟨bytes, -, hread, hwritten⟩ := crates.decode_tight htight
      obtain ⟨bytes', -, hread', hwritten'⟩ := crates.decode_tight htight'
      rw [hsame, hread, Option.some.injEq] at hread'
      rw [← hwritten, ← hwritten', hread']

/-- A code of 30 days is tight. -/
theorem accepted_canonical_thirty :
    Tight (CaseTable.ascii.toUppercase (withoutDashes "aEBAGBAFAY-AB4RS-SJNHG-O376H-A")).toList ∧
    ∀ bytes, sampleCrates.decode (CaseTable.ascii.toUppercase
      (withoutDashes "aEBAGBAFAY-AB4RS-SJNHG-O376H-A")) = some bytes →
        CaseTable.ascii.toUppercase (withoutDashes "aEBAGBAFAY-AB4RS-SJNHG-O376H-A") =
          sampleCrates.encode bytes := by
  have haccepted : Code.parse sampleCrates CaseTable.ascii "aEBAGBAFAY-AB4RS-SJNHG-O376H-A"
      "sign-token".toUTF8.data.toList = some (30, #v[70, 82, 75, 78]) := by
    decide +kernel
  have htight : Tight (CaseTable.ascii.toUppercase
      (withoutDashes "aEBAGBAFAY-AB4RS-SJNHG-O376H-A")).toList := by
    decide +kernel
  exact ⟨htight, (accepted_canonical_iff _ _ _ _ _ haccepted).1.mpr htight⟩

/-- A valid code with another last symbol is accepted and has the same bytes. -/
theorem leftover_bits_accepted :
    (Code.new sampleCrates CaseTable.ascii #v[1, 2, 3, 4, 5, 6] 30 #v[70, 82, 75, 78]
      "sign-token".toUTF8.data.toList).text = "AEBAG-BAFAY-AB4RS-SJNHG-O376H-A" ∧
    Code.parse sampleCrates CaseTable.ascii "AEBAG-BAFAY-AB4RS-SJNHG-O376H-B"
      "sign-token".toUTF8.data.toList = some (30, #v[70, 82, 75, 78]) ∧
    sampleCrates.decode (CaseTable.ascii.toUppercase
        (withoutDashes "AEBAG-BAFAY-AB4RS-SJNHG-O376H-B")) =
      sampleCrates.decode (CaseTable.ascii.toUppercase
        (withoutDashes "AEBAG-BAFAY-AB4RS-SJNHG-O376H-A")) ∧
    ∃ bytes, sampleCrates.decode (CaseTable.ascii.toUppercase
        (withoutDashes "AEBAG-BAFAY-AB4RS-SJNHG-O376H-B")) = some bytes ∧
      CaseTable.ascii.toUppercase (withoutDashes "AEBAG-BAFAY-AB4RS-SJNHG-O376H-B") ≠
        sampleCrates.encode bytes := by
  exact ⟨by decide +kernel, by decide +kernel, by decide +kernel,
    [1, 2, 3, 4, 5, 6, 0, 30, 70, 82, 75, 78, 103, 111, 254, 56], by decide +kernel,
    by decide +kernel⟩

end Fcore
