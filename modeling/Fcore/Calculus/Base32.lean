import Mathlib.Tactic

/-!
Base32 without padding (RFC 4648, section 6).

Bytes are written as bits, most significant first, the bits are cut into groups
of five, the last of them filled up with zeros, and each group is a symbol of the
alphabet.  Reading goes the other way and forgets the bits after the last whole
byte.

* `bitsOf`, `ofBits`: a number of a given width and its bits;
* `chunks`: a list in pieces of a given length, the last possibly shorter;
* `Base32.encode`, `Base32.decode`;
* `Base32.decode_encode`: what was written is read;
* `Base32.exists_of_decode`: the bits of what is read, and the forgotten ones;
* `Base32.map_symbol_eq_encode`: symbols that forget only zeros are what is written;
* `Base32.weight`, `Base32.weight_group_inj`: the sum of bytes as a sum over their bits,
  which a change of one group of five changes modulo 256.
-/

namespace Calculus

/-! ### Numbers and their bits -/

/-- The lowest `w` bits of a number, most significant first. -/
def bitsOf : ℕ → ℕ → List Bool
  | 0, _ => []
  | w + 1, n => bitsOf w (n / 2) ++ [decide (n % 2 = 1)]

/-- The number with the given bits. -/
def ofBits (bits : List Bool) : ℕ := bits.foldl (fun n b => 2 * n + b.toNat) 0

@[simp] lemma length_bitsOf (w n : ℕ) : (bitsOf w n).length = w := by
  induction w generalizing n with
  | zero => simp [bitsOf]
  | succ w ih => simp [bitsOf, ih]

lemma ofBits_append_singleton (bits : List Bool) (b : Bool) :
    ofBits (bits ++ [b]) = 2 * ofBits bits + b.toNat := by
  simp [ofBits]

/-- A number is known by its bits. -/
lemma ofBits_bitsOf {w n : ℕ} (h : n < 2 ^ w) : ofBits (bitsOf w n) = n := by
  induction w generalizing n with
  | zero =>
      have hn : n = 0 := by omega
      simp [bitsOf, ofBits, hn]
  | succ w ih =>
      have hhalf : n / 2 < 2 ^ w := by
        rw [pow_succ] at h
        omega
      rw [bitsOf, ofBits_append_singleton, ih hhalf]
      rcases Nat.mod_two_eq_zero_or_one n with hmod | hmod
      · simp [hmod]
        omega
      · simp [hmod]
        omega

/-- The bits are known by their number. -/
lemma bitsOf_ofBits (bits : List Bool) : bitsOf bits.length (ofBits bits) = bits := by
  induction bits using List.reverseRecOn with
  | nil => simp [bitsOf]
  | append_singleton bits b ih =>
      have hhalf : (2 * ofBits bits + b.toNat) / 2 = ofBits bits := by
        have hb : b.toNat ≤ 1 := b.toNat_le
        omega
      have hlow : decide ((2 * ofBits bits + b.toNat) % 2 = 1) = b := by
        cases b <;> simp
      rw [List.length_append, List.length_singleton, bitsOf, ofBits_append_singleton, hhalf,
        ih, hlow]

lemma ofBits_lt (bits : List Bool) : ofBits bits < 2 ^ bits.length := by
  induction bits using List.reverseRecOn with
  | nil => simp [ofBits]
  | append_singleton bits b ih =>
      have hb : b.toNat ≤ 1 := b.toNat_le
      rw [ofBits_append_singleton, List.length_append, List.length_singleton, pow_succ]
      omega

/-! ### Pieces of a list -/

section

variable {α : Type}

/-- Pieces of length `n`, at most `fuel` of them. -/
def chunksFuel (n : ℕ) : ℕ → List α → List (List α)
  | 0, _ => []
  | fuel + 1, l => if l.isEmpty then [] else l.take n :: chunksFuel n fuel (l.drop n)

/-- The list in pieces of length `n`, the last possibly shorter. -/
def chunks (n : ℕ) (l : List α) : List (List α) := chunksFuel n l.length l

@[simp] lemma chunks_nil (n : ℕ) : chunks n ([] : List α) = [] := rfl

/-- Enough fuel is enough. -/
lemma chunksFuel_eq {n : ℕ} (hn : 0 < n) {fuel : ℕ} {l : List α} (h : l.length ≤ fuel) :
    chunksFuel n fuel l = chunks n l := by
  induction fuel using Nat.strong_induction_on generalizing l with
  | _ fuel ih =>
      cases l with
      | nil => cases fuel <;> simp [chunksFuel]
      | cons a l =>
          rw [List.length_cons] at h
          obtain ⟨fuel, rfl⟩ : ∃ k, fuel = k + 1 := ⟨fuel - 1, by omega⟩
          have hdrop : ((a :: l).drop n).length ≤ l.length := by
            rw [List.length_drop, List.length_cons]
            omega
          rw [chunks, List.length_cons, chunksFuel, chunksFuel, ih fuel (by omega) (by omega),
            ih l.length (by omega) hdrop]

/-- The first piece and the others. -/
lemma chunks_of_ne_nil {n : ℕ} (hn : 0 < n) {l : List α} (hl : l ≠ []) :
    chunks n l = l.take n :: chunks n (l.drop n) := by
  have hpos : 0 < l.length := List.length_pos_iff.mpr hl
  obtain ⟨k, hk⟩ : ∃ k, l.length = k + 1 := ⟨l.length - 1, by omega⟩
  have hdrop : (l.drop n).length ≤ k := by
    rw [List.length_drop]
    omega
  rw [chunks, hk, chunksFuel, if_neg (by simpa using hl), chunksFuel_eq hn hdrop]

/-- A piece of full length in front of a list. -/
lemma chunks_append {n : ℕ} (hn : 0 < n) {a : List α} (ha : a.length = n) (l : List α) :
    chunks n (a ++ l) = a :: chunks n l := by
  have hne : a ++ l ≠ [] := by
    have hpos : 0 < (a ++ l).length := by
      rw [List.length_append]
      omega
    exact List.length_pos_iff.mp hpos
  rw [chunks_of_ne_nil hn hne, ← ha, List.take_left, List.drop_left]

/-- The pieces of a list make up the list. -/
lemma flatten_chunks {n : ℕ} (hn : 0 < n) (l : List α) : (chunks n l).flatten = l := by
  induction hlen : l.length using Nat.strong_induction_on generalizing l with
  | _ k ih =>
      cases l with
      | nil => simp
      | cons a l =>
          have hrest : ((a :: l).drop n).length < k := by
            rw [List.length_cons] at hlen
            rw [List.length_drop, List.length_cons]
            omega
          rw [chunks_of_ne_nil hn (List.cons_ne_nil a l), List.flatten_cons,
            ih _ hrest _ rfl, List.take_append_drop]

/-- No piece is longer than the given length. -/
lemma length_le_of_mem_chunks {n : ℕ} (hn : 0 < n) {l g : List α} (hg : g ∈ chunks n l) :
    g.length ≤ n := by
  induction hlen : l.length using Nat.strong_induction_on generalizing l with
  | _ k ih =>
      cases l with
      | nil => simp at hg
      | cons a l =>
          rw [chunks_of_ne_nil hn (List.cons_ne_nil a l), List.mem_cons] at hg
          rcases hg with rfl | hg
          · rw [List.length_take]
            omega
          · have hrest : ((a :: l).drop n).length < k := by
              rw [List.length_cons] at hlen
              rw [List.length_drop, List.length_cons]
              omega
            exact ih _ hrest hg rfl

/-- The pieces filled up to their full length make up the list and less than one piece
of filling. -/
lemma flatMap_fill_chunks {n : ℕ} (hn : 0 < n) (x : α) (l : List α) :
    ∃ k < n, ((chunks n l).flatMap fun g => g ++ List.replicate (n - g.length) x) =
      l ++ List.replicate k x := by
  induction hlen : l.length using Nat.strong_induction_on generalizing l with
  | _ k ih =>
      cases l with
      | nil => exact ⟨0, hn, by simp⟩
      | cons a l =>
          rw [chunks_of_ne_nil hn (List.cons_ne_nil a l), List.flatMap_cons]
          by_cases hshort : (a :: l).length ≤ n
          · -- the only piece
            rw [List.take_of_length_le hshort, List.drop_eq_nil_of_le hshort]
            refine ⟨n - (a :: l).length, ?_, by simp⟩
            rw [List.length_cons] at hshort ⊢
            omega
          · have htake : ((a :: l).take n).length = n := by
              rw [List.length_take]
              omega
            have hrest : ((a :: l).drop n).length < k := by
              rw [List.length_drop]
              omega
            obtain ⟨j, hj, hfill⟩ := ih _ hrest ((a :: l).drop n) rfl
            refine ⟨j, hj, ?_⟩
            rw [hfill, htake, Nat.sub_self, List.replicate_zero, List.append_nil,
              ← List.append_assoc, List.take_append_drop]

/-- Pieces of full length are found again. -/
lemma chunks_flatMap {β : Type} {n : ℕ} (hn : 0 < n) {f : β → List α}
    {l : List β}
    (h : ∀ b ∈ l, (f b).length = n) : chunks n (l.flatMap f) = l.map f := by
  induction l with
  | nil => simp
  | cons b l ih =>
      rw [List.forall_mem_cons] at h
      rw [List.flatMap_cons, chunks_append hn h.1, ih h.2, List.map_cons]

end

/-! ### The encoding -/

namespace Base32

/-- The alphabet. -/
def alphabet : List Char := "ABCDEFGHIJKLMNOPQRSTUVWXYZ234567".toList

/-- The symbol of a value below 32. -/
def symbol (v : ℕ) : Char := alphabet.getD v 'A'

/-- The value of a symbol. -/
def value (c : Char) : Option ℕ := alphabet.findIdx? (· == c)

lemma value_symbol : ∀ v < 32, value (symbol v) = some v := by decide

/-- The bits of bytes. -/
def bits (bytes : List UInt8) : List Bool := bytes.flatMap fun b => bitsOf 8 b.toNat

/-- A group of bits filled up to five. -/
def fill (g : List Bool) : List Bool := g ++ List.replicate (5 - g.length) false

/-- The symbols of bytes. -/
def encode (bytes : List UInt8) : List Char :=
  (chunks 5 (bits bytes)).map fun g => symbol (ofBits (fill g))

/-- The whole bytes among bits. -/
def wholeBytes (bits : List Bool) : List UInt8 :=
  ((chunks 8 bits).filter (·.length == 8)).map fun g => UInt8.ofNat (ofBits g)

/-- The bytes of symbols; a foreign symbol is refused. -/
def decode (s : List Char) : Option (List UInt8) :=
  (s.mapM value).map fun values => wholeBytes (values.flatMap (bitsOf 5))

/-- Less than eight bits after some bytes are forgotten. -/
lemma wholeBytes_bits {tail : List Bool} (htail : tail.length < 8) (bytes : List UInt8) :
    wholeBytes (bits bytes ++ tail) = bytes := by
  induction bytes with
  | nil =>
      rw [wholeBytes, bits, List.flatMap_nil, List.nil_append]
      cases tail with
      | nil => simp
      | cons b tail =>
          rw [chunks_of_ne_nil (by norm_num) (List.cons_ne_nil b tail),
            List.take_of_length_le htail.le, List.drop_eq_nil_of_le htail.le, chunks_nil,
            List.filter_cons_of_neg (by simpa using htail.ne), List.filter_nil, List.map_nil]
  | cons b bytes ih =>
      have hbyte : UInt8.ofNat (ofBits (bitsOf 8 b.toNat)) = b := by
        rw [ofBits_bitsOf (by simpa using b.toNat_lt), UInt8.ofNat_toNat]
      rw [bits, List.flatMap_cons, List.append_assoc, wholeBytes,
        chunks_append (by norm_num) (length_bitsOf 8 b.toNat), List.filter_cons_of_pos (by simp),
        List.map_cons, hbyte]
      exact congrArg (b :: ·) ih

lemma length_fill {l g : List Bool} (hg : g ∈ chunks 5 l) : (fill g).length = 5 := by
  have hle := length_le_of_mem_chunks (by norm_num) hg
  rw [fill, List.length_append, List.length_replicate]
  omega

/-- The symbols of groups are read as the values of the groups. -/
lemma mapM_value {groups : List (List Bool)} (h : ∀ g ∈ groups, (fill g).length = 5) :
    (groups.map fun g => symbol (ofBits (fill g))).mapM value =
      some (groups.map fun g => ofBits (fill g)) := by
  induction groups with
  | nil => simp
  | cons g groups ih =>
      rw [List.forall_mem_cons] at h
      have hlt : ofBits (fill g) < 32 := by
        have hbits := ofBits_lt (fill g)
        rw [h.1] at hbits
        omega
      simp [value_symbol _ hlt, ih h.2]

/-- The values of groups have the bits of the groups. -/
lemma flatMap_bitsOf {groups : List (List Bool)} (h : ∀ g ∈ groups, (fill g).length = 5) :
    (groups.map fun g => ofBits (fill g)).flatMap (bitsOf 5) = groups.flatMap fill := by
  induction groups with
  | nil => simp
  | cons g groups ih =>
      rw [List.forall_mem_cons] at h
      have hbits := bitsOf_ofBits (fill g)
      rw [h.1] at hbits
      simp [hbits, ih h.2]

/-- The values of what is written have the bits of the bytes, and less than a group of
zeros. -/
lemma exists_values_encode (bytes : List UInt8) :
    ∃ values, ∃ k < 5, (encode bytes).mapM value = some values ∧
      values.flatMap (bitsOf 5) = bits bytes ++ List.replicate k false := by
  have hfill : ∀ g ∈ chunks 5 (bits bytes), (fill g).length = 5 := fun g hg => length_fill hg
  obtain ⟨k, hk, hbits⟩ := flatMap_fill_chunks (n := 5) (by norm_num) false (bits bytes)
  exact ⟨_, k, hk, mapM_value hfill, (flatMap_bitsOf hfill).trans hbits⟩

/-- What was written is read. -/
theorem decode_encode (bytes : List UInt8) : decode (encode bytes) = some bytes := by
  obtain ⟨values, k, hk, hvalues, hbits⟩ := exists_values_encode bytes
  rw [decode, hvalues, Option.map_some, hbits, wholeBytes_bits]
  rw [List.length_replicate]
  omega

lemma symbol_mem (v : ℕ) : symbol v ∈ alphabet := by
  rcases lt_or_ge v alphabet.length with hv | hv
  · rw [symbol, List.getD_eq_getElem?_getD, List.getElem?_eq_getElem hv, Option.getD_some]
    exact List.getElem_mem hv
  · rw [symbol, List.getD_eq_getElem?_getD, List.getElem?_eq_none hv, Option.getD_none]
    decide

lemma mem_alphabet_of_mem_encode {bytes : List UInt8} {c : Char} (hc : c ∈ encode bytes) :
    c ∈ alphabet := by
  rw [encode, List.mem_map] at hc
  obtain ⟨g, -, rfl⟩ := hc
  exact symbol_mem _

/-! ### What is read -/

lemma symbol_value {c : Char} {v : ℕ} (h : value c = some v) : symbol v = c := by
  rw [value, List.findIdx?_eq_some_iff_getElem] at h
  obtain ⟨hlt, hc, -⟩ := h
  rw [symbol, List.getD_eq_getElem?_getD, List.getElem?_eq_getElem hlt, Option.getD_some]
  simpa using hc

lemma value_lt {c : Char} {v : ℕ} (h : value c = some v) : v < 32 := by
  rw [value, List.findIdx?_eq_some_iff_getElem] at h
  obtain ⟨hlt, -, -⟩ := h
  exact hlt

/-- The symbols have values. -/
lemma exists_value {c : Char} (hc : c ∈ alphabet) : ∃ v, value c = some v := by
  cases hv : value c with
  | some v => exact ⟨v, rfl⟩
  | none =>
      rw [value, List.findIdx?_eq_none_iff] at hv
      simpa using hv c hc

/-- Values come from symbols. -/
lemma exists_mem_of_mapM {s : List Char} {values : List ℕ} (h : s.mapM value = some values) {v : ℕ}
    (hv : v ∈ values) : ∃ c ∈ s, value c = some v := by
  induction s generalizing values with
  | nil => simp_all
  | cons c s ih =>
      rw [List.mapM_cons] at h
      simp only [Option.bind_eq_bind, Option.bind_eq_some_iff, Option.pure_def,
        Option.some.injEq] at h
      obtain ⟨u, hu, us, hus, rfl⟩ := h
      rcases List.mem_cons.mp hv with rfl | hv
      · exact ⟨c, List.mem_cons_self, hu⟩
      · obtain ⟨d, hd, hvd⟩ := ih hus hv
        exact ⟨d, List.mem_cons_of_mem c hd, hvd⟩

/-- Symbols are known by their values. -/
lemma map_symbol_of_mapM {s : List Char} {values : List ℕ} (h : s.mapM value = some values) :
    values.map symbol = s := by
  induction s generalizing values with
  | nil => simp_all
  | cons c s ih =>
      rw [List.mapM_cons] at h
      simp only [Option.bind_eq_bind, Option.bind_eq_some_iff, Option.pure_def,
        Option.some.injEq] at h
      obtain ⟨v, hv, vs, hvs, rfl⟩ := h
      rw [List.map_cons, symbol_value hv, ih hvs]

lemma length_bits (bytes : List UInt8) : (bits bytes).length = 8 * bytes.length := by
  induction bytes with
  | nil => rfl
  | cons b bytes ih =>
      have hcons : bits (b :: bytes) = bitsOf 8 b.toNat ++ bits bytes := List.flatMap_cons
      rw [hcons, List.length_append, length_bitsOf, ih, List.length_cons]
      omega

/-- Whole bytes have the bits they were made of. -/
lemma bits_wholeBytes {n : ℕ} {l : List Bool} (h : l.length = 8 * n) : bits (wholeBytes l) = l := by
  induction n generalizing l with
  | zero =>
      have hl : l = [] := List.eq_nil_of_length_eq_zero h
      rw [hl, wholeBytes, chunks_nil]
      rfl
  | succ n ih =>
      have hne : l ≠ [] := by
        rintro rfl
        simp at h
      have htake : (l.take 8).length = 8 := by
        rw [List.length_take]
        omega
      have hdrop : (l.drop 8).length = 8 * n := by
        rw [List.length_drop]
        omega
      have hbyte : bitsOf 8 (UInt8.ofNat (ofBits (l.take 8))).toNat = l.take 8 := by
        have hlt := ofBits_lt (l.take 8)
        rw [htake] at hlt
        have hbits := bitsOf_ofBits (l.take 8)
        rw [htake] at hbits
        rw [UInt8.toNat_ofNat_of_lt' hlt, hbits]
      calc bits (wholeBytes l)
          = bitsOf 8 (UInt8.ofNat (ofBits (l.take 8))).toNat ++ bits (wholeBytes (l.drop 8)) := by
            rw [wholeBytes, chunks_of_ne_nil (by norm_num) hne,
              List.filter_cons_of_pos (by simpa using htake), List.map_cons]
            exact List.flatMap_cons
        _ = l := by rw [hbyte, ih hdrop, List.take_append_drop]

/-- Less than eight bits after whole bytes are forgotten. -/
lemma wholeBytes_append {n : ℕ} {l tail : List Bool} (h : l.length = 8 * n)
    (htail : tail.length < 8) : wholeBytes (l ++ tail) = wholeBytes l := by
  have hread := wholeBytes_bits htail (wholeBytes l)
  rwa [bits_wholeBytes h] at hread

lemma length_wholeBytes {n : ℕ} {l : List Bool} (h : l.length = 8 * n) :
    (wholeBytes l).length = n := by
  have hlen := length_bits (wholeBytes l)
  rw [bits_wholeBytes h, h] at hlen
  omega

/-- What is read: the symbols have the bits of the bytes, and less than eight more. -/
lemma exists_of_decode {s : List Char} {bytes : List UInt8} (h : decode s = some bytes) :
    ∃ values tail, s.mapM value = some values ∧ tail.length < 8 ∧
      values.flatMap (bitsOf 5) = bits bytes ++ tail := by
  rw [decode, Option.map_eq_some_iff] at h
  obtain ⟨values, hvalues, rfl⟩ := h
  obtain ⟨l, hl⟩ : ∃ l, l = values.flatMap (bitsOf 5) := ⟨_, rfl⟩
  have htake : (l.take (8 * (l.length / 8))).length = 8 * (l.length / 8) := by
    rw [List.length_take]
    omega
  have htail : (l.drop (8 * (l.length / 8))).length < 8 := by
    rw [List.length_drop]
    omega
  refine ⟨values, l.drop (8 * (l.length / 8)), hvalues, htail, ?_⟩
  have hread := wholeBytes_append htake htail
  rw [List.take_append_drop] at hread
  rw [← hl, hread, bits_wholeBytes htake, List.take_append_drop]

/-- The values of symbols around one. -/
lemma exists_of_mapM_append {l r : List Char} {c : Char} {values : List ℕ}
    (h : (l ++ c :: r).mapM value = some values) :
    ∃ front v back, l.mapM value = some front ∧ value c = some v ∧ r.mapM value = some back ∧
      values = front ++ v :: back := by
  rw [List.mapM_append, List.mapM_cons] at h
  simp only [Option.bind_eq_bind, Option.bind_eq_some_iff, Option.pure_def, Option.some.injEq] at h
  obtain ⟨front, hfront, -, ⟨v, hv, back, hback, rfl⟩, rfl⟩ := h
  exact ⟨front, v, back, hfront, hv, hback, rfl⟩

/-- Bytes are known by their bits. -/
lemma bits_injective : Function.Injective bits := by
  intro bytes bytes' h
  have hnil : ([] : List Bool).length < 8 := by norm_num
  have hread := wholeBytes_bits hnil bytes
  have hread' := wholeBytes_bits hnil bytes'
  rw [h] at hread
  exact hread.symm.trans hread'

lemma bits_append (a b : List UInt8) : bits (a ++ b) = bits a ++ bits b := List.flatMap_append

/-! ### What is written, group by group -/

/-- Values are known by the bits of their groups. -/
lemma values_eq_of_bits {values values' : List ℕ} (h : ∀ v ∈ values, v < 32)
    (h' : ∀ v ∈ values', v < 32) (hbits : values.flatMap (bitsOf 5) = values'.flatMap (bitsOf 5)) :
    values = values' := by
  have hback : ∀ l : List ℕ, (∀ v ∈ l, v < 32) →
      (chunks 5 (l.flatMap (bitsOf 5))).map ofBits = l := by
    intro l hl
    have hnumbers : ∀ v ∈ l, (ofBits ∘ bitsOf 5) v = v := fun v hv => ofBits_bitsOf (hl v hv)
    rw [chunks_flatMap (by norm_num) fun v _ => length_bitsOf 5 v, List.map_map,
      List.map_congr_left hnumbers, List.map_id']
  rw [← hback values h, ← hback values' h', hbits]

/-- Values whose bits are those of bytes and less than a group of zeros are what is written. -/
lemma map_symbol_eq_encode {values : List ℕ} {bytes : List UInt8} {k : ℕ} (hk : k < 5)
    (hvalues : ∀ v ∈ values, v < 32)
    (hbits : values.flatMap (bitsOf 5) = bits bytes ++ List.replicate k false) :
    values.map symbol = encode bytes := by
  obtain ⟨written, j, hj, hwritten, hbits'⟩ := exists_values_encode bytes
  have hlen : ∀ (values : List ℕ) (k : ℕ),
      values.flatMap (bitsOf 5) = bits bytes ++ List.replicate k false →
        5 * values.length = 8 * bytes.length + k := by
    intro values k h
    have hlen := congrArg List.length h
    rw [List.length_append, List.length_replicate, length_bits, List.length_flatMap] at hlen
    simpa [mul_comm] using hlen
  have hjk : j = k := by
    have hlen₁ := hlen _ _ hbits
    have hlen₂ := hlen _ _ hbits'
    omega
  have hlt : ∀ v ∈ written, v < 32 := by
    intro v hv
    obtain ⟨c, -, hc⟩ := exists_mem_of_mapM hwritten hv
    exact value_lt hc
  rw [values_eq_of_bits hvalues hlt (by rw [hbits, hbits', hjk]), map_symbol_of_mapM hwritten]

/-! ### Sums of bytes -/

/-- What bits from a position on add to the bytes they stand in. -/
def weight : ℕ → List Bool → ℕ
  | _, [] => 0
  | p, b :: l => b.toNat * 2 ^ (7 - p % 8) + weight (p + 1) l

lemma weight_append (p : ℕ) (l r : List Bool) :
    weight p (l ++ r) = weight p l + weight (p + l.length) r := by
  induction l generalizing p with
  | nil => simp [weight]
  | cons b l ih =>
      rw [List.cons_append, weight, weight, ih, List.length_cons, Nat.add_right_comm p, ← add_assoc,
        ← add_assoc p]

/-- Only the place within a byte counts. -/
lemma weight_mod (p : ℕ) (l : List Bool) : weight p l = weight (p % 8) l := by
  induction l generalizing p with
  | nil => rfl
  | cons b l ih =>
      rw [weight, weight, ih (p + 1), ih (p % 8 + 1), Nat.mod_mod, Nat.mod_add_mod]

lemma weight_bitsOf_byte : ∀ n < 256, weight 0 (bitsOf 8 n) = n := by
  decide +kernel

/-- The sum of bytes is the weight of their bits. -/
lemma weight_bits (bytes : List UInt8) : weight 0 (bits bytes) = (bytes.map UInt8.toNat).sum := by
  induction bytes with
  | nil => rfl
  | cons b bytes ih =>
      have hcons : bits (b :: bytes) = bitsOf 8 b.toNat ++ bits bytes := List.flatMap_cons
      rw [hcons, weight_append, weight_bitsOf_byte _ b.toNat_lt, length_bitsOf, weight_mod, ih,
        List.map_cons, List.sum_cons]

/-- A group of five bits is known by what it adds modulo 256, wherever it stands: its bits
have different weights. -/
lemma weight_group_inj : ∀ p < 8, ∀ v < 32, ∀ w < 32,
    weight p (bitsOf 5 v) % 256 = weight p (bitsOf 5 w) % 256 → v = w := by
  decide +kernel

end Base32

end Calculus
