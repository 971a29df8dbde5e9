import Fcore.Calculus.Checked
import Fcore.Api.ConnRows

/-!
Address masks of WireGuard (`src/memory/connection/wireguard.rs`,
`src/proto/wireguard.rs`): how they are decoded, the arithmetic on them, and the search
of a node for a free address.

Arithmetic that overflows has no result here: a debug build stops there, and a release
build goes on with a wrapped value.

* `IpAddrMask.deserialize`: the two JSON forms of a mask;
* `maskChecked`, `broadcastChecked`, `containsIpv4Checked`: the arithmetic that relies
  on the prefix length;
* `consistent_of_cidr_le`: the network they describe, as an interval of addresses;
* `sound_iff_fits`: which decoded masks the arithmetic is defined on;
* `nextAvailableIpMask`: the free address of `WgApi`;
* `allocates_iff`: when that is the least free host address.
-/

namespace Fcore

open Calculus

/-! ### Decoders -/

/-- A JSON value. -/
inductive Json where
  | null
  | bool (b : Bool)
  | int (z : ℤ)
  | float (bits : UInt64)
  | str (s : String)
  | arr (values : List Json)
  | obj (fields : List (String × Json))

/-- What can be wrong with a mask. -/
inductive MaskError where
  | parse
  | invalidType
  | invalidValue (field : String)
  | missingField (field : String)
deriving DecidableEq

namespace IpAddrMask

/-- The entries seen by `visit_map`; a later entry replaces an earlier one. -/
structure MapEntries where
  address : Option IpAddr := none
  cidr : Option UInt8 := none
deriving DecidableEq

/-- The value of `address`: the text of an address. -/
def addressValue (ip : IpText) : Json → Except MaskError IpAddr
  | .str s => match ip.parse s with
      | some a => .ok a
      | none => .error (.invalidValue "address")
  | _ => .error (.invalidValue "address")

/-- The value of `cidr`: a number that fits a byte. -/
def cidrValue : Json → Except MaskError UInt8
  | .int z => if 0 ≤ z ∧ z < 256 then .ok (UInt8.ofNat z.toNat) else .error (.invalidValue "cidr")
  | _ => .error (.invalidValue "cidr")

/-- The loop of `visit_map`. -/
def visitEntries (ip : IpText) : List (String × Json) → MapEntries → Except MaskError MapEntries
  | [], seen => .ok seen
  | (key, value) :: fields, seen =>
      if key = "address" then do
        let a ← addressValue ip value
        visitEntries ip fields { seen with address := some a }
      else if key = "cidr" then do
        let c ← cidrValue value
        visitEntries ip fields { seen with cidr := some c }
      else visitEntries ip fields seen

def visitMap (ip : IpText) (fields : List (String × Json)) : Except MaskError IpAddrMask := do
  let seen ← visitEntries ip fields {}
  match seen.address, seen.cidr with
  | none, _ => .error (.missingField "address")
  | some _, none => .error (.missingField "cidr")
  | some address, some cidr => .ok ⟨address, cidr⟩

def visitStr (ip : IpText) (s : String) : Except MaskError IpAddrMask :=
  match fromStr ip s with
  | some m => .ok m
  | none => .error .parse

def deserialize (ip : IpText) : Json → Except MaskError IpAddrMask
  | .str s => visitStr ip s
  | .obj fields => visitMap ip fields
  | _ => .error .invalidType

/-- A text for `FromStr` or a JSON value. -/
inductive Source where
  | text (s : String)
  | json (value : Json)

def decode (ip : IpText) : Source → Except MaskError IpAddrMask
  | .text s => visitStr ip s
  | .json value => deserialize ip value

/-! ### Arithmetic on the prefix length -/

/-- The mask of a word of `w` bits: `MAX << (w - cidr)`, with the subtraction on bytes. -/
def maskWord (w : ℕ) (cidr : UInt8) : Option (BitVec w) :=
  if cidr = 0 then some 0
  else do
    let bits ← checkedSub (BitVec.ofNat 8 w) cidr.toBitVec
    checkedShl (BitVec.allOnes w) bits.toNat

/-- The host bits of a word of `w` bits: `MAX >> cidr`, nothing from the width on. -/
def hostBits (w : ℕ) (cidr : UInt8) : Option (BitVec w) :=
  if w ≤ cidr.toNat then some 0 else checkedShr (BitVec.allOnes w) cidr.toNat

def containsIpv4Checked (m : IpAddrMask) (ip : BitVec 32) : Option Bool :=
  match m.address with
  | .v4 base => (maskWord 32 m.cidr).map fun mask => base &&& mask == ip &&& mask
  | .v6 _ => some false

def broadcastChecked (m : IpAddrMask) : Option IpAddr :=
  match m.address with
  | .v4 ip => (hostBits 32 m.cidr).map fun bits => .v4 (ip ||| bits)
  | .v6 ip => (hostBits 128 m.cidr).map fun bits => .v6 (ip ||| bits)

def maskChecked (m : IpAddrMask) : Option IpAddr :=
  match m.address with
  | .v4 _ => (maskWord 32 m.cidr).map .v4
  | .v6 _ => (maskWord 128 m.cidr).map .v6

/-- The prefix is not longer than the address, and the arithmetic does not overflow. -/
structure Sound (m : IpAddrMask) : Prop where
  cidr_le : m.cidr ≤ m.address.maxCidr
  contains : ∀ ip, (m.containsIpv4Checked ip).isSome
  broadcast : m.broadcastChecked.isSome
  mask : m.maskChecked.isSome

lemma hostBits_eq (w : ℕ) (cidr : UInt8) :
    hostBits w cidr = some (BitVec.allOnes w >>> cidr.toNat) := by
  rw [hostBits]
  split_ifs with h
  · rw [BitVec.ushiftRight_eq_zero h]
    rfl
  · exact checkedShr_eq_some.mpr ⟨Nat.not_le.mp h, rfl⟩

/-- The mask is the complement of the host bits. -/
lemma maskWord_eq {w : ℕ} {cidr : UInt8} (hw : w < 256) (h : cidr.toNat ≤ w) :
    maskWord w cidr = some (~~~(BitVec.allOnes w >>> cidr.toNat)) := by
  rw [maskWord]
  split_ifs with hzero
  · subst hzero
    simp
  · have hpos : 0 < cidr.toNat := Nat.pos_of_ne_zero fun h0 => hzero (UInt8.toNat_inj.mp h0)
    have hwidth : (BitVec.ofNat 8 w).toNat = w := by
      rw [BitVec.toNat_ofNat, Nat.mod_eq_of_lt hw]
    have hsub : checkedSub (BitVec.ofNat 8 w) cidr.toBitVec =
        some (BitVec.ofNat 8 w - cidr.toBitVec) := by
      rw [checkedSub, if_pos]
      rw [hwidth]
      exact h
    have hbits : (BitVec.ofNat 8 w - cidr.toBitVec).toNat = w - cidr.toNat := by
      rw [(checkedSub_eq_some.mp hsub).2, hwidth]
      rfl
    rw [hsub, ← allOnes_shiftLeft_sub, ← hbits]
    refine checkedShl_eq_some.mpr ⟨?_, rfl⟩
    rw [hbits]
    omega

/-- Without an overflow both builds compute the same mask. -/
lemma containsIpv4_eq {cidr : UInt8} (h : cidr.toNat ≤ 32) (base ip : BitVec 32) :
    containsIpv4 ⟨.v4 base, cidr⟩ ip =
      (base &&& ~~~(BitVec.allOnes 32 >>> cidr.toNat) ==
        ip &&& ~~~(BitVec.allOnes 32 >>> cidr.toNat)) := by
  have hmask : (if cidr = 0 then 0 else BitVec.allOnes 32 <<< ((32 - cidr).toNat % 32)) =
      ~~~(BitVec.allOnes 32 >>> cidr.toNat) := by
    split_ifs with hzero
    · subst hzero
      rfl
    · have hpos : 0 < cidr.toNat := Nat.pos_of_ne_zero fun h0 => hzero (UInt8.toNat_inj.mp h0)
      have hbits : (32 - cidr).toNat = 32 - cidr.toNat :=
        UInt8.toNat_sub_of_le 32 cidr (UInt8.le_iff_toNat_le.mpr h)
      rw [← allOnes_shiftLeft_sub, hbits, Nat.mod_eq_of_lt (by omega)]
  rw [containsIpv4]
  simp only [hmask]

lemma containsIpv4Checked_v4 {cidr : UInt8} (h : cidr.toNat ≤ 32) (base ip : BitVec 32) :
    containsIpv4Checked ⟨.v4 base, cidr⟩ ip = some (containsIpv4 ⟨.v4 base, cidr⟩ ip) := by
  rw [containsIpv4_eq h]
  simp only [containsIpv4Checked, maskWord_eq (w := 32) (by norm_num) h, Option.map_some]

lemma maskChecked_v4 {cidr : UInt8} (h : cidr.toNat ≤ 32) (base : BitVec 32) :
    maskChecked ⟨.v4 base, cidr⟩ = some (.v4 (~~~(BitVec.allOnes 32 >>> cidr.toNat))) := by
  simp only [maskChecked, maskWord_eq (w := 32) (by norm_num) h, Option.map_some]

lemma maskChecked_v6 {cidr : UInt8} (h : cidr.toNat ≤ 128) (base : BitVec 128) :
    maskChecked ⟨.v6 base, cidr⟩ = some (.v6 (~~~(BitVec.allOnes 128 >>> cidr.toNat))) := by
  simp only [maskChecked, maskWord_eq (w := 128) (by norm_num) h, Option.map_some]

lemma broadcastChecked_v4 (cidr : UInt8) (base : BitVec 32) :
    broadcastChecked ⟨.v4 base, cidr⟩ =
      some (.v4 (base ||| BitVec.allOnes 32 >>> cidr.toNat)) := by
  simp only [broadcastChecked, hostBits_eq, Option.map_some]

lemma broadcastChecked_v6 (cidr : UInt8) (base : BitVec 128) :
    broadcastChecked ⟨.v6 base, cidr⟩ =
      some (.v6 (base ||| BitVec.allOnes 128 >>> cidr.toNat)) := by
  simp only [broadcastChecked, hostBits_eq, Option.map_some]

/-- The arithmetic is defined on every prefix that is not too long. -/
lemma sound_iff {m : IpAddrMask} : m.Sound ↔ m.cidr ≤ m.address.maxCidr := by
  refine ⟨Sound.cidr_le, fun h => ?_⟩
  obtain ⟨address, cidr⟩ := m
  have hle := UInt8.le_iff_toNat_le.mp h
  cases address with
  | v4 base =>
      exact ⟨h, fun ip => Option.isSome_of_eq_some (containsIpv4Checked_v4 hle base ip),
        Option.isSome_of_eq_some (broadcastChecked_v4 cidr base),
        Option.isSome_of_eq_some (maskChecked_v4 hle base)⟩
  | v6 base =>
      exact ⟨h, fun _ => rfl, Option.isSome_of_eq_some (broadcastChecked_v6 cidr base),
        Option.isSome_of_eq_some (maskChecked_v6 hle base)⟩

/-! ### The addresses of a network -/

/-- The mask, the broadcast address and the membership test belong to one network: the
broadcast address is the address with the bits outside the mask set, and the members are
the addresses from the first one of the network to the broadcast address. -/
def Consistent (m : IpAddrMask) : Prop :=
  match m.address with
  | .v4 base => ∃ mask last, m.maskChecked = some (.v4 mask) ∧
      m.broadcastChecked = some (.v4 last) ∧ last = base ||| ~~~mask ∧
      ∀ ip, m.containsIpv4Checked ip = some (m.containsIpv4 ip) ∧
        (m.containsIpv4 ip = true ↔
          (base &&& mask).toNat ≤ ip.toNat ∧ ip.toNat ≤ last.toNat)
  | .v6 base => ∃ mask last, m.maskChecked = some (.v6 mask) ∧
      m.broadcastChecked = some (.v6 last) ∧ last = base ||| ~~~mask

/-- The members of a network: the comparison under the mask says that the address lies
between the two ends. -/
lemma containsIpv4_iff {cidr : UInt8} (h : cidr.toNat ≤ 32) (base ip : BitVec 32) :
    containsIpv4 ⟨.v4 base, cidr⟩ ip = true ↔
      (base &&& ~~~(BitVec.allOnes 32 >>> cidr.toNat)).toNat ≤ ip.toNat ∧
        ip.toNat ≤ (base ||| BitVec.allOnes 32 >>> cidr.toNat).toNat := by
  rw [containsIpv4_eq h, beq_iff_eq]
  exact and_not_ones_eq_iff (toNat_allOnes_ushiftRight cidr.toNat)

/-- **Subnet arithmetic.**  For every prefix that is not longer than the address the mask
and the broadcast address are complementary, and the members of an IPv4 network are the
addresses between its first one and its broadcast address. -/
theorem consistent_of_cidr_le (m : IpAddrMask) (h : m.cidr ≤ m.address.maxCidr) :
    m.Consistent := by
  obtain ⟨address, cidr⟩ := m
  have hle := UInt8.le_iff_toNat_le.mp h
  cases address with
  | v4 base =>
      refine ⟨_, _, maskChecked_v4 hle base, broadcastChecked_v4 cidr base, ?_, fun ip => ?_⟩
      · rw [BitVec.not_not]
      · exact ⟨containsIpv4Checked_v4 hle base ip, containsIpv4_iff hle base ip⟩
  | v6 base =>
      refine ⟨_, _, maskChecked_v6 hle base, broadcastChecked_v6 cidr base, ?_⟩
      rw [BitVec.not_not]

/-- A network of each family, the first with an address that is not its first one. -/
theorem consistent_samples :
    (⟨.v4 0x0A00004D, 26⟩ : IpAddrMask).Consistent ∧
      (⟨.v6 0xFD000000000000000000000000000001, 64⟩ : IpAddrMask).Consistent :=
  ⟨consistent_of_cidr_le _ (by decide), consistent_of_cidr_le _ (by decide)⟩

/-! ### Decoded masks -/

/-- The value of the last entry with a key. -/
def lastField (key : String) : List (String × Json) → Option Json
  | [] => none
  | (k, v) :: fields => (lastField key fields).or (if k = key then some v else none)

/-- The source is a text, or a map whose last prefix length suits its last address. -/
def Fits (ip : IpText) : Source → Prop
  | .json (.obj fields) =>
      ∀ s a z, lastField "address" fields = some (.str s) → ip.parse s = some a →
        lastField "cidr" fields = some (.int z) → z ≤ a.maxCidr.toNat
  | _ => True

/-- An entry after the loop: what it was before, or the last value of its key. -/
def EntryOf {α : Type} (f : Json → Except MaskError α) (last : Option Json) (old new : Option α) :
    Prop :=
  match last with
  | none => new = old
  | some v => ∃ a, f v = .ok a ∧ new = some a

lemma entryOf_cons_eq {α : Type} {f : Json → Except MaskError α} {key : String} {v : Json}
    {fields : List (String × Json)} {old new : Option α} {a : α} (hv : f v = .ok a)
    (h : EntryOf f (lastField key fields) (some a) new) :
    EntryOf f (lastField key ((key, v) :: fields)) old new := by
  rw [lastField, if_pos rfl]
  cases hlast : lastField key fields with
  | none =>
      rw [hlast] at h
      exact ⟨a, hv, h⟩
  | some u =>
      rw [hlast] at h
      exact h

lemma entryOf_cons_ne {α : Type} {f : Json → Except MaskError α} {key k : String} {v : Json}
    {fields : List (String × Json)} {old new : Option α} (hk : k ≠ key)
    (h : EntryOf f (lastField key fields) old new) :
    EntryOf f (lastField key ((k, v) :: fields)) old new := by
  rwa [lastField, if_neg hk, Option.or_none]

/-- What the loop of `visit_map` leaves in the two entries. -/
lemma visitEntries_ok {ip : IpText} {fields : List (String × Json)} {seen seen' : MapEntries}
    (h : visitEntries ip fields seen = .ok seen') :
    EntryOf (addressValue ip) (lastField "address" fields) seen.address seen'.address ∧
      EntryOf cidrValue (lastField "cidr" fields) seen.cidr seen'.cidr := by
  induction fields generalizing seen with
  | nil =>
      cases h
      exact ⟨rfl, rfl⟩
  | cons field fields ih =>
      obtain ⟨key, value⟩ := field
      rw [visitEntries] at h
      split_ifs at h with haddress hcidr
      · subst haddress
        cases hvalue : addressValue ip value with
        | error e =>
            rw [hvalue] at h
            cases h
        | ok a =>
            rw [hvalue] at h
            obtain ⟨hseen, hseen'⟩ := ih h
            exact ⟨entryOf_cons_eq hvalue hseen, entryOf_cons_ne (by decide) hseen'⟩
      · subst hcidr
        cases hvalue : cidrValue value with
        | error e =>
            rw [hvalue] at h
            cases h
        | ok c =>
            rw [hvalue] at h
            obtain ⟨hseen, hseen'⟩ := ih h
            exact ⟨entryOf_cons_ne (by decide) hseen, entryOf_cons_eq hvalue hseen'⟩
      · obtain ⟨hseen, hseen'⟩ := ih h
        exact ⟨entryOf_cons_ne haddress hseen, entryOf_cons_ne hcidr hseen'⟩

lemma addressValue_ok {ip : IpText} {v : Json} {a : IpAddr} :
    addressValue ip v = .ok a ↔ ∃ s, v = .str s ∧ ip.parse s = some a := by
  cases v with
  | str s =>
      rw [addressValue]
      cases hs : ip.parse s <;> simp [hs]
  | _ => simp [addressValue]

lemma cidrValue_ok {v : Json} {c : UInt8} :
    cidrValue v = .ok c ↔ v = .int c.toNat := by
  cases v with
  | int z =>
      rw [cidrValue]
      split_ifs with hz
      · obtain ⟨n, rfl⟩ := Int.eq_ofNat_of_zero_le hz.1
        have hn : n < 256 := by omega
        rw [Except.ok.injEq, Json.int.injEq, Int.toNat_natCast, ← UInt8.toNat_inj,
          UInt8.toNat_ofNat_of_lt' hn]
        omega
      · have hc := c.toNat_lt
        rw [Json.int.injEq]
        constructor
        · intro h
          cases h
        · intro h
          exact absurd (by omega) hz
  | _ => simp [cidrValue]

/-- The map form: the last address and the last prefix length, taken as they are. -/
lemma visitMap_ok {ip : IpText} {fields : List (String × Json)} {m : IpAddrMask}
    (h : visitMap ip fields = .ok m) :
    (∃ s, lastField "address" fields = some (.str s) ∧ ip.parse s = some m.address) ∧
      lastField "cidr" fields = some (.int m.cidr.toNat) := by
  rw [visitMap] at h
  cases hseen : visitEntries ip fields {} with
  | error e =>
      rw [hseen] at h
      cases h
  | ok seen =>
      rw [hseen] at h
      obtain ⟨haddress, hcidr⟩ := visitEntries_ok hseen
      obtain ⟨address, cidr⟩ := seen
      cases address with
      | none => cases h
      | some a =>
          cases cidr with
          | none => cases h
          | some c =>
              cases h
              constructor
              · cases hlast : lastField "address" fields with
                | none =>
                    rw [hlast] at haddress
                    cases haddress
                | some v =>
                    rw [hlast] at haddress
                    obtain ⟨a', hv, heq⟩ := haddress
                    cases heq
                    obtain ⟨s, rfl, hparse⟩ := addressValue_ok.mp hv
                    exact ⟨s, rfl, hparse⟩
              · cases hlast : lastField "cidr" fields with
                | none =>
                    rw [hlast] at hcidr
                    cases hcidr
                | some v =>
                    rw [hlast] at hcidr
                    obtain ⟨c', hv, heq⟩ := hcidr
                    cases heq
                    rw [cidrValue_ok.mp hv]

lemma fromStr_cidr_le {ip : IpText} {s : String} {m : IpAddrMask} (h : fromStr ip s = some m) :
    m.cidr ≤ m.address.maxCidr := by
  rw [fromStr] at h
  cases hsplit : splitOnce '/' s with
  | none =>
      rw [hsplit] at h
      obtain ⟨a, -, rfl⟩ := Option.map_eq_some_iff.mp h
      exact UInt8.le_refl _
  | some parts =>
      rw [hsplit] at h
      cases hleft : ip.parse parts.1 with
      | none => simp [hleft] at h
      | some a =>
          cases hright : parseU8 parts.2 with
          | none => simp [hleft, hright] at h
          | some c =>
              simp only [hleft, hright] at h
              split_ifs at h with hlt
              cases h
              exact UInt8.not_lt.mp hlt

lemma visitStr_ok {ip : IpText} {s : String} {m : IpAddrMask} (h : visitStr ip s = .ok m) :
    m.cidr ≤ m.address.maxCidr := by
  rw [visitStr] at h
  cases hs : fromStr ip s with
  | none =>
      rw [hs] at h
      cases h
  | some m' =>
      rw [hs] at h
      cases h
      exact fromStr_cidr_le hs

/-- **The prefix length of decoded masks.**  A mask that some decoder returns satisfies the
bound that the arithmetic relies on exactly if it was read from a text, or from a map
whose prefix length suits its address. -/
theorem sound_iff_fits (ip : IpText) (src : Source) (m : IpAddrMask)
    (h : decode ip src = .ok m) : m.Sound ↔ Fits ip src := by
  rw [sound_iff]
  match src, h with
  | .text s, h => exact iff_of_true (visitStr_ok h) trivial
  | .json (.str s), h => exact iff_of_true (visitStr_ok h) trivial
  | .json (.obj fields), h =>
      obtain ⟨⟨s, haddress, hparse⟩, hcidr⟩ := visitMap_ok h
      rw [UInt8.le_iff_toNat_le]
      constructor
      · intro hle s' a z haddress' hparse' hcidr'
        rw [haddress, Option.some.injEq, Json.str.injEq] at haddress'
        rw [hcidr, Option.some.injEq, Json.int.injEq] at hcidr'
        rw [← haddress', hparse, Option.some.injEq] at hparse'
        rw [← hparse', ← hcidr']
        exact Int.ofNat_le.mpr hle
      · intro hfits
        exact Int.ofNat_le.mp (hfits s m.address m.cidr.toNat haddress hparse hcidr)

/-- The form in which a mask is serialized, with some prefix length. -/
def maskObject (cidr : ℤ) : Json :=
  .obj [("address", .str "10.0.0.2"), ("cidr", .int cidr)]

theorem sound_maskObject :
    decode sampleIpText (.json (maskObject 24)) = .ok ⟨.v4 0x0A000002, 24⟩ ∧
      (⟨.v4 0x0A000002, 24⟩ : IpAddrMask).Sound := by
  have hdecode : decode sampleIpText (.json (maskObject 24)) = .ok ⟨.v4 0x0A000002, 24⟩ := by
    decide +kernel
  refine ⟨hdecode, (sound_iff_fits sampleIpText _ _ hdecode).mpr ?_⟩
  intro s a z hs ha hz
  cases hs
  cases hz
  have hparse : sampleIpText.parse "10.0.0.2" = some (.v4 0x0A000002) := by decide +kernel
  rw [hparse] at ha
  cases ha
  decide

/-- A prefix of 200 bits of an IPv4 address is accepted, and has no mask. -/
theorem not_sound_maskObject :
    decode sampleIpText (.json (maskObject 200)) = .ok ⟨.v4 0x0A000002, 200⟩ ∧
      maskChecked ⟨.v4 0x0A000002, 200⟩ = none ∧
      ¬ (⟨.v4 0x0A000002, 200⟩ : IpAddrMask).Sound := by
  refine ⟨by decide +kernel, by decide, fun h => ?_⟩
  exact absurd h.cidr_le (by decide)

end IpAddrMask

/-! ### The next free address -/

/-- The addresses of the peers that are hosts. -/
def hostIps (peers : List (List IpAddrMask)) : List (BitVec 32) :=
  peers.flatten.filterMap fun m => match m.address with
    | .v4 ip => if m.cidr = 32 then some ip else none
    | .v6 _ => none

/-- The loop over a range of `n` addresses from `ip` on. -/
def firstUnused (used : List (BitVec 32)) : ℕ → BitVec 32 → Option (BitVec 32)
  | 0, _ => none
  | n + 1, ip => if ip ∈ used then firstUnused used n (ip + 1) else some ip

/-- `next_available_ip_mask`, where `data` is what the interface answers: the allowed
addresses of its peers. -/
def nextAvailableIpMask (network : IpAddrMask) (address : BitVec 32)
    (data : Except Error (List (List IpAddrMask))) : Option (Except Error IpAddrMask) :=
  match network.address with
  | .v6 _ => some (.error (.custom "Only IPv4 networks are supported"))
  | .v4 baseIp => do
      let bits ← checkedSub 32 network.cidr.toBitVec
      let size ← checkedShl 1 bits.toNat
      let hostMask ← checkedSub size 1
      let netmask := ~~~hostMask
      let networkAddr := baseIp &&& netmask
      let broadcastAddr := networkAddr ||| ~~~netmask
      match data with
      | .error e => some (.error e)
      | .ok peers => do
          let used := address :: hostIps peers
          let start ← checkedAdd networkAddr 1
          let stop ← checkedSub broadcastAddr 1
          match firstUnused used (stop.toNat - start.toNat) start with
          | some ip => some (.ok ⟨.v4 ip, 32⟩)
          | none => some (.error (.custom "No available IPs in the subnet"))

/-- The first address of a network. -/
def networkStart (base : BitVec 32) (cidr : ℕ) : ℕ := base.toNat / 2 ^ (32 - cidr) * 2 ^ (32 - cidr)

/-- The last address of a network. -/
def networkEnd (base : BitVec 32) (cidr : ℕ) : ℕ := networkStart base cidr + (2 ^ (32 - cidr) - 1)

/-- A host address of the network that neither the interface nor a peer has. -/
structure FreeHost (base : BitVec 32) (cidr : ℕ) (address : BitVec 32)
    (peers : List (List IpAddrMask)) (ip : BitVec 32) : Prop where
  above : networkStart base cidr < ip.toNat
  below : ip.toNat < networkEnd base cidr
  notInterface : ip ≠ address
  notPeer : ip ∉ hostIps peers

lemma FreeHost.not_mem_used {base : BitVec 32} {cidr : ℕ} {address ip : BitVec 32}
    {peers : List (List IpAddrMask)} (h : FreeHost base cidr address peers ip) :
    ip ∉ address :: hostIps peers := by
  rw [List.mem_cons, not_or]
  exact ⟨h.notInterface, h.notPeer⟩

/-- The answer is the least free host address, and an error only if there is none; no
operation overflows. -/
def Allocates (base : BitVec 32) (cidr : ℕ) (address : BitVec 32)
    (peers : List (List IpAddrMask)) : Option (Except Error IpAddrMask) → Prop
  | none => False
  | some (.ok m) => ∃ ip, m = ⟨.v4 ip, 32⟩ ∧ FreeHost base cidr address peers ip ∧
      ∀ ip', FreeHost base cidr address peers ip' → ip.toNat ≤ ip'.toNat
  | some (.error _) => ∀ ip, ¬ FreeHost base cidr address peers ip

/-- The next address, if this is not the last of all. -/
lemma toNat_succ_of_lt {ip : BitVec 32} (h : ip.toNat + 1 < 2 ^ 32) :
    (ip + 1).toNat = ip.toNat + 1 := by
  rw [BitVec.toNat_add]
  exact Nat.mod_eq_of_lt h

lemma firstUnused_eq_none {used : List (BitVec 32)} {n : ℕ} {ip : BitVec 32}
    (hn : ip.toNat + n ≤ 2 ^ 32) :
    firstUnused used n ip = none ↔
      ∀ x : BitVec 32, ip.toNat ≤ x.toNat → x.toNat < ip.toNat + n → x ∈ used := by
  induction n generalizing ip with
  | zero =>
      refine iff_of_true rfl fun x hle hlt => ?_
      omega
  | succ n ih =>
      rw [firstUnused]
      split_ifs with hused
      · by_cases hend : n = 0
        · subst hend
          refine iff_of_true rfl fun x hle hlt => ?_
          rwa [BitVec.eq_of_toNat_eq (show x.toNat = ip.toNat by omega)]
        · have hnext : (ip + 1).toNat = ip.toNat + 1 := toNat_succ_of_lt (by omega)
          rw [ih (by omega), hnext]
          constructor
          · intro h x hle hlt
            rcases hle.eq_or_lt with heq | hlt'
            · rwa [← BitVec.eq_of_toNat_eq heq]
            · exact h x hlt' (by omega)
          · intro h x hle hlt
            exact h x (by omega) (by omega)
      · simp only [false_iff]
        intro h
        exact hused (h ip le_rfl (by omega))

lemma firstUnused_eq_some {used : List (BitVec 32)} {n : ℕ} {ip y : BitVec 32}
    (hn : ip.toNat + n ≤ 2 ^ 32) (h : firstUnused used n ip = some y) :
    ip.toNat ≤ y.toNat ∧ y.toNat < ip.toNat + n ∧ y ∉ used ∧
      ∀ x : BitVec 32, ip.toNat ≤ x.toNat → x.toNat < y.toNat → x ∈ used := by
  induction n generalizing ip with
  | zero => cases h
  | succ n ih =>
      rw [firstUnused] at h
      split_ifs at h with hused
      · by_cases hend : n = 0
        · subst hend
          cases h
        · have hnext : (ip + 1).toNat = ip.toNat + 1 := toNat_succ_of_lt (by omega)
          obtain ⟨hle, hlt, hnot, hbefore⟩ := ih (by omega) h
          rw [hnext] at hle hlt hbefore
          refine ⟨by omega, by omega, hnot, fun x hx hxy => ?_⟩
          rcases hx.eq_or_lt with heq | hlt'
          · rwa [← BitVec.eq_of_toNat_eq heq]
          · exact hbefore x hlt' hxy
      · cases h
        exact ⟨le_rfl, by omega, hused, fun x hle hlt => by omega⟩

/-- The prefix lengths for which the netmask is computed without an overflow, and what it
leaves of the search. -/
lemma nextAvailableIpMask_eq (base : BitVec 32) {cidr : UInt8} (hpos : 1 ≤ cidr.toNat)
    (hle : cidr.toNat ≤ 32) (address : BitVec 32) (peers : List (List IpAddrMask)) :
    ∃ first last : BitVec 32, first.toNat = networkStart base cidr.toNat ∧
      last.toNat = networkEnd base cidr.toNat ∧
      nextAvailableIpMask ⟨.v4 base, cidr⟩ address (.ok peers) =
        (checkedAdd first 1).bind fun start => (checkedSub last 1).bind fun stop =>
          match firstUnused (address :: hostIps peers) (stop.toNat - start.toNat) start with
          | some ip => some (.ok ⟨.v4 ip, 32⟩)
          | none => some (.error (.custom "No available IPs in the subnet")) := by
  have hbits : checkedSub (32 : BitVec 8) cidr.toBitVec = some (32 - cidr.toBitVec) :=
    if_pos (by simpa using hle)
  have hbitsNat : (32 - cidr.toBitVec).toNat = 32 - cidr.toNat := (checkedSub_eq_some.mp hbits).2
  have hsize : checkedShl (1 : BitVec 32) (32 - cidr.toBitVec).toNat =
      some ((1 : BitVec 32) <<< (32 - cidr.toNat)) := by
    rw [hbitsNat]
    exact if_pos (by omega)
  have hsizeNat : ((1 : BitVec 32) <<< (32 - cidr.toNat)).toNat = 2 ^ (32 - cidr.toNat) := by
    have hlt : 2 ^ (32 - cidr.toNat) < 2 ^ 32 := Nat.pow_lt_pow_right (by norm_num) (by omega)
    rw [BitVec.toNat_shiftLeft, Nat.shiftLeft_eq]
    simpa using Nat.mod_eq_of_lt hlt
  obtain ⟨hostMask, hmask, hmaskNat⟩ : ∃ hostMask : BitVec 32,
      checkedSub ((1 : BitVec 32) <<< (32 - cidr.toNat)) 1 = some hostMask ∧
        hostMask.toNat = 2 ^ (32 - cidr.toNat) - 1 := by
    have hone : (1 : BitVec 32).toNat ≤ ((1 : BitVec 32) <<< (32 - cidr.toNat)).toNat := by
      rw [hsizeNat]
      exact Nat.one_le_two_pow
    refine ⟨_, if_pos hone, ?_⟩
    rw [BitVec.toNat_sub_of_le (BitVec.le_def.mpr hone), hsizeNat]
    rfl
  have hfirst := toNat_and_not_ones (a := base) hmaskNat
  have hlast := toNat_or_ones hmaskNat hfirst
  refine ⟨base &&& ~~~hostMask, (base &&& ~~~hostMask) ||| hostMask, hfirst, ?_, ?_⟩
  · rw [hlast, hfirst, networkEnd, networkStart]
  · simp only [nextAvailableIpMask, hbits, hsize, hmask, BitVec.not_not, bind, Option.bind_some]

/-- The inputs on which the search is right. -/
structure SearchFits (base : BitVec 32) (cidr : ℕ) (address : BitVec 32)
    (peers : List (List IpAddrMask)) : Prop where
  shift : 1 ≤ cidr
  ends : cidr = 32 → base ≠ 0 ∧ base ≠ BitVec.allOnes 32
  lastHost : ∀ ip, FreeHost base cidr address peers ip →
    ∃ ip', FreeHost base cidr address peers ip' ∧ ip'.toNat + 1 < networkEnd base cidr

section Search

variable {base : BitVec 32} {cidr : UInt8}

/-- The empty prefix: the shift reaches the word width. -/
lemma nextAvailableIpMask_zero (base address : BitVec 32) (peers : List (List IpAddrMask)) :
    nextAvailableIpMask ⟨.v4 base, 0⟩ address (.ok peers) = none := by
  have hbits : checkedSub (32 : BitVec 8) (0 : UInt8).toBitVec = some 32 := by decide
  have hsize : checkedShl (1 : BitVec 32) (32 : BitVec 8).toNat = none := by decide
  simp only [nextAvailableIpMask, hbits, hsize, bind, Option.bind_some, Option.bind_none]

/-- What the loop finds is the least free host address, and not the last host address. -/
lemma freeHost_of_firstUnused {c : ℕ} {start stop ip : BitVec 32} {address : BitVec 32}
    {peers : List (List IpAddrMask)} (hstart : start.toNat = networkStart base c + 1)
    (hstop : stop.toNat = networkEnd base c - 1)
    (hfind : firstUnused (address :: hostIps peers) (stop.toNat - start.toNat) start = some ip) :
    FreeHost base c address peers ip ∧ ip.toNat + 1 < networkEnd base c ∧
      ∀ ip', FreeHost base c address peers ip' → ip.toNat ≤ ip'.toNat := by
  have hstartLt := start.isLt
  have hstopLt := stop.isLt
  obtain ⟨hge, hlt, hnot, hbefore⟩ := firstUnused_eq_some (by omega) hfind
  rw [List.mem_cons, not_or] at hnot
  refine ⟨⟨by omega, by omega, hnot.1, hnot.2⟩, by omega, fun ip' hip' => ?_⟩
  by_contra hlt'
  have habove := hip'.above
  exact hip'.not_mem_used (hbefore ip' (by omega) (by omega))

/-- The loop from the first host address on finds the least free address, unless the last host
address is the only free one. -/
lemma allocates_loop_iff {c : ℕ} {start stop : BitVec 32}
    (hstart : start.toNat = networkStart base c + 1)
    (hstop : stop.toNat = networkEnd base c - 1) (hend : networkEnd base c < 2 ^ 32)
    (address : BitVec 32) (peers : List (List IpAddrMask)) :
    Allocates base c address peers
        (match firstUnused (address :: hostIps peers) (stop.toNat - start.toNat) start with
          | some ip => some (.ok ⟨.v4 ip, 32⟩)
          | none => some (.error (.custom "No available IPs in the subnet"))) ↔
      ∀ ip, FreeHost base c address peers ip →
        ∃ ip', FreeHost base c address peers ip' ∧ ip'.toNat + 1 < networkEnd base c := by
  have hrange : start.toNat + (stop.toNat - start.toNat) ≤ 2 ^ 32 := by omega
  cases hfind : firstUnused (address :: hostIps peers) (stop.toNat - start.toNat) start with
  | some ip =>
      obtain ⟨hfree, hlt, hleast⟩ := freeHost_of_firstUnused hstart hstop hfind
      exact iff_of_true ⟨ip, rfl, hfree, hleast⟩ fun _ _ => ⟨ip, hfree, hlt⟩
  | none =>
      have hall := (firstUnused_eq_none hrange).mp hfind
      have hlast (ip : BitVec 32) (hip : FreeHost base c address peers ip) :
          ¬ ip.toNat + 1 < networkEnd base c := by
        intro hlt
        have habove := hip.above
        exact hip.not_mem_used (hall ip (by omega) (by omega))
      constructor
      · exact fun h ip hip => absurd hip (h ip)
      · intro h ip hip
        obtain ⟨ip', hip', hlt⟩ := h ip hip
        exact hlast ip' hip' hlt

/-- A single address: nothing lies between it and itself, but the bounds of the range are
computed on both sides of it. -/
lemma allocates_iff_single (h32 : cidr.toNat = 32) (address : BitVec 32)
    (peers : List (List IpAddrMask)) :
    Allocates base cidr.toNat address peers
        (nextAvailableIpMask ⟨.v4 base, cidr⟩ address (.ok peers)) ↔
      SearchFits base cidr.toNat address peers := by
  obtain ⟨first, last, hfirst, hlast, heq⟩ :=
    nextAvailableIpMask_eq base (by omega) h32.le address peers
  have hbase : networkStart base cidr.toNat = base.toNat := by
    rw [networkStart, h32]
    simp
  have hsame : networkEnd base cidr.toNat = base.toNat := by
    rw [networkEnd, hbase, h32]
    rfl
  have hempty (ip : BitVec 32) : ¬ FreeHost base cidr.toNat address peers ip := by
    rintro ⟨habove, hbelow, -, -⟩
    omega
  have hfits : SearchFits base cidr.toNat address peers ↔
      base.toNat ≠ 0 ∧ base.toNat ≠ 2 ^ 32 - 1 := by
    have hends : base ≠ 0 ∧ base ≠ BitVec.allOnes 32 ↔
        base.toNat ≠ 0 ∧ base.toNat ≠ 2 ^ 32 - 1 := by
      rw [ne_eq, ne_eq, ← BitVec.toNat_inj, ← BitVec.toNat_inj, BitVec.toNat_allOnes]
      rfl
    rw [← hends]
    constructor
    · exact fun h => h.ends h32
    · exact fun h => ⟨by omega, fun _ => h, fun ip hip => absurd hip (hempty ip)⟩
  have hbound := base.isLt
  rw [hfits, heq]
  cases hadd : checkedAdd first 1 with
  | none =>
      refine iff_of_false id fun h => ?_
      rw [checkedAdd, if_pos (by simp; omega)] at hadd
      cases hadd
  | some start =>
      obtain ⟨hlt, hstart⟩ := checkedAdd_eq_some.mp hadd
      rw [Option.bind_some]
      cases hsub : checkedSub last 1 with
      | none =>
          refine iff_of_false id fun h => ?_
          rw [checkedSub, if_pos (by simp; omega)] at hsub
          cases hsub
      | some stop =>
          obtain ⟨hge, hstop⟩ := checkedSub_eq_some.mp hsub
          have hnone : stop.toNat - start.toNat = 0 := by omega
          rw [Option.bind_some, hnone]
          refine iff_of_true hempty ?_
          simp at hlt hge
          omega

/-- A network of two addresses or more: the loop ends before the last host address. -/
lemma allocates_iff_subnet (hpos : 1 ≤ cidr.toNat) (h31 : cidr.toNat < 32) (address : BitVec 32)
    (peers : List (List IpAddrMask)) :
    Allocates base cidr.toNat address peers
        (nextAvailableIpMask ⟨.v4 base, cidr⟩ address (.ok peers)) ↔
      SearchFits base cidr.toNat address peers := by
  obtain ⟨first, last, hfirst, hlast, heq⟩ :=
    nextAvailableIpMask_eq base hpos h31.le address peers
  have htwo : 2 ≤ 2 ^ (32 - cidr.toNat) := by
    calc 2 = 2 ^ 1 := rfl
      _ ≤ 2 ^ (32 - cidr.toNat) := Nat.pow_le_pow_right (by norm_num) (by omega)
  have hend : networkEnd base cidr.toNat =
      networkStart base cidr.toNat + (2 ^ (32 - cidr.toNat) - 1) := rfl
  have hbound := last.isLt
  obtain ⟨start, hadd, hstart⟩ : ∃ start, checkedAdd first 1 = some start ∧
      start.toNat = networkStart base cidr.toNat + 1 := by
    refine ⟨_, if_pos (by simp; omega), ?_⟩
    rw [BitVec.toNat_add, hfirst]
    exact Nat.mod_eq_of_lt (by simp; omega)
  obtain ⟨stop, hsub, hstop⟩ : ∃ stop, checkedSub last 1 = some stop ∧
      stop.toNat = networkEnd base cidr.toNat - 1 := by
    have hone : (1 : BitVec 32).toNat ≤ last.toNat := by simp; omega
    refine ⟨_, if_pos hone, ?_⟩
    rw [BitVec.toNat_sub_of_le (BitVec.le_def.mpr hone), hlast]
    rfl
  rw [heq, hadd, Option.bind_some, hsub, Option.bind_some,
    allocates_loop_iff hstart hstop (by omega) address peers]
  exact ⟨fun h => ⟨hpos, by omega, h⟩, fun h => h.lastHost⟩

end Search

/-- **The address allocator.**  For an IPv4 network the answer is the least free host
address exactly if the prefix is not empty, a single address is neither the first nor
the last of all, and the last host address is not the only one that is free. -/
theorem allocates_iff (base : BitVec 32) (cidr : UInt8) (hcidr : cidr.toNat ≤ 32)
    (address : BitVec 32) (peers : List (List IpAddrMask)) :
    Allocates base cidr.toNat address peers
        (nextAvailableIpMask ⟨.v4 base, cidr⟩ address (.ok peers)) ↔
      SearchFits base cidr.toNat address peers := by
  rcases Nat.eq_zero_or_pos cidr.toNat with hzero | hpos
  · have hcidr0 : cidr = 0 := UInt8.toNat_inj.mp hzero
    subst hcidr0
    rw [nextAvailableIpMask_zero]
    refine iff_of_false id fun h => ?_
    exact absurd h.shift (by decide)
  · rcases hcidr.eq_or_lt with h32 | h31
    · exact allocates_iff_single h32 address peers
    · exact allocates_iff_subnet hpos h31 address peers

/-- A network of eight addresses with the interface and one peer. -/
theorem allocates_third_host :
    Allocates 0x0A000000 29 0x0A000001 [[⟨.v4 0x0A000002, 32⟩]]
      (nextAvailableIpMask ⟨.v4 0x0A000000, 29⟩ 0x0A000001 (.ok [[⟨.v4 0x0A000002, 32⟩]])) := by
  refine (allocates_iff 0x0A000000 29 (by decide) 0x0A000001 [[⟨.v4 0x0A000002, 32⟩]]).mpr ?_
  refine ⟨by decide, fun h => absurd h (by decide), fun _ _ => ⟨0x0A000003, ?_, by decide⟩⟩
  exact ⟨by decide, by decide, by decide, by decide⟩

/-- A network of four addresses: next to the interface there is one more host address, and
the search does not come to it. -/
theorem not_allocates_last_host :
    nextAvailableIpMask ⟨.v4 0x0A000000, 30⟩ 0x0A000001 (.ok []) =
        some (.error (.custom "No available IPs in the subnet")) ∧
      FreeHost 0x0A000000 30 0x0A000001 [] 0x0A000002 ∧
      ¬ Allocates 0x0A000000 30 0x0A000001 []
        (nextAvailableIpMask ⟨.v4 0x0A000000, 30⟩ 0x0A000001 (.ok [])) := by
  have herror : nextAvailableIpMask ⟨.v4 0x0A000000, 30⟩ 0x0A000001 (.ok []) =
      some (.error (.custom "No available IPs in the subnet")) := by decide
  have hfree : FreeHost 0x0A000000 30 0x0A000001 [] 0x0A000002 :=
    ⟨by decide, by decide, by decide, by decide⟩
  refine ⟨herror, hfree, ?_⟩
  rw [herror]
  exact fun h => h 0x0A000002 hfree

end Fcore
