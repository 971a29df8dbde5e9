import Fcore.Api.ConnRows
import Fcore.Calculus.Lines
import Fcore.Memory.Nodes

/-!
The configuration of WireGuard (`src/config/wireguard.rs`).

* `WireguardServerConfig.fromFile`: a file is read line by line, with four keys that a line can
  begin with; a later line replaces what an earlier one has set;
* `WireguardSettings.tryFrom`: the texts of a configuration as settings;
* `keyLines`: the lines of a file that begin with a key;
* `foldlM_readLine`: the loop, key by key;
* `fromFile_eq`: what is read depends on the lines of each key only, and of them on the last one;
* `settings_read_iff`: which files are accepted, and as what.
-/

namespace Fcore

open Calculus

/-! ### Reading a file -/

/-- `wireguard::WireguardServerConfig`. -/
structure WireguardServerConfig where
  interface : String
  address : String
  port : UInt16
  privateKey : String
  dns : Option (List String)
  deriving DecidableEq, Repr

/-- `str::starts_with`. -/
def startsWith (line key : String) : Bool := key.toList.isPrefixOf line.toList

/-- A part of `str::split`, at a character. -/
def splitNth (sep : Char) (line : String) (n : ℕ) : Option String :=
  ((line.toList.splitOn sep)[n]?).map String.ofList

/-- `u16::from_str`: digits, after an optional plus sign. -/
def parseU16 (s : String) : Option UInt16 :=
  let digits := match s.toList with
    | '+' :: l => l
    | l => l
  if digits.isEmpty || !digits.all Char.isDigit then none
  else
    let n := digits.foldl (fun n c => 10 * n + (c.toNat - 48)) 0
    if n < 65536 then some (UInt16.ofNat n) else none

/-- What the lines so far have set. -/
structure FoundLines where
  privateKey : Option String
  address : Option String
  dns : List String
  port : Option UInt16

/-- The value of a `PrivateKey` line: all that follows the first equals sign. -/
def privateKeyOf (line : String) : Option String :=
  (splitOnce '=' line).map fun parts => trim parts.2

/-- The value of an `Address` line, up to a second equals sign. -/
def addressOf (line : String) : Option String := (splitNth '=' line 1).map trim

/-- The value of a `ListenPort` line. -/
def portOf (line : String) : Option UInt16 :=
  (splitNth '=' line 1).bind fun value => parseU16 (trim value)

/-- The values of a `DNS` line; no text fails to be read as a text. -/
def dnsOf (line : String) : List String :=
  ((((splitNth '=' line 1).getD "").toList.splitOn ',').map fun value => trim (String.ofList value))

/-- The body of the loop. -/
def readLine (found : FoundLines) (line : List Char) : Except Error FoundLines := do
  let line := trim (String.ofList line)
  let privateKey ←
    if startsWith line "PrivateKey" then match privateKeyOf line with
      | some value => .ok (some value)
      | none => .error (.custom "Invalid PrivateKey line")
    else .ok found.privateKey
  let address := if startsWith line "Address" then addressOf line else found.address
  let port := if startsWith line "ListenPort" then portOf line else found.port
  let dns := if startsWith line "DNS" then dnsOf line else found.dns
  return ⟨privateKey, address, dns, port⟩

/-- The name of the file, up to its first dot. -/
def interfaceName (path : String) : String :=
  String.ofList ((((path.toList.splitOn '/').getLast?.getD []).splitOn '.').headD [])

/-- `ok_or_else`, with an error of the configuration. -/
def required {α : Type} (value : Option α) (text : String) : Except Error α :=
  match value with
  | some x => .ok x
  | none => .error (.custom text)

/-- `WireguardServerConfig::from_file`, of the text of a file. -/
def WireguardServerConfig.fromFile (path text : String) : Except Error WireguardServerConfig := do
  let found ← (lines text.toList).foldlM readLine ⟨none, none, [], none⟩
  let port ← required found.port "no ListenPort"
  let privateKey ← required found.privateKey "no PrivateKey"
  let address ← required found.address "no Address"
  return ⟨interfaceName path, address, port, privateKey, some found.dns⟩

/-- `Ipv4Addr::from_str`. -/
def IpText.parseV4 (ip : IpText) (s : String) : Option (BitVec 32) :=
  match ip.parse s with
  | some (.v4 address) => some address
  | some (.v6 _) | none => none

/-- `WireguardSettings::try_from`. -/
def WireguardSettings.tryFrom (ip : IpText) (cfg : WireguardServerConfig) :
    Except Error WireguardSettings := do
  let address ← required (IpAddrMask.fromStr ip cfg.address) "Invalid WG address"
  let dns ← required ((cfg.dns.getD []).mapM ip.parseV4) "Invalid DNS"
  return ⟨⟨cfg.privateKey⟩, cfg.interface, address, cfg.port, dns⟩

/-- The settings of a node, of the text of its file. -/
def WireguardSettings.read (ip : IpText) (path text : String) : Except Error WireguardSettings := do
  let cfg ← WireguardServerConfig.fromFile path text
  WireguardSettings.tryFrom ip cfg

/-! ### The lines of a key -/

/-- A loop in which the last element of a kind decides. -/
lemma foldl_last {α β : Type} (p : α → Bool) (g : α → β) (l : List α) (v : β) :
    l.foldl (fun v x => if p x then g x else v) v = ((l.filter p).getLast?.map g).getD v := by
  induction l generalizing v with
  | nil => rfl
  | cons x l ih =>
      rw [List.foldl_cons, ih, List.filter_cons]
      split_ifs with hx
      · rw [List.getLast?_cons, Option.map_some, Option.getD_some]
        cases (l.filter p).getLast? with
        | none => rfl
        | some y => rfl
      · rfl

/-- The lines of a text, without what is blank at their ends. -/
def trimmedLines (text : String) : List String :=
  (lines text.toList).map fun line => trim (String.ofList line)

/-- The lines that begin with a key. -/
def keyLines (text key : String) : List String :=
  (trimmedLines text).filter fun line => startsWith line key

/-- The value that the last line of a key has, if the key has a line. -/
def lastValue {α : Type} (text key : String) (value : String → α) : Option α :=
  (keyLines text key).getLast?.map value

/-- A line that the loop stops at. -/
def invalidKeyLine (line : String) : Bool :=
  startsWith line "PrivateKey" && (privateKeyOf line).isNone

/-- What another line sets. -/
def FoundLines.set (found : FoundLines) (line : String) : FoundLines where
  privateKey := if startsWith line "PrivateKey" then privateKeyOf line else found.privateKey
  address := if startsWith line "Address" then addressOf line else found.address
  dns := if startsWith line "DNS" then dnsOf line else found.dns
  port := if startsWith line "ListenPort" then portOf line else found.port

lemma readLine_eq (found : FoundLines) (line : List Char) :
    readLine found line =
      if invalidKeyLine (trim (String.ofList line)) then
        .error (.custom "Invalid PrivateKey line")
      else .ok (found.set (trim (String.ofList line))) := by
  rw [readLine, invalidKeyLine, FoundLines.set]
  generalize trim (String.ofList line) = line
  -- the keys that the line begins with are left as they are
  generalize startsWith line "PrivateKey" = isKey, startsWith line "Address" = isAddress,
    startsWith line "DNS" = isDns, startsWith line "ListenPort" = isPort
  cases isKey with
  | false => rfl
  | true =>
      cases privateKeyOf line with
      | none => rfl
      | some value => rfl

/-- **The loop stops at the first invalid line**, and otherwise sets what the lines set. -/
lemma foldlM_readLine (ls : List (List Char)) (found : FoundLines) :
    ls.foldlM readLine found =
      if (ls.map fun line => trim (String.ofList line)).any invalidKeyLine then
        .error (.custom "Invalid PrivateKey line")
      else .ok ((ls.map fun line => trim (String.ofList line)).foldl FoundLines.set found) := by
  induction ls generalizing found with
  | nil => rfl
  | cons line ls ih =>
      rw [List.foldlM_cons, readLine_eq, List.map_cons, List.any_cons, List.foldl_cons]
      cases hline : invalidKeyLine (trim (String.ofList line)) with
      | true => rfl
      | false =>
          rw [Bool.false_or]
          exact ih _

/-- What the lines of a key leave. -/
lemma foldl_set {α : Type} (field : FoundLines → α) (key : String) (value : String → α)
    (hset : ∀ found line, field (found.set line) =
      if startsWith line key then value line else field found)
    (ls : List String) (found : FoundLines) :
    field (ls.foldl FoundLines.set found) =
      ((ls.filter fun line => startsWith line key).getLast?.map value).getD (field found) := by
  rw [← foldl_last]
  exact (List.foldl_hom field fun found line => (hset found line).symm).symm

/-- **Only the last line of each key counts.** -/
lemma fromFile_eq (path text : String) :
    WireguardServerConfig.fromFile path text =
      if (keyLines text "PrivateKey").any fun line => (privateKeyOf line).isNone then
        .error (.custom "Invalid PrivateKey line")
      else do
        let port ← required ((lastValue text "ListenPort" portOf).getD none) "no ListenPort"
        let privateKey ←
          required ((lastValue text "PrivateKey" privateKeyOf).getD none) "no PrivateKey"
        let address ← required ((lastValue text "Address" addressOf).getD none) "no Address"
        return ⟨interfaceName path, address, port, privateKey,
          some ((lastValue text "DNS" dnsOf).getD [])⟩ := by
  have hinvalid : (trimmedLines text).any invalidKeyLine =
      (keyLines text "PrivateKey").any fun line => (privateKeyOf line).isNone := by
    rw [keyLines, List.any_filter]
    rfl
  have hlines : (lines text.toList).foldlM readLine ⟨none, none, [], none⟩ =
      if (trimmedLines text).any invalidKeyLine then
        .error (.custom "Invalid PrivateKey line")
      else .ok ((trimmedLines text).foldl FoundLines.set ⟨none, none, [], none⟩) :=
    foldlM_readLine _ _
  rw [WireguardServerConfig.fromFile, hlines, hinvalid]
  split_ifs
  · rfl
  · have hkey := foldl_set FoundLines.privateKey "PrivateKey" privateKeyOf (fun _ _ => rfl)
      (trimmedLines text) ⟨none, none, [], none⟩
    have haddress := foldl_set FoundLines.address "Address" addressOf (fun _ _ => rfl)
      (trimmedLines text) ⟨none, none, [], none⟩
    have hdns := foldl_set FoundLines.dns "DNS" dnsOf (fun _ _ => rfl)
      (trimmedLines text) ⟨none, none, [], none⟩
    have hport := foldl_set FoundLines.port "ListenPort" portOf (fun _ _ => rfl)
      (trimmedLines text) ⟨none, none, [], none⟩
    generalize (trimmedLines text).foldl FoundLines.set ⟨none, none, [], none⟩ = found at *
    obtain ⟨privateKey, address, dns, port⟩ := found
    obtain rfl : privateKey = _ := hkey
    obtain rfl : address = _ := haddress
    obtain rfl : dns = _ := hdns
    obtain rfl : port = _ := hport
    rfl

lemma required_bind_eq_ok {α β : Type} {value : Option α} {text : String} {f : α → Except Error β}
    {y : β} : required value text >>= f = .ok y ↔ ∃ x, value = some x ∧ f x = .ok y := by
  cases value with
  | none => exact ⟨fun h => (by cases h), fun ⟨x, hx, _⟩ => (by cases hx)⟩
  | some x =>
      refine ⟨fun h => ⟨x, rfl, h⟩, ?_⟩
      rintro ⟨x', hx, h⟩
      rw [Option.some.inj hx]
      exact h

/-- A `PrivateKey` line has a value if it has an equals sign. -/
lemma isNone_privateKeyOf_iff (line : String) :
    (privateKeyOf line).isNone = true ↔ '=' ∉ line.toList := by
  rw [privateKeyOf, Option.isNone_map, splitOnce]
  cases hright : line.toList.dropWhile (· != '=') with
  | nil =>
      refine iff_of_true rfl fun hin => ?_
      have hall := List.dropWhile_eq_nil_iff.mp hright '=' hin
      cases hall
  | cons c right =>
      refine iff_of_false Bool.false_ne_true fun hnot => ?_
      have hnil : line.toList.dropWhile (· != '=') = [] :=
        List.dropWhile_eq_nil_iff.mpr fun c hc => bne_iff_ne.mpr fun heq => hnot (heq ▸ hc)
      rw [hright] at hnil
      cases hnil

/-- **The files that are accepted, and what they are read as**: every `PrivateKey` line has an
equals sign, and the last lines of the keys have values; whatever other lines there are, and in
whatever order the keys come. -/
theorem settings_read_iff (ip : IpText) (path text : String) (wg : WireguardSettings) :
    WireguardSettings.read ip path text = .ok wg ↔
      (∀ line ∈ keyLines text "PrivateKey", '=' ∈ line.toList) ∧
      wg.interface = interfaceName path ∧
      (lastValue text "PrivateKey" privateKeyOf).getD none = some wg.keys.privkey ∧
      ((lastValue text "Address" addressOf).getD none).bind (IpAddrMask.fromStr ip) =
        some wg.address ∧
      (lastValue text "ListenPort" portOf).getD none = some wg.port ∧
      ((lastValue text "DNS" dnsOf).getD []).mapM ip.parseV4 = some wg.dns := by
  have hkeys : ((keyLines text "PrivateKey").any fun line => (privateKeyOf line).isNone) = true ↔
      ¬ ∀ line ∈ keyLines text "PrivateKey", '=' ∈ line.toList := by
    simp only [List.any_eq_true, isNone_privateKeyOf_iff, not_forall, exists_prop]
  rw [WireguardSettings.read, fromFile_eq]
  split_ifs with hinvalid
  · exact iff_of_false (fun h => by cases h) fun h => hkeys.mp hinvalid h.1
  · have hvalid : ∀ line ∈ keyLines text "PrivateKey", '=' ∈ line.toList :=
      not_not.mp fun hnot => hinvalid (hkeys.mpr hnot)
    simp only [bind_assoc, required_bind_eq_ok, pure_bind, WireguardSettings.tryFrom]
    constructor
    · rintro ⟨port, hport, key, hkey, text', htext, address, haddress, dns, hdns, hwg⟩
      obtain rfl := Except.ok.inj hwg
      refine ⟨hvalid, rfl, hkey, ?_, hport, hdns⟩
      rw [htext]
      exact haddress
    · rintro ⟨-, hinterface, hkey, haddress, hport, hdns⟩
      obtain ⟨text', htext, haddress⟩ := Option.bind_eq_some_iff.mp haddress
      refine ⟨wg.port, hport, wg.keys.privkey, hkey, text', htext, wg.address, haddress, wg.dns,
        hdns, ?_⟩
      rw [← hinterface]
      rfl

/-- A key ends with an equals sign, and a line of an earlier address is passed over. -/
example : WireguardServerConfig.fromFile "/etc/wireguard/wg0.conf"
    "Address = 10.1.0.1/24\r\n# DNS = 9.9.9.9\nListenPort=518\nPrivateKey = k=\nAddress = fd0::/8" =
    .ok ⟨"wg0", "fd0::/8", 518, "k=", some []⟩ := by
  decide +kernel

end Fcore
