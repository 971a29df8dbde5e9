import Fcore.Api.World
import Fcore.Calculus.Text

/-!
Connections as table rows, column by column (`insert` and `map_rows_to_conns` in
`src/bin/api/postgres/connection.rs`, the texts of `IpAddrMask` in
`src/memory/connection/wireguard.rs`).

* `IpAddrMask.toText`, `IpAddrMask.fromStr`: a WireGuard address as a text and back;
* `ConnRow.columns`, `ConnColumns.toRow`: what `INSERT` writes and what is read
  back, the WireGuard parameters being a private key and the text of the address;
* `ConnColumns.toRow_columns`: the columns keep a row up to the precision of
  `timestamptz`;
* `survives_iff`: of the connections that the handlers build, all survive the
  table but those of Mtproto, whose secret has no column; `survives_prepare`: so of those
  that `create_connection_handler` builds.
-/

namespace Fcore

open Calculus

/-! ### Addresses as texts -/

/-- The texts of `std::net::IpAddr`. -/
structure IpText where
  toText : IpAddr → String
  parse : String → Option IpAddr
  parse_toText : ∀ a, parse (toText a) = some a
  no_slash : ∀ a, '/' ∉ (toText a).toList

/-- `u8::from_str`: digits, after an optional plus sign. -/
def parseU8 (s : String) : Option UInt8 :=
  let digits := match s.toList with
    | '+' :: l => l
    | l => l
  if digits.isEmpty || !digits.all Char.isDigit then none
  else
    let n := digits.foldl (fun n c => 10 * n + (c.toNat - 48)) 0
    if n < 256 then some (UInt8.ofNat n) else none

/-- `str::split_once`, at a character. -/
def splitOnce (sep : Char) (s : String) : Option (String × String) :=
  match s.toList.dropWhile (· != sep) with
  | [] => none
  | _ :: right => some (String.ofList (s.toList.takeWhile (· != sep)), String.ofList right)

/-- The longest mask of an address. -/
def IpAddr.maxCidr : IpAddr → UInt8
  | .v4 _ => 32
  | .v6 _ => 128

/-- The text of an address with its mask (`Display`). -/
def IpAddrMask.toText (ip : IpText) (m : IpAddrMask) : String :=
  ip.toText m.address ++ "/" ++ toString m.cidr.toNat

/-- `IpAddrMask::from_str`. -/
def IpAddrMask.fromStr (ip : IpText) (s : String) : Option IpAddrMask :=
  match splitOnce '/' s with
  | some (left, right) => match ip.parse left, parseU8 right with
      | some address, some cidr =>
          if address.maxCidr < cidr then none else some ⟨address, cidr⟩
      | _, _ => none
  | none => (ip.parse s).map fun address => ⟨address, address.maxCidr⟩

/-- Every byte is read from its digits. -/
lemma parseU8_toString (n : UInt8) : parseU8 (toString n.toNat) = some n := by
  have hall :
      (List.range 256).all (fun n => parseU8 (toString n) == some (UInt8.ofNat n)) = true := by
    decide +kernel
  have hone := List.all_eq_true.mp hall n.toNat (List.mem_range.mpr n.toNat_lt)
  rw [beq_iff_eq, UInt8.ofNat_toNat] at hone
  exact hone

lemma splitOnce_append {sep : Char} {left : List Char} (h : sep ∉ left) (right : List Char) :
    splitOnce sep (String.ofList (left ++ sep :: right)) =
      some (String.ofList left, String.ofList right) := by
  have hleft : ∀ c ∈ left, (c != sep) = true := fun c hc => bne_iff_ne.mpr fun heq => h (heq ▸ hc)
  rw [splitOnce, String.toList_ofList, List.dropWhile_append_of_pos hleft,
    List.takeWhile_append_of_pos hleft]
  simp

/-- An address with a mask that is not too long is read from its text. -/
lemma IpAddrMask.fromStr_toText {ip : IpText} {m : IpAddrMask} (h : m.cidr ≤ m.address.maxCidr) :
    IpAddrMask.fromStr ip (m.toText ip) = some m := by
  have hsplit :
      splitOnce '/' (m.toText ip) = some (ip.toText m.address, toString m.cidr.toNat) := by
    have htext : m.toText ip = String.ofList ((ip.toText m.address).toList ++
        '/' :: (toString m.cidr.toNat).toList) := by
      rw [← String.toList_inj, toText, String.toList_append, String.toList_append,
        String.toList_ofList]
      simp
    rw [htext, splitOnce_append (ip.no_slash m.address), String.ofList_toList, String.ofList_toList]
  rw [fromStr, hsplit]
  have hmask : ¬ m.address.maxCidr < m.cidr := UInt8.not_lt.mpr h
  simp only [ip.parse_toText, parseU8_toString, if_neg hmask]

/-! ### Columns -/

/-- The columns of `connections` that `PgConn` writes and reads. -/
structure ConnColumns where
  id : Uuid
  password : Option String
  env : String
  createdAt : DateTime
  modifiedAt : DateTime
  expiresAt : Option DateTime
  subscriptionId : Option Uuid
  proto : Tag
  isDeleted : Bool
  wgPrivkey : Option String
  wgAddress : Option String
  token : Option Uuid
  deriving DecidableEq, Repr

/-- A text without the character zero, which no text column takes. -/
def IsPgText (s : String) : Prop := Char.ofNat 0 ∉ s.toList

instance (s : String) : Decidable (IsPgText s) := inferInstanceAs (Decidable (¬ _))

/-- The columns that `INSERT INTO connections` writes. -/
def ConnRow.columns (ip : IpText) (r : ConnRow) : Except String ConnColumns :=
  let wgPrivkey := r.wg.map (·.keys.privkey)
  let wgAddress := r.wg.map (·.address.toText ip)
  if IsPgText r.env ∧ (∀ s ∈ r.password, IsPgText s) ∧ (∀ s ∈ wgPrivkey, IsPgText s) then
    .ok { id := r.connId, password := r.password, env := r.env,
          createdAt := pgRound r.createdAt, modifiedAt := pgRound r.modifiedAt,
          expiresAt := r.expiresAt.map pgRound, subscriptionId := r.subscriptionId,
          proto := r.proto, isDeleted := r.isDeleted, wgPrivkey := wgPrivkey,
          wgAddress := wgAddress, token := r.token }
  else .error "invalid byte sequence for encoding UTF8: 0x00"

/-- One row of `map_rows_to_conns`. -/
def ConnColumns.toRow (ip : IpText) (cols : ConnColumns) : ConnRow where
  connId := cols.id
  password := cols.password
  env := cols.env
  createdAt := cols.createdAt
  modifiedAt := cols.modifiedAt
  expiresAt := cols.expiresAt
  subscriptionId := cols.subscriptionId
  wg := match cols.wgPrivkey, cols.wgAddress with
    | some privkey, some address =>
        (IpAddrMask.fromStr ip address).map fun ipMask => ⟨⟨privkey⟩, ipMask⟩
    | _, _ => none
  proto := cols.proto
  token := cols.token
  isDeleted := cols.isDeleted

/-- The columns keep a row with a proper mask, as the tables of `Db` do. -/
lemma ConnColumns.toRow_columns {ip : IpText} {r : ConnRow} {cols : ConnColumns}
    (hwg : ∀ wg ∈ r.wg, wg.address.cidr ≤ wg.address.address.maxCidr)
    (h : r.columns ip = .ok cols) : cols.toRow ip = r.stored := by
  rw [ConnRow.columns] at h
  split_ifs at h
  rw [← Except.ok.inj h, toRow, ConnRow.stored]
  cases hr : r.wg with
  | none => simp
  | some wg => simp [IpAddrMask.fromStr_toText (hwg wg (by simp [hr]))]

/-! ### The connections of the handlers -/

/-- The protocols that the handlers build: WireGuard with one IPv4 address, the tags of
Xray in `Proto::Xray`, and generated keys and passwords. -/
def Proto.Generated : Proto → Prop
  | .wireguard param => (∃ ip, param.address = ⟨.v4 ip, 32⟩) ∧ IsPgText param.keys.privkey
  | .shadowsocks password => IsPgText password
  | .xray tag => tag ∈ [Tag.vlessTcpReality, .vlessGrpcReality, .vlessXhttpReality, .vmess]
  | .hysteria2 _ => True
  | .mtproto _ => True

lemma Proto.isMtproto_eq_false_iff {p : Proto} (h : p.Generated) :
    p.isMtproto = false ↔ p.proto ≠ .mtproto := by
  cases p with
  | xray tag =>
      refine iff_of_true rfl fun htag => ?_
      obtain rfl : tag = .mtproto := htag
      simp [Proto.Generated] at h
  | wireguard | shadowsocks | hysteria2 | mtproto => simp [isMtproto, proto]

lemma generated_newWgProto {net : IpAddrMask} {conns : Connections Conn} {i : Input} {proto : Proto}
    (h : newWgProto net conns i = .ok proto) (htext : IsPgText i.text) :
    proto.Generated ∧ proto.proto = .wireguard := by
  rw [newWgProto] at h
  split at h
  · exact absurd h (by simp)
  · next ip _ =>
      rw [← Except.ok.inj h]
      exact ⟨⟨⟨ip, rfl⟩, htext⟩, rfl⟩

/-- What `create_connection_handler` builds. -/
lemma generated_newProto {net : IpAddrMask} {conns : Connections Conn} {tag : Tag} {i : Input}
    {proto : Proto} (h : newProto net conns tag i = .ok proto) (htext : IsPgText i.text) :
    proto.Generated ∧ proto.proto = tag := by
  cases tag with
  | wireguard => exact generated_newWgProto h htext
  | shadowsocks => rw [← Except.ok.inj h]; exact ⟨htext, rfl⟩
  | hysteria2 => rw [← Except.ok.inj h]; exact ⟨trivial, rfl⟩
  | mtproto => rw [← Except.ok.inj h]; exact ⟨trivial, rfl⟩
  | _ => rw [← Except.ok.inj h]; exact ⟨by simp [Proto.Generated], rfl⟩

/-- The same instant to the microsecond. -/
def SameMicros (a b : DateTime) : Prop := |a - b| < 1000

lemma sameMicros_pgRound (t : DateTime) : SameMicros (pgRound t) t := by
  have hsplit := Int.mul_tdiv_add_tmod (t - pgEpoch) 1000
  have hlt := Int.tmod_lt_of_pos (t - pgEpoch) (show (0 : ℤ) < 1000 by norm_num)
  have hgt : -1000 < Int.tmod (t - pgEpoch) 1000 := by
    have habs := Int.lt_tmod_of_pos (t - pgEpoch) (show (0 : ℤ) < 1000 by norm_num)
    omega
  rw [SameMicros, pgRound, abs_lt]
  constructor <;> linarith

/-- The connection that comes back when a row is written and read. -/
def Conn.reread (ip : IpText) (lower : String → String) (id : Uuid) (c : Conn) :
    Except Error Conn :=
  match (ConnRow.ofConn id c).columns ip with
  | .error text => .error (.database text)
  | .ok cols => (cols.toRow ip).toConn lower

/-- The connection survives the table. -/
def Conn.Survives (ip : IpText) (lower : String → String) (id : Uuid) (c : Conn) : Prop :=
  ∃ c', c.reread ip lower id = .ok c' ∧ c'.env = c.env ∧ c'.proto = c.proto ∧
    c'.subscriptionId = c.subscriptionId ∧ c'.isDeleted = c.isDeleted ∧
    SameMicros c'.createdAt c.createdAt ∧ SameMicros c'.modifiedAt c.modifiedAt ∧
    (c'.expiresAt = none ↔ c.expiresAt = none) ∧
    ∀ e ∈ c.expiresAt, ∀ e' ∈ c'.expiresAt, SameMicros e' e

/-- The protocol of the row of a connection: an Mtproto connection comes back as an
Xray one. -/
lemma ConnRow.toProto_ofConn {id : Uuid} {c : Conn} (h : c.proto.Generated) :
    (ConnRow.ofConn id c).stored.toProto =
      .ok (if c.proto.isMtproto then .xray .mtproto else c.proto) := by
  obtain ⟨env, proto, sub, created, modified, expires, deleted⟩ := c
  cases proto with
  | xray tag =>
      simp only [Proto.Generated, List.mem_cons, List.not_mem_nil, or_false] at h
      rcases h with rfl | rfl | rfl | rfl <;> rfl
  | _ => rfl

lemma isPgText_of_generated (id : Uuid) {c : Conn} (h : c.proto.Generated) :
    (∀ s ∈ (ConnRow.ofConn id c).password, IsPgText s) ∧
      ∀ s ∈ (ConnRow.ofConn id c).wg.map (·.keys.privkey), IsPgText s := by
  obtain ⟨env, proto, sub, created, modified, expires, deleted⟩ := c
  cases proto with
  | wireguard param => simpa [ConnRow.ofConn, Proto.password, Proto.wg] using h.2
  | shadowsocks password =>
      simpa [ConnRow.ofConn, Proto.password, Proto.wg, Proto.Generated] using h
  | _ => simp [ConnRow.ofConn, Proto.password, Proto.wg]

lemma cidr_le_of_generated {id : Uuid} {c : Conn} (h : c.proto.Generated) :
    ∀ wg ∈ (ConnRow.ofConn id c).wg, wg.address.cidr ≤ wg.address.address.maxCidr := by
  obtain ⟨env, proto, sub, created, modified, expires, deleted⟩ := c
  cases proto with
  | wireguard param =>
      obtain ⟨⟨ip, haddress⟩, -⟩ := h
      rintro wg hwg
      rw [← Option.some.inj hwg, haddress]
      exact UInt8.le_refl _
  | _ => simp [ConnRow.ofConn, Proto.wg]

/-- What comes back of a connection of the handlers. -/
lemma Conn.reread_eq {ip : IpText} {lower : String → String} {id : Uuid} {c : Conn}
    (h : c.proto.Generated) (htext : IsPgText c.env.toText) :
    c.reread ip lower id = .ok
      { env := Env.fromText lower c.env.toText
        proto := if c.proto.isMtproto then .xray .mtproto else c.proto
        subscriptionId := c.subscriptionId
        createdAt := pgRound c.createdAt
        modifiedAt := pgRound c.modifiedAt
        expiresAt := c.expiresAt.map pgRound
        isDeleted := c.isDeleted } := by
  have htexts := isPgText_of_generated id h
  rw [reread]
  cases hcols : (ConnRow.ofConn id c).columns ip with
  | error text =>
      rw [ConnRow.columns, if_pos ⟨htext, htexts⟩] at hcols
      cases hcols
  | ok cols =>
      simp only []
      rw [ConnColumns.toRow_columns (cidr_le_of_generated h) hcols, ConnRow.toConn,
        ConnRow.toProto_ofConn h]
      rfl

/-- What keeps a connection of the handlers from surviving the table. -/
lemma Conn.Survives.fits {ip : IpText} {lower : String → String} {id : Uuid} {c : Conn}
    (h : c.Survives ip lower id) (hbuilt : c.proto.Generated) :
    c.proto.isMtproto = false ∧ IsPgText c.env.toText := by
  obtain ⟨c', hread, -, hproto, -⟩ := h
  by_cases htext : IsPgText c.env.toText
  · rw [Conn.reread_eq hbuilt htext] at hread
    rw [← Except.ok.inj hread] at hproto
    cases hmtproto : c.proto.isMtproto with
    | false => exact ⟨rfl, htext⟩
    | true =>
        simp only [hmtproto, if_true] at hproto
        rw [← hproto] at hmtproto
        exact absurd hmtproto (by simp [Proto.isMtproto])
  · rw [Conn.reread, ConnRow.columns, if_neg fun h => htext h.1] at hread
    cases hread

lemma Conn.survives_of_generated (ip : IpText) {lower : String → String} (id : Uuid) {c : Conn}
    (hbuilt : c.proto.Generated) (henv : Env.fromText lower c.env.toText = c.env)
    (hmtproto : c.proto.isMtproto = false) (htext : IsPgText c.env.toText) :
    c.Survives ip lower id := by
  refine ⟨_, Conn.reread_eq hbuilt htext, henv, ?_, rfl, rfl, sameMicros_pgRound _,
    sameMicros_pgRound _, ?_, ?_⟩
  · simp [hmtproto]
  · simp
  · intro e he e' he'
    rw [Option.mem_def] at he he'
    rw [he, Option.map_some, Option.some.injEq] at he'
    rw [← he']
    exact sameMicros_pgRound e

/-- A connection of the handlers survives the table exactly if it is not one of Mtproto and
its environment has a text that a column takes. -/
theorem survives_iff (ip : IpText) (lower : String → String) (id : Uuid) (c : Conn)
    (hbuilt : c.proto.Generated) (henv : Env.fromText lower c.env.toText = c.env) :
    c.Survives ip lower id ↔ c.proto.isMtproto = false ∧ IsPgText c.env.toText :=
  ⟨fun h => h.fits hbuilt, fun ⟨hmtproto, htext⟩ =>
    Conn.survives_of_generated ip id hbuilt henv hmtproto htext⟩

/-- A connection with a generated protocol survives the table exactly if its tag is not Mtproto
and its environment has a text that a column takes. -/
lemma survives_new {ip : IpText} {lower : String → String} {id : Uuid} {env : Env} {tag : Tag}
    {proto : Proto} (hbuilt : proto.Generated ∧ proto.proto = tag)
    (henv : Env.fromText lower env.toText = env) (sub : Option Uuid) (expiredAt : Option DateTime)
    (now : DateTime) : (Conn.new env sub proto expiredAt now).Survives ip lower id ↔
      tag ≠ .mtproto ∧ IsPgText env.toText := by
  obtain ⟨hgenerated, rfl⟩ := hbuilt
  rw [← Proto.isMtproto_eq_false_iff hgenerated]
  exact ⟨fun h => h.fits hgenerated, fun ⟨hmtproto, htext⟩ =>
    Conn.survives_of_generated ip id hgenerated henv hmtproto htext⟩

/-- **The connections of `create_connection_handler`**: all but those of Mtproto survive the
table, if their environment has a text that a column takes. -/
lemma survives_prepare {ip : IpText} {lower : String → String} {id : Uuid} {net : IpAddrMask}
    {req : ConnCreateRequest} {i : Input} {m : Cache} {proto : Proto}
    (h : Look.run (.prepare net req) i m = .ok proto) (htext : IsPgText i.text)
    (henv : Env.fromText lower req.env.toText = req.env) (expiredAt : Option DateTime)
    (now : DateTime) :
    (Conn.new req.env req.subscriptionId proto expiredAt now).Survives ip lower id ↔
      req.proto ≠ .mtproto ∧ IsPgText req.env.toText := by
  simp only [Look.run] at h
  split at h
  · cases h
  · exact survives_new (generated_newProto h htext) henv req.subscriptionId expiredAt now

/-- A writing of addresses that is the usual one for `10.0.0.2`. -/
def sampleIpText : IpText where
  toText a := if a = .v4 0x0A000002 then "10.0.0.2"
    else match a with
      | .v4 ip => String.ofList ('a' :: List.replicate ip.toNat '1')
      | .v6 ip => String.ofList ('b' :: List.replicate ip.toNat '1')
  parse s := if s = "10.0.0.2" then some (.v4 0x0A000002)
    else match s.toList with
      | 'a' :: l => some (.v4 (BitVec.ofNat 32 l.length))
      | 'b' :: l => some (.v6 (BitVec.ofNat 128 l.length))
      | _ => none
  parse_toText a := by
    cases a with
    | v4 ip =>
        by_cases hip : ip = 0x0A000002#32
        · simp [hip]
        · simp [hip, ← String.toList_inj]
    | v6 ip => simp [← String.toList_inj]
  no_slash a := by
    cases a with
    | v4 ip =>
        by_cases hip : ip = 0x0A000002#32
        · simp [hip]
        · simp [hip, List.mem_replicate]
    | v6 ip => simp [List.mem_replicate]

/-- A WireGuard connection in `dev`. -/
def sampleWg : Conn :=
  Conn.new .dev none (.wireguard ⟨⟨"privkey"⟩, ⟨.v4 0x0A000002, 32⟩⟩)
    (some 5000000001) 1700000000000000123

/-- The WireGuard connection survives. -/
theorem survives_wireguard : sampleWg.proto.Generated ∧
    (sampleWg.Survives sampleIpText CaseTable.ascii.toLowercase 1 ↔
      sampleWg.proto.isMtproto = false ∧ IsPgText sampleWg.env.toText) := by
  have hbuilt : sampleWg.proto.Generated := ⟨⟨0x0A000002, rfl⟩, by decide⟩
  exact ⟨hbuilt, survives_iff sampleIpText CaseTable.ascii.toLowercase 1 sampleWg hbuilt (by decide)⟩

/-- A connection of Mtproto in `dev`. -/
def sampleMtproto : Conn := Conn.new .dev none (.mtproto "aZ3dk29QpLm0Xs7") none 1700000000000000000

/-- The connection of Mtproto comes back as an Xray connection without its secret. -/
theorem mtproto_secret_lost : sampleMtproto.proto.Generated ∧
    ¬ sampleMtproto.Survives sampleIpText CaseTable.ascii.toLowercase 1 := by
  have hbuilt : sampleMtproto.proto.Generated := trivial
  refine ⟨hbuilt, ?_⟩
  rintro ⟨c', hread, -, hproto, -⟩
  rw [Conn.reread_eq hbuilt (by decide)] at hread
  rw [← Except.ok.inj hread] at hproto
  exact absurd hproto (by decide)

end Fcore
