import Fcore.Api.Handlers

/-!
WireGuard addresses under overlapping creations
(`create_connection_handler`, `post_trial_handler`).

Both handlers compute the next address under the read lock of the memory and
store it only after a database call.  Two creations that compute their address
before one of them stores it get the same one.

* `addressProtocol`: the account of a request is the address that it has
  computed and not stored yet;
* `AddressInv`: the addresses of the memory are pairwise different, and different
  from the one under way;
* `creations_share_address`: the run of two overlapping creations;
* `creations_addresses_unique`: addresses stay pairwise different when no address
  is computed while another request has one under way.
-/

namespace Fcore

open Calculus
open Calculus.Prog (perform)
open Machine (exec)

/-! ### The condition on steps -/

/-- The IPv4 address of a WireGuard protocol. -/
def Proto.wgIpv4 (p : Proto) : Option (BitVec 32) := p.wg.bind fun p => p.address.asIpv4

/-- No two connections hold the same IPv4 address. -/
def WgUnique (conns : Connections Conn) : Prop :=
  ∀ ⦃id id' : Uuid⦄ ⦃c c' : Conn⦄ ⦃ip : BitVec 32⦄, conns.get id = some c →
    conns.get id' = some c' → c.wgIpv4 = some ip → c'.wgIpv4 = some ip → id = id'

/-- The address that a step stores in the database or in the memory. -/
def storedAddress : (β : Type) → Call β → Option (BitVec 32)
  | _, .sql (.connInsert row) => row.wg.bind fun p => p.address.asIpv4
  | _, .edit (.connAdd _ c) => c.wgIpv4
  | _, _ => none

/-- The program has computed an address and not stored it yet. -/
def hasAddress (p : Prog Call Unit) : Bool := ahead (fun β c => (storedAddress β c).isSome) p

/-- An address is computed only while no other request has one under way. -/
def computesApart : Rule Call Input World
  | _, others, .look (.prepare _ _), _, _, .ok proto =>
      proto.wgIpv4.isNone || others.all fun p => !hasAddress p
  | _, others, .look (.wgProto _), _, _, .ok proto =>
      proto.wgIpv4.isNone || others.all fun p => !hasAddress p
  | _, _, _, _, _, _ => true

/-! ### The protocol of a creation -/

/-- The account of a request that has the given address under way. -/
def underWay : Option (BitVec 32) → Multiset (BitVec 32)
  | none => 0
  | some ip => {ip}

/-- The account after an address computation. -/
def computed : Except Reply Proto → Multiset (BitVec 32)
  | .ok proto => underWay proto.wgIpv4
  | .error _ => 0

/-- The protocol of creations: every step but a draw needs exactly the address
that it stores. -/
def addressProtocol : Protocol Call (Multiset (BitVec 32)) where
  admits _ _ _ := True
  may
    | _, .ask _, _ => True
    | _, .within _, _ => False
    | _, .edit (.install _), _ => False
    | β, c, a => a = underWay (storedAddress β c)
  moves
    | _, .look (.prepare _ _), b, _, a' => a' = computed b
    | _, .look (.wgProto _), b, _, a' => a' = computed b
    | _, .sql (.connInsert _), .error _, _, a' => a' = 0
    | _, .edit (.connAdd _ _), _, _, a' => a' = 0
    | _, _, _, a, a' => a' = a

lemma obeys_addConn (connId : Uuid) (conn : Conn) :
    Obeys addressProtocol (fun _ a => a = 0) (addConn connId conn) (underWay conn.wgIpv4) := by
  simp only [addConn, Prog.perform_bind]
  refine ⟨rfl, fun r _ => ?_⟩
  cases r with
  | error e => exact ⟨0, rfl, rfl⟩
  | ok u =>
      refine ⟨underWay conn.wgIpv4, rfl, rfl, fun r _ => ⟨0, rfl, ?_⟩⟩
      rcases r with e | st
      · exact rfl
      · cases st <;> exact rfl

/-- Draws and publications leave the account alone. -/
lemma addressProtocol_quiet {β : Type} {c : Call β} (h : QuietCall β c) :
    addressProtocol.may β c 0 ∧ ∀ b, addressProtocol.moves β c b 0 0 := by
  cases h with
  | bus p => exact ⟨rfl, fun _ => rfl⟩
  | ask a => exact ⟨trivial, fun _ => rfl⟩

/-- So do day credits. -/
lemma addressProtocol_addDays {β : Type} {c : Call β} (h : AddDaysCall β c) :
    addressProtocol.may β c 0 ∧ ∀ b, addressProtocol.moves β c b 0 0 := by
  cases h with
  | restore h =>
      cases h with
      | ask a => exact ⟨trivial, fun _ => rfl⟩
      | _ => exact ⟨rfl, fun _ => rfl⟩
  | _ => exact ⟨rfl, fun _ => rfl⟩

lemma obeys_createConnectionHandler (req : ConnCreateRequest) (net : IpAddrMask) :
    Obeys addressProtocol (fun _ a => a = 0) (createConnectionHandler req net) 0 := by
  refine Obeys.bind (Obeys.of_uses (uses_expiryOf req.days) fun _ _ => addressProtocol_quiet) ?_
  rintro expiredAt a rfl
  refine ⟨rfl, fun r _ => ⟨computed r, rfl, ?_⟩⟩
  cases r with
  | error r => exact rfl
  | ok proto =>
      refine ⟨trivial, fun now _ => ⟨_, rfl, trivial, fun connId _ => ⟨_, rfl, ?_⟩⟩⟩
      refine (obeys_addConn connId
        (Conn.new req.env req.subscriptionId proto expiredAt now)).bind ?_
      rintro r a rfl
      rcases r with e | st
      · exact rfl
      · cases st with
        | ok id =>
            exact (Obeys.of_uses (uses_publishCreated _ _) fun _ _ => addressProtocol_quiet).bind
              fun _ _ h => h
        | _ => exact rfl

lemma obeys_trialProto (net : IpAddrMask) (tag : Tag) :
    Obeys addressProtocol (fun r a => a = computed r) (trialProto net tag) 0 := by
  cases tag with
  | wireguard => exact ⟨rfl, fun r _ => ⟨computed r, rfl, rfl⟩⟩
  | shadowsocks | hysteria2 | mtproto => exact ⟨trivial, fun x _ => ⟨0, rfl, rfl⟩⟩
  | vlessTcpReality | vlessGrpcReality | vlessXhttpReality | vmess => exact rfl

lemma obeys_trialConns (net : IpAddrMask) (subId : Uuid) (pairs : List (Env × Tag)) :
    Obeys addressProtocol (fun _ a => a = 0) (trialConns net subId pairs) 0 := by
  induction pairs with
  | nil => exact rfl
  | cons pair rest ih =>
      obtain ⟨env, tag⟩ := pair
      refine (obeys_trialProto net tag).bind ?_
      rintro r a rfl
      cases r with
      | error r => exact rfl
      | ok proto =>
          refine ⟨trivial, fun now _ => ⟨_, rfl, trivial, fun connId _ => ⟨_, rfl, ?_⟩⟩⟩
          refine (obeys_addConn connId (Conn.new env (some subId) proto none now)).bind ?_
          rintro r a rfl
          rcases r with e | st
          · exact ih
          · cases st with
            | ok id =>
                refine (Obeys.of_uses (uses_publishCreated _ _)
                  fun _ _ => addressProtocol_quiet).bind ?_
                rintro _ _ rfl
                exact ih
            | _ => exact ih

lemma obeys_saveTrialHmac (cfg : TrialConfig) (email : Option String) (subId : Uuid)
    (time : DateTime) (refBy : String) :
    Obeys addressProtocol (fun _ a => a = 0) (saveTrialHmac cfg email subId time refBy) 0 := by
  cases email with
  | none => exact rfl
  | some email => exact ⟨rfl, fun _ _ => ⟨0, rfl, rfl, fun _ _ => ⟨0, rfl, rfl⟩⟩⟩

lemma obeys_createTrial (cfg : TrialConfig) (req : Trial) (subId : Uuid) :
    Obeys addressProtocol (fun _ a => a = 0) (createTrial cfg req subId) 0 := by
  refine ⟨trivial, fun now _ => ⟨0, rfl, trivial, fun created _ => ⟨0, rfl, ?_⟩⟩⟩
  refine ⟨rfl, fun r _ => ⟨0, rfl, ?_⟩⟩
  cases r with
  | error e => exact rfl
  | ok row =>
      refine ⟨rfl, fun st _ => ⟨0, rfl, ?_⟩⟩
      cases st with
      | ok newSubId =>
          refine (obeys_trialConns cfg.net newSubId cfg.pairs).bind ?_
          rintro r a rfl
          cases r with
          | error r => exact rfl
          | ok u =>
              refine (obeys_saveTrialHmac _ _ _ _ _).bind ?_
              rintro _ _ rfl
              exact (obeys_saveTrialHmac _ _ _ _ _).bind fun _ _ h => h
      | _ => exact rfl

lemma obeys_grantTrial (cfg : TrialConfig) (req : Trial) :
    Obeys addressProtocol (fun _ a => a = 0) (grantTrial cfg req) 0 := by
  refine ⟨trivial, fun subId _ => ⟨0, rfl, ?_⟩⟩
  have href : Obeys addressProtocol (fun _ a => a = 0)
      (referral req.referredBy cfg.systemReferCodes cfg.bonus "Refer code not found") 0 := by
    cases req.referredBy with
    | none => exact rfl
    | some code =>
        refine ⟨rfl, fun r _ => ⟨0, rfl, ?_⟩⟩
        cases r <;> exact rfl
  refine href.bind ?_
  rintro r a rfl
  rcases r with r | _ | ⟨id, bonusDays⟩
  · exact rfl
  · exact obeys_createTrial cfg req subId
  · refine (Obeys.of_uses (uses_addDays id bonusDays) fun _ _ => addressProtocol_addDays).bind ?_
    rintro r a rfl
    cases r with
    | error e => exact rfl
    | ok st => exact obeys_createTrial cfg req subId

lemma obeys_postTrialHandler (cfg : TrialConfig) (req : Trial) :
    Obeys addressProtocol (fun _ a => a = 0) (postTrialHandler cfg req) 0 := by
  have hcheck : ∀ email, Obeys addressProtocol (fun _ a => a = 0)
      (checkEmailHmac cfg.hmac email) 0 := by
    intro email
    cases email with
    | none => exact rfl
    | some email => exact ⟨rfl, fun _ _ => ⟨0, rfl, rfl⟩⟩
  rw [postTrialHandler]
  cases req.validate with
  | error e => exact rfl
  | ok u =>
      refine (hcheck req.user).bind ?_
      rintro known a rfl
      cases known with
      | true => exact rfl
      | false =>
          refine (hcheck req.email).bind ?_
          rintro known a rfl
          cases known with
          | true => exact rfl
          | false => exact (obeys_grantTrial cfg req).bind fun _ _ h => h

/-! ### The invariant -/

/-- The invariant of the connections in memory and of the addresses under way. -/
structure AddressInv (conns : Connections Conn) (t : Multiset (BitVec 32)) : Prop where
  unique : WgUnique conns
  apart : ∀ ip ∈ t, ∀ id c, conns.get id = some c → c.wgIpv4 ≠ some ip
  single : t.card ≤ 1

section AddressInv

variable {conns : Connections Conn} {t g : Multiset (BitVec 32)}

/-- Giving up the addresses under way. -/
lemma AddressInv.drop (h : AddressInv conns (t + g)) : AddressInv conns (0 + g) := by
  rw [zero_add]
  refine ⟨h.unique, fun ip hip => h.apart ip (Multiset.mem_add.mpr (Or.inr hip)), ?_⟩
  have hcard := h.single
  rw [Multiset.card_add] at hcard
  omega

/-- Changing connections without touching their addresses. -/
lemma AddressInv.change (h : AddressInv conns t) (id : Uuid) {f : Conn → Conn}
    (hf : ∀ c, (f c).wgIpv4 = c.wgIpv4) : AddressInv (conns.change id f) t := by
  have hback : ∀ {id' : Uuid} {c : Conn}, (conns.change id f).get id' = some c →
      ∃ c', conns.get id' = some c' ∧ c.wgIpv4 = c'.wgIpv4 := by
    intro id' c hget
    rw [Table.get_change] at hget
    split_ifs at hget with hid
    · obtain ⟨c', hc', rfl⟩ := Option.map_eq_some_iff.mp hget
      exact ⟨c', by rw [hid]; exact hc', hf c'⟩
    · exact ⟨c, hget, rfl⟩
  refine ⟨?_, ?_, h.single⟩
  · intro id₁ id₂ c₁ c₂ ip h₁ h₂ hip₁ hip₂
    obtain ⟨c₁', hc₁, he₁⟩ := hback h₁
    obtain ⟨c₂', hc₂, he₂⟩ := hback h₂
    exact h.unique hc₁ hc₂ (he₁ ▸ hip₁) (he₂ ▸ hip₂)
  · intro ip hip id' c hget
    obtain ⟨c', hc', he⟩ := hback hget
    rw [he]
    exact h.apart ip hip id' c' hc'

/-- Storing a connection with its address under way. -/
lemma AddressInv.add {c : Conn} (h : AddressInv conns (underWay c.wgIpv4 + g)) (id : Uuid) :
    AddressInv (conns.vacant id c) (0 + g) := by
  have hnew : ∀ {id' : Uuid} {c' : Conn} {ip : BitVec 32}, conns.get id' = some c' →
      c'.wgIpv4 = some ip → c.wgIpv4 ≠ some ip := by
    intro id' c' ip hget hip hc
    refine h.apart ip ?_ id' c' hget hip
    rw [hc]
    exact Multiset.mem_add.mpr (Or.inl (Multiset.mem_singleton_self ip))
  refine ⟨?_, ?_, h.drop.single⟩
  · intro id₁ id₂ c₁ c₂ ip h₁ h₂ hip₁ hip₂
    rcases Table.get_vacant_eq_some.mp h₁ with hold₁ | ⟨hid₁, -, hc₁⟩
    · rcases Table.get_vacant_eq_some.mp h₂ with hold₂ | ⟨hid₂, -, hc₂⟩
      · exact h.unique hold₁ hold₂ hip₁ hip₂
      · exact absurd (hc₂ ▸ hip₂) (hnew hold₁ hip₁)
    · rcases Table.get_vacant_eq_some.mp h₂ with hold₂ | ⟨hid₂, -, hc₂⟩
      · exact absurd (hc₁ ▸ hip₁) (hnew hold₂ hip₂)
      · rw [hid₁, hid₂]
  · intro ip hip id' c' hget
    rw [zero_add] at hip
    rcases Table.get_vacant_eq_some.mp hget with hget | ⟨-, -, rfl⟩
    · exact h.apart ip (Multiset.mem_add.mpr (Or.inr hip)) id' c' hget
    · intro hc
      -- the new connection's own address is the only one under way
      have hcard := h.single
      rw [hc, Multiset.card_add] at hcard
      have hone : (underWay (some ip)).card = 1 := Multiset.card_singleton ip
      have hpos : 0 < g.card := Multiset.card_pos_iff_exists_mem.mpr ⟨ip, hip⟩
      omega

/-- Computing an address while none is under way. -/
lemma AddressInv.compute (h : AddressInv conns 0) {a : Option (BitVec 32)}
    (hnew : ∀ ip, a = some ip → ∀ id c, conns.get id = some c → c.wgIpv4 ≠ some ip) :
    AddressInv conns (underWay a) := by
  cases a with
  | none => exact h
  | some ip =>
      refine ⟨h.unique, ?_, (Multiset.card_singleton ip).le⟩
      intro ip' hip'
      rw [Multiset.mem_singleton.mp hip']
      exact hnew ip rfl

end AddressInv

/-- A protocol built from the memory carries a new address. -/
lemma newWgProto_new {net : IpAddrMask} {conns : Connections Conn} {i : Input} {proto : Proto}
    (h : newWgProto net conns i = .ok proto) {ip : BitVec 32} (hip : proto.wgIpv4 = some ip)
    {id : Uuid} {c : Conn} (hc : conns.get id = some c) : c.wgIpv4 ≠ some ip := by
  rw [newWgProto] at h
  split at h
  · cases h
  · next next hnext =>
      rw [← Except.ok.inj h] at hip
      obtain rfl : next = ip := Option.some.inj hip
      exact fun hcip => absurd (nextWgAddress_gt hnext hc hcip) (lt_irrefl _)

lemma newProto_new {net : IpAddrMask} {conns : Connections Conn} {tag : Tag} {i : Input}
    {proto : Proto} (h : newProto net conns tag i = .ok proto) {ip : BitVec 32}
    (hip : proto.wgIpv4 = some ip) {id : Uuid} {c : Conn} (hc : conns.get id = some c) :
    c.wgIpv4 ≠ some ip := by
  cases tag with
  | wireguard => exact newWgProto_new h hip hc
  | _ =>
      rw [← Except.ok.inj h] at hip
      exact absurd hip (by simp [Proto.wgIpv4, Proto.wg])

lemma prepare_new {net : IpAddrMask} {req : ConnCreateRequest} {m : Cache} {i : Input}
    {proto : Proto} (h : (Look.prepare net req).run i m = .ok proto) {ip : BitVec 32}
    (hip : proto.wgIpv4 = some ip) {id : Uuid} {c : Conn} (hc : m.connections.get id = some c) :
    c.wgIpv4 ≠ some ip := by
  simp only [Look.run] at h
  split at h
  · cases h
  · exact newProto_new h hip hc

/-! ### Runs -/

/-- A request without an address under way has an empty account. -/
lemma account_of_not_hasAddress {p : Prog Call Unit} {g : Multiset (BitVec 32)}
    (hp : hasAddress p = false) (h : Obeys addressProtocol (fun _ a => a = 0) p g) : g = 0 := by
  induction p with
  | pure x => exact h
  | call c k ih =>
      cases c with
      | ask a =>
          obtain ⟨g', hg', hk⟩ := h.2 (a.run default) trivial
          obtain rfl : g' = g := hg'
          exact ih _ hp hk
      | within w => exact h.1.elim
      | edit w =>
          cases w with
          | connAdd id c =>
              have hnone : c.wgIpv4 = none := by simpa [hasAddress, ahead, storedAddress] using hp
              have hg : g = underWay c.wgIpv4 := h.1
              rw [hg, hnone]
              rfl
          | install c => exact h.1.elim
          | _ => exact h.1
      | sql q =>
          cases q with
          | connInsert row =>
              have hnone : (row.wg.bind fun p => p.address.asIpv4) = none := by
                simpa [hasAddress, ahead, storedAddress] using hp
              have hg : g = underWay (row.wg.bind fun p => p.address.asIpv4) := h.1
              rw [hg, hnone]
              rfl
          | _ => exact h.1
      | _ => exact h.1

/-- An address computation that the condition allows keeps the invariant. -/
lemma AddressInv.look {conns : Connections Conn} {others : List (Prog Call Unit)}
    {gs : List (Multiset (BitVec 32))} {r : Except Reply Proto}
    (hinv : AddressInv conns (0 + gs.sum))
    (hothers : AllObey addressProtocol (fun _ a => a = 0) gs others)
    (hrule : ∀ proto, r = .ok proto →
      (proto.wgIpv4.isNone || others.all fun p => !hasAddress p) = true)
    (hnew : ∀ proto, r = .ok proto → ∀ ip, proto.wgIpv4 = some ip →
      ∀ id c, conns.get id = some c → c.wgIpv4 ≠ some ip) :
    AddressInv conns (computed r + gs.sum) := by
  cases r with
  | error r => exact hinv
  | ok proto =>
      have hapart := hrule proto rfl
      cases hip : proto.wgIpv4 with
      | none =>
          rw [computed, hip]
          exact hinv
      | some ip =>
          rw [hip, Option.isNone_some, Bool.false_or, List.all_eq_true] at hapart
          have hsum : gs.sum = 0 := hothers.sum_eq_zero fun p hp g hg =>
            account_of_not_hasAddress (by simpa using hapart p hp) hg
          rw [hsum, add_zero] at hinv ⊢
          exact hinv.compute (hnew proto rfl)

/-- One step of any request keeps the invariant. -/
lemma keeps_addressInv : Keeps computesApart addressProtocol (fun _ a => a = 0)
    (fun s t => AddressInv s.memory.connections t) := by
  intro β c i s s' b a others gs hothers hexec hrule hmay hinv
  refine ⟨trivial, fun a' hm => ?_⟩
  cases c with
  | look r =>
      obtain ⟨-, rfl, rfl⟩ := exec_look.mp hexec
      cases r with
      | prepare net req =>
          obtain rfl : a = 0 := hmay
          rw [show a' = computed _ from hm]
          refine hinv.look hothers (fun proto hr => ?_) fun proto hr ip hip id c hc =>
            prepare_new hr hip hc
          rw [hr] at hrule
          exact hrule
      | wgProto net =>
          obtain rfl : a = 0 := hmay
          rw [show a' = computed _ from hm]
          refine hinv.look hothers (fun proto hr => ?_) fun proto hr ip hip id c hc =>
            newWgProto_new hr hip hc
          rw [hr] at hrule
          exact hrule
      | _ => rwa [show a' = a from hm]
  | edit w =>
      obtain ⟨-, rfl, rfl⟩ := exec_edit.mp hexec
      cases w with
      | connAdd id c =>
          obtain rfl : a = underWay c.wgIpv4 := hmay
          rw [show a' = 0 from hm]
          exact hinv.add id
      | setDeleted id v =>
          rw [show a' = a from hm]
          exact hinv.change id fun c => Conn.setDeleted_wgIpv4 c v i.now
      | install c => exact hmay.elim
      | _ =>
          rw [show a' = a from hm]
          exact hinv
  | within w => exact hmay.elim
  | sql q =>
      simp only [connections_of_exec hexec rfl]
      cases q with
      | connInsert row =>
          cases b with
          | error e =>
              rw [show a' = 0 from hm]
              exact hinv.drop
          | ok u => rwa [show a' = a from hm]
      | _ => rwa [show a' = a from hm]
  | _ =>
      simp only [connections_of_exec hexec rfl]
      rwa [show a' = a from hm]

/-- A request that may create WireGuard connections. -/
inductive Creation where
  | post (req : ConnCreateRequest) (net : IpAddrMask)
  | trial (cfg : TrialConfig) (req : Trial)

/-- The program of a creation. -/
def Creation.thread : Creation → Prog Call Unit
  | post req net => (createConnectionHandler req net).forget
  | trial cfg req => (postTrialHandler cfg req).forget

/-- Creations start with empty accounts. -/
lemma creations_obey (cs : List Creation) :
    AllObey addressProtocol (fun _ a => a = 0) (cs.map fun _ => 0) (cs.map Creation.thread) := by
  rw [AllObey, List.forall₂_map_right_iff, List.forall₂_map_left_iff]
  refine List.forall₂_same.mpr fun c _ => ?_
  cases c with
  | post req net => exact obeys_forget.mpr (obeys_createConnectionHandler req net)
  | trial cfg req => exact obeys_forget.mpr (obeys_postTrialHandler cfg req)

/-- **Addresses are never shared** in an interleaving of creations in which no
address is computed while another request has computed one and not stored it
yet. -/
theorem creations_addresses_unique {cs : List Creation} {s₀ : World} {p : Pool Call World}
    (hunique : WgUnique s₀.memory.connections)
    (h : Reach computesApart ⟨s₀, cs.map Creation.thread⟩ p) :
    WgUnique p.state.memory.connections := by
  have hinit : AddressInv s₀.memory.connections (cs.map fun _ => 0).sum := by
    have hzero : (cs.map fun _ => (0 : Multiset (BitVec 32))).sum = 0 := by simp
    rw [hzero]
    exact ⟨hunique, by simp, by simp⟩
  obtain ⟨gs, -, hinv⟩ := Reach.sound keeps_addressInv h (creations_obey cs) hinit
  exact hinv.unique

/-! ### Two connections with one address -/

/-- The network `10.0.0.0/8`. -/
def sampleNet : IpAddrMask := ⟨.v4 0x0A000000, 8⟩

/-- A request for a WireGuard connection without a subscription. -/
def wgRequest : ConnCreateRequest := ⟨.dev, none, .wireguard, none⟩

/-- The input that draws the identifier `u`. -/
def Input.drawing (u : Uuid) : Input := { Input.at 0 with uuid := u }

lemma wgUnique_empty : WgUnique World.empty.memory.connections := by
  intro id id' c c' ip h
  cases h

/-- Two creations one after the other meet the condition and store two
addresses. -/
theorem creations_addresses_unique_serially :
    ∃ p, Reach computesApart ⟨World.empty,
        [Creation.post wgRequest sampleNet, .post wgRequest sampleNet].map Creation.thread⟩ p ∧
      p.state.memory.connections.size = 2 ∧ WgUnique p.state.memory.connections := by
  have hrun : (runWith computesApart
      (List.replicate 6 (0, Input.drawing 1) ++ List.replicate 6 (1, Input.drawing 2))
      ⟨World.empty, [Creation.post wgRequest sampleNet, .post wgRequest sampleNet].map
        Creation.thread⟩).map (fun p => p.state.memory.connections.size) = some 2 := by
    decide +kernel
  obtain ⟨p, hp, hsize⟩ := exists_reach_of_runWith hrun
  exact ⟨p, hp, hsize, creations_addresses_unique wgUnique_empty hp⟩

/-- Two overlapping creations: both compute `10.0.0.2`, then both store it. -/
theorem creations_share_address :
    WgUnique World.empty.memory.connections ∧
      ∃ p, Reach Rule.any ⟨World.empty,
          [Creation.post wgRequest sampleNet, .post wgRequest sampleNet].map Creation.thread⟩ p ∧
        ¬ WgUnique p.state.memory.connections := by
  refine ⟨wgUnique_empty, ?_⟩
  have hrun : (runWith Rule.any
      ([(0, Input.drawing 1), (1, Input.drawing 2)] ++ List.replicate 4 (0, Input.drawing 1) ++
        List.replicate 4 (1, Input.drawing 2))
      ⟨World.empty, [Creation.post wgRequest sampleNet, .post wgRequest sampleNet].map
        Creation.thread⟩).map (fun p =>
          ((p.state.memory.connections.get 1).bind Conn.wgIpv4,
            (p.state.memory.connections.get 2).bind Conn.wgIpv4)) =
      some (some 0x0A000002, some 0x0A000002) := by
    decide +kernel
  obtain ⟨p, hp, hips⟩ := exists_reach_of_runWith hrun
  refine ⟨p, hp, fun hunique => ?_⟩
  obtain ⟨h₁, h₂⟩ := Prod.mk.inj hips
  obtain ⟨c₁, hc₁, hip₁⟩ := Option.bind_eq_some_iff.mp h₁
  obtain ⟨c₂, hc₂, hip₂⟩ := Option.bind_eq_some_iff.mp h₂
  exact absurd (hunique hc₁ hc₂ hip₁ hip₂) (by decide)

end Fcore
