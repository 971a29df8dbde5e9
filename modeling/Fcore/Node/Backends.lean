import Fcore.Node.Batch

/-!
A node's memory beside its backends, along runs of messages handled one at a time.

* `PeersMatch`: the peers on the WireGuard interface are the public keys of the
  connections in memory; `FollowsLatest`: a message that is answered with `Ok` leaves
  its own key and address in memory and matching peers;
* `KeepsKey`: the message carries the key under which its connection is in memory;
* `peers_follow_iff`: the peers follow the latest message exactly when no message
  changes the key of a connection in memory;
* `Remembered`: every user that Xray serves is in memory;
* `RemovesAll`: a deletion that reaches Xray takes all users of its connection away;
* `users_remembered_iff`: the node forgets no user exactly when all its deletions do.
-/

namespace Fcore

open Calculus

/-! ### WireGuard peers -/

/-- A connection with the public key is in memory. -/
def HoldsKey (ctx : NodeCtx) (s : NodeState) (pk : String) : Prop :=
  ∃ id b wg, s.memory id = some b ∧ b.proto = .wireguard wg ∧ ctx.pubkey wg.keys = .ok pk

/-- The peers on the interface are the public keys of the connections in memory. -/
def PeersMatch (ctx : NodeCtx) (s : NodeState) : Prop :=
  ∀ pk, (s.peers pk).isSome ↔ HoldsKey ctx s pk

/-- The memory holds the key and the address of the message, or nothing after a
deletion. -/
def EntryFollows (msg : Message) (s : NodeState) : Prop :=
  match msg.action with
  | .delete => s.memory msg.connId = none
  | _ => ∃ b wg, s.memory msg.connId = some b ∧ msg.wg = some wg ∧ b.proto = .wireguard wg

/-- What a message that is answered with `Ok` leaves behind. -/
def FollowsLatest (ctx : NodeCtx) (it : Item) (s : NodeState) : Prop :=
  (handleMessage ctx it.1 it.2 s).2 = .ok () →
    EntryFollows it.1 (handleMessage ctx it.1 it.2 s).1 ∧
      PeersMatch ctx (handleMessage ctx it.1 it.2 s).1

/-- A message for a connection in memory carries the key that is stored for it. -/
def KeepsKey (ctx : NodeCtx) (it : Item) (s : NodeState) : Prop :=
  ∀ b wg wg', it.1.wg = some wg → s.memory it.1.connId = some b → b.proto = .wireguard wg' →
    ctx.pubkey wg.keys = ctx.pubkey wg'.keys

/-- Messages for WireGuard connections with keys that decode and differ between
connections, on a node whose backend calls all succeed. -/
structure WgTraffic (ctx : NodeCtx) (items : List Item) : Prop where
  client : ctx.wgClient = true
  tag : ∀ it ∈ items, it.1.tag = .wireguard ∧ it.1.action ≠ .resetStat
  decodes : ∀ it ∈ items, ∀ wg, it.1.wg = some wg → ∃ pk, ctx.pubkey wg.keys = .ok pk
  differ : ∀ it ∈ items, ∀ it' ∈ items, ∀ wg wg', it.1.wg = some wg → it'.1.wg = some wg' →
    ctx.pubkey wg.keys = ctx.pubkey wg'.keys → it.1.connId = it'.1.connId
  backend : ∀ it ∈ items, it.2.ok = true ∧ it.2.readable = true

/-- The connections in memory come from the messages. -/
def FromTraffic (items : List Item) (s : NodeState) : Prop :=
  ∀ id b, s.memory id = some b →
    ∃ it ∈ items, ∃ wg, it.1.connId = id ∧ it.1.wg = some wg ∧ b.proto = .wireguard wg

/-- What holds between messages. -/
structure PeersInv (ctx : NodeCtx) (items : List Item) (s : NodeState) : Prop where
  peers : PeersMatch ctx s
  memory : FromTraffic items s

section Steps

variable {ctx : NodeCtx} {items : List Item} {it : Item} {s : NodeState} {wg : WgParam}
  {pk : String}

/-- The state after the creation of a connection whose key is not on the interface. -/
def created (msg : Message) (wg : WgParam) (pk : String) (now : DateTime) (s : NodeState) :
    NodeState :=
  { s.add msg.connId (msg.toBase (.wireguard wg) now) with
    peers := Function.update s.peers pk (some wg.address) }

/-- The state after a deletion. -/
def deleted (msg : Message) (pk : String) (s : NodeState) : NodeState :=
  ({ s with peers := Function.update s.peers pk none } : NodeState).remove msg.connId

/-- A message without keys is refused and changes nothing. -/
lemma WgTraffic.handle_none (h : WgTraffic ctx items) (hit : it ∈ items) (hwg : it.1.wg = none) :
    ∃ e, handleMessage ctx it.1 it.2 s = (s, .error e) := by
  obtain ⟨htag, haction⟩ := h.tag it hit
  cases hact : it.1.action with
  | create =>
      simp only [handleMessage, hact, htag, createWg, hwg]
      exact ⟨_, rfl⟩
  | update =>
      simp only [handleMessage, hact, htag, createWg, hwg]
      exact ⟨_, rfl⟩
  | delete =>
      simp only [handleMessage, hact, htag, deleteWg, hwg, h.client, Bool.not_true]
      exact ⟨_, rfl⟩
  | resetStat => exact absurd hact haction

/-- `Create` and `Update`: a key that is not on the interface gets a peer, one that is
there is an error. -/
lemma WgTraffic.handle_create (h : WgTraffic ctx items) (hit : it ∈ items)
    (hact : it.1.action ≠ .delete) (hwg : it.1.wg = some wg) (hpk : ctx.pubkey wg.keys = .ok pk) :
    handleMessage ctx it.1 it.2 s =
      if (s.peers pk).isSome then
        (s.add it.1.connId (it.1.toBase (.wireguard wg) it.2.now),
          .error (.custom "WG User already exist"))
      else (created it.1 wg pk it.2.now s, .ok ()) := by
  obtain ⟨htag, haction⟩ := h.tag it hit
  obtain ⟨hok, hread⟩ := h.backend it hit
  have hcreate : handleMessage ctx it.1 it.2 s = createWg ctx it.1 it.2 s := by
    cases hact' : it.1.action with
    | create => simp only [handleMessage, hact', htag]
    | update => simp only [handleMessage, hact', htag]
    | delete => exact absurd hact' hact
    | resetStat => exact absurd hact' haction
  rw [hcreate, createWg, hwg]
  simp only [h.client, hpk, hok, hread, NodeState.add, Bool.not_true, Bool.true_and, if_true,
    created]
  rfl

lemma WgTraffic.handle_delete (h : WgTraffic ctx items) (hit : it ∈ items)
    (hact : it.1.action = .delete) (hwg : it.1.wg = some wg) (hpk : ctx.pubkey wg.keys = .ok pk) :
    handleMessage ctx it.1 it.2 s = (deleted it.1 pk s, .ok ()) := by
  obtain ⟨htag, -⟩ := h.tag it hit
  obtain ⟨hok, -⟩ := h.backend it hit
  simp only [handleMessage, hact, htag, deleteWg, h.client, hwg, hpk, hok, Bool.not_true,
    if_true]
  rfl

/-- The key of a message belongs to no other connection. -/
lemma PeersInv.eq_connId (hinv : PeersInv ctx items s) (h : WgTraffic ctx items) (hit : it ∈ items)
    (hwg : it.1.wg = some wg) {id : Uuid} {b : Base} {wg' : WgParam} (hb : s.memory id = some b)
    (hproto : b.proto = .wireguard wg') (hkey : ctx.pubkey wg.keys = ctx.pubkey wg'.keys) :
    id = it.1.connId := by
  obtain ⟨it', hit', wg'', rfl, hwg'', hproto'⟩ := hinv.memory id b hb
  obtain rfl : wg' = wg'' := by
    rw [hproto] at hproto'
    exact Proto.wireguard.inj hproto'
  exact (h.differ it hit it' hit' wg wg' hwg hwg'' hkey).symm

/-- The key of a message is on the interface exactly when its connection is in memory
with this key. -/
lemma PeersInv.peer_iff (hinv : PeersInv ctx items s) (h : WgTraffic ctx items) (hit : it ∈ items)
    (hwg : it.1.wg = some wg) (hpk : ctx.pubkey wg.keys = .ok pk) :
    (s.peers pk).isSome ↔ ∃ b wg', s.memory it.1.connId = some b ∧ b.proto = .wireguard wg' ∧
      ctx.pubkey wg.keys = ctx.pubkey wg'.keys := by
  rw [hinv.peers pk, HoldsKey]
  constructor
  · rintro ⟨id, b, wg', hb, hproto, hpk'⟩
    have hkey : ctx.pubkey wg.keys = ctx.pubkey wg'.keys := hpk.trans hpk'.symm
    obtain rfl := hinv.eq_connId h hit hwg hb hproto hkey
    exact ⟨b, wg', hb, hproto, hkey⟩
  · rintro ⟨b, wg', hb, hproto, hkey⟩
    exact ⟨it.1.connId, b, wg', hb, hproto, hkey.symm.trans hpk⟩

/-- What is in memory is a WireGuard connection. -/
lemma PeersInv.exists_wg (hinv : PeersInv ctx items s) {id : Uuid} {b : Base}
    (hb : s.memory id = some b) : ∃ wg, b.proto = .wireguard wg := by
  obtain ⟨-, -, wg, -, -, hproto⟩ := hinv.memory id b hb
  exact ⟨wg, hproto⟩

/-- A lookup after a creation. -/
lemma memory_created (msg : Message) (now : DateTime) (id : Uuid) :
    (created msg wg pk now s).memory id =
      if id = msg.connId then
        some ((s.memory msg.connId).getD (msg.toBase (.wireguard wg) now))
      else s.memory id :=
  Function.update_apply ..

lemma peers_created (msg : Message) (now : DateTime) (p : String) :
    (created msg wg pk now s).peers p = if p = pk then some wg.address else s.peers p :=
  Function.update_apply ..

lemma memory_deleted (msg : Message) (id : Uuid) :
    (deleted msg pk s).memory id = if id = msg.connId then none else s.memory id :=
  Function.update_apply ..

lemma peers_deleted (msg : Message) (p : String) :
    (deleted msg pk s).peers p = if p = pk then none else s.peers p :=
  Function.update_apply ..

/-- A creation of a connection that is not in memory keeps the peers matching. -/
lemma PeersInv.peersMatch_created (hinv : PeersInv ctx items s)
    (hpk : ctx.pubkey wg.keys = .ok pk) (hnone : s.memory it.1.connId = none) :
    PeersMatch ctx (created it.1 wg pk it.2.now s) := by
  intro p
  have hpeers : ((created it.1 wg pk it.2.now s).peers p).isSome ↔ p = pk ∨ (s.peers p).isSome := by
    rw [peers_created]
    by_cases hp : p = pk
    · simp [hp]
    · simp [hp]
  rw [hpeers, hinv.peers p]
  constructor
  · rintro (rfl | ⟨id, b, wg', hb, hproto, hkey⟩)
    · refine ⟨it.1.connId, it.1.toBase (.wireguard wg) it.2.now, wg, ?_, rfl, hpk⟩
      rw [memory_created, if_pos rfl, hnone, Option.getD_none]
    · refine ⟨id, b, wg', ?_, hproto, hkey⟩
      rw [memory_created, if_neg, hb]
      rintro rfl
      exact absurd (hb.symm.trans hnone) (Option.some_ne_none b)
  · rintro ⟨id, b, wg', hb, hproto, hkey⟩
    rw [memory_created, hnone, Option.getD_none] at hb
    split_ifs at hb with hid
    · left
      obtain rfl := Option.some.inj hb
      obtain rfl := Proto.wireguard.inj hproto
      exact Except.ok.inj (hkey.symm.trans hpk)
    · exact Or.inr ⟨id, b, wg', hb, hproto, hkey⟩

/-- A deletion with the stored key, or of a connection that is not in memory, keeps the
peers matching. -/
lemma PeersInv.peersMatch_deleted (hinv : PeersInv ctx items s) (h : WgTraffic ctx items)
    (hit : it ∈ items) (hwg : it.1.wg = some wg) (hpk : ctx.pubkey wg.keys = .ok pk)
    (hkeeps : KeepsKey ctx it s) : PeersMatch ctx (deleted it.1 pk s) := by
  intro p
  have hpeers : ((deleted it.1 pk s).peers p).isSome ↔ p ≠ pk ∧ (s.peers p).isSome := by
    rw [peers_deleted]
    by_cases hp : p = pk
    · simp [hp]
    · simp [hp]
  rw [hpeers, hinv.peers p]
  constructor
  · rintro ⟨hne, id, b, wg', hb, hproto, hkey⟩
    refine ⟨id, b, wg', ?_, hproto, hkey⟩
    rw [memory_deleted, if_neg, hb]
    rintro rfl
    have hsame := hkeeps b wg wg' hwg hb hproto
    exact hne (Except.ok.inj (hkey.symm.trans (hsame.symm.trans hpk)))
  · rintro ⟨id, b, wg', hb, hproto, hkey⟩
    rw [memory_deleted] at hb
    split_ifs at hb with hid
    refine ⟨?_, id, b, wg', hb, hproto, hkey⟩
    rintro rfl
    exact hid (hinv.eq_connId h hit hwg hb hproto (hpk.trans hkey.symm))

/-- **One creation or update** follows the latest message exactly when it keeps the key. -/
lemma PeersInv.follows_create_iff (hinv : PeersInv ctx items s) (h : WgTraffic ctx items)
    (hit : it ∈ items) (hact : it.1.action ≠ .delete) (hwg : it.1.wg = some wg)
    (hpk : ctx.pubkey wg.keys = .ok pk) : FollowsLatest ctx it s ↔ KeepsKey ctx it s := by
  have hentry : ∀ s', EntryFollows it.1 s' ↔
      ∃ b, s'.memory it.1.connId = some b ∧ b.proto = .wireguard wg := by
    intro s'
    rw [EntryFollows]
    cases hact' : it.1.action <;> simp [hwg] at hact ⊢
    exact absurd hact' hact
  rw [FollowsLatest, h.handle_create hit hact hwg hpk]
  cases hb : s.memory it.1.connId with
  | none =>
      have hfree : ¬ (s.peers pk).isSome := by
        rw [hinv.peer_iff h hit hwg hpk]
        rintro ⟨b, -, hb', -⟩
        exact absurd (hb'.symm.trans hb) (Option.some_ne_none b)
      rw [if_neg hfree]
      refine iff_of_true (fun _ => ⟨(hentry _).mpr ?_, hinv.peersMatch_created hpk hb⟩) ?_
      · refine ⟨it.1.toBase (.wireguard wg) it.2.now, ?_, rfl⟩
        rw [memory_created, if_pos rfl, hb, Option.getD_none]
      · intro b _ _ _ hb'
        exact absurd (hb'.symm.trans hb) (Option.some_ne_none b)
  | some b =>
      obtain ⟨wg', hproto⟩ := hinv.exists_wg hb
      have hkeeps : KeepsKey ctx it s ↔ ctx.pubkey wg.keys = ctx.pubkey wg'.keys := by
        constructor
        · exact fun hk => hk b wg wg' hwg hb hproto
        · intro hk b₁ wg₁ wg₂ hwg₁ hb₁ hproto₁
          obtain rfl := Option.some.inj (hb.symm.trans hb₁)
          obtain rfl := Option.some.inj (hwg.symm.trans hwg₁)
          obtain rfl := Proto.wireguard.inj (hproto.symm.trans hproto₁)
          exact hk
      have hpeer : (s.peers pk).isSome ↔ ctx.pubkey wg.keys = ctx.pubkey wg'.keys := by
        rw [hinv.peer_iff h hit hwg hpk, ← hkeeps]
        constructor
        · rintro ⟨b₁, wg₁, hb₁, hproto₁, hk⟩
          obtain rfl := Option.some.inj (hb.symm.trans hb₁)
          obtain rfl := Proto.wireguard.inj (hproto.symm.trans hproto₁)
          exact hkeeps.mpr hk
        · exact fun hk => ⟨b, wg', hb, hproto, hk b wg wg' hwg hb hproto⟩
      rw [hkeeps]
      by_cases hk : ctx.pubkey wg.keys = ctx.pubkey wg'.keys
      · rw [if_pos (hpeer.mpr hk)]
        exact iff_of_true (fun herr => by cases herr) hk
      · -- the old entry stays, and the new key gets a peer of its own
        rw [if_neg (fun hsome => hk (hpeer.mp hsome))]
        refine iff_of_false (fun hfollows => ?_) hk
        obtain ⟨b', hb', hproto'⟩ := (hentry _).mp (hfollows rfl).1
        rw [memory_created, if_pos rfl, hb, Option.getD_some] at hb'
        obtain rfl := Option.some.inj hb'
        obtain rfl := Proto.wireguard.inj (hproto.symm.trans hproto')
        exact hk rfl

/-- **One deletion** follows the latest message exactly when it carries the stored key. -/
lemma PeersInv.follows_delete_iff (hinv : PeersInv ctx items s) (h : WgTraffic ctx items)
    (hit : it ∈ items) (hact : it.1.action = .delete) (hwg : it.1.wg = some wg)
    (hpk : ctx.pubkey wg.keys = .ok pk) : FollowsLatest ctx it s ↔ KeepsKey ctx it s := by
  rw [FollowsLatest, h.handle_delete hit hact hwg hpk]
  constructor
  · intro hfollows b wg₁ wg' hwg₁ hb hproto
    obtain rfl := Option.some.inj (hwg.symm.trans hwg₁)
    by_contra hne
    -- the stored key keeps its peer, and nothing in memory has it
    obtain ⟨pk', hpk'⟩ : ∃ pk', ctx.pubkey wg'.keys = .ok pk' := by
      obtain ⟨it', hit', wg'', -, hwg'', hproto'⟩ := hinv.memory _ b hb
      obtain rfl := Proto.wireguard.inj (hproto.symm.trans hproto')
      exact h.decodes it' hit' wg' hwg''
    have hpeer : ((deleted it.1 pk s).peers pk').isSome := by
      rw [peers_deleted, if_neg]
      · exact (hinv.peers pk').mpr ⟨_, b, wg', hb, hproto, hpk'⟩
      · rintro rfl
        exact hne (hpk.trans hpk'.symm)
    obtain ⟨id, b₁, wg₁, hb₁, hproto₁, hpk₁⟩ := ((hfollows rfl).2 pk').mp hpeer
    rw [memory_deleted] at hb₁
    split_ifs at hb₁ with hid
    obtain ⟨it', hit', wg'', hconn, hwg'', hproto''⟩ := hinv.memory _ b hb
    obtain rfl := Proto.wireguard.inj (hproto.symm.trans hproto'')
    exact hid ((hinv.eq_connId h hit' hwg'' hb₁ hproto₁ (hpk'.trans hpk₁.symm)).trans hconn)
  · intro hkeeps _
    refine ⟨?_, hinv.peersMatch_deleted h hit hwg hpk hkeeps⟩
    rw [EntryFollows, hact]
    exact (memory_deleted it.1 it.1.connId).trans (if_pos rfl)

lemma PeersInv.follows_iff (hinv : PeersInv ctx items s) (h : WgTraffic ctx items)
    (hit : it ∈ items) : FollowsLatest ctx it s ↔ KeepsKey ctx it s := by
  cases hwg : it.1.wg with
  | none =>
      obtain ⟨e, herr⟩ := h.handle_none (s := s) hit hwg
      refine iff_of_true (fun hok => ?_) (fun b wg wg' hsome => ?_)
      · rw [herr] at hok
        cases hok
      · exact absurd (hsome.symm.trans hwg) (Option.some_ne_none wg)
  | some wg =>
      obtain ⟨pk, hpk⟩ := h.decodes it hit wg hwg
      by_cases hact : it.1.action = .delete
      · exact hinv.follows_delete_iff h hit hact hwg hpk
      · exact hinv.follows_create_iff h hit hact hwg hpk

/-- A message that is followed leaves the invariant. -/
lemma PeersInv.step (hinv : PeersInv ctx items s) (h : WgTraffic ctx items) (hit : it ∈ items)
    (hfollows : FollowsLatest ctx it s) : PeersInv ctx items (handleMessage ctx it.1 it.2 s).1 := by
  cases hwg : it.1.wg with
  | none =>
      obtain ⟨e, herr⟩ := h.handle_none (s := s) hit hwg
      rw [herr]
      exact hinv
  | some wg =>
      obtain ⟨pk, hpk⟩ := h.decodes it hit wg hwg
      by_cases hact : it.1.action = .delete
      · rw [FollowsLatest, h.handle_delete hit hact hwg hpk] at hfollows
        rw [h.handle_delete hit hact hwg hpk]
        refine ⟨(hfollows rfl).2, fun id b hb => ?_⟩
        rw [memory_deleted] at hb
        split_ifs at hb
        exact hinv.memory id b hb
      · rw [FollowsLatest, h.handle_create hit hact hwg hpk] at hfollows
        rw [h.handle_create hit hact hwg hpk]
        split_ifs at hfollows ⊢ with hpeer
        · -- the connection is in memory, so the addition changes nothing
          obtain ⟨b, -, hb, -, -⟩ := (hinv.peer_iff h hit hwg hpk).mp hpeer
          have hsame : s.add it.1.connId (it.1.toBase (.wireguard wg) it.2.now) = s := by
            rw [NodeState.add, hb, Option.getD_some, ← hb, Function.update_eq_self]
          rw [hsame]
          exact hinv
        · refine ⟨(hfollows rfl).2, fun id b hb => ?_⟩
          rw [memory_created] at hb
          split_ifs at hb with hid
          · cases hold : s.memory it.1.connId with
            | some b' =>
                rw [hold, Option.getD_some] at hb
                rw [hid, ← Option.some.inj hb]
                exact hinv.memory _ b' hold
            | none =>
                rw [hold, Option.getD_none] at hb
                obtain rfl := Option.some.inj hb
                exact ⟨it, hit, wg, hid.symm, hwg, rfl⟩
          · exact hinv.memory id b hb

end Steps

lemma peersInv_empty (ctx : NodeCtx) (items : List Item) : PeersInv ctx items .empty := by
  refine ⟨fun pk => iff_of_false (by simp [NodeState.empty]) ?_, fun id b hb => ?_⟩
  · rintro ⟨id, b, wg, hb, -, -⟩
    cases hb
  · cases hb

/-- **The peers follow the latest message** after every message of a run exactly when
every message for a connection in memory carries the key that is stored for it. -/
theorem peers_follow_iff {ctx : NodeCtx} {items : List Item} (h : WgTraffic ctx items) :
    (∀ pre it post, items = pre ++ it :: post →
        FollowsLatest ctx it (handleEach ctx pre .empty)) ↔
      ∀ pre it post, items = pre ++ it :: post → KeepsKey ctx it (handleEach ctx pre .empty) := by
  have hiff : ∀ it ∈ items, ∀ s, PeersInv ctx items s → (FollowsLatest ctx it s ↔ KeepsKey ctx it s) :=
    fun it hit s hinv => hinv.follows_iff h hit
  refine runAll_steps_iff (handle ctx) hiff ?_ (peersInv_empty ctx items)
  exact fun it hit s hinv hfollows => hinv.step h hit hfollows

/-- An update that gives the first connection the second key. -/
def rotatedWg : Item :=
  sampleItem ⟨1, .update, .wireguard,
    some ⟨⟨"AgICAgICAgICAgICAgICAgICAgICAgICAgICAgICAgI="⟩, ⟨.v4 0x0A000003, 32⟩⟩, none, none, none,
    some 7⟩

/-- Two connections are created. -/
theorem peers_follow_two_creations : WgTraffic sampleNode [firstWg, secondWg] ∧
    ∀ pre it post, [firstWg, secondWg] = pre ++ it :: post →
      FollowsLatest sampleNode it (handleEach sampleNode pre .empty) := by
  have htraffic : WgTraffic sampleNode [firstWg, secondWg] := by
    refine ⟨rfl, by decide, ?_, ?_, by decide⟩
    · simp [firstWg, secondWg, wgItem, sampleItem, sampleNode]
    · simp [firstWg, secondWg, wgItem, sampleItem, sampleNode]
  refine ⟨htraffic, (peers_follow_iff htraffic).mpr ?_⟩
  -- neither connection is in memory when its message comes
  have hnone : ∀ pre it post, [firstWg, secondWg] = pre ++ it :: post →
      (handleEach sampleNode pre .empty).memory it.1.connId = none :=
    steps_of_pair rfl (by decide +kernel)
  intro pre it post heq b wg wg' _ hb
  exact absurd (hb.symm.trans (hnone pre it post heq)) (Option.some_ne_none b)

/-- **An update with another key** is answered with `Ok`, leaves the old key in memory and
gives the interface a second peer. -/
theorem rotation_leaves_old_key : WgTraffic sampleNode [firstWg, rotatedWg] ∧
    ¬ ∀ pre it post, [firstWg, rotatedWg] = pre ++ it :: post →
      FollowsLatest sampleNode it (handleEach sampleNode pre .empty) := by
  refine ⟨⟨rfl, by decide, ?_, ?_, by decide⟩, fun hall => ?_⟩
  · simp [firstWg, rotatedWg, wgItem, sampleItem, sampleNode]
  · simp [firstWg, rotatedWg, wgItem, sampleItem, sampleNode]
  · obtain ⟨⟨b, wg, hb, hwg, hproto⟩, -⟩ := hall [firstWg] rotatedWg [] rfl rfl
    have hold : ((handleMessage sampleNode rotatedWg.1 rotatedWg.2
        (handleEach sampleNode [firstWg] .empty)).1.memory 1).map Base.proto =
          firstWg.1.wg.map Proto.wireguard := by decide +kernel
    have hnew : some b.proto = rotatedWg.1.wg.map Proto.wireguard := by
      rw [hproto, hwg, Option.map_some]
    have hsame : firstWg.1.wg.map Proto.wireguard = rotatedWg.1.wg.map Proto.wireguard := by
      rw [← hold, ← hnew]
      exact congrArg (Option.map Base.proto) hb
    exact absurd hsame (by decide)

/-! ### Users of Xray -/

/-- Every user that Xray serves is in memory. -/
def Remembered (s : NodeState) : Prop :=
  ∀ id tag, (s.users (id, tag)).isSome → (s.memory id).isSome

/-- A deletion that reaches Xray: the only user of its connection there is the one that
it names, and its removal succeeds. -/
def RemovesAll (ctx : NodeCtx) (it : Item) (s : NodeState) : Prop :=
  it.1.action = .delete → waitsForHandler ctx it.1 = true →
    ∀ tag, (s.users (it.1.connId, tag)).isSome → tag = it.1.tag ∧ it.2.ok = true

/-- Creations add to the memory what they add to Xray. -/
lemma Remembered.createXray {s : NodeState} (h : Remembered s) (ctx : NodeCtx) (msg : Message)
    (proto : Proto) (password : Option String) (g : Given) :
    Remembered (createXray ctx msg proto password g s).1 := by
  rw [Fcore.createXray]
  split_ifs
  · exact h
  · intro id tag huser
    change (Function.update s.users (msg.connId, msg.tag) _ (id, tag)).isSome at huser
    change (Function.update s.memory msg.connId _ id).isSome
    by_cases hid : id = msg.connId
    · rw [hid, Function.update_self]
      rfl
    · rw [Function.update_of_ne hid]
      rw [Function.update_of_ne (fun heq => hid (congrArg Prod.fst heq))] at huser
      exact h id tag huser
  · exact h

/-- A deletion leaves every user in memory exactly when no user of its connection
stays. -/
lemma Remembered.removeXray_iff {s : NodeState} (h : Remembered s) {ctx : NodeCtx}
    (hclient : ctx.handlerClient = true) (msg : Message) (g : Given) :
    Remembered (removeXray ctx msg g s).1 ↔
      ∀ tag, (s.users (msg.connId, tag)).isSome → tag = msg.tag ∧ g.ok = true := by
  have husers : ∀ id tag, ((removeXray ctx msg g s).1.users (id, tag)).isSome ↔
      (s.users (id, tag)).isSome ∧ ¬ (g.ok = true ∧ id = msg.connId ∧ tag = msg.tag) := by
    intro id tag
    rw [removeXray, hclient]
    cases hok : g.ok with
    | false => simp [NodeState.remove]
    | true =>
        simp only [NodeState.remove, Request.land, Bool.not_true, Bool.false_eq_true, if_false,
          if_true, Function.update_apply, Prod.mk.injEq, true_and]
        split_ifs with heq <;> simp [heq]
  have hmemory : ∀ id, ((removeXray ctx msg g s).1.memory id).isSome ↔
      (s.memory id).isSome ∧ id ≠ msg.connId := by
    intro id
    rw [removeXray, hclient]
    cases g.ok <;> by_cases hid : id = msg.connId <;>
      simp [NodeState.remove, Request.land, hid]
  constructor
  · intro hafter tag huser
    by_contra hne
    refine ((hmemory _).mp (hafter msg.connId tag ((husers _ _).mpr ⟨huser, ?_⟩))).2 rfl
    exact fun heq => hne ⟨heq.2.2, heq.1⟩
  · intro hall id tag huser
    obtain ⟨hbefore, hkept⟩ := (husers id tag).mp huser
    refine (hmemory id).mpr ⟨h id tag hbefore, ?_⟩
    rintro rfl
    obtain ⟨htag, hok⟩ := hall tag hbefore
    exact hkept ⟨hok, rfl, htag⟩

lemma Remembered.step_iff {ctx : NodeCtx} {it : Item} {s : NodeState} (h : Remembered s)
    (hxray : it.1.tag.isXray = true) (haction : it.1.action ≠ .resetStat) :
    Remembered (handle ctx it s).1 ↔ RemovesAll ctx it s := by
  cases hwaits : waitsForHandler ctx it.1 with
  | false =>
      obtain ⟨-, ok, hidle⟩ := refused_of_isXray haction hxray hwaits
      have hsame : (handle ctx it s).1 = s := by
        rw [hidle s]
        ext1
        · exact Function.update_eq_self ..
        all_goals rfl
      rw [hsame]
      exact iff_of_true h fun _ hwaits' => absurd (hwaits'.symm.trans hwaits) (by decide)
  | true =>
      have hw := hwaits
      simp only [waitsForHandler, Bool.and_eq_true, Bool.or_eq_true, bne_iff_ne, ne_eq] at hw
      obtain ⟨⟨-, hclient⟩, hpassword⟩ := hw
      rcases handleMessage_of_isXray ctx it.2 haction hxray
        (fun htag => hpassword.resolve_left (fun hne => hne htag)) with
        ⟨hact, proto, password, heq, -⟩ | ⟨hact, heq, -⟩
      · refine iff_of_true ?_ fun hact' => absurd hact' hact
        rw [handle, heq]
        exact h.createXray ctx it.1 proto password it.2
      · rw [handle, heq]
        refine (h.removeXray_iff hclient it.1 it.2).trans ?_
        exact ⟨fun hall _ _ => hall, fun hall => hall hact hwaits⟩

/-- **The node forgets no user that Xray still serves**, at any point of a run of
messages for Xray and Shadowsocks connections, exactly when every deletion that reaches
Xray leaves no user of its connection there. -/
theorem users_remembered_iff {ctx : NodeCtx} {items : List Item}
    (h : ∀ it ∈ items, it.1.tag.isXray = true ∧ it.1.action ≠ .resetStat) :
    (∀ pre post, items = pre ++ post → Remembered (handleEach ctx pre .empty)) ↔
      ∀ pre it post, items = pre ++ it :: post →
        RemovesAll ctx it (handleEach ctx pre .empty) := by
  have hempty : Remembered .empty := fun _ _ huser => by cases huser
  refine runAll_prefixes_iff (handle ctx) ?_ hempty
  exact fun it hit s hs => hs.step_iff (h it hit).1 (h it hit).2

/-- The deletion of the connection of `vmessItem`; the call to Xray succeeds or not. -/
def vmessDelete (ok : Bool) : Item :=
  (⟨3, .delete, .vmess, none, none, none, none, some 7⟩, ⟨ok, true, fun _ => true, 0, ""⟩)

/-- A creation and a deletion whose calls succeed. -/
theorem users_remembered_sample :
    (∀ it ∈ [vmessItem, vmessDelete true], it.1.tag.isXray = true ∧ it.1.action ≠ .resetStat) ∧
      ∀ pre post, [vmessItem, vmessDelete true] = pre ++ post →
        Remembered (handleEach sampleNode pre .empty) := by
  have htraffic : ∀ it ∈ [vmessItem, vmessDelete true],
      it.1.tag.isXray = true ∧ it.1.action ≠ .resetStat := by decide
  refine ⟨htraffic, (users_remembered_iff htraffic).mpr ?_⟩
  refine steps_of_pair (fun _ _ tag huser => ?_) (fun _ _ tag huser => ⟨?_, rfl⟩)
  · cases huser
  · revert huser
    cases tag <;> decide +kernel

/-- **A removal that fails** is answered with `Ok` and costs the entry in memory, while Xray
still serves the user. -/
theorem failed_removal_forgets_user :
    (∀ it ∈ [vmessItem, vmessDelete false], it.1.tag.isXray = true ∧ it.1.action ≠ .resetStat) ∧
      ¬ ∀ pre post, [vmessItem, vmessDelete false] = pre ++ post →
        Remembered (handleEach sampleNode pre .empty) := by
  refine ⟨by decide, fun hall => ?_⟩
  have hheld := hall [vmessItem, vmessDelete false] [] rfl 3 .vmess (by decide +kernel)
  exact absurd hheld (by decide +kernel)

end Fcore
