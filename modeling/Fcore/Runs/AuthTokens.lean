import Fcore.Runs.TokenTracking

/-!
The tokens that the auth service accepts (`validate_token`,
`create_connection_handler`, `post_trial_handler` and the other operations of the
API).

* `KeepsTokens`: programs that keep the invariant of `TokenTracking` and every
  token: all but creations do;
* `triple_addConn`, `triple_publishCreated`: an addition keeps the invariant once the
  connection is announced;
* `triple_op`: every operation keeps the invariant;
* `auth_accepts_iff`: after every sequence of operations the service accepts
  exactly the tokens of live connections.
-/

namespace Fcore

open Calculus
open Calculus.Prog (perform)

/-! ### Programs that keep every token -/

/-- The program keeps the invariant and the tokens of all connections. -/
def KeepsTokens (tok : Uuid → Option Uuid) {α : Type} (p : Api α) : Prop :=
  Triple freshTokens (Tracks tok) p fun _ => Tracks tok

/-- The calls that touch neither the connections nor the bus. -/
def TokenQuiet : (β : Type) → Call β → Prop
  | _, .sql q => q.writesConnections = false
  | _, .bus _ => False
  | _, c => c.writesConnections = false

section Keeps

variable {tok : Uuid → Option Uuid} {α β : Type}

lemma KeepsTokens.pure {x : α} : KeepsTokens tok (.pure x : Api α) := Triple.pure fun _ h => h

lemma KeepsTokens.bind {p : Api α} {f : α → Api β} (hp : KeepsTokens tok p)
    (hf : ∀ x, KeepsTokens tok (f x)) : KeepsTokens tok (p >>= f) :=
  Triple.bind hp hf

lemma KeepsTokens.of_quiet {p : Api α} (hp : Uses TokenQuiet p) : KeepsTokens tok p := by
  refine Triple.of_uses hp ?_
  intro β c i s s' b hc hexec h
  cases c with
  | sql q =>
      obtain ⟨rfl, -⟩ := exec_sql.mp hexec
      exact h.frame rfl (Sql.run_connections hc i s.db) rfl
  | bus p => exact hc.elim
  | guard g =>
      obtain ⟨l, -, rfl⟩ := exec_guard.mp hexec
      exact h.frame rfl rfl rfl
  | mail m =>
      obtain ⟨rfl, -⟩ := exec_mail.mp hexec
      rw [execMail_eq]
      exact h.frame rfl rfl rfl
  | look r =>
      obtain ⟨-, rfl, -⟩ := exec_look.mp hexec
      exact h
  | ask a =>
      obtain ⟨rfl, -⟩ := exec_ask.mp hexec
      exact h
  | edit w =>
      obtain ⟨-, rfl, -⟩ := exec_edit.mp hexec
      exact h.frame (Edit.run_connections hc i s.memory) rfl rfl
  | within w =>
      obtain ⟨-, rfl, -⟩ := exec_within.mp hexec
      exact h.frame (Edit.run_connections hc i s.memory) rfl rfl

lemma KeepsTokens.call {c : Call α} {f : α → Api β} (hc : TokenQuiet α c)
    (hf : ∀ x, KeepsTokens tok (f x)) : KeepsTokens tok (perform c >>= f) := by
  have hcall : KeepsTokens tok (perform c) := of_quiet ⟨hc, fun _ => trivial⟩
  exact hcall.bind hf

lemma keepsTokens_deleteConnection {id : Uuid} {c : Conn} (hc : c.proto.token = tok id) :
    KeepsTokens tok (deleteConnection id c) := by
  intro s s' r hexec h
  rcases exec_deleteConnection hexec with ⟨rfl, -⟩ | ⟨-, -, hfail⟩ | ⟨i, -, -, rfl⟩
  · exact h
  · exact absurd hfail not_mayFail
  · exact h.delete hc i

lemma keepsTokens_restoreConnectionsBySubscription (subId : Uuid) :
    KeepsTokens tok (restoreConnectionsBySubscription subId) := by
  have hobeys : Obeys (restoreProtocol tok) (fun _ a => a = 0)
      (restoreConnectionsBySubscription subId) 0 :=
    restoreProtocol_restoreConnectionsBySubscription subId
  refine (Triple.of_obeys keeps_restoreInv hobeys).conseq ?_ ?_
  · exact fun s h => restoreInv_zero.mpr h
  · rintro x s ⟨a, rfl, h⟩
    exact restoreInv_zero.mp h

/-- A program that goes on with connections it has read. -/
lemma KeepsTokens.listed {r : Look (List (Uuid × Conn))} {f : List (Uuid × Conn) → Api α}
    (hr : ∀ i m e, e ∈ r.run i m → m.connections.get e.1 = some e.2)
    (hf : ∀ es, (∀ e ∈ es, e.2.proto.token = tok e.1) → KeepsTokens tok (f es)) :
    KeepsTokens tok (perform (.look r) >>= f) := by
  have hlook : Triple freshTokens (Tracks tok) (perform (Call.look r))
      fun es s => Tracks tok s ∧ ∀ e ∈ es, e.2.proto.token = tok e.1 := by
    refine Triple.perform fun i s s' es hexec _ h => ?_
    obtain ⟨-, rfl, rfl⟩ := exec_look.mp hexec
    exact ⟨h, fun e he => token_of_get h.tokens (hr i _ e he)⟩
  exact hlook.bind fun es => Triple.lift (hf es)

lemma keepsTokens_deleteAll {es : List (Uuid × Conn)} (h : ∀ e ∈ es, e.2.proto.token = tok e.1) :
    KeepsTokens tok (deleteAll es) := by
  induction es with
  | nil => exact .pure
  | cons e es ih =>
      refine (keepsTokens_deleteConnection (h e List.mem_cons_self)).bind fun _ => ?_
      exact ih fun e' he' => h e' (List.mem_cons_of_mem e he')

lemma keepsTokens_cleanupExpiredConnections : KeepsTokens tok cleanupExpiredConnections := by
  refine KeepsTokens.call rfl fun now => ?_
  refine KeepsTokens.listed (fun i m e he => ?_) fun es => keepsTokens_deleteAll
  exact Table.mem_iter.mp (List.mem_filter.mp he).1

lemma keepsTokens_cleanupSubs (subs : List Uuid) : KeepsTokens tok (cleanupSubs subs) := by
  induction subs with
  | nil => exact .pure
  | cons sub subs ih =>
      refine KeepsTokens.listed (fun i m e he => ?_) fun es hes =>
        (keepsTokens_deleteAll hes).bind fun _ => ih
      exact (Connections.mem_getBySubscriptionId.mp (List.mem_filter.mp he).1).1

lemma keepsTokens_restoreSubs (subs : List Uuid) : KeepsTokens tok (restoreSubs subs) := by
  induction subs with
  | nil => exact .pure
  | cons sub subs ih => exact (keepsTokens_restoreConnectionsBySubscription sub).bind fun _ => ih

lemma keepsTokens_deleteConnectionHandler (connId : Uuid) :
    KeepsTokens tok (deleteConnectionHandler connId) := by
  have hlook : Triple freshTokens (Tracks tok) (perform (Call.look (.connection connId)))
      fun c s => Tracks tok s ∧ ∀ conn, c = some conn → conn.proto.token = tok connId := by
    refine Triple.perform fun i s s' c hexec _ h => ?_
    obtain ⟨-, rfl, rfl⟩ := exec_look.mp hexec
    exact ⟨h, fun conn hget => token_of_get h.tokens hget⟩
  refine hlook.bind fun c => Triple.lift fun hc => ?_
  cases c with
  | none => exact KeepsTokens.pure
  | some conn =>
      show KeepsTokens tok (if conn.isDeleted then _ else _)
      split_ifs
      · exact .pure
      · refine (keepsTokens_deleteConnection (hc conn rfl)).bind fun r => ?_
        rcases r with e | st
        · exact .pure
        · cases st <;> exact .pure

lemma keepsTokens_addDays (subId : Uuid) (n : ℤ) : KeepsTokens tok (addDays subId n) := by
  refine KeepsTokens.call rfl fun wasInactive => ?_
  refine KeepsTokens.call rfl fun found => ?_
  cases found with
  | false => exact .pure
  | true =>
      refine KeepsTokens.call rfl fun r => ?_
      cases r with
      | error e => exact .pure
      | ok row =>
          cases wasInactive with
          | false => exact .pure
          | true => exact (keepsTokens_restoreConnectionsBySubscription subId).bind fun _ => .pure

lemma keepsTokens_getConnectionsHandler (req : ConnType) :
    KeepsTokens tok (getConnectionsHandler req) := by
  refine KeepsTokens.call rfl fun _ => ?_
  have hlook : Triple freshTokens (Tracks tok) (perform (Call.look (.toSync req)))
      fun es s => Tracks tok s ∧
        ∀ e ∈ es, s.memory.connections.get e.1 = some e.2 ∧ e.2.isDeleted = false := by
    refine Triple.perform fun i s s' es hexec _ h => ⟨?_, ?_⟩
    · obtain ⟨-, rfl, rfl⟩ := exec_look.mp hexec
      exact h
    · obtain ⟨-, rfl, rfl⟩ := exec_look.mp hexec
      intro e he
      obtain ⟨hmem, hsyncs⟩ := List.mem_filter.mp he
      exact ⟨Table.mem_iter.mp hmem, isDeleted_of_syncs hsyncs⟩
  refine Triple.bind hlook fun es => ?_
  cases es with
  | nil =>
      refine Triple.conseq ?_ (fun _ h => h.1) fun _ _ h => h
      exact KeepsTokens.call rfl fun _ => .pure
  | cons e es =>
      have hpublish : Triple freshTokens (fun s => Tracks tok s ∧ ∀ e' ∈ e :: es,
            s.memory.connections.get e'.1 = some e'.2 ∧ e'.2.isDeleted = false)
          (perform (Call.bus (.publish req.topic ((e :: es).map fun e => e.2.asCreateMessage e.1))))
          fun _ => Tracks tok := by
        refine Triple.perform fun i s s' r hexec hrule h => ?_
        obtain ⟨rfl, -⟩ := exec_bus.mp hexec
        rw [Call.execBus, ok_of_freshTokens hrule]
        exact h.1.sync req.topic h.2
      refine hpublish.bind fun r => ?_
      cases r with
      | error err => exact KeepsTokens.call rfl fun _ => .pure
      | ok u => exact KeepsTokens.call rfl fun _ => .pure

lemma keepsTokens_getStateFromDb (lower : String → String) :
    KeepsTokens tok (getStateFromDb lower) := by
  intro s s' r hexec h
  obtain ⟨hdb, hbus, ⟨-, hmem⟩ | ⟨-, i, order, l, -, hcache⟩⟩ := exec_getStateFromDb hexec
  · exact h.frame (by rw [hmem]) (by rw [hdb]) hbus
  · have hentry : ∀ id, memEntry id s'.memory = memEntry id s.memory := fun id =>
      (memEntry_buildCache hcache id).trans (h.rows id)
    exact
      { tokens := fun id => by rw [hentry]; exact h.tokens id
        rows := fun id => by rw [hentry, hdb]; exact h.rows id
        heard := fun id => by rw [hentry, hbus]; exact h.heard id
        unique := h.unique }

lemma tokenQuiet_sub {c : Call β} (hc : SubCall β c) : TokenQuiet β c := by
  cases hc <;> exact rfl

lemma keepsTokens_postKeyHandler (crates : CodeCrates) (T : CaseTable) (secret : List UInt8)
    (random : Vector UInt8 6) (req : KeyReq) :
    KeepsTokens tok (postKeyHandler crates T secret random req) :=
  .of_quiet ((uses_postKeyHandler crates T secret random req).mono fun _ _ hc => by
    cases hc <;> exact rfl)

lemma keepsTokens_addSub (sub : Subscription) : KeepsTokens tok (addSub sub) :=
  .of_quiet ((uses_addSub sub).mono fun _ _ => tokenQuiet_sub)

lemma keepsTokens_putSubscriptionHandler (subId : Uuid) (req : SubReq) :
    KeepsTokens tok (putSubscriptionHandler subId req) :=
  .of_quiet ((uses_putSubscriptionHandler subId req).mono fun _ _ => tokenQuiet_sub)

lemma keepsTokens_referral (referredBy : Option String) (codes : List String) (bonus : ℤ)
    (missing : String) : KeepsTokens tok (referral referredBy codes bonus missing) :=
  .of_quiet ((uses_referral referredBy codes bonus missing).mono fun _ _ => tokenQuiet_sub)

lemma keepsTokens_postSubscriptionHandler (req : SubReq) (bonus : ℤ) (codes : List String) :
    KeepsTokens tok (postSubscriptionHandler req bonus codes) := by
  refine KeepsTokens.call rfl fun subId => ?_
  refine (keepsTokens_referral _ _ _ _).bind fun r => ?_
  cases r with
  | error r => exact .pure
  | ok owner =>
      refine KeepsTokens.bind ?_ fun credited => ?_
      · cases owner with
        | none => exact .pure
        | some owner => exact keepsTokens_addDays owner.1 bonus
      · cases credited with
        | error e => exact .pure
        | ok st =>
            refine KeepsTokens.call rfl fun now => KeepsTokens.call rfl fun created => ?_
            refine (keepsTokens_addSub _).bind fun r => ?_
            rcases r with e | st
            · exact .pure
            · cases st <;> exact .pure

lemma keepsTokens_postActivateKeyHandler (req : ActivateKeyReq) :
    KeepsTokens tok (postActivateKeyHandler req) := by
  refine KeepsTokens.call rfl fun key => ?_
  cases key with
  | none => exact .pure
  | some key =>
      show KeepsTokens tok (if key.activated then _ else _)
      split_ifs
      · exact .pure
      · refine (keepsTokens_addDays _ _).bind fun r => ?_
        rcases r with e | st
        · exact .pure
        · cases st with
          | updated id =>
              refine KeepsTokens.call rfl fun now => KeepsTokens.call rfl fun r => ?_
              cases r <;> exact .pure
          | _ => exact .pure

lemma keepsTokens_of_mail {p : Api α} (hp : Uses MailCall p) : KeepsTokens tok p := by
  refine KeepsTokens.of_quiet (hp.mono fun β c hc => ?_)
  cases hc
  exact rfl

end Keeps

/-! ### Creations -/

/-- The invariant, for the tokens that there are. -/
def Tracked (s : World) : Prop := ∃ tok, Tracks tok s

/-- The token of a protocol is not that of a connection in memory. -/
def FreshProto (proto : Proto) (s : World) : Prop :=
  ∀ t, proto.token = some t → tokenFree t s = true

lemma tokenFree_iff {token : Uuid} {s : World} :
    tokenFree token s = true ↔ ∀ id, (memEntry id s.memory).bind Prod.fst ≠ some token := by
  rw [tokenFree, List.all_eq_true]
  constructor
  · intro h id hid
    obtain ⟨e, he, hfst⟩ := Option.bind_eq_some_iff.mp hid
    obtain ⟨c, hget, rfl⟩ := Option.map_eq_some_iff.mp he
    have hne := h (id, c) (Table.mem_iter.mpr hget)
    simp at hne
    exact hne hfst
  · rintro h ⟨id, c⟩ he
    have hne := h id
    rw [memEntry, Table.mem_iter.mp he] at hne
    simpa using hne

/-- A new connection that is stored and announced. -/
lemma Tracks.add {tok : Uuid → Option Uuid} {s : World} (h : Tracks tok s) {id : Uuid} {c : Conn}
    (hnone : s.db.connections.get id = none) (hlive : c.isDeleted = false)
    (hfresh : FreshProto c.proto s) :
    Tracks (Function.update tok id c.proto.token) (announced id c { s with
      db := { s.db with connections := s.db.connections.put id (ConnRow.ofConn id c).stored }
      memory := { s.memory with connections := s.memory.connections.vacant id c } }) := by
  have hrow : rowEntry id s.db = none := by rw [rowEntry, hnone, Option.map_none]
  have hmem : memEntry id s.memory = none := (h.rows id).symm.trans hrow
  have hget : s.memory.connections.get id = none := by simpa [memEntry] using hmem
  have hmem' : ∀ id', memEntry id'
      { s.memory with connections := s.memory.connections.vacant id c } =
        if id' = id then some (c.proto.token, false) else memEntry id' s.memory := by
    intro id'
    rw [memEntry, Table.get_vacant, hget]
    split_ifs
    · simp [hlive]
    · rfl
  have hrow' : ∀ id', rowEntry id'
      { s.db with connections := s.db.connections.put id (ConnRow.ofConn id c).stored } =
        if id' = id then some (c.proto.token, false) else rowEntry id' s.db := by
    intro id'
    rw [rowEntry, Table.get_put]
    split_ifs
    · simp [ConnRow.ofConn_authToken, hlive]
    · rfl
  -- another connection with the new token would be in memory already
  have hother : ∀ {id' t}, c.proto.token = some t → tok id' ≠ some t := by
    intro id' t ht
    rw [← h.tokens id']
    exact tokenFree_iff.mp (hfresh t ht) id'
  constructor
  · intro id'
    rw [announced_memory, hmem', Function.update_apply]
    split_ifs
    · rfl
    · exact h.tokens id'
  · intro id'
    rw [announced_memory, announced_db, hmem', hrow', h.rows]
  · intro id'
    rw [announced_memory, heard_announced, hmem']
    split_ifs
    · dsimp only
      rw [h.heard, hmem]
      rfl
    · exact h.heard id'
  · intro id₁ id₂ t h₁ h₂
    rw [Function.update_apply] at h₁ h₂
    split_ifs at h₁ h₂ with hid₁ hid₂ hid₂
    · rw [hid₁, hid₂]
    · exact absurd h₂ (hother h₁)
    · exact absurd h₁ (hother h₂)
    · exact h.unique h₁ h₂

/-- After an addition: a connection that was stored is still to be announced. -/
def Added (id : Uuid) (c : Conn) : Except SyncError Status → World → Prop
  | .ok (.ok _), s => Tracked (announced id c s)
  | _, s => Tracked s

lemma triple_addConn {id : Uuid} {c : Conn} (hlive : c.isDeleted = false) :
    Triple freshTokens (fun s => Tracked s ∧ FreshProto c.proto s) (addConn id c) (Added id c) := by
  rintro s s' r hexec ⟨⟨tok, h⟩, hfresh⟩
  rcases exec_addConn hexec with ⟨rfl, e, rfl⟩ | ⟨hnone, rfl, rfl⟩
  · exact ⟨tok, h⟩
  · exact ⟨_, h.add hnone hlive hfresh⟩

lemma triple_publishCreated {id : Uuid} {c : Conn} :
    Triple freshTokens (fun s => Tracked (announced id c s)) (publishCreated id c)
      fun _ => Tracked := by
  intro s s' u hexec h
  rcases exec_publishCreated hexec with rfl | ⟨-, hfail⟩
  · exact h
  · exact absurd hfail not_mayFail

/-- A program that keeps every token keeps the invariant. -/
lemma KeepsTokens.tracked {α : Type} {p : Api α} (h : ∀ tok, KeepsTokens tok p) :
    Triple freshTokens Tracked p fun _ => Tracked := by
  rintro s s' x hexec ⟨tok, hs⟩
  exact ⟨tok, h tok hexec hs⟩

/-- A draw changes nothing. -/
lemma triple_ask {α : Type} {P : World → Prop} (a : Ask α) :
    Triple freshTokens P (perform (.ask a)) fun _ => P := by
  refine Triple.perform fun i s s' b hexec _ h => ?_
  obtain ⟨rfl, -⟩ := exec_ask.mp hexec
  exact h

/-- The creation of a connection, from its protocol on. -/
lemma triple_create {α : Type} {env : Env} {sub : Option Uuid} {proto : Proto}
    {expiresAt : Option DateTime} {f : DateTime → Uuid → Except SyncError Status → Api α}
    (hf : ∀ now id r, Triple freshTokens (Added id (Conn.new env sub proto expiresAt now) r)
      (f now id r) fun _ => Tracked) :
    Triple freshTokens (fun s => Tracked s ∧ FreshProto proto s)
      (perform (.ask .now) >>= fun now => perform (.ask .uuid) >>= fun id =>
        addConn id (Conn.new env sub proto expiresAt now) >>= f now id) fun _ => Tracked := by
  refine (triple_ask .now).bind fun now => (triple_ask .uuid).bind fun id => ?_
  exact (triple_addConn rfl).bind (hf now id)

/-- A protocol without a token. -/
lemma freshProto_of_none {proto : Proto} {s : World} (h : proto.token = none) :
    FreshProto proto s := by
  intro t ht
  rw [h] at ht
  cases ht

lemma newWgProto_token {net : IpAddrMask} {conns : Connections Conn} {i : Input} {proto : Proto}
    (h : newWgProto net conns i = .ok proto) : proto.token = none := by
  rw [newWgProto] at h
  split at h
  · cases h
  · rw [← Except.ok.inj h]
    rfl

lemma triple_trialProto (net : IpAddrMask) (tag : Tag) :
    Triple freshTokens Tracked (trialProto net tag)
      fun r s => Tracked s ∧ ∀ proto, r = .ok proto → FreshProto proto s := by
  cases tag with
  | wireguard =>
      refine Triple.perform fun i s s' r hexec _ h => ?_
      obtain ⟨-, rfl, rfl⟩ := exec_look.mp hexec
      exact ⟨h, fun proto hproto => freshProto_of_none (newWgProto_token hproto)⟩
  | shadowsocks | mtproto =>
      refine (triple_ask .password).bind fun password => Triple.pure fun s h => ⟨h, ?_⟩
      rintro proto ⟨⟩
      exact freshProto_of_none rfl
  | hysteria2 =>
      have hdraw : Triple freshTokens Tracked (perform (.ask .uuid))
          fun token s => Tracked s ∧ tokenFree token s = true := by
        refine Triple.perform fun i s s' token hexec hrule h => ?_
        obtain ⟨rfl, rfl⟩ := exec_ask.mp hexec
        exact ⟨h, (Bool.and_eq_true_iff.mp hrule).2⟩
      refine hdraw.bind fun token => Triple.pure fun s h => ⟨h.1, ?_⟩
      rintro proto ⟨⟩ t ht
      rw [← Option.some.inj ht]
      exact h.2
  | vlessTcpReality | vlessGrpcReality | vlessXhttpReality | vmess =>
      refine Triple.pure fun s h => ⟨h, ?_⟩
      rintro proto ⟨⟩
      exact freshProto_of_none rfl

lemma triple_trialConns (net : IpAddrMask) (subId : Uuid) (pairs : List (Env × Tag)) :
    Triple freshTokens Tracked (trialConns net subId pairs) fun _ => Tracked := by
  induction pairs with
  | nil => exact Triple.pure fun _ h => h
  | cons pair rest ih =>
      obtain ⟨env, tag⟩ := pair
      refine (triple_trialProto net tag).bind fun r => ?_
      cases r with
      | error r => exact Triple.pure fun _ h => h.1
      | ok proto =>
          refine Triple.conseq (P := fun s => Tracked s ∧ FreshProto proto s) ?_
            (fun s h => ⟨h.1, h.2 proto rfl⟩) fun _ _ h => h
          refine triple_create fun now id r => ?_
          rcases r with e | st
          · exact ih
          · cases st with
            | ok _ => exact triple_publishCreated.bind fun _ => ih
            | _ => exact ih

lemma triple_createTrial (cfg : TrialConfig) (req : Trial) (subId : Uuid) :
    Triple freshTokens Tracked (createTrial cfg req subId) fun _ => Tracked := by
  refine (triple_ask .now).bind fun now => (triple_ask .now).bind fun created => ?_
  refine (KeepsTokens.tracked fun _ => keepsTokens_addSub _).bind fun r => ?_
  rcases r with e | st
  · exact Triple.pure fun _ h => h
  · cases st with
    | ok newSubId =>
        refine (triple_trialConns cfg.net newSubId cfg.pairs).bind fun r => ?_
        cases r with
        | error r => exact Triple.pure fun _ h => h
        | ok u =>
            have hsave : ∀ email id time refBy, Triple freshTokens Tracked
                (saveTrialHmac cfg email id time refBy) fun _ => Tracked :=
              fun email id time refBy => KeepsTokens.tracked fun _ =>
                keepsTokens_of_mail (uses_saveTrialHmac cfg email id time refBy)
            refine (hsave _ _ _ _).bind fun _ => (hsave _ _ _ _).bind fun _ => ?_
            exact Triple.pure fun _ h => h
    | _ => exact Triple.pure fun _ h => h

lemma triple_grantTrial (cfg : TrialConfig) (req : Trial) :
    Triple freshTokens Tracked (grantTrial cfg req) fun _ => Tracked := by
  refine (triple_ask .uuid).bind fun subId => ?_
  refine (KeepsTokens.tracked fun _ => keepsTokens_referral _ _ _ _).bind fun r => ?_
  rcases r with r | owner
  · exact Triple.pure fun _ h => h
  · cases owner with
    | none => exact triple_createTrial cfg req subId
    | some owner =>
        refine (KeepsTokens.tracked fun _ => keepsTokens_addDays owner.1 owner.2).bind fun r => ?_
        cases r with
        | error e => exact Triple.pure fun _ h => h
        | ok st => exact triple_createTrial cfg req subId

lemma triple_postTrialHandler (cfg : TrialConfig) (req : Trial) :
    Triple freshTokens Tracked (postTrialHandler cfg req) fun _ => Tracked := by
  rw [postTrialHandler]
  cases req.validate with
  | error e => exact Triple.pure fun _ h => h
  | ok u =>
      have hcheck : ∀ email, Triple freshTokens Tracked (checkEmailHmac cfg.hmac email)
          fun _ => Tracked := fun email => KeepsTokens.tracked fun _ =>
        keepsTokens_of_mail (uses_checkEmailHmac cfg.hmac email)
      refine (hcheck req.user).bind fun known => ?_
      cases known with
      | true => exact Triple.pure fun _ h => h
      | false =>
          refine (hcheck req.email).bind fun known => ?_
          cases known with
          | true => exact Triple.pure fun _ h => h
          | false => exact (triple_grantTrial cfg req).bind fun _ => Triple.pure fun _ h => h

lemma newProto_token {net : IpAddrMask} {conns : Connections Conn} {tag : Tag} {i : Input}
    {proto : Proto} (h : newProto net conns tag i = .ok proto) :
    proto.token = none ∨ proto.token = some i.uuid := by
  cases tag with
  | wireguard => exact .inl (newWgProto_token h)
  | hysteria2 =>
      rw [← Except.ok.inj h]
      exact .inr rfl
  | _ =>
      rw [← Except.ok.inj h]
      exact .inl rfl

/-- The protocol of a new connection. -/
lemma triple_prepare (net : IpAddrMask) (req : ConnCreateRequest) :
    Triple freshTokens Tracked (perform (.look (.prepare net req)))
      fun r s => Tracked s ∧ ∀ proto, r = .ok proto → FreshProto proto s := by
  refine Triple.perform fun i s s' r hexec hrule h => ?_
  obtain ⟨-, rfl, rfl⟩ := exec_look.mp hexec
  refine ⟨h, fun proto hproto t ht => ?_⟩
  have hfree : tokenFree i.uuid s' = true := (Bool.and_eq_true_iff.mp hrule).2
  simp only [Look.run] at hproto
  split at hproto
  · cases hproto
  · rcases newProto_token hproto with hnone | hsome
    · rw [hnone] at ht
      cases ht
    · rw [hsome] at ht
      rwa [← Option.some.inj ht]

lemma triple_createConnectionHandler (req : ConnCreateRequest) (net : IpAddrMask) :
    Triple freshTokens Tracked (createConnectionHandler req net) fun _ => Tracked := by
  have hexpiry : Triple freshTokens Tracked (expiryOf req.days) fun _ => Tracked := by
    intro s s' r hexec h
    rwa [state_of_expiryOf hexec]
  refine hexpiry.bind fun expiredAt => (triple_prepare net req).bind fun r => ?_
  cases r with
  | error r => exact Triple.pure fun _ h => h.1
  | ok proto =>
      refine Triple.conseq (P := fun s => Tracked s ∧ FreshProto proto s) ?_
        (fun s h => ⟨h.1, h.2 proto rfl⟩) fun _ _ h => h
      refine triple_create fun now id r => ?_
      rcases r with e | st
      · exact Triple.pure fun _ h => h
      · cases st with
        | ok _ => exact triple_publishCreated.bind fun _ => Triple.pure fun _ h => h
        | _ => exact Triple.pure fun _ h => h

/-! ### Sequences of operations -/

/-- Every operation keeps the invariant. -/
lemma triple_op (lower : String → String) (op : ApiOp) :
    Triple freshTokens Tracked (op.prog lower) fun _ => Tracked := by
  cases op with
  | createConnection req net => exact (triple_createConnectionHandler req net).forget
  | postTrial cfg req => exact (triple_postTrialHandler cfg req).forget
  | deleteConnection connId =>
      exact (KeepsTokens.tracked fun _ => keepsTokens_deleteConnectionHandler connId).forget
  | getConnections req =>
      exact (KeepsTokens.tracked fun _ => keepsTokens_getConnectionsHandler req).forget
  | postSubscription req bonus codes =>
      exact (KeepsTokens.tracked fun _ =>
        keepsTokens_postSubscriptionHandler req bonus codes).forget
  | putSubscription subId req =>
      exact (KeepsTokens.tracked fun _ => keepsTokens_putSubscriptionHandler subId req).forget
  | postKey crates T secret random req =>
      exact (KeepsTokens.tracked fun _ =>
        keepsTokens_postKeyHandler crates T secret random req).forget
  | postActivateKey req =>
      exact (KeepsTokens.tracked fun _ => keepsTokens_postActivateKeyHandler req).forget
  | cleanupExpiredConnections =>
      exact KeepsTokens.tracked fun _ => keepsTokens_cleanupExpiredConnections
  | cleanupExpiredSubscriptions =>
      exact KeepsTokens.tracked fun _ => KeepsTokens.call rfl keepsTokens_cleanupSubs
  | restoreSubscriptions =>
      exact KeepsTokens.tracked fun _ => KeepsTokens.call rfl keepsTokens_restoreSubs
  | getStateFromDb => exact (KeepsTokens.tracked fun _ => keepsTokens_getStateFromDb lower).forget

lemma tracked_empty : Tracked World.empty := by
  refine ⟨fun _ => none, fun _ => rfl, fun _ => rfl, fun _ => rfl, ?_⟩
  intro id id' t h
  cases h

/-- A connection is live with a token exactly if its entry says so. -/
lemma live_memEntry {id token : Uuid} {m : Cache} :
    (memEntry id m).bind Entry.live = some token ↔
      ∃ c, m.connections.get id = some c ∧ c.proto = .hysteria2 token ∧ c.isDeleted = false := by
  rw [memEntry]
  cases m.connections.get id with
  | none => simp
  | some c =>
      have htoken : c.proto.token = some token ↔ c.proto = .hysteria2 token := by
        cases c.proto <;> simp [Proto.token]
      cases hdel : c.isDeleted <;> simp [Entry.live, hdel, htoken]

/-- **The auth service accepts exactly the live tokens**: after every sequence of
operations without failures and with fresh tokens, a service that has handled all
publications on its topic validates a token to a connection exactly if the API has
that connection in memory with that token and not deleted. -/
theorem auth_accepts_iff {lower : String → String} {ops : List ApiOp} {s : World}
    {t : Connections Base} (hrun : Serial freshTokens (ApiOp.prog lower) World.empty ops s)
    (hauth : AuthAfter s.bus t) (order : List Uuid) (token id : Uuid) :
    t.validateToken order token = some id ↔
      ∃ c, s.memory.connections.get id = some c ∧ c.proto = .hysteria2 token ∧
        c.isDeleted = false := by
  obtain ⟨tok, h⟩ := hrun.of_triple (triple_op lower) tracked_empty
  -- what the service has is what it has heard
  have hheard : ∀ {id}, (∃ c, t.get id = some c ∧ c.proto = .hysteria2 token) ↔
      (memEntry id s.memory).bind Entry.live = some token := by
    intro id
    rw [← h.heard id]
    have hget := hauth.get id
    constructor
    · rintro ⟨c, hc, hproto⟩
      rw [hc, Option.map_some, hproto] at hget
      obtain ⟨u, hu, hsame⟩ := Option.map_eq_some_iff.mp hget.symm
      rw [hu, Proto.hysteria2.inj hsame]
    · intro hu
      rw [hu, Option.map_some] at hget
      exact Option.map_eq_some_iff.mp hget
  rw [Connections.validateToken_iff ?_, hheard, live_memEntry]
  intro id₁ id₂ c₁ c₂ hc₁ hp₁ hc₂ hp₂
  have htok : ∀ {id}, (memEntry id s.memory).bind Entry.live = some token → tok id = some token := by
    intro id hlive
    have hor := live_or_token (memEntry id s.memory)
    rw [hlive, Option.some_or, h.tokens] at hor
    exact hor.symm
  exact h.unique (htok (hheard.mp ⟨c₁, hc₁, hp₁⟩)) (htok (hheard.mp ⟨c₂, hc₂, hp₂⟩))

/-- The service can handle everything that has been published. -/
lemma exists_authAfter (bus : List (Topic × List Message)) : ∃ t, AuthAfter bus t := by
  induction bus with
  | nil => exact ⟨∅, .nil⟩
  | cons e bus ih =>
      obtain ⟨topic, ms⟩ := e
      obtain ⟨t, ht⟩ := ih
      by_cases htopic : topic = .auth
      · subst htopic
        have hitems : ms = (ms.map fun m => (m, (0 : DateTime))).map Prod.fst := by
          rw [List.map_map]
          exact (List.map_id ms).symm
        rw [hitems]
        exact ⟨_, .auth ht⟩
      · exact ⟨t, .other htopic ht⟩

/-- The creation of a Hysteria2 connection. -/
def hysteriaRequest : ConnCreateRequest := ⟨.dev, none, .hysteria2, none⟩

/-- The inputs of a creation with a token and an id. -/
def creationInputs (token id : Uuid) : List Input :=
  [{ Input.at 10 with uuid := token }, Input.at 10, { Input.at 10 with uuid := id }] ++
    List.replicate 3 (Input.at 10)

/-- Two connections are created and the first is deleted: the token of the second is
accepted, that of the first is not. -/
theorem auth_accepts_second :
    ∃ s t, Serial freshTokens (ApiOp.prog id) World.empty
        [.createConnection hysteriaRequest ⟨.v4 0, 24⟩,
          .createConnection hysteriaRequest ⟨.v4 0, 24⟩, .deleteConnection 1] s ∧
      AuthAfter s.bus t ∧ t.validateToken [] 6 = some 2 ∧ t.validateToken [] 5 ≠ some 1 := by
  have hrun : (((execWith freshTokens (creationInputs 5 1)
      (ApiOp.prog id (.createConnection hysteriaRequest ⟨.v4 0, 24⟩)) World.empty).bind fun r =>
        execWith freshTokens (creationInputs 6 2)
          (ApiOp.prog id (.createConnection hysteriaRequest ⟨.v4 0, 24⟩)) r.1).bind fun r =>
        execWith freshTokens (List.replicate 5 (Input.at 20))
          (ApiOp.prog id (.deleteConnection 1)) r.1).map
      (fun r => [1, 2].map fun id =>
        (r.1.memory.connections.get id).map fun c => (c.proto, c.isDeleted)) =
      some [some (.hysteria2 5, true), some (.hysteria2 6, false)] := by
    decide +kernel
  obtain ⟨⟨s, u⟩, hall, hseen⟩ := Option.map_eq_some_iff.mp hrun
  obtain ⟨⟨s₂, u₂⟩, htwo, hthird⟩ := Option.bind_eq_some_iff.mp hall
  obtain ⟨⟨s₁, u₁⟩, hone, hsecond⟩ := Option.bind_eq_some_iff.mp htwo
  have hserial := ((Serial.nil.snoc (exec_of_execWith hone)).snoc
    (exec_of_execWith hsecond)).snoc (exec_of_execWith hthird)
  simp only [List.map_cons, List.map_nil, List.cons.injEq, and_true] at hseen
  obtain ⟨hfirst, hother⟩ := hseen
  obtain ⟨t, ht⟩ := exists_authAfter s.bus
  refine ⟨s, t, hserial, ht, ?_, fun hvalid => ?_⟩
  · obtain ⟨c, hget, hc⟩ := Option.map_eq_some_iff.mp hother
    obtain ⟨hproto, hlive⟩ := Prod.mk.inj hc
    exact (auth_accepts_iff hserial ht [] 6 2).mpr ⟨c, hget, hproto, hlive⟩
  · obtain ⟨c, hget, -, hlive⟩ := (auth_accepts_iff hserial ht [] 5 1).mp hvalid
    obtain ⟨c', hget', hc'⟩ := Option.map_eq_some_iff.mp hfirst
    rw [hget] at hget'
    rw [← Option.some.inj hget'] at hc'
    rw [(Prod.mk.inj hc').2] at hlive
    cases hlive

end Fcore
