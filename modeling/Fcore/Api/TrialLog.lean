import Fcore.Api.Handlers
import Fcore.Calculus.Lines
import Fcore.Calculus.Triple

/-!
The file of trial identities (`src/bin/api/email.rs`): one record for every call of
`save_trial_hmac`, read again when the service starts.

* `TrialConfig.record`: the record of a call, with a free text in its last field;
* `trySaveTrialHmac`: `save_trial_hmac` with its result;
* `loadTrials`: `load_trials`, which reads the file line by line and skips what it cannot
  read;
* `Saves`: calls that succeed, one after another; `Saves.of_trials`: whatever requests for
  trials do to the file is of this form;
* `TrialTexts`: what is used of the texts of instants and of keyed hashes;
* `exists_trialEntry_record`: the first line of a record has its entry;
* `saved_trials_survive`: after a restart every identity that was saved is found, whatever
  the free texts are.
-/

namespace Fcore

open Calculus
open Calculus.Prog (perform)

/-! ### Saving -/

/-- The arguments of `save_trial_hmac`. -/
structure TrialSave where
  email : String
  subId : Uuid
  time : DateTime
  refBy : String
  deriving DecidableEq, Repr

/-- What `save_trial_hmac` appends to the file. -/
def TrialConfig.record (cfg : TrialConfig) (x : TrialSave) : String :=
  cfg.rfc3339 x.time ++ "," ++ cfg.hmac x.email ++ "," ++ x.subId.asHyphenated ++ "," ++ x.refBy ++
    "\n"

/-- `save_trial_hmac`. -/
def trySaveTrialHmac (cfg : TrialConfig) (x : TrialSave) : Api (Except Error Unit) := do
  perform (.mail (.save (cfg.hmac x.email) x.time))
  perform (.mail (.append (cfg.record x)))

/-- The handler of trials ignores the result. -/
lemma saveTrialHmac_eq (cfg : TrialConfig) (x : TrialSave) :
    saveTrialHmac cfg (some x.email) x.subId x.time x.refBy = (trySaveTrialHmac cfg x).forget := rfl

/-- A call that succeeds has appended its record. -/
lemma file_of_trySaveTrialHmac {rule : Rule Call Input World} {cfg : TrialConfig} {x : TrialSave}
    {w w' : World} (h : Exec rule (trySaveTrialHmac cfg x) w (.ok ()) w') :
    w'.file = w.file ++ [cfg.record x] := by
  obtain ⟨i₁, w₁, u, hsave, -, h₁⟩ := h.of_call
  obtain ⟨i₂, w₂, r, happend, -, h₂⟩ := h₁.of_call
  obtain ⟨rfl, rfl⟩ := h₂.of_pure
  obtain ⟨rfl, -⟩ := exec_mail.mp hsave
  obtain ⟨rfl, hr⟩ := exec_mail.mp happend
  cases hok : i₂.ok with
  | false => simp [Call.execMail, hok] at hr
  | true => simp [Call.execMail, hok]

/-- Calls of `save_trial_hmac` that succeed, one after another; between two of them the
service may do anything that leaves the file alone. -/
inductive Saves (cfg : TrialConfig) (w₀ : World) : List TrialSave → World → Prop where
  | nil : Saves cfg w₀ [] w₀
  | save {xs : List TrialSave} {x : TrialSave} {w w' : World} (h : Saves cfg w₀ xs w)
      (hexec : Exec Rule.any (trySaveTrialHmac cfg x) w (.ok ()) w') : Saves cfg w₀ (xs ++ [x]) w'
  | other {xs : List TrialSave} {w w' : World} (h : Saves cfg w₀ xs w) (hfile : w'.file = w.file) :
      Saves cfg w₀ xs w'

/-- The file holds the records of the calls, in their order. -/
lemma Saves.file_eq {cfg : TrialConfig} {w₀ w : World} {saves : List TrialSave}
    (h : Saves cfg w₀ saves w) : w.file = w₀.file ++ saves.map cfg.record := by
  induction h with
  | nil => simp
  | save h hexec ih =>
      rw [file_of_trySaveTrialHmac hexec, ih, List.map_append, List.append_assoc,
        List.map_singleton]
  | other h hfile ih => rw [hfile, ih]

/-! ### Requests for trials -/

section Trials

variable {rule : Rule Call Input World} {cfg : TrialConfig} {w₀ w w' : World}
  {saves : List TrialSave} {α : Type}

/-- A call whose result is ignored has appended its record, or left the file alone. -/
lemma Saves.saved (h : Saves cfg w₀ saves w) {email : Option String} {subId : Uuid}
    {time : DateTime} {refBy : String} {u : Unit}
    (hexec : Exec rule (saveTrialHmac cfg email subId time refBy) w u w') :
    ∃ new, Saves cfg w₀ (saves ++ new) w' ∧ ∀ x ∈ new, some x.email = email := by
  cases email with
  | none =>
      obtain ⟨-, rfl⟩ := hexec.of_pure
      exact ⟨[], by rwa [List.append_nil], fun x hx => absurd hx List.not_mem_nil⟩
  | some email =>
      rw [saveTrialHmac_eq cfg ⟨email, subId, time, refBy⟩] at hexec
      obtain ⟨r, hsave⟩ := hexec.of_forget
      have hany : Exec Rule.any (trySaveTrialHmac cfg ⟨email, subId, time, refBy⟩) w r w' :=
        hsave.weaken fun _ => rfl
      cases r with
      | ok u =>
          refine ⟨[⟨email, subId, time, refBy⟩], h.save hany, fun x hx => ?_⟩
          rw [List.mem_singleton.mp hx]
      | error e =>
          refine ⟨[], ?_, fun x hx => absurd hx List.not_mem_nil⟩
          rw [List.append_nil]
          obtain ⟨i₁, w₁, v, hput, -, h₁⟩ := hany.of_call
          obtain ⟨i₂, w₂, r, happend, -, h₂⟩ := h₁.of_call
          obtain ⟨rfl, rfl⟩ := h₂.of_pure
          obtain ⟨rfl, -⟩ := exec_mail.mp hput
          obtain ⟨rfl, hr⟩ := exec_mail.mp happend
          refine h.other ?_
          cases hok : i₂.ok with
          | false => simp [Call.execMail, hok]
          | true => simp [Call.execMail, hok] at hr

/-- After calls that have succeeded, and some for the identities of a request. -/
def Logged (cfg : TrialConfig) (w₀ : World) (saves : List TrialSave) (req : Trial) (w : World) :
    Prop :=
  ∃ new, Saves cfg w₀ (saves ++ new) w ∧
    ∀ x ∈ new, some x.email = req.user ∨ some x.email = req.email

/-- A program without steps on the store of identities leaves the file alone. -/
lemma logged_of_uses {S : (β : Type) → Call β → Prop} {p : Api α} {req : Trial} (hp : Uses S p)
    (hS : ∀ {β : Type} {c : Call β}, S β c → ∀ m, c ≠ .mail m) :
    Triple rule (Logged cfg w₀ saves req) p fun _ => Logged cfg w₀ saves req := by
  refine Triple.of_uses hp fun hc hexec h => ?_
  obtain ⟨new, hsaves, hall⟩ := h
  exact ⟨new, hsaves.other (file_of_exec hexec (hS hc)), hall⟩

/-- A call for one of the identities of the request. -/
lemma logged_saveTrialHmac {req : Trial} {email : Option String}
    (hemail : email = req.user ∨ email = req.email) (subId : Uuid) (time : DateTime)
    (refBy : String) : Triple rule (Logged cfg w₀ saves req)
      (saveTrialHmac cfg email subId time refBy) fun _ => Logged cfg w₀ saves req := by
  intro s s' u hexec h
  obtain ⟨old, hsaves, hold⟩ := h
  obtain ⟨new, hsaved, hnew⟩ := hsaves.saved hexec
  refine ⟨old ++ new, by rwa [← List.append_assoc], fun x hx => ?_⟩
  rcases List.mem_append.mp hx with hx | hx
  · exact hold x hx
  · rw [hnew x hx]
    exact hemail

lemma logged_createTrial {req : Trial} (subId : Uuid) :
    Triple rule (Logged cfg w₀ saves req) (createTrial cfg req subId)
      fun _ => Logged cfg w₀ saves req := by
  have hask : Triple rule (Logged cfg w₀ saves req) (perform (.ask .now))
      fun _ => Logged cfg w₀ saves req :=
    logged_of_uses (S := QuietCall) ⟨.ask _, fun _ => trivial⟩ fun hc m hm => by
      cases hc <;> cases hm
  refine hask.bind fun now => hask.bind fun created => ?_
  refine (logged_of_uses (uses_addSub _) fun hc m hm => by cases hc <;> cases hm).bind fun r => ?_
  rcases r with e | st
  · exact Triple.pure fun _ h => h
  · cases st with
    | ok newSubId =>
        refine (logged_of_uses (uses_trialConns cfg.net newSubId cfg.pairs)
          fun hc m hm => ?_).bind fun r => ?_
        · cases hc with
          | quiet hquiet => cases hquiet <;> cases hm
          | wgProto | connInsert | connAdd => cases hm
        · cases r with
          | error r => exact Triple.pure fun _ h => h
          | ok u =>
              refine (logged_saveTrialHmac (.inl rfl) subId now _).bind fun _ => ?_
              refine (logged_saveTrialHmac (.inr rfl) subId now _).bind fun _ => ?_
              exact Triple.pure fun _ h => h
    | _ => exact Triple.pure fun _ h => h

lemma logged_grantTrial {req : Trial} :
    Triple rule (Logged cfg w₀ saves req) (grantTrial cfg req)
      fun _ => Logged cfg w₀ saves req := by
  have hask : Triple rule (Logged cfg w₀ saves req) (perform (.ask .uuid))
      fun _ => Logged cfg w₀ saves req :=
    logged_of_uses (S := QuietCall) ⟨.ask _, fun _ => trivial⟩ fun hc m hm => by
      cases hc <;> cases hm
  refine hask.bind fun subId => ?_
  refine (logged_of_uses (uses_referral _ _ _ _) fun hc m hm => by
    cases hc <;> cases hm).bind fun r => ?_
  rcases r with r | owner
  · exact Triple.pure fun _ h => h
  · cases owner with
    | none => exact logged_createTrial subId
    | some owner =>
        refine (logged_of_uses (uses_addDays owner.1 owner.2) fun hc m hm => ?_).bind fun r => ?_
        · cases hc with
          | restore hrestore => cases hrestore <;> cases hm
          | _ => cases hm
        · cases r with
          | error e => exact Triple.pure fun _ h => h
          | ok st => exact logged_createTrial subId

lemma logged_postTrialHandler {req : Trial} :
    Triple rule (Logged cfg w₀ saves req) (postTrialHandler cfg req)
      fun _ => Logged cfg w₀ saves req := by
  have hcheck : ∀ email, Triple rule (Logged cfg w₀ saves req) (checkEmailHmac cfg.hmac email)
      fun _ => Logged cfg w₀ saves req := by
    intro email s s' b hexec h
    rw [(exec_checkEmailHmac hexec).1]
    exact h
  rw [postTrialHandler]
  cases req.validate with
  | error e => exact Triple.pure fun _ h => h
  | ok u =>
      refine (hcheck req.user).bind fun known => ?_
      cases known with
      | true => exact Triple.pure fun _ h => h
      | false =>
          refine (hcheck req.email).bind fun known => ?_
          cases known with
          | true => exact Triple.pure fun _ h => h
          | false => exact logged_grantTrial.bind fun _ => Triple.pure fun _ h => h

/-- **Requests for trials, one after another**: the file has grown by the records of calls for
their identities, and whatever fails on the way has left no part of a record. -/
lemma Saves.of_trials {reqs : List Trial} (hrun : Serial rule (postTrialHandler cfg) w₀ reqs w) :
    ∃ saves, Saves cfg w₀ saves w ∧
      ∀ x ∈ saves, ∃ req ∈ reqs, some x.email = req.user ∨ some x.email = req.email := by
  induction hrun with
  | nil => exact ⟨[], .nil, fun x hx => absurd hx List.not_mem_nil⟩
  | @snoc reqs req w w' r hrun hexec ih =>
      obtain ⟨saves, hsaves, hold⟩ := ih
      obtain ⟨new, hsaves', hnew⟩ := logged_postTrialHandler hexec
        ⟨[], by rwa [List.append_nil], fun x hx => absurd hx List.not_mem_nil⟩
      refine ⟨saves ++ new, hsaves', fun x hx => ?_⟩
      rcases List.mem_append.mp hx with hx | hx
      · obtain ⟨req', hreq', hx⟩ := hold x hx
        exact ⟨req', List.mem_append_left _ hreq', hx⟩
      · exact ⟨req, List.mem_append_right _ (List.mem_singleton_self req), hnew x hx⟩

end Trials

/-! ### Loading -/

/-- The identity and the instant of a line; other lines are skipped. -/
def trialEntry (parse : String → Option DateTime) (line : List Char) :
    Option (String × DateTime) :=
  match line.splitOn ',' with
  | time :: hmac :: _ => (parse (String.ofList time)).map fun ts => (String.ofList hmac, ts)
  | _ => none

/-- The loop of `load_trials`. -/
def readTrials (parse : String → Option DateTime) (text : String) : Table String DateTime :=
  (lines text.toList).foldl (fun map line => map.record (trialEntry parse line)) ∅

/-- `load_trials`, on the text of the file; nothing is loaded if there is no file. -/
def loadTrials (parse : String → Option DateTime) (file : Option String) (w : World) : World :=
  match file with
  | some text => { w with store := readTrials parse text }
  | none => w

/-- What is used of the texts in the records: a keyed hash is written in hexadecimal, an
instant in the characters of RFC 3339, and it is read back. -/
structure TrialTexts (cfg : TrialConfig) (parse : String → Option DateTime)
    (saves : List TrialSave) : Prop where
  hmac_hex : ∀ x ∈ saves, ∀ c ∈ (cfg.hmac x.email).toList, c ∈ "0123456789abcdef".toList
  rfc3339_chars : ∀ x ∈ saves, ∀ c ∈ (cfg.rfc3339 x.time).toList, c ∈ "0123456789+-:.T".toList
  parse_rfc3339 : ∀ x ∈ saves, parse (cfg.rfc3339 x.time) = some x.time

section

variable {cfg : TrialConfig} {parse : String → Option DateTime} {saves : List TrialSave}

/-- A line that begins with an instant and a key has them as its entry. -/
lemma trialEntry_append {time hmac : String} {ts : DateTime} (htime : ',' ∉ time.toList)
    (hhmac : ',' ∉ hmac.toList) (hparse : parse time = some ts) (rest : List Char) :
    trialEntry parse (time.toList ++ ',' :: (hmac.toList ++ ',' :: rest)) = some (hmac, ts) := by
  rw [trialEntry, List.splitOn_append_cons_self_of_not_mem htime,
    List.splitOn_append_cons_self_of_not_mem hhmac]
  simp [hparse]

/-- A record without the line feed at its end. -/
def TrialConfig.recordChars (cfg : TrialConfig) (x : TrialSave) : List Char :=
  (cfg.rfc3339 x.time).toList ++ ',' :: ((cfg.hmac x.email).toList ++
    ',' :: (x.subId.asHyphenated.toList ++ ',' :: x.refBy.toList))

lemma toList_record (x : TrialSave) : (cfg.record x).toList = cfg.recordChars x ++ ['\n'] := by
  simp [TrialConfig.record, TrialConfig.recordChars]

/-- The first line of a record has the entry of the record, wherever the free text breaks
it. -/
lemma exists_trialEntry_record (h : TrialTexts cfg parse saves) {x : TrialSave} (hx : x ∈ saves) :
    ∃ line ∈ ((cfg.recordChars x).splitOn '\n').map dropCr,
      trialEntry parse line = some (cfg.hmac x.email, x.time) := by
  have htime : ∀ c ∉ "0123456789+-:.T".toList, c ∉ (cfg.rfc3339 x.time).toList :=
    fun c hc hmem => hc (h.rfc3339_chars x hx c hmem)
  have hhmac : ∀ c ∉ "0123456789abcdef".toList, c ∉ (cfg.hmac x.email).toList :=
    fun c hc hmem => hc (h.hmac_hex x hx c hmem)
  -- no line feed stands before the third field
  have hhead :
      '\n' ∉ (cfg.rfc3339 x.time).toList ++ ',' :: ((cfg.hmac x.email).toList ++ [',']) := by
    simp only [List.mem_append, List.mem_cons, not_or]
    exact ⟨htime '\n' (by decide), by decide, hhmac '\n' (by decide), by decide, by simp⟩
  obtain ⟨rest, pieces, hpieces⟩ := exists_splitOn_append hhead
    (x.subId.asHyphenated.toList ++ ',' :: x.refBy.toList)
  simp only [List.append_assoc, List.cons_append, List.nil_append] at hpieces
  -- and a carriage return that is dropped is behind the comma in front of that field
  obtain ⟨rest', hrest'⟩ := exists_dropCr_append
    ((cfg.rfc3339 x.time).toList ++ ',' :: (cfg.hmac x.email).toList) (c := ',') (by decide) rest
  simp only [List.append_assoc, List.cons_append] at hrest'
  refine ⟨_, List.mem_map_of_mem (hpieces ▸ List.mem_cons_self), ?_⟩
  rw [hrest']
  exact trialEntry_append (htime ',' (by decide)) (hhmac ',' (by decide))
    (h.parse_rfc3339 x hx) rest'

/-- The text of a file of records has every identity in it. -/
lemma isSome_get_readTrials (h : TrialTexts cfg parse saves) {x : TrialSave} (hx : x ∈ saves) :
    ((readTrials parse (String.join (saves.map cfg.record))).get (cfg.hmac x.email)).isSome := by
  have hlines : lines (String.join (saves.map cfg.record)).toList =
      saves.flatMap fun y => ((cfg.recordChars y).splitOn '\n').map dropCr := by
    rw [String.toList_join, List.flatMap_map]
    simp only [toList_record]
    rw [← List.flatMap_map cfg.recordChars (· ++ ['\n']), lines_records, List.flatMap_map]
  obtain ⟨line, hline, hentry⟩ := exists_trialEntry_record h hx
  refine Table.isSome_get_foldl_record (.inr ⟨line, ?_, x.time, hentry⟩)
  rw [hlines]
  exact List.mem_flatMap.mpr ⟨x, hx, hline⟩

end

/-- **Trials survive a restart.**  After calls of `save_trial_hmac` that have succeeded, on a file
that was empty, a service that loads the file answers for every identity that was saved
that it is there; this holds for all free texts, with commas and line breaks in them. -/
theorem saved_trials_survive (cfg : TrialConfig) (parse : String → Option DateTime)
    (saves : List TrialSave) (w₀ w fresh : World) (htexts : TrialTexts cfg parse saves)
    (h₀ : w₀.file = []) (hsaves : Saves cfg w₀ saves w) (x : TrialSave) (hx : x ∈ saves) (b : Bool)
    (w' : World) :
    Exec Rule.any (checkEmailHmac cfg.hmac (some x.email))
        (loadTrials parse (some (String.join w.file)) fresh) b w' ↔
      b = true ∧ w' = loadTrials parse (some (String.join w.file)) fresh := by
  have hfound : ((loadTrials parse (some (String.join w.file)) fresh).store.get
      (cfg.hmac x.email)).isSome := by
    rw [hsaves.file_eq, h₀, List.nil_append]
    exact isSome_get_readTrials htexts hx
  constructor
  · intro h
    obtain ⟨i, w₁, r, hhas, -, hrest⟩ := h.of_call
    obtain ⟨rfl, rfl⟩ := hrest.of_pure
    obtain ⟨rfl, hr⟩ := exec_mail.mp hhas
    exact ⟨hr.trans hfound, rfl⟩
  · rintro ⟨rfl, rfl⟩
    exact Exec.call (exec_mail (i := Input.at 0).mpr ⟨rfl, hfound.symm⟩) rfl (.pure _ _)

/-- A configuration with the keyed hashes of two identities and the texts of two instants. -/
def logTrialConfig : TrialConfig where
  net := ⟨.v4 0x0A000000, 8⟩
  systemReferCodes := []
  envs := [.dev]
  protos := [.vmess]
  trialDays := 3
  bonus := 5
  limitBytes := 0
  hmac email :=
    if email = "ann@example.com" then
      "beac5748fe881f214ea8b8f7b35dd2452f728e8939045499f8fbe659da95f40f"
    else "19d2874a5656a44394f7a94c5fa00a19a04fd9114939a49ed875ff70385f0352"
  rfc3339 t :=
    if t = 1704067200000000000 then "2024-01-01T00:00:00+00:00" else "2024-01-01T00:00:01+00:00"

/-- The instants that are written so. -/
def logParse (text : String) : Option DateTime :=
  if text = "2024-01-01T00:00:00+00:00" then some 1704067200000000000
  else if text = "2024-01-01T00:00:01+00:00" then some 1704067201000000000
  else none

/-- Two calls, the first with commas and line breaks in its free text. -/
def logSaves : List TrialSave :=
  [⟨"ann@example.com", 1, 1704067200000000000, "a,b\r\n2024-01-01T00:00:01+00:00,\n"⟩,
    ⟨"bob@example.com", 2, 1704067201000000000, ""⟩]

/-- Both identities are found after a restart. -/
theorem saved_trials_survive_line_breaks :
    ∃ w, Saves logTrialConfig World.empty logSaves w ∧ ∀ x ∈ logSaves,
      Exec Rule.any (checkEmailHmac logTrialConfig.hmac (some x.email))
        (loadTrials logParse (some (String.join w.file)) World.empty) true
        (loadTrials logParse (some (String.join w.file)) World.empty) := by
  have hchars : ∀ {l chars : List Char}, (l.all fun c => chars.elem c) = true →
      ∀ c ∈ l, c ∈ chars := fun h c hc => List.elem_iff.mp (List.all_eq_true.mp h c hc)
  have htexts : TrialTexts logTrialConfig logParse logSaves := by
    refine ⟨?_, ?_, ?_⟩
    all_goals
      intro x hx
      rcases List.mem_pair.mp hx with rfl | rfl
    · exact hchars (by decide +kernel)
    · exact hchars (by decide +kernel)
    · exact hchars (by decide +kernel)
    · exact hchars (by decide +kernel)
    · decide +kernel
    · decide +kernel
  have hsucceeds : ∀ x w, ∃ w', Exec Rule.any (trySaveTrialHmac logTrialConfig x) w (.ok ()) w' :=
    fun x w => ⟨_, .call (i := Input.at 0) rfl rfl (.call (i := Input.at 0) rfl rfl (.pure _ _))⟩
  obtain ⟨w₁, hfirst⟩ := hsucceeds
    ⟨"ann@example.com", 1, 1704067200000000000, "a,b\r\n2024-01-01T00:00:01+00:00,\n"⟩ World.empty
  obtain ⟨w₂, hsecond⟩ := hsucceeds ⟨"bob@example.com", 2, 1704067201000000000, ""⟩ w₁
  have hsaves : Saves logTrialConfig World.empty logSaves w₂ := (Saves.nil.save hfirst).save hsecond
  exact ⟨w₂, hsaves, fun x hx =>
    (saved_trials_survive logTrialConfig logParse logSaves World.empty w₂ World.empty htexts rfl
      hsaves x hx true _).mpr ⟨rfl, rfl⟩⟩

end Fcore
