import Fcore.Calculus.Text
import Fcore.Zmq.Message

/-!
The texts of the topics (`src/zmq/topic.rs`, `src/zmq/subscriber.rs`,
`run_subscriber` in `src/bin/node/tasks.rs` and `src/bin/auth/tasks.rs`).

* `Topic.asStr`, `Topic.asBytes`: what is sent in front of a message;
* `Topic.fromStr`: what a receiver reads from it;
* `delivers`: the subscriptions of a socket, each a head of the topic;
* `receive`: one round of `run_subscriber`, up to the handling of the messages.

`Topic.fromStr_updates` says what the topic of an environment is read as: case
folding changes only the name of a custom environment, and makes it no shorter.
-/

namespace Fcore

open Calculus

/-! ### Identifiers as texts -/

lemma digitChar_injOn : ∀ a < 16, ∀ b < 16, Nat.digitChar a = Nat.digitChar b → a = b := by
  decide

lemma digitChar_ne_hyphen : ∀ a < 16, Nat.digitChar a ≠ '-' := by decide

/-- A number below `16 ^ n` is known by its `n` hexadecimal digits. -/
lemma eq_of_hexDigits {n a b : ℕ} (ha : a < 16 ^ n) (hb : b < 16 ^ n)
    (h : ∀ j < n, a / 16 ^ j % 16 = b / 16 ^ j % 16) : a = b := by
  induction n generalizing a b with
  | zero => omega
  | succ n ih =>
      have hlow : a % 16 = b % 16 := by simpa using h 0 (Nat.succ_pos n)
      have hhigh : a / 16 = b / 16 := by
        apply ih
        · rw [pow_succ] at ha
          omega
        · rw [pow_succ] at hb
          omega
        · intro j hj
          have hdigit := h (j + 1) (by omega)
          rwa [pow_succ', ← Nat.div_div_eq_div_mul, ← Nat.div_div_eq_div_mul] at hdigit
      omega

@[simp] lemma Uuid.length_digits (u : Uuid) : u.digits.length = 32 := by
  rw [digits, List.length_map, List.length_range]

lemma Uuid.ne_hyphen_of_mem {u : Uuid} {c : Char} (h : c ∈ u.digits) : c ≠ '-' := by
  rw [digits, List.mem_map] at h
  obtain ⟨i, -, rfl⟩ := h
  exact digitChar_ne_hyphen _ (Nat.mod_lt _ (by norm_num))

/-- The digits determine the identifier. -/
lemma Uuid.digits_inj {u v : Uuid} (h : u.digits = v.digits) : u = v := by
  apply BitVec.eq_of_toNat_eq
  refine eq_of_hexDigits (n := 32) (u.isLt.trans_eq (by norm_num))
    (v.isLt.trans_eq (by norm_num)) ?_
  intro j hj
  rw [digits, digits, List.map_inj_left] at h
  have hchar := h (31 - j) (List.mem_range.mpr (by omega))
  rw [show 31 - (31 - j) = j by omega] at hchar
  exact digitChar_injOn _ (Nat.mod_lt _ (by norm_num)) _ (Nat.mod_lt _ (by norm_num)) hchar

/-- The digits are what the hyphens separate. -/
lemma Uuid.filter_asHyphenated (u : Uuid) :
    u.asHyphenated.toList.filter (· ≠ '-') = u.digits := by
  have hkeep : ∀ l : List Char, (∀ c ∈ l, c ∈ u.digits) → l.filter (· ≠ '-') = l := fun l hl =>
    List.filter_eq_self.mpr fun c hc => decide_eq_true (ne_hyphen_of_mem (hl c hc))
  have htake : ∀ i j : ℕ, ∀ c ∈ (u.digits.drop i).take j, c ∈ u.digits := fun i j c hc =>
    List.mem_of_mem_drop (List.mem_of_mem_take hc)
  have hhead : ∀ c ∈ u.digits.take 8, c ∈ u.digits := fun c hc => List.mem_of_mem_take hc
  have hlast : ∀ c ∈ u.digits.drop 20, c ∈ u.digits := fun c hc => List.mem_of_mem_drop hc
  rw [asHyphenated]
  simp only [String.toList_ofList, List.filter_append, List.filter_cons, ne_eq, not_true_eq_false,
    decide_false, Bool.false_eq_true, if_false]
  rw [hkeep _ hhead, hkeep _ (htake 8 4), hkeep _ (htake 12 4), hkeep _ (htake 16 4),
    hkeep _ hlast]
  have hsplit : ∀ i j : ℕ, (u.digits.drop i).take j ++ u.digits.drop (i + j) = u.digits.drop i := by
    intro i j
    rw [← List.drop_drop, List.take_append_drop]
  rw [List.append_assoc, List.append_assoc, List.append_assoc, hsplit 16 4, hsplit 12 4,
    hsplit 8 4, List.take_append_drop]

/-- The text of an identifier has 36 characters. -/
lemma Uuid.length_asHyphenated (u : Uuid) : u.asHyphenated.toList.length = 36 := by
  rw [asHyphenated]
  simp

/-- Of two texts of identifiers neither is a head of the other. -/
lemma Uuid.eq_of_isPrefix {u v : Uuid} (h : u.asHyphenated.toList <+: v.asHyphenated.toList) :
    u = v := by
  have htext := h.eq_of_length (u.length_asHyphenated.trans v.length_asHyphenated.symm)
  apply digits_inj
  rw [← filter_asHyphenated, htext, filter_asHyphenated]

/-! ### Heads of texts -/

/-- `str::strip_prefix`. -/
def stripPrefix (head s : String) : Option String :=
  if head.toList.isPrefixOf s.toList then
    some (String.ofList (s.toList.drop head.toList.length))
  else none

lemma append_eq_ofList (s t : String) : s ++ t = String.ofList (s.toList ++ t.toList) := by
  rw [← String.toList_inj, String.toList_append, String.toList_ofList]

lemma stripPrefix_append (head : String) (l : List Char) :
    stripPrefix head (String.ofList (head.toList ++ l)) = some (String.ofList l) := by
  rw [stripPrefix, String.toList_ofList, if_pos (List.isPrefixOf_iff_prefix.mpr ⟨l, rfl⟩),
    List.drop_left]

/-! ### The text of an environment -/

lemma Env.toList_toText_custom (name : String) :
    (Env.custom name).toText.toList = "custom".toList ++ name.toList := String.toList_append

/-- A custom environment is read from its own text. -/
lemma Env.fromLower_custom (l : List Char) :
    Env.fromLower (String.ofList ("custom".toList ++ l)) = some (.custom (String.ofList l)) := by
  have hother : ∀ text : String, text.toList.head? ≠ some 'c' →
      String.ofList ("custom".toList ++ l) ≠ text := by
    rintro text hhead rfl
    exact hhead (by simp)
  rw [fromLower, if_neg (not_or.mpr ⟨hother _ (by simp), hother _ (by simp)⟩),
    if_neg (not_or.mpr ⟨hother _ (by simp), hother _ (by simp)⟩),
    if_neg (not_or.mpr ⟨hother _ (by simp), hother _ (by simp)⟩),
    if_neg (hother _ (by simp)), if_neg (hother _ (by simp))]
  simp

/-- The environment is one of the five named ones. -/
def Env.isNamed : Env → Bool
  | .custom _ => false
  | _ => true

/-- The text of a named environment is in lower case. -/
lemma Env.isLower_toText {T : CaseTable} {env : Env} (h : env.isNamed) :
    ∀ c ∈ env.toText.toList, T.IsLower c := by
  apply CaseTable.isLower_of_all
  cases env with
  | custom name => exact absurd h (by simp [isNamed])
  | _ => decide

/-- A named environment is read from its own text. -/
lemma Env.fromLower_toText {env : Env} (h : env.isNamed) :
    Env.fromLower env.toText = some env := by
  cases env with
  | custom name => exact absurd h (by simp [isNamed])
  | _ => decide

lemma isLower_custom {T : CaseTable} : ∀ c ∈ "custom".toList, T.IsLower c :=
  CaseTable.isLower_of_all (by decide)

/-- A custom environment is read with the lower case of its name. -/
lemma Env.fromStr_custom {T : CaseTable} (l : List Char) :
    Env.fromStr T.toLowercase (String.ofList ("custom".toList ++ l)) =
      .ok (.custom (String.ofList (T.lowerFrom "custom".toList.reverse l))) := by
  rw [fromStr, CaseTable.toLowercase_append isLower_custom, fromLower_custom]

/-- An environment whose text is in lower case is read from it. -/
lemma Env.fromStr_toText {T : CaseTable} {env : Env} (h : ∀ c ∈ env.toText.toList, T.IsLower c) :
    Env.fromStr T.toLowercase env.toText = .ok env := by
  cases env with
  | custom name =>
      rw [toList_toText_custom, List.forall_mem_append] at h
      rw [← String.ofList_toList (s := (custom name).toText), toList_toText_custom, fromStr_custom,
        CaseTable.lowerFrom_eq_self_iff.mpr h.2, String.ofList_toList]
  | _ => rw [fromStr, CaseTable.toLowercase_eq_self_iff.mpr h, fromLower_toText rfl]

lemma Env.fromText_of_fromStr {lower : String → String} {s : String} {env : Env}
    (h : Env.fromStr lower s = .ok env) : Env.fromText lower s = env := by
  rw [fromStr] at h
  rw [fromText]
  cases hread : fromLower (lower s) with
  | none => rw [hread] at h; cases h
  | some env' => rw [hread] at h; exact Except.ok.inj h

/-- An environment comes back from its text exactly if the text is in lower case. -/
lemma Env.fromText_toText_iff {T : CaseTable} {env : Env} :
    Env.fromText T.toLowercase env.toText = env ↔ ∀ c ∈ env.toText.toList, T.IsLower c := by
  constructor
  · intro h
    cases env with
    | custom name =>
        have hread := Env.fromStr_custom (T := T) name.toList
        rw [← toList_toText_custom, String.ofList_toList] at hread
        rw [fromText_of_fromStr hread, Env.custom.injEq] at h
        have hname : T.lowerFrom "custom".toList.reverse name.toList = name.toList := by
          rw [← String.toList_inj, String.toList_ofList] at h
          exact h
        rw [toList_toText_custom, List.forall_mem_append]
        exact ⟨isLower_custom, CaseTable.lowerFrom_eq_self_iff.mp hname⟩
    | _ => exact isLower_toText rfl
  · exact fun h => fromText_of_fromStr (fromStr_toText h)

/-! ### Topics -/

/-- `Topic::as_str`, and the same text as `Display` and `as_string`. -/
def Topic.asStr : Topic → String
  | .auth => "auth"
  | .metrics => "metrics"
  | .updates env => "updates-" ++ env.toText
  | .init id => "init-" ++ id.asHyphenated

/-- `Topic::as_bytes`. -/
def Topic.asBytes (topic : Topic) : List UInt8 := topic.asStr.toByteArray.data.toList

/-- `Topic::from_str`.  The arguments are `str::to_lowercase` and `Uuid::parse_str`. -/
def Topic.fromStr (lower : String → String) (parseUuid : String → Option Uuid) (s : String) :
    Except Error Topic :=
  let s := lower s
  if s = "auth" then .ok .auth
  else if s = "metrics" then .ok .metrics
  else match stripPrefix "updates-" s with
    | some envStr => match Env.fromStr lower envStr with
        | .ok env => .ok (.updates env)
        | .error e => .error e
    | none => match stripPrefix "init-" s with
        | some uuidStr => match parseUuid uuidStr with
            | some id => .ok (.init id)
            | none => .error (.custom "Invalid UUID in topic")
        | none => .error (.custom ("Unknown topic string: " ++ s))

/-- The topics of environments and of nodes start differently. -/
lemma Topic.not_isPrefix_init_updates (id : Uuid) (env : Env) :
    ¬ (Topic.init id).asStr.toList <+: (Topic.updates env).asStr.toList := by
  simp [asStr, String.toList_append]

lemma Topic.not_isPrefix_updates_init (env : Env) (id : Uuid) :
    ¬ (Topic.updates env).asStr.toList <+: (Topic.init id).asStr.toList := by
  simp [asStr, String.toList_append]

/-- A topic that starts with `updates-` is read as an environment. -/
lemma Topic.fromStr_of_updates (T : CaseTable) (parseUuid : String → Option Uuid) (l : List Char) :
    Topic.fromStr T.toLowercase parseUuid (String.ofList ("updates-".toList ++ l)) =
      match Env.fromStr T.toLowercase
          (String.ofList (T.lowerFrom "updates-".toList.reverse l)) with
      | .ok env => .ok (.updates env)
      | .error e => .error e := by
  have hlower : T.toLowercase (String.ofList ("updates-".toList ++ l)) =
      String.ofList ("updates-".toList ++ T.lowerFrom "updates-".toList.reverse l) :=
    CaseTable.toLowercase_append (CaseTable.isLower_of_all (by decide)) l
  have hother : ∀ text : String, text.toList.head? ≠ some 'u' → ∀ l : List Char,
      String.ofList ("updates-".toList ++ l) ≠ text := by
    rintro text hhead l rfl
    exact hhead (by simp)
  rw [fromStr, hlower]
  simp only [if_neg (hother "auth" (by simp) _), if_neg (hother "metrics" (by simp) _),
    stripPrefix_append]

lemma Topic.asStr_updates (env : Env) :
    (Topic.updates env).asStr = String.ofList ("updates-".toList ++ env.toText.toList) :=
  append_eq_ofList "updates-" env.toText

/-- The topic of an environment whose text is in lower case is read as itself. -/
lemma Topic.fromStr_updates_of_isLower {T : CaseTable} {parseUuid : String → Option Uuid}
    {env : Env}
    (h : ∀ c ∈ env.toText.toList, T.IsLower c) :
    Topic.fromStr T.toLowercase parseUuid (Topic.updates env).asStr = .ok (.updates env) := by
  rw [asStr_updates, fromStr_of_updates, CaseTable.lowerFrom_eq_self_iff.mpr h,
    String.ofList_toList, Env.fromStr_toText h]

/-- What the topic of an environment is read as: the environment, or for a custom one
another whose name is no shorter. -/
lemma Topic.fromStr_updates (T : CaseTable) (parseUuid : String → Option Uuid) (env : Env) :
    ∃ env', Topic.fromStr T.toLowercase parseUuid (Topic.updates env).asStr = .ok (.updates env') ∧
      (env' = env ∨ ∃ name name' : String, env = .custom name ∧ env' = .custom name' ∧
        name.toList.length ≤ name'.toList.length) := by
  cases env with
  | custom name =>
      have hread := Topic.fromStr_of_updates T parseUuid (Env.custom name).toText.toList
      rw [← asStr_updates, Env.toList_toText_custom, CaseTable.lowerFrom_append isLower_custom,
        Env.fromStr_custom] at hread
      refine ⟨_, hread, .inr ⟨name, _, rfl, rfl, ?_⟩⟩
      rw [String.toList_ofList]
      exact (CaseTable.length_le _ _).trans (CaseTable.length_le _ _)
  | _ => exact ⟨_, fromStr_updates_of_isLower (Env.isLower_toText rfl), .inl rfl⟩

/-! ### The subscriber -/

/-- A socket hands over what starts with one of its subscriptions. -/
def delivers (subscriptions : List Topic) (topicBytes : List UInt8) : Bool :=
  subscriptions.any fun topic => topic.asBytes.isPrefixOf topicBytes

/-- What one round of `run_subscriber` does with what it receives. -/
inductive Received where
  | stop (e : Error)
  | skip
  | handle (msgs : List Message)
  deriving DecidableEq, Repr

/-- `std::str::from_utf8`. -/
def fromUtf8 (bytes : List UInt8) : Option String := String.fromUTF8? ⟨bytes.toArray⟩

/-- One round of `run_subscriber`.  The argument `hears` tells the topics that are
processed, `decode` is the check and the reading of a payload. -/
def receive (lower : String → String) (parseUuid : String → Option Uuid)
    (decode : List UInt8 → Option (List Message)) (hears : Topic → Bool)
    (topicBytes payload : List UInt8) : Received :=
  match fromUtf8 topicBytes with
  | none => .stop (.custom "Invalid UTF8 topic")
  | some topicStr => match Topic.fromStr lower parseUuid topicStr with
      | .error _ => .skip
      | .ok topic =>
          if !hears topic then .skip
          else if payload.isEmpty then .skip
          else match decode payload with
            | some msgs => .handle msgs
            | none => .skip

lemma fromUtf8_asBytes (topic : Topic) : fromUtf8 topic.asBytes = some topic.asStr := by
  have hbytes : (⟨topic.asBytes.toArray⟩ : ByteArray) = topic.asStr.toByteArray := by
    rw [Topic.asBytes, Array.toArray_toList]
  rw [fromUtf8, hbytes, String.fromUTF8?, dif_pos topic.asStr.isValidUTF8]
  rfl

section

variable {lower : String → String} {parseUuid : String → Option Uuid}
  {decode : List UInt8 → Option (List Message)} {hears : Topic → Bool} {topic topic' : Topic}
  {payload : List UInt8} {msgs : List Message}

/-- A topic that is read as one of those heard lets its messages through. -/
lemma receive_of_hears (hread : Topic.fromStr lower parseUuid topic.asStr = .ok topic')
    (hhears : hears topic' = true) (hpayload : payload ≠ []) (hmsgs : decode payload = some msgs) :
    receive lower parseUuid decode hears topic.asBytes payload = .handle msgs := by
  have hnonempty : payload.isEmpty = false := List.isEmpty_eq_false_iff.mpr hpayload
  rw [receive, fromUtf8_asBytes]
  simp [hread, hhears, hnonempty, hmsgs]

/-- Messages are handled only if the topic is read as one of those heard. -/
lemma hears_of_receive
    (h : receive lower parseUuid decode hears topic.asBytes payload = .handle msgs) :
    ∃ topic', Topic.fromStr lower parseUuid topic.asStr = .ok topic' ∧ hears topic' = true := by
  rw [receive, fromUtf8_asBytes] at h
  cases hread : Topic.fromStr lower parseUuid topic.asStr with
  | error e => simp [hread] at h
  | ok topic' =>
      refine ⟨topic', rfl, ?_⟩
      by_contra hdeaf
      rw [Bool.not_eq_true] at hdeaf
      simp [hread, hdeaf] at h

end

/-- What is delivered has a subscription as a head of its text. -/
lemma exists_isPrefix_of_delivers {subscriptions : List Topic} {topic : Topic}
    (h : delivers subscriptions topic.asBytes = true) :
    ∃ sub ∈ subscriptions, sub.asStr.toList <+: topic.asStr.toList := by
  rw [delivers, List.any_eq_true] at h
  obtain ⟨sub, hsub, hhead⟩ := h
  exact ⟨sub, hsub, isPrefix_of_bytes (List.isPrefixOf_iff_prefix.mp hhead)⟩

lemma delivers_of_mem {subscriptions : List Topic} {topic : Topic} (h : topic ∈ subscriptions) :
    delivers subscriptions topic.asBytes = true :=
  List.any_eq_true.mpr ⟨topic, h, List.isPrefixOf_iff_prefix.mpr List.prefix_rfl⟩

end Fcore
