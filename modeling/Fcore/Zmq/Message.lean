import Fcore.Memory.Types

/-!
The messages of the bus (`src/zmq`, `src/memory/connection/operation/api.rs`).

* `Action`, `Message`, `Topic`: what is published and where;
* `asMessage`: the message of a connection; `asCreateMessage`, `asUpdateMessage`
  and `asDeleteMessage` differ in the action only;
* `Conn.topic`: the topic on which deletions and restorations of a connection are
  announced, and `Conn.createTopic` for creations, where Mtproto has none.
-/

namespace Fcore

/-- `message::RkyvDateTime`. -/
structure RkyvDateTime where
  timestamp : ℤ
  nanos : ℕ
  deriving DecidableEq, Repr

/-- `RkyvDateTime::from`. -/
def RkyvDateTime.ofDateTime (t : DateTime) : RkyvDateTime := ⟨t.timestamp, t.subsecNanos⟩

/-- `DateTime::from`, for the pairs that `DateTime::from_timestamp` accepts. -/
def RkyvDateTime.toDateTime (r : RkyvDateTime) : DateTime := r.timestamp * 1000000000 + r.nanos

/-- An instant survives the passage through a message. -/
@[simp] lemma RkyvDateTime.toDateTime_ofDateTime (t : DateTime) :
    (RkyvDateTime.ofDateTime t).toDateTime = t := by
  have hnonneg : 0 ≤ Int.fmod t 1000000000 := Int.fmod_nonneg_of_pos t (by norm_num)
  have hsplit := Int.fdiv_mul_add_fmod t 1000000000
  rw [toDateTime, ofDateTime, DateTime.timestamp, DateTime.subsecNanos, Int.toNat_of_nonneg hnonneg]
  exact hsplit

/-- `message::Action`. -/
inductive Action where
  | create
  | update
  | delete
  | resetStat
  deriving DecidableEq, Repr

/-- `message::Message`. -/
structure Message where
  connId : Uuid
  action : Action
  tag : Tag
  wg : Option WgParam
  password : Option String
  token : Option Uuid
  expiresAt : Option RkyvDateTime
  subscriptionId : Option Uuid
  deriving DecidableEq, Repr

/-- `topic::Topic`. -/
inductive Topic where
  | auth
  | metrics
  | updates (env : Env)
  | init (id : Uuid)
  deriving DecidableEq, Repr

/-- The message of a connection for an action. -/
def Conn.asMessage (c : Conn) (action : Action) (id : Uuid) : Message where
  connId := id
  action := action
  tag := c.proto.proto
  wg := c.proto.wg
  password := c.proto.password
  token := c.proto.token
  expiresAt := c.expiresAt.map RkyvDateTime.ofDateTime
  subscriptionId := c.subscriptionId

/-- `as_create_message`. -/
def Conn.asCreateMessage (c : Conn) (id : Uuid) : Message := c.asMessage .create id

/-- `as_update_message`. -/
def Conn.asUpdateMessage (c : Conn) (id : Uuid) : Message := c.asMessage .update id

/-- `as_delete_message`. -/
def Conn.asDeleteMessage (c : Conn) (id : Uuid) : Message := c.asMessage .delete id

/-- The topic of a deletion or restoration: connections with a token go to the
auth service, all others to their environment. -/
def Conn.topic (c : Conn) : Topic :=
  if c.proto.token.isSome then .auth else .updates c.env

/-- The topic of a creation; Mtproto connections are not announced. -/
def Conn.createTopic (c : Conn) : Option Topic :=
  if c.proto.token.isSome then some .auth
  else if c.proto.isMtproto then none
  else some (.updates c.env)

end Fcore
