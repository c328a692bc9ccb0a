import Deltio.Lib.HashMap
import Deltio.Time

namespace Deltio

open Lib

structure TopicName where
  projectId : String
  topicId : String
deriving DecidableEq

def TopicName.isInProject (n : TopicName) (projectId : String) : Bool := n.projectId == projectId

structure SubscriptionName where
  projectId : String
  subscriptionId : String
deriving DecidableEq

structure MessageId where
  value : ℕ
deriving DecidableEq

/-- The topic's internal ID in the upper half, the topic-local ID in the lower. -/
def MessageId.new (topicInternalId topicLocalMessageId : ℕ) : MessageId :=
  ⟨(topicInternalId <<< 32) ||| topicLocalMessageId⟩

abbrev Attributes := HashMap String String

/-- A published message.  `publishedAtInstant` is the monotonic companion of
`publishedAt`, used for retention. -/
structure TopicMessage where
  id : MessageId
  publishedAt : SystemTime
  publishedAtInstant : Instant
  data : List UInt8
  attributes : Option Attributes
  orderingKey : Option String
deriving DecidableEq

def TopicMessage.new (data : List UInt8) (attributes : Option Attributes) (now : Instant) :
    TopicMessage where
  id := ⟨0⟩
  publishedAt := 0
  publishedAtInstant := now
  data := data
  attributes := attributes
  orderingKey := none

def TopicMessage.publish (m : TopicMessage) (id : MessageId) (publishedAt : SystemTime)
    (instant : Instant) : TopicMessage :=
  { m with id := id, publishedAt := publishedAt, publishedAtInstant := instant }

structure AckId where
  value : ℕ
deriving DecidableEq

instance : LinearOrder AckId :=
  LinearOrder.lift' AckId.value fun a b h => by cases a; cases b; simp_all

def AckId.next (a : AckId) : AckId := ⟨a.value + 1⟩

structure PulledMessage where
  message : TopicMessage
  ackId : AckId
  deadline : AckDeadline
  deliveryAttempt : ℕ
deriving DecidableEq

/-- Orders outstanding messages by deadline, ties by ack ID. -/
def PulledMessage.expirationKey (m : PulledMessage) : AckDeadline ×ₗ AckId :=
  toLex (m.deadline, m.ackId)

def PulledMessage.modifyDeadline (m : PulledMessage) (newDeadline : AckDeadline) : PulledMessage :=
  { m with deadline := newDeadline }

/-- A requested modification to the deadline of an acknowledgement; no new
deadline is a nack. -/
structure DeadlineModification where
  ackId : AckId
  newDeadline : Option AckDeadline
deriving DecidableEq

def DeadlineModification.nack (ackId : AckId) : DeadlineModification := ⟨ackId, none⟩

end Deltio
