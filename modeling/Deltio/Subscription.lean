import Deltio.Message

namespace Deltio

open Lib

structure RetryPolicy where
  minimumBackoff : Duration
  maximumBackoff : Duration
deriving DecidableEq

/-- Exponential backoff, the exponent capped at 20. -/
def RetryPolicy.calculateBackoff (p : RetryPolicy) (deliveryAttempt : ℕ) : Duration :=
  let exponent := min (deliveryAttempt - 1) 20
  let backoff := Duration.saturatingMul p.minimumBackoff (2 ^ exponent)
  min backoff p.maximumBackoff

/-- Without saturation, as the maximum is itself a duration. -/
lemma RetryPolicy.calculateBackoff_eq {p : RetryPolicy} (h : p.maximumBackoff ≤ Duration.max)
    (attempt : ℕ) : p.calculateBackoff attempt =
      min p.maximumBackoff (p.minimumBackoff * 2 ^ min (attempt - 1) 20) := by
  unfold calculateBackoff Duration.saturatingMul
  dsimp only
  rw [min_assoc, min_eq_right h, min_comm]

structure DeadLetterPolicy where
  deadLetterTopic : TopicName
  maxDeliveryAttempts : ℤ
deriving DecidableEq

structure PushConfigOidcToken where
  audience : String
  serviceAccountEmail : String
deriving DecidableEq

structure PushConfig where
  endpoint : String
  oidcToken : Option PushConfigOidcToken
  attributes : Option Attributes
deriving DecidableEq

abbrev PushSubscriptionsRegistry := HashMap SubscriptionName PushConfig

/-- Sets the push config for the given subscription; without a config, removes
the current entry.  An entry that is there already is left as it is
(`entry(name).or_insert(config)`). -/
def PushSubscriptionsRegistry.set (r : PushSubscriptionsRegistry) (name : SubscriptionName) :
    Option PushConfig → PushSubscriptionsRegistry
  | some config =>
    match r.get name with
    | some _ => r
    | none => r.insert name config
  | none => r.remove name

structure SubscriptionInfo where
  name : SubscriptionName
  ackDeadline : Duration
  pushConfig : Option PushConfig
  retryPolicy : Option RetryPolicy
  deadLetterPolicy : Option DeadLetterPolicy
  messageRetentionDuration : Option Duration
  enableMessageOrdering : Bool
  enableExactlyOnceDelivery : Bool
  filter : Option String
  detached : Bool
deriving DecidableEq

def SubscriptionInfo.new (name : SubscriptionName) (ackDeadline : Duration)
    (pushConfig : Option PushConfig) (retryPolicy : Option RetryPolicy)
    (deadLetterPolicy : Option DeadLetterPolicy) : SubscriptionInfo where
  name := name
  ackDeadline := ackDeadline
  pushConfig := pushConfig
  retryPolicy := retryPolicy
  deadLetterPolicy := deadLetterPolicy
  messageRetentionDuration := none
  enableMessageOrdering := false
  enableExactlyOnceDelivery := false
  filter := none
  detached := false

def SubscriptionInfo.newWithDefaults (name : SubscriptionName) : SubscriptionInfo where
  name := name
  ackDeadline := Duration.fromSecs 10
  pushConfig := none
  retryPolicy := none
  deadLetterPolicy := none
  messageRetentionDuration := none
  enableMessageOrdering := false
  enableExactlyOnceDelivery := false
  filter := none
  detached := false

/-- A partial update; fields that are `none` are left unchanged. -/
structure SubscriptionUpdate where
  ackDeadline : Option Duration := none
  retryPolicy : Option (Option RetryPolicy) := none
  deadLetterPolicy : Option (Option DeadLetterPolicy) := none
  messageRetentionDuration : Option (Option Duration) := none
  enableExactlyOnceDelivery : Option Bool := none
deriving DecidableEq

def SubscriptionInfo.applyUpdate (info : SubscriptionInfo) (update : SubscriptionUpdate) :
    SubscriptionInfo :=
  { info with
    ackDeadline := update.ackDeadline.getD info.ackDeadline
    retryPolicy := update.retryPolicy.getD info.retryPolicy
    deadLetterPolicy := update.deadLetterPolicy.getD info.deadLetterPolicy
    messageRetentionDuration := update.messageRetentionDuration.getD info.messageRetentionDuration
    enableExactlyOnceDelivery :=
      update.enableExactlyOnceDelivery.getD info.enableExactlyOnceDelivery }

/-- Ack IDs that were processed, and those that were not recognised. -/
structure AckOutcome where
  valid : List AckId
  invalid : List AckId
deriving DecidableEq

structure SubscriptionCounters where
  pulled : ℕ
  acked : ℕ
  nacked : ℕ
  expired : ℕ
  deadLettered : ℕ
deriving DecidableEq

inductive PullMessagesError where
  | closed
  | detached
deriving DecidableEq

inductive DeleteError where
  | closed
deriving DecidableEq

inductive CreateSubscriptionError where
  | alreadyExists
  | mustBeInSameProjectAsTopic
  | deadLetterTopicDoesNotExist
  | closed
deriving DecidableEq

/-- The handle of a topic, for the `Arc` that is held; its internal ID identifies the actor. -/
structure Topic where
  name : TopicName
  internalId : ℕ
deriving DecidableEq

structure Subscription where
  name : SubscriptionName
  internalId : ℕ
  topic : Topic
deriving DecidableEq

structure TopicManager where
  topics : HashMap TopicName Topic
  nextId : ℕ
deriving DecidableEq

def TopicManager.getTopic (tm : TopicManager) (name : TopicName) : Option Topic :=
  tm.topics.get name

structure SubscriptionManagerState where
  subscriptions : HashMap SubscriptionName Subscription
  nextId : ℕ
deriving DecidableEq

namespace SubscriptionManagerState

def new : SubscriptionManagerState := ⟨∅, 1⟩

def createSubscription (s : SubscriptionManagerState) (name : SubscriptionName) (topic : Topic) :
    Except CreateSubscriptionError (Subscription × SubscriptionManagerState) :=
  match s.subscriptions.get name with
  | some _ => .error .alreadyExists
  | none =>
    let internalId := s.nextId + 1
    let subscription : Subscription := ⟨name, internalId, topic⟩
    .ok (subscription, ⟨s.subscriptions.insert name subscription, internalId⟩)

/-- `SubscriptionManagerDelegate::delete`. -/
def delete (s : SubscriptionManagerState) (name : SubscriptionName) : SubscriptionManagerState :=
  { s with subscriptions := s.subscriptions.remove name }

end SubscriptionManagerState

end Deltio
