import Deltio.Filter
import Deltio.Outstanding
import Deltio.RetryQueue
import Deltio.Subscription
import Mathlib.Data.Finset.Basic
import Mathlib.Data.String.Basic

namespace Deltio

open Lib

def maxPullCount : ℕ := 1000

/-- How often each signal was sent, and whether the deletion was signalled. -/
structure SubscriptionObserver where
  newMessagesAvailable : ℕ
  outstandingFreed : ℕ
  deleted : Bool
deriving DecidableEq

namespace SubscriptionObserver

def new : SubscriptionObserver := ⟨0, 0, false⟩

def notifyNewMessagesAvailable (o : SubscriptionObserver) : SubscriptionObserver :=
  { o with newMessagesAvailable := o.newMessagesAvailable + 1 }

def notifyOutstandingFreed (o : SubscriptionObserver) : SubscriptionObserver :=
  { o with outstandingFreed := o.outstandingFreed + 1 }

def notifyDeleted (o : SubscriptionObserver) : SubscriptionObserver := { o with deleted := true }

end SubscriptionObserver

/-- The messages that left the subscription for good, by reason. -/
structure Ledger where
  acked : List TopicMessage
  deadLettered : List TopicMessage
  retentionDropped : List TopicMessage
  seekDropped : List TopicMessage
deriving DecidableEq

structure TopicManagerRef where
deriving DecidableEq

/-- The state of the actor.  The last two fields are not in the program: the
publish tasks spawned for dead letters, and the ledger of settled messages. -/
structure SubscriptionActor where
  topic : Topic
  info : SubscriptionInfo
  backlog : List TopicMessage
  outstanding : OutstandingMessageTracker
  observer : SubscriptionObserver
  pushRegistry : PushSubscriptionsRegistry
  delegate : SubscriptionManagerState
  nextAckId : AckId
  deleted : Bool
  deliveryAttempts : HashMap MessageId ℕ
  retryQueue : RetryQueue
  topicManager : Option TopicManagerRef
  compiledFilter : Option Filter
  orderedQueues : HashMap String (List TopicMessage)
  keysInFlight : Finset String
  counters : SubscriptionCounters
  spawned : List (Topic × List TopicMessage)
  ledger : Ledger
deriving DecidableEq

/-- The order in which drained hash maps are iterated. -/
structure DrainOrder where
  outstanding : List PulledMessage → List PulledMessage
  outstanding_perm : ∀ l, (outstanding l).Perm l
  retrying : List TopicMessage → List TopicMessage
  retrying_perm : ∀ l, (retrying l).Perm l

def DrainOrder.identity : DrainOrder where
  outstanding := id
  outstanding_perm := List.Perm.refl
  retrying := id
  retrying_perm := List.Perm.refl

/-- What a deleting actor hears from its topic: the topic is gone
(`upgrade` fails), it removed the subscription, or its mailbox is closed. -/
inductive TopicAnswer where
  | gone
  | removed
  | closed
deriving DecidableEq

/-- What an event reads from outside the actor. -/
structure Env where
  now : Instant
  topics : TopicManager
  order : DrainOrder
  topicAnswer : TopicAnswer

inductive SubscriptionRequest where
  | postMessages (messages : List TopicMessage)
  | getInfo
  | updateInfo (update : SubscriptionUpdate)
  | pullMessages (maxCount maxOutstanding : UInt16)
  | acknowledgeMessages (ackIds : List AckId)
  | modifyDeadline (deadlineModifications : List DeadlineModification)
  | delete
  | detach
  | modifyPushConfig (pushConfig : Option PushConfig)
  | getStats
  | seek (seekTime : SystemTime)
deriving DecidableEq

namespace SubscriptionActor

def start (info : SubscriptionInfo) (topic : Topic) (pushRegistry : PushSubscriptionsRegistry)
    (delegate : SubscriptionManagerState) (topicManager : Option TopicManagerRef) :
    SubscriptionActor where
  topic := topic
  info := info
  backlog := []
  outstanding := .new
  observer := .new
  pushRegistry :=
    if info.pushConfig.isSome then pushRegistry.set info.name info.pushConfig else pushRegistry
  delegate := delegate
  nextAckId := ⟨1⟩
  deleted := false
  deliveryAttempts := ∅
  retryQueue := .new
  topicManager := topicManager
  compiledFilter := info.filter.bind fun raw => (Filter.parse raw).toOption
  orderedQueues := ∅
  keysInFlight := ∅
  counters := ⟨0, 0, 0, 0, 0⟩
  spawned := []
  ledger := ⟨[], [], [], []⟩

def notifyNewMessagesAvailable (a : SubscriptionActor) : SubscriptionActor :=
  { a with observer := a.observer.notifyNewMessagesAvailable }

def notifyOutstandingFreed (a : SubscriptionActor) : SubscriptionActor :=
  { a with observer := a.observer.notifyOutstandingFreed }

def queueOf (a : SubscriptionActor) (key : String) : List TopicMessage :=
  (a.orderedQueues.get key).getD []

def updateInfo (a : SubscriptionActor) (update : SubscriptionUpdate) : SubscriptionActor :=
  { a with info := a.info.applyUpdate update }

def accepts (a : SubscriptionActor) (msg : TopicMessage) : Bool :=
  match a.compiledFilter with
  | some f => f.matches msg.attributes
  | none => true

/-- Routes a posted message to the queue of its key or to the backlog. -/
def enqueue (a : SubscriptionActor) (msg : TopicMessage) : SubscriptionActor :=
  match msg.orderingKey, a.info.enableMessageOrdering with
  | some key, true =>
    { a with orderedQueues := a.orderedQueues.insert key (a.queueOf key ++ [msg]) }
  | _, _ => { a with backlog := a.backlog ++ [msg] }

def postLoop : List TopicMessage → Bool → SubscriptionActor → Bool × SubscriptionActor
  | [], hadAny, a => (hadAny, a)
  | msg :: msgs, hadAny, a =>
    if a.accepts msg then postLoop msgs true (a.enqueue msg) else postLoop msgs hadAny a

def postMessages (a : SubscriptionActor) (newMessages : List TopicMessage) : SubscriptionActor :=
  if a.deleted then a
  else
    let r := postLoop newMessages false a
    if r.1 then r.2.notifyNewMessagesAvailable else r.2

def isMessageExpired (a : SubscriptionActor) (message : TopicMessage) (now : Instant) : Bool :=
  match a.info.messageRetentionDuration with
  | some retention => retention ≤ now.saturatingDurationSince message.publishedAtInstant
  | none => false

def dropExpired (a : SubscriptionActor) (message : TopicMessage) : SubscriptionActor :=
  { a with
    deliveryAttempts := a.deliveryAttempts.remove message.id
    ledger := { a.ledger with retentionDropped := message :: a.ledger.retentionDropped } }

def deliver (a : SubscriptionActor) (deadline : Instant) (message : TopicMessage) :
    PulledMessage × SubscriptionActor :=
  let pulledMessage : PulledMessage :=
    { message := message
      ackId := a.nextAckId
      deadline := AckDeadline.new deadline
      deliveryAttempt := (a.deliveryAttempts.get message.id).getD 1 }
  (pulledMessage, { a with
    nextAckId := a.nextAckId.next
    outstanding := a.outstanding.add pulledMessage })

def idleKeys (a : SubscriptionActor) : List String :=
  a.orderedQueues.keys.filter fun key => decide (key ∉ a.keysInFlight) && !(a.queueOf key).isEmpty

/-- Pops the queue of a key until a message is delivered or none is left. -/
def pullHead (now deadline : Instant) (key : String) :
    List TopicMessage → SubscriptionActor → Option PulledMessage × SubscriptionActor
  | [], a =>
    -- the entry of the key stays in the map
    (none, { a with orderedQueues := a.orderedQueues.insert key [] })
  | head :: queue, a =>
    if a.isMessageExpired head now then pullHead now deadline key queue (a.dropExpired head)
    else
      let r := a.deliver deadline head
      (some r.1, { r.2 with
        orderedQueues := r.2.orderedQueues.insert key queue
        keysInFlight := insert key r.2.keysInFlight })

def pullOrdered (now deadline : Instant) (capacity : ℕ) :
    List String → List PulledMessage → SubscriptionActor → List PulledMessage × SubscriptionActor
  | [], result, a => (result, a)
  | key :: keys, result, a =>
    if capacity ≤ result.length then (result, a)
    else
      match a.orderedQueues.get key with
      | none => pullOrdered now deadline capacity keys result a
      | some queue =>
        let r := pullHead now deadline key queue a
        pullOrdered now deadline capacity keys (result ++ r.1.toList) r.2

def pullBacklog (now deadline : Instant) (capacity : ℕ) :
    List TopicMessage → List PulledMessage → SubscriptionActor →
      List PulledMessage × SubscriptionActor
  | [], result, a => (result, { a with backlog := [] })
  | message :: backlog, result, a =>
    if capacity ≤ result.length then (result, { a with backlog := message :: backlog })
    else if a.isMessageExpired message now then
      pullBacklog now deadline capacity backlog result (a.dropExpired message)
    else
      let r := a.deliver deadline message
      pullBacklog now deadline capacity backlog (result ++ [r.1]) r.2

/-- The capacity of a pull.  Lengths are cast to 16 bits. -/
def effectiveMax (a : SubscriptionActor) (maxCount maxOutstanding : UInt16) : ℕ :=
  let pendingKeyed := a.idleKeys.length % 2 ^ 16
  let outgoingLen := min (a.backlog.length % 2 ^ 16 + pendingKeyed) (2 ^ 16 - 1)
  -- the upper bound of the clamp is the larger of the two
  let effectiveMax := min maxCount.toNat (max outgoingLen maxPullCount)
  if 0 < maxOutstanding.toNat then
    let outstandingNow := a.outstanding.len % 2 ^ 16
    let headroom := maxOutstanding.toNat - outstandingNow
    min effectiveMax headroom
  else effectiveMax

def morePending (a : SubscriptionActor) : Bool := !a.backlog.isEmpty || !a.idleKeys.isEmpty

def signalMore (a : SubscriptionActor) : SubscriptionActor :=
  if a.morePending then a.notifyNewMessagesAvailable else a

/-- The heads of the idle keys in sorted order, then the unkeyed backlog. -/
def pullUpTo (a : SubscriptionActor) (now : Instant) (capacity : ℕ) :
    List PulledMessage × SubscriptionActor :=
  let deadline := now + a.info.ackDeadline
  let heads := pullOrdered now deadline capacity (a.idleKeys.insertionSort (· ≤ ·)) [] a
  pullBacklog now deadline capacity heads.2.backlog heads.1 heads.2

def pullMessages (a : SubscriptionActor) (now : Instant) (maxCount maxOutstanding : UInt16) :
    Except PullMessagesError (List PulledMessage) × SubscriptionActor :=
  if a.deleted then (.ok [], a)
  else if a.info.detached then (.error .detached, a)
  -- returns before the signal for what is still pending
  else if a.effectiveMax maxCount maxOutstanding = 0 then (.ok [], a)
  else
    let all := a.pullUpTo now (a.effectiveMax maxCount maxOutstanding)
    (.ok all.1, { all.2.signalMore with
      counters := { all.2.counters with pulled := all.2.counters.pulled + all.1.length } })

/-- Settles an acked message.  The key it frees, if it was in flight, is
returned. -/
def settleAcked (a : SubscriptionActor) (message : TopicMessage) :
    Option String × SubscriptionActor :=
  let a := { a with
    deliveryAttempts := a.deliveryAttempts.remove message.id
    ledger := { a.ledger with acked := message :: a.ledger.acked } }
  match message.orderingKey, a.info.enableMessageOrdering with
  | some key, true =>
    (if key ∈ a.keysInFlight then some key else none,
      { a with keysInFlight := a.keysInFlight.erase key })
  | _, _ => (none, a)

def releaseAcked :
    List PulledMessage → List String → SubscriptionActor → List String × SubscriptionActor
  | [], freedKeys, a => (freedKeys, a)
  | pulled :: rest, freedKeys, a =>
    let r := a.settleAcked pulled.message
    releaseAcked rest (freedKeys ++ r.1.toList) r.2

def acknowledgeMessages (a : SubscriptionActor) (ackIds : List AckId) :
    AckOutcome × SubscriptionActor :=
  if a.deleted then (⟨[], []⟩, a)
  else
    let valid := ackIds.filter a.outstanding.contains
    let invalid := ackIds.filter fun id => !a.outstanding.contains id
    let removed := a.outstanding.remove valid
    let acked := removed.1
    let released := releaseAcked acked [] { a with outstanding := removed.2 }
    let a := released.2
    let a := if acked.isEmpty then a else a.notifyOutstandingFreed
    let a := if released.1.isEmpty then a else a.notifyNewMessagesAvailable
    (⟨valid, invalid⟩, { a with
      counters := { a.counters with acked := a.counters.acked + acked.length } })

/-- Routes a message back to the head of its key's queue, or to the backlog. -/
def requeueOne (a : SubscriptionActor) (message : TopicMessage) : SubscriptionActor :=
  match message.orderingKey, a.info.enableMessageOrdering with
  | some key, true =>
    { a with
      orderedQueues := a.orderedQueues.insert key (message :: a.queueOf key)
      keysInFlight := a.keysInFlight.erase key }
  | _, _ => { a with backlog := a.backlog ++ [message] }

/-- The delivery attempt after a failure: one more than recorded, at first 2. -/
def nextAttempt (deliveryAttempts : HashMap MessageId ℕ) (id : MessageId) : ℕ :=
  match deliveryAttempts.get id with
  | some attempt => min (attempt + 1) (2 ^ 16 - 1)
  | none => 2

def exceedsMaxDeliveryAttempts (info : SubscriptionInfo) (attempt : ℕ) : Bool :=
  match info.deadLetterPolicy with
  | some dlp => dlp.maxDeliveryAttempts < (attempt : ℤ)
  | none => false

/-- The message for the dead letter topic: the original data, and the original
attributes with the source of the dead letter added. -/
def deadLetterMessage (a : SubscriptionActor) (now : Instant) (message : TopicMessage)
    (attempt : ℕ) : TopicMessage :=
  let attrs := message.attributes.getD ∅
  let attrs := attrs.insert "CloudPubSubDeadLetterSourceDeliveryCount" (toString (attempt - 1))
  let attrs := attrs.insert "CloudPubSubDeadLetterSourceSubscription" a.info.name.subscriptionId
  let attrs := attrs.insert "CloudPubSubDeadLetterSourceSubscriptionProject" a.info.name.projectId
  let attrs := attrs.insert "CloudPubSubDeadLetterSourceTopicPublishTime"
    (formatRfc3339 message.publishedAt)
  TopicMessage.new message.data (some attrs) now

def countAttempt (a : SubscriptionActor) (id : MessageId) : SubscriptionActor :=
  { a with
    deliveryAttempts := a.deliveryAttempts.insert id (nextAttempt a.deliveryAttempts id) }

def giveUp (a : SubscriptionActor) (message : TopicMessage) : SubscriptionActor :=
  { a with ledger := { a.ledger with deadLettered := message :: a.ledger.deadLettered } }

/-- Schedules a message for its retry, or re-queues it when there is no retry
policy. -/
def retryLater (a : SubscriptionActor) (now : Instant) (message : TopicMessage) (attempt : ℕ) :
    SubscriptionActor :=
  match a.info.retryPolicy with
  | some retryPolicy =>
    -- the key of the message stays in flight during the backoff
    let backoff := retryPolicy.calculateBackoff attempt
    { a with retryQueue := a.retryQueue.add message (AckDeadline.new (now + backoff)) }
  | none => a.requeueOne message

/-- Re-queues the messages one by one, collecting the dead letters and the IDs
of their originals. -/
def requeueLoop (now : Instant) : List PulledMessage → List TopicMessage → List MessageId →
    SubscriptionActor → List TopicMessage × List MessageId × SubscriptionActor
  | [], deadLetterMessages, deadLetterMessageIds, a =>
    (deadLetterMessages, deadLetterMessageIds, a)
  | pulled :: rest, deadLetterMessages, deadLetterMessageIds, a =>
    let message := pulled.message
    let attempt := nextAttempt a.deliveryAttempts message.id
    if exceedsMaxDeliveryAttempts a.info attempt then
      -- the key of the message stays in flight
      requeueLoop now rest (deadLetterMessages ++ [a.deadLetterMessage now message attempt])
        (deadLetterMessageIds ++ [message.id]) ((a.countAttempt message.id).giveUp message)
    else
      requeueLoop now rest deadLetterMessages deadLetterMessageIds
        ((a.countAttempt message.id).retryLater now message attempt)

/-- Spawns the task that publishes the dead letters, if there is a topic manager
to look the topic up in and the topic exists. -/
def tryPublishDeadLetteredMessages (a : SubscriptionActor) (topics : TopicManager)
    (deadLetterMessages : List TopicMessage) : SubscriptionActor :=
  match a.topicManager, a.info.deadLetterPolicy with
  | some _, some dlp =>
    match topics.getTopic dlp.deadLetterTopic with
    | some dlqTopic => { a with spawned := a.spawned ++ [(dlqTopic, deadLetterMessages)] }
    | none => a
  | _, _ => a

/-- Publishes the dead letters and cleans up the delivery attempts of their
originals. -/
def publishDeadLetters (a : SubscriptionActor) (topics : TopicManager)
    (deadLetterMessages : List TopicMessage) (deadLetterMessageIds : List MessageId) :
    SubscriptionActor :=
  if deadLetterMessages.isEmpty then a
  else
    let a := { a with counters :=
      { a.counters with deadLettered := a.counters.deadLettered + deadLetterMessages.length } }
    let a := a.tryPublishDeadLetteredMessages topics deadLetterMessages
    { a with deliveryAttempts := deadLetterMessageIds.foldl HashMap.remove a.deliveryAttempts }

def requeueMessages (a : SubscriptionActor) (env : Env) (messages : List PulledMessage) :
    SubscriptionActor :=
  let r := requeueLoop env.now messages [] [] a
  let a := r.2.2.publishDeadLetters env.topics r.1 r.2.1
  -- the queues of the keys are not looked at
  if a.backlog.isEmpty then a else a.notifyNewMessagesAvailable

def modifyDeadline (a : SubscriptionActor) (env : Env)
    (deadlineModifications : List DeadlineModification) : AckOutcome × SubscriptionActor :=
  if a.deleted then (⟨[], []⟩, a)
  else
    let ackIds := deadlineModifications.map DeadlineModification.ackId
    let valid := ackIds.filter a.outstanding.contains
    let invalid := ackIds.filter fun id => !a.outstanding.contains id
    let modified := a.outstanding.modify deadlineModifications
    let a := { a with
      outstanding := modified.2
      counters := { a.counters with nacked := a.counters.nacked + modified.1.length } }
    (⟨valid, invalid⟩, a.requeueMessages env modified.1)

def handleExpiredMessages (a : SubscriptionActor) (env : Env) (expired : List PulledMessage) :
    SubscriptionActor :=
  let a := { a with
    counters := { a.counters with expired := a.counters.expired + expired.length } }
  a.requeueMessages env expired

def retryReadyLoop (now : Instant) :
    List TopicMessage → Bool → SubscriptionActor → Bool × SubscriptionActor
  | [], deliveredAny, a => (deliveredAny, a)
  | message :: rest, deliveredAny, a =>
    if a.isMessageExpired message now then
      retryReadyLoop now rest deliveredAny (a.dropExpired message)
    else retryReadyLoop now rest true (a.requeueOne message)

def handleRetryReady (a : SubscriptionActor) (now : Instant) (ready : List TopicMessage) :
    SubscriptionActor :=
  let r := retryReadyLoop now ready false a
  if r.1 then r.2.notifyNewMessagesAvailable else r.2

def newerThan (seekTime : SystemTime) (message : TopicMessage) : Bool :=
  decide (seekTime < message.publishedAt)

def seekOne (seekTime : SystemTime) (a : SubscriptionActor) (message : TopicMessage) :
    SubscriptionActor :=
  if newerThan seekTime message then a.requeueOne message
  else { a with ledger := { a.ledger with seekDropped := message :: a.ledger.seekDropped } }

/-- The state with nothing in flight and only the newer messages in the queues. -/
def resetTo (a : SubscriptionActor) (seekTime : SystemTime) : SubscriptionActor :=
  let gone := (a.backlog ++ a.orderedQueues.values.flatten).filter fun m => !newerThan seekTime m
  { a with
    outstanding := a.outstanding.clear
    retryQueue := a.retryQueue.clear
    keysInFlight := ∅
    deliveryAttempts := ∅
    backlog := a.backlog.filter (newerThan seekTime)
    orderedQueues := a.orderedQueues.filterMap fun _ queue =>
      if (queue.filter (newerThan seekTime)).isEmpty then none
      else some (queue.filter (newerThan seekTime))
    ledger := { a.ledger with seekDropped := gone ++ a.ledger.seekDropped } }

def seekToTime (a : SubscriptionActor) (order : DrainOrder) (seekTime : SystemTime) :
    SubscriptionActor :=
  if a.deleted then a
  else
    let outstanding := (a.outstanding.drain order.outstanding).1.map PulledMessage.message
    let retrying := (a.retryQueue.drain order.retrying).1
    let a := (outstanding ++ retrying).foldl (seekOne seekTime) (a.resetTo seekTime)
    a.notifyOutstandingFreed.notifyNewMessagesAvailable

def clearMessages (a : SubscriptionActor) : SubscriptionActor :=
  { a with
    outstanding := a.outstanding.clear
    backlog := []
    retryQueue := a.retryQueue.clear
    deliveryAttempts := ∅
    orderedQueues := ∅
    keysInFlight := ∅ }

def detach (a : SubscriptionActor) : SubscriptionActor :=
  if a.info.detached then a
  else { a with info := { a.info with detached := true } }.clearMessages

def modifyPushConfig (a : SubscriptionActor) (pushConfig : Option PushConfig) :
    SubscriptionActor :=
  { a with
    info := { a.info with pushConfig := pushConfig }
    pushRegistry := a.pushRegistry.set a.info.name pushConfig }

/-- Marks the subscription as deleted.  When the topic does not answer, the
function returns after setting the flag. -/
def delete (a : SubscriptionActor) (topicAnswer : TopicAnswer) :
    Except DeleteError Unit × SubscriptionActor :=
  if a.deleted then (.ok (), a)
  else
    -- set before the topic is asked
    let a := { a with deleted := true }
    match topicAnswer with
    | .closed => (.error .closed, a)
    | .gone | .removed =>
      let a := { a with
        delegate := a.delegate.delete a.info.name
        observer := a.observer.notifyDeleted }
      let a := a.clearMessages
      (.ok (), { a with pushRegistry := a.pushRegistry.set a.info.name none })

def receive (a : SubscriptionActor) (env : Env) : SubscriptionRequest → SubscriptionActor
  | .postMessages messages => a.postMessages messages
  | .getInfo => a
  | .updateInfo update => a.updateInfo update
  | .pullMessages maxCount maxOutstanding => (a.pullMessages env.now maxCount maxOutstanding).2
  | .acknowledgeMessages ackIds => (a.acknowledgeMessages ackIds).2
  | .modifyDeadline deadlineModifications => (a.modifyDeadline env deadlineModifications).2
  | .delete => (a.delete env.topicAnswer).2
  | .detach => a.detach
  | .modifyPushConfig pushConfig => a.modifyPushConfig pushConfig
  | .getStats => a
  | .seek seekTime => a.seekToTime env.order seekTime

/-- `poll_next_expired` at `polledAt`: a batch is handled only if it is not
empty. -/
def pollExpired (a : SubscriptionActor) (env : Env) (polledAt : Instant) : SubscriptionActor :=
  let taken := a.outstanding.takeExpired polledAt
  let a := { a with outstanding := taken.2 }
  if taken.1.isEmpty then a else a.handleExpiredMessages env taken.1

/-- `poll_next_ready` at `polledAt`. -/
def pollReady (a : SubscriptionActor) (env : Env) (polledAt : Instant) : SubscriptionActor :=
  let taken := a.retryQueue.takeReady polledAt
  let a := { a with retryQueue := taken.2 }
  if taken.1.isEmpty then a else a.handleRetryReady env.now taken.1

end SubscriptionActor

/-- What the loop of the actor selects. -/
inductive ActorEvent where
  | request (r : SubscriptionRequest)
  | expired (polledAt : Instant)
  | retryReady (polledAt : Instant)

namespace SubscriptionActor

def step (a : SubscriptionActor) (e : Env × ActorEvent) : SubscriptionActor :=
  match e.2 with
  | .request r => a.receive e.1 r
  | .expired polledAt => a.pollExpired e.1 polledAt
  | .retryReady polledAt => a.pollReady e.1 polledAt

def run (a : SubscriptionActor) (es : List (Env × ActorEvent)) : SubscriptionActor := es.foldl step a

end SubscriptionActor

end Deltio
