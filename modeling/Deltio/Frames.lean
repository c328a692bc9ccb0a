import Deltio.Redelivery

namespace Deltio.SubscriptionActor

open Lib

/-- What the actor reports to the outside. -/
structure Reports where
  observer : SubscriptionObserver
  counters : SubscriptionCounters
  spawned : List (Topic × List TopicMessage)

def reports (a : SubscriptionActor) : Reports := ⟨a.observer, a.counters, a.spawned⟩

section

variable {a b : SubscriptionActor}

lemma observer_of_reports (h : b.reports = a.reports) : b.observer = a.observer :=
  congrArg Reports.observer h

lemma counters_of_reports (h : b.reports = a.reports) : b.counters = a.counters :=
  congrArg Reports.counters h

end

@[simp] lemma reports_enqueue (a : SubscriptionActor) (m : TopicMessage) :
    (a.enqueue m).reports = a.reports := by
  unfold enqueue
  split <;> rfl

@[simp] lemma reports_requeueOne (a : SubscriptionActor) (m : TopicMessage) :
    (a.requeueOne m).reports = a.reports := by
  unfold requeueOne
  split <;> rfl

@[simp] lemma reports_settleAcked (a : SubscriptionActor) (m : TopicMessage) :
    (a.settleAcked m).2.reports = a.reports := by
  unfold settleAcked
  dsimp only
  split <;> rfl

@[simp] lemma reports_dropExpired (a : SubscriptionActor) (m : TopicMessage) :
    (a.dropExpired m).reports = a.reports := rfl

@[simp] lemma reports_deliver (a : SubscriptionActor) (deadline : Instant) (m : TopicMessage) :
    (a.deliver deadline m).2.reports = a.reports := rfl

@[simp] lemma reports_countAttempt (a : SubscriptionActor) (id : MessageId) :
    (a.countAttempt id).reports = a.reports := rfl

@[simp] lemma reports_giveUp (a : SubscriptionActor) (m : TopicMessage) :
    (a.giveUp m).reports = a.reports := rfl

@[simp] lemma reports_retryLater (a : SubscriptionActor) (now : Instant) (m : TopicMessage)
    (attempt : ℕ) : (a.retryLater now m attempt).reports = a.reports := by
  unfold retryLater
  split
  · rfl
  · exact a.reports_requeueOne m

@[simp] lemma reports_seekOne (seekTime : SystemTime) (a : SubscriptionActor) (m : TopicMessage) :
    (seekOne seekTime a m).reports = a.reports := by
  unfold seekOne
  split_ifs
  · exact a.reports_requeueOne m
  · rfl

lemma reports_postLoop (msgs : List TopicMessage) (hadAny : Bool) (a : SubscriptionActor) :
    (postLoop msgs hadAny a).2.reports = a.reports := by
  induction msgs generalizing hadAny a with
  | nil => rfl
  | cons msg msgs ih =>
    unfold postLoop
    split_ifs
    · rw [ih, reports_enqueue]
    · exact ih hadAny a

lemma reports_pullHead (now deadline : Instant) (key : String) (queue : List TopicMessage)
    (a : SubscriptionActor) : (pullHead now deadline key queue a).2.reports = a.reports := by
  induction queue generalizing a with
  | nil => rfl
  | cons head queue ih =>
    unfold pullHead
    split_ifs
    · rw [ih, reports_dropExpired]
    · rfl

lemma reports_pullOrdered (now deadline : Instant) (capacity : ℕ) (keys : List String)
    (result : List PulledMessage) (a : SubscriptionActor) :
    (pullOrdered now deadline capacity keys result a).2.reports = a.reports := by
  induction keys generalizing result a with
  | nil => rfl
  | cons key keys ih =>
    unfold pullOrdered
    split_ifs
    · rfl
    · split
      · exact ih result a
      · rw [ih, reports_pullHead]

lemma reports_pullBacklog (now deadline : Instant) (capacity : ℕ) (backlog : List TopicMessage)
    (result : List PulledMessage) (a : SubscriptionActor) :
    (pullBacklog now deadline capacity backlog result a).2.reports = a.reports := by
  induction backlog generalizing result a with
  | nil => rfl
  | cons message backlog ih =>
    unfold pullBacklog
    split_ifs
    · rfl
    · rw [ih, reports_dropExpired]
    · rw [ih, reports_deliver]

lemma reports_pullUpTo (a : SubscriptionActor) (now : Instant) (capacity : ℕ) :
    (a.pullUpTo now capacity).2.reports = a.reports := by
  unfold pullUpTo
  dsimp only
  rw [reports_pullBacklog, reports_pullOrdered]

lemma reports_releaseAcked (acked : List PulledMessage) (freedKeys : List String)
    (a : SubscriptionActor) : (releaseAcked acked freedKeys a).2.reports = a.reports := by
  induction acked generalizing freedKeys a with
  | nil => rfl
  | cons pulled rest ih =>
    unfold releaseAcked
    dsimp only
    rw [ih, reports_settleAcked]

lemma reports_requeueLoop (now : Instant) (msgs : List PulledMessage) (dead : List TopicMessage)
    (ids : List MessageId) (a : SubscriptionActor) :
    (requeueLoop now msgs dead ids a).2.2.reports = a.reports := by
  induction msgs generalizing dead ids a with
  | nil => rfl
  | cons pulled rest ih =>
    unfold requeueLoop
    dsimp only
    split_ifs
    · rw [ih, reports_giveUp, reports_countAttempt]
    · rw [ih, reports_retryLater, reports_countAttempt]

lemma reports_retryReadyLoop (now : Instant) (ready : List TopicMessage) (deliveredAny : Bool)
    (a : SubscriptionActor) : (retryReadyLoop now ready deliveredAny a).2.reports = a.reports := by
  induction ready generalizing deliveredAny a with
  | nil => rfl
  | cons m ready ih =>
    unfold retryReadyLoop
    split_ifs
    · rw [ih, reports_dropExpired]
    · rw [ih, reports_requeueOne]

lemma reports_foldl_seekOne (seekTime : SystemTime) (msgs : List TopicMessage)
    (a : SubscriptionActor) : (msgs.foldl (seekOne seekTime) a).reports = a.reports := by
  induction msgs generalizing a with
  | nil => rfl
  | cons m msgs ih => rw [List.foldl_cons, ih, reports_seekOne]

end Deltio.SubscriptionActor
