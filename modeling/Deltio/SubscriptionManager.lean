import Deltio.SubscriptionActor

namespace Deltio

open Lib

structure SubscriptionManager where
  state : SubscriptionManagerState
  pushRegistry : PushSubscriptionsRegistry
  topicManager : TopicManager

namespace SubscriptionManager

/-- Validates the dead letter topic.  The actor gets the topic manager only if a
dead letter policy is configured. -/
def topicManagerForDlq (m : SubscriptionManager) (info : SubscriptionInfo) :
    Except CreateSubscriptionError (Option TopicManagerRef) :=
  match info.deadLetterPolicy with
  | some dlp =>
    match m.topicManager.getTopic dlp.deadLetterTopic with
    | some _ => .ok (some ⟨⟩)
    | none => .error .deadLetterTopicDoesNotExist
  | none => .ok none

/-- Creates a subscription and starts its actor; the attach to the topic
follows. -/
def createSubscription (m : SubscriptionManager) (info : SubscriptionInfo) (topic : Topic) :
    Except CreateSubscriptionError (Subscription × SubscriptionActor) :=
  if !topic.name.isInProject info.name.projectId then .error .mustBeInSameProjectAsTopic
  else
    match m.topicManagerForDlq info with
    | .error e => .error e
    | .ok topicManagerForDlq =>
      match m.state.createSubscription info.name topic with
      | .error e => .error e
      | .ok (subscription, state) =>
        .ok (subscription,
          SubscriptionActor.start info topic m.pushRegistry state topicManagerForDlq)

/-- The actor of a created subscription knows the topic manager exactly if the
subscription was created with a dead letter policy. -/
lemma start_of_createSubscription {m : SubscriptionManager} {info : SubscriptionInfo}
    {topic : Topic} {subscription : Subscription} {a : SubscriptionActor}
    (h : m.createSubscription info topic = .ok (subscription, a)) :
    ∃ state, a = SubscriptionActor.start info topic m.pushRegistry state
      (info.deadLetterPolicy.map fun _ => ⟨⟩) := by
  unfold createSubscription at h
  split_ifs at h
  split at h
  · cases h
  · next topicManager hdlq =>
    split at h
    · cases h
    · next subscription' state hstate =>
      cases h
      refine ⟨state, ?_⟩
      have htm : topicManager = info.deadLetterPolicy.map fun _ => ⟨⟩ := by
        unfold topicManagerForDlq at hdlq
        split at hdlq
        · next dlp hdlp =>
          split at hdlq
          · cases hdlq
            rw [hdlp]
            rfl
          · cases hdlq
        · next hdlp =>
          cases hdlq
          rw [hdlp]
          rfl
      rw [htm]

end SubscriptionManager

end Deltio
