import Deltio.Lib.Registry
import Deltio.Subscription

namespace Deltio

open Lib

inductive CreateTopicError where
  | alreadyExists
  | closed
deriving DecidableEq

namespace TopicManager

def new : TopicManager := ⟨∅, 1⟩

def createTopic (m : TopicManager) (name : TopicName) :
    Except CreateTopicError (Topic × TopicManager) :=
  match m.topics.get name with
  | some _ => .error .alreadyExists
  | none =>
    let internalId := m.nextId + 1
    let topic : Topic := ⟨name, internalId⟩
    .ok (topic, ⟨m.topics.insert name topic, internalId⟩)

/-- `TopicManagerDelegate::delete`. -/
def delete (m : TopicManager) (name : TopicName) : TopicManager :=
  { m with topics := m.topics.remove name }

/-- The topics are numbered in the order of their creation. -/
def Numbered (m : TopicManager) : Prop := Lib.Numbered Topic.name Topic.internalId m.topics m.nextId

lemma numbered_new : new.Numbered := .empty _ _ _

lemma createTopic_eq_ok {m m' : TopicManager} {name : TopicName} {t : Topic}
    (h : m.createTopic name = .ok (t, m')) :
    m.topics.get name = none ∧ t = ⟨name, m.nextId + 1⟩ ∧
      m' = ⟨m.topics.insert name t, m.nextId + 1⟩ := by
  unfold createTopic at h
  split at h
  · cases h
  · next hfree =>
    cases h
    exact ⟨hfree, rfl, rfl⟩

end TopicManager

namespace SubscriptionManagerState

def Numbered (m : SubscriptionManagerState) : Prop :=
  Lib.Numbered Subscription.name Subscription.internalId m.subscriptions m.nextId

lemma createSubscription_eq_ok {m m' : SubscriptionManagerState} {name : SubscriptionName}
    {topic : Topic} {s : Subscription} (h : m.createSubscription name topic = .ok (s, m')) :
    m.subscriptions.get name = none ∧ s = ⟨name, m.nextId + 1, topic⟩ ∧
      m' = ⟨m.subscriptions.insert name s, m.nextId + 1⟩ := by
  unfold createSubscription at h
  split at h
  · cases h
  · next hfree =>
    cases h
    exact ⟨hfree, rfl, rfl⟩

end SubscriptionManagerState

end Deltio
