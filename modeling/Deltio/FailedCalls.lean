import Deltio.DeadLetter

namespace Deltio

open Lib

inductive AttachAnswer where
  | attached
  | closed
deriving DecidableEq

namespace SubscriptionManager

/-- The whole of `create_subscription`: the result, and what the manager holds after the
call.  Starting the actor has set the push config. -/
def createAndAttach (m : SubscriptionManager) (info : SubscriptionInfo) (topic : Topic)
    (answer : AttachAnswer) : Except CreateSubscriptionError Subscription × SubscriptionManager :=
  match m.createSubscription info topic with
  | .error e => (.error e, m)
  | .ok (subscription, actor) =>
    let m := { m with state := actor.delegate, pushRegistry := actor.pushRegistry }
    match answer with
    | .attached => (.ok subscription, m)
    -- returns without taking the subscription out again
    | .closed => (.error .closed, m)

def Rejects (m : SubscriptionManager) (info : SubscriptionInfo) (topic : Topic) : Prop :=
  topic.name.isInProject info.name.projectId = false ∨
    (∃ dlp, info.deadLetterPolicy = some dlp ∧
      m.topicManager.getTopic dlp.deadLetterTopic = none) ∨
    ∃ taken, m.state.subscriptions.get info.name = some taken

lemma topicManagerForDlq_eq_error_iff (m : SubscriptionManager) (info : SubscriptionInfo) :
    (∃ e, m.topicManagerForDlq info = .error e) ↔
      ∃ dlp, info.deadLetterPolicy = some dlp ∧
        m.topicManager.getTopic dlp.deadLetterTopic = none := by
  unfold topicManagerForDlq
  cases hpolicy : info.deadLetterPolicy with
  | none => simp
  | some dlp =>
    cases htopic : m.topicManager.getTopic dlp.deadLetterTopic with
    | none => simp [htopic]
    | some topic => simp [htopic]

/-- A call that is rejected changes nothing, and another registers the subscription under a
name that was free. -/
lemma createSubscription_cases (m : SubscriptionManager) (info : SubscriptionInfo)
    (topic : Topic) :
    (m.Rejects info topic ∧ ∃ e, m.createSubscription info topic = .error e) ∨
      (¬ m.Rejects info topic ∧ ∃ subscription actor,
        m.createSubscription info topic = .ok (subscription, actor) ∧
          m.state.subscriptions.get info.name = none ∧
          actor.delegate.subscriptions.get info.name = some subscription) := by
  unfold createSubscription Rejects
  rw [← topicManagerForDlq_eq_error_iff]
  split_ifs with hproject
  · rw [Bool.not_eq_true'] at hproject
    exact .inl ⟨.inl hproject, _, rfl⟩
  · have hsame : ¬ topic.name.isInProject info.name.projectId = false := by
      rwa [Bool.not_eq_true'] at hproject
    rw [or_iff_right hsame]
    cases hdlq : m.topicManagerForDlq info with
    | error e => exact .inl ⟨.inl ⟨e, rfl⟩, e, rfl⟩
    | ok topicManager =>
      unfold SubscriptionManagerState.createSubscription
      cases htaken : m.state.subscriptions.get info.name with
      | some taken => exact .inl ⟨.inr ⟨taken, rfl⟩, _, rfl⟩
      | none =>
        refine .inr ⟨?_, _, _, rfl, rfl, HashMap.get_insert_self _ _ _⟩
        rintro (⟨e, he⟩ | ⟨taken, ht⟩)
        · cases he
        · cases ht

/-- A failed call leaves the registered subscriptions and push configs as they were. -/
def CreateUndone (m : SubscriptionManager) (info : SubscriptionInfo) (topic : Topic)
    (answer : AttachAnswer) : Prop :=
  ∀ e, (m.createAndAttach info topic answer).1 = .error e →
    (m.createAndAttach info topic answer).2.state.subscriptions = m.state.subscriptions ∧
      (m.createAndAttach info topic answer).2.pushRegistry = m.pushRegistry

lemma createUndone_iff (m : SubscriptionManager) (info : SubscriptionInfo) (topic : Topic)
    (answer : AttachAnswer) :
    m.CreateUndone info topic answer ↔ answer ≠ .closed ∨ m.Rejects info topic := by
  unfold CreateUndone createAndAttach
  rcases m.createSubscription_cases info topic with
    ⟨hrejects, e, he⟩ | ⟨hpasses, subscription, actor, hok, hfree, htaken⟩
  · rw [he]
    exact iff_of_true (fun _ _ => ⟨rfl, rfl⟩) (.inr hrejects)
  · rw [hok, or_iff_left hpasses]
    cases answer with
    | attached => exact iff_of_true (by simp) (by decide)
    | closed =>
      refine iff_of_false (fun h => ?_) (by simp)
      have hmap : actor.delegate.subscriptions = m.state.subscriptions := (h .closed rfl).1
      rw [hmap, hfree] at htaken
      cases htaken

end SubscriptionManager

namespace SubscriptionActor

/-- A failed delete leaves the subscription registered and with its messages, and after any
further events a delete that reaches the topic, or finds it gone, removes the subscription. -/
def DeleteUndone (a : SubscriptionActor) (answer : TopicAnswer) : Prop :=
  ∀ e, (a.delete answer).1 = .error e →
    let b := (a.delete answer).2
    ((b.delegate.subscriptions.get a.info.name).isSome ∧ b.backlog = a.backlog ∧
      b.orderedQueues = a.orderedQueues ∧ b.outstanding = a.outstanding ∧
      b.retryQueue = a.retryQueue) ∧
    ∀ es later, later ≠ .closed →
      let c := ((b.run es).delete later).2
      c.delegate.subscriptions.get a.info.name = none ∧ c.pushRegistry.get a.info.name = none

lemma deleteUndone_iff (a : SubscriptionActor) (answer : TopicAnswer) :
    a.DeleteUndone answer ↔ a.deleted = true ∨ answer ≠ .closed := by
  unfold DeleteUndone
  by_cases hdeleted : a.deleted = true
  · refine iff_of_true (fun e he => ?_) (.inl hdeleted)
    unfold delete at he
    rw [if_pos hdeleted] at he
    cases he
  · rw [or_iff_right hdeleted]
    cases answer with
    | gone | removed =>
      refine iff_of_true (fun e he => ?_) (by decide)
      unfold delete at he
      rw [if_neg hdeleted] at he
      cases he
    | closed =>
      refine iff_of_false (fun h => ?_) (by simp)
      have hfails : a.delete .closed = (.error .closed, { a with deleted := true }) := by
        rw [delete, if_neg hdeleted]
      rw [hfails] at h
      obtain ⟨⟨hthere, -⟩, hlater⟩ := h .closed rfl
      -- the flag is set, so the next delete does nothing
      have hgone : a.delegate.subscriptions.get a.info.name = none :=
        (hlater [] .removed (by decide)).1
      have hsome : (a.delegate.subscriptions.get a.info.name).isSome := hthere
      rw [hgone] at hsome
      cases hsome

end SubscriptionActor

/-- A failed create leaves nothing behind exactly if it failed before the attach, and a
failed delete can be made up for only if there was none. -/
theorem failed_calls_undone_iff (m : SubscriptionManager) (info : SubscriptionInfo)
    (topic : Topic) (attach : AttachAnswer) (a : SubscriptionActor) (answer : TopicAnswer) :
    (m.CreateUndone info topic attach ↔ attach ≠ .closed ∨ m.Rejects info topic) ∧
      (a.DeleteUndone answer ↔ a.deleted = true ∨ answer ≠ .closed) :=
  ⟨m.createUndone_iff info topic attach, a.deleteUndone_iff answer⟩

namespace Sample

def pushedInfo : SubscriptionInfo := { info with pushConfig := some (pushTo "http://localhost") }

def pushedActor : SubscriptionActor :=
  SubscriptionActor.start pushedInfo topic ∅
    ⟨HashMap.insert ∅ pushedInfo.name ⟨pushedInfo.name, 2, topic⟩, 2⟩ none

end Sample

/-- With a closed topic the subscription that could not be created is registered, and the
one that could not be deleted stays after the next delete. -/
theorem closed_topic_leaves_calls_half_done :
    ¬ Sample.manager.CreateUndone Sample.pushedInfo Sample.topic .closed ∧
      ¬ Sample.pushedActor.DeleteUndone .closed := by
  constructor
  · intro h
    have hmap := (h .closed (by decide +kernel)).1
    have htaken : ((Sample.manager.createAndAttach Sample.pushedInfo Sample.topic
        .closed).2.state.subscriptions.get Sample.pushedInfo.name).isSome := by decide +kernel
    rw [hmap] at htaken
    exact absurd htaken (by decide)
  · intro h
    have hgone := ((h .closed (by decide +kernel)).2 [] .removed (by decide)).1
    revert hgone
    decide +kernel

end Deltio
