import Deltio.Names
import Deltio.Runs

namespace Deltio

open Lib

def OutstandingMessageTracker.oldestPublishedAt (t : OutstandingMessageTracker) :
    Option SystemTime :=
  (t.messages.values.map fun m => m.message.publishedAt).min?

/-- Stats for the subscription.  The age is exact here and in nanoseconds. -/
structure SubscriptionStats where
  subscriptionName : SubscriptionName
  topicName : TopicName
  outstandingMessagesCount : ℕ
  backlogMessagesCount : ℕ
  retryMessagesCount : ℕ
  oldestUnackedAge : Duration
  counters : SubscriptionCounters
deriving DecidableEq

namespace SubscriptionActor

/-- Gets the stats for the subscription, at the given wall clock; `topicAlive` says
whether the topic still exists. -/
def getStats (a : SubscriptionActor) (now : SystemTime) (topicAlive : Bool) : SubscriptionStats where
  subscriptionName := a.info.name
  topicName := if topicAlive then a.topic.name else .deleted
  outstandingMessagesCount := a.outstanding.len
  -- Messages held in per-ordering-key queues count towards the backlog.
  backlogMessagesCount := a.backlog.length + (a.orderedQueues.values.map List.length).sum
  retryMessagesCount := a.retryQueue.len
  oldestUnackedAge := match a.outstanding.oldestPublishedAt with
    | some publishedAt => (now - publishedAt).toNat
    | none => 0
  counters := a.counters

/-- None of the six containers has anything in it. -/
structure HoldsNothing (a : SubscriptionActor) : Prop where
  backlog : a.backlog = []
  orderedQueues : a.orderedQueues = ∅
  outstanding : a.outstanding.messages = ∅ ∧ a.outstanding.expirations = ∅
  retryQueue : a.retryQueue.messages = ∅ ∧ a.retryQueue.schedule = ∅
  deliveryAttempts : a.deliveryAttempts = ∅
  keysInFlight : a.keysInFlight = ∅

lemma HoldsNothing.getStats {a : SubscriptionActor} (h : a.HoldsNothing) (now : SystemTime)
    (topicAlive : Bool) : (a.getStats now topicAlive).outstandingMessagesCount = 0 ∧
      (a.getStats now topicAlive).backlogMessagesCount = 0 ∧
      (a.getStats now topicAlive).retryMessagesCount = 0 := by
  simp only [SubscriptionActor.getStats, OutstandingMessageTracker.len, RetryQueue.len, h.backlog,
    h.orderedQueues, h.outstanding, h.retryQueue]
  exact ⟨rfl, rfl, rfl⟩

lemma holdsNothing_clearMessages (a : SubscriptionActor) : a.clearMessages.HoldsNothing :=
  ⟨rfl, rfl, ⟨rfl, rfl⟩, ⟨rfl, rfl⟩, rfl, rfl⟩

def Queued (a : SubscriptionActor) : Prop := a.backlog ≠ [] ∨ ∃ key, a.queueOf key ≠ []

lemma HoldsNothing.not_queued {a : SubscriptionActor} (h : a.HoldsNothing) : ¬ a.Queued := by
  rintro (hb | ⟨key, hq⟩)
  · exact hb h.backlog
  · refine hq ?_
    rw [queueOf, h.orderedQueues]
    rfl

lemma queued_enqueue (a : SubscriptionActor) (m : TopicMessage) : (a.enqueue m).Queued := by
  unfold enqueue
  split
  · next key _ _ =>
    refine .inr ⟨key, ?_⟩
    simp [queueOf]
  · exact .inl (List.append_ne_nil_of_right_ne_nil _ (List.cons_ne_nil m []))

lemma queued_postLoop {msgs : List TopicMessage} {hadAny : Bool} {a : SubscriptionActor}
    (h : a.Queued ∨ ∃ m ∈ msgs, a.accepts m = true) : (postLoop msgs hadAny a).2.Queued := by
  induction msgs generalizing hadAny a with
  | nil =>
    rcases h with h | ⟨m, hm, -⟩
    · exact h
    · cases hm
  | cons msg msgs ih =>
    unfold postLoop
    split_ifs with hacc
    · exact ih (.inl (a.queued_enqueue msg))
    · refine ih ?_
      rcases h with h | ⟨m, hm, hm'⟩
      · exact .inl h
      · rcases List.mem_cons.mp hm with rfl | hm
        · exact absurd hm' hacc
        · exact .inr ⟨m, hm, hm'⟩

lemma postLoop_of_rejected {msgs : List TopicMessage} {hadAny : Bool} {a : SubscriptionActor}
    (h : ∀ m ∈ msgs, a.accepts m = false) : postLoop msgs hadAny a = (hadAny, a) := by
  induction msgs with
  | nil => rfl
  | cons msg msgs ih =>
    unfold postLoop
    rw [h msg List.mem_cons_self, if_neg Bool.false_ne_true]
    exact ih fun m hm => h m (List.mem_cons_of_mem _ hm)

lemma holdsNothing_postMessages_iff {a : SubscriptionActor} (h : a.HoldsNothing)
    (msgs : List TopicMessage) :
    (a.postMessages msgs).HoldsNothing ↔ a.deleted = true ∨ ∀ m ∈ msgs, a.accepts m = false := by
  unfold postMessages
  by_cases hd : a.deleted = true
  · rw [if_pos hd]
    exact iff_of_true h (.inl hd)
  · rw [if_neg hd, or_iff_right hd]
    constructor
    · intro hpost m hm
      by_contra hacc
      have hqueued : (postLoop msgs false a).2.Queued :=
        queued_postLoop (.inr ⟨m, hm, Bool.not_eq_false _ ▸ hacc⟩)
      have hnone := hpost.not_queued
      dsimp only at hnone
      split_ifs at hnone <;> exact hnone hqueued
    · intro hrejected
      rw [postLoop_of_rejected hrejected]
      exact h

lemma holdsNothing_requeueMessages_nil {a : SubscriptionActor} (h : a.HoldsNothing) (env : Env) :
    (a.requeueMessages env []).HoldsNothing := by
  have hsame : a.requeueMessages env [] = a := by
    change (if a.backlog.isEmpty then a else a.notifyNewMessagesAvailable) = a
    rw [h.backlog]
    rfl
  rw [hsame]
  exact h

lemma HoldsNothing.acknowledgeMessages {a : SubscriptionActor} (h : a.HoldsNothing)
    (ackIds : List AckId) : (a.acknowledgeMessages ackIds).2.HoldsNothing := by
  have hstale : ackIds.filter a.outstanding.contains = [] := by
    rw [List.filter_eq_nil_iff]
    intro id _
    rw [OutstandingMessageTracker.contains, h.outstanding.1]
    exact Bool.false_ne_true
  unfold SubscriptionActor.acknowledgeMessages
  split_ifs
  · exact h
  · rw [hstale]
    exact ⟨h.backlog, h.orderedQueues, h.outstanding, h.retryQueue, h.deliveryAttempts,
      h.keysInFlight⟩

lemma HoldsNothing.modifyDeadline {a : SubscriptionActor} (h : a.HoldsNothing) (env : Env)
    (modifications : List DeadlineModification) :
    (a.modifyDeadline env modifications).2.HoldsNothing := by
  have hnone : a.outstanding.modify modifications = ([], a.outstanding) := by
    refine OutstandingMessageTracker.modify_of_absent fun d _ => ?_
    rw [h.outstanding.1]
    rfl
  unfold SubscriptionActor.modifyDeadline
  split_ifs
  · exact h
  · dsimp only
    rw [hnone]
    exact holdsNothing_requeueMessages_nil ⟨h.backlog, h.orderedQueues, h.outstanding, h.retryQueue,
      h.deliveryAttempts, h.keysInFlight⟩ env

lemma HoldsNothing.pollExpired {a : SubscriptionActor} (h : a.HoldsNothing) (env : Env)
    (polledAt : Instant) : (a.pollExpired env polledAt).HoldsNothing := by
  have hnone : a.outstanding.takeExpired polledAt = ([], a.outstanding) := by
    refine OutstandingMessageTracker.takeExpired_of_first fun key hkey => ?_
    rw [h.outstanding.2] at hkey
    cases hkey
  unfold SubscriptionActor.pollExpired
  rw [hnone]
  exact h

lemma HoldsNothing.pollReady {a : SubscriptionActor} (h : a.HoldsNothing) (env : Env)
    (polledAt : Instant) : (a.pollReady env polledAt).HoldsNothing := by
  have hnone : a.retryQueue.takeReady polledAt = ([], a.retryQueue) := by
    unfold RetryQueue.takeReady
    rw [SortedSet.popWhile_of_first]
    · rfl
    · intro key hkey
      rw [h.retryQueue.2] at hkey
      cases hkey
  unfold SubscriptionActor.pollReady
  rw [hnone]
  exact h

lemma HoldsNothing.seekToTime {a : SubscriptionActor} (h : a.HoldsNothing) (order : DrainOrder)
    (seekTime : SystemTime) : (a.seekToTime order seekTime).HoldsNothing := by
  have hout : (a.outstanding.drain order.outstanding).1.map PulledMessage.message ++
      (a.retryQueue.drain order.retrying).1 = [] := by
    have houtstanding : order.outstanding a.outstanding.messages.values = [] := by
      rw [h.outstanding.1]
      exact (order.outstanding_perm []).eq_nil
    have hretrying : order.retrying a.retryQueue.messages.values = [] := by
      rw [h.retryQueue.1]
      exact (order.retrying_perm []).eq_nil
    rw [OutstandingMessageTracker.drain, RetryQueue.drain, houtstanding, hretrying]
    rfl
  unfold SubscriptionActor.seekToTime
  split_ifs
  · exact h
  · dsimp only
    rw [hout]
    refine ⟨?_, ?_, ⟨rfl, rfl⟩, ⟨rfl, rfl⟩, rfl, rfl⟩
    · change a.backlog.filter _ = []
      rw [h.backlog]
      rfl
    · have hqueues : (a.resetTo seekTime).orderedQueues = ∅ := by
        unfold resetTo
        dsimp only
        rw [h.orderedQueues]
        rfl
      exact hqueues

lemma HoldsNothing.pullMessages {a : SubscriptionActor} (h : a.HoldsNothing)
    (hd : a.info.detached = true) (now : Instant) (maxCount maxOutstanding : UInt16) :
    (a.pullMessages now maxCount maxOutstanding).2.HoldsNothing := by
  unfold SubscriptionActor.pullMessages
  split_ifs <;> exact h

lemma HoldsNothing.delete {a : SubscriptionActor} (h : a.HoldsNothing) (topicAnswer : TopicAnswer) :
    (a.delete topicAnswer).2.HoldsNothing := by
  unfold SubscriptionActor.delete
  split_ifs
  · exact h
  · cases topicAnswer with
    | closed => exact ⟨h.backlog, h.orderedQueues, h.outstanding, h.retryQueue, h.deliveryAttempts,
        h.keysInFlight⟩
    | gone | removed => exact ⟨rfl, rfl, ⟨rfl, rfl⟩, ⟨rfl, rfl⟩, rfl, rfl⟩

/-- The event posts nothing that the subscription would keep. -/
def PostsNothing (a : SubscriptionActor) (e : ActorEvent) : Prop :=
  a.deleted = true ∨ ∀ m ∈ e.posted, a.accepts m = false

/-- A detached subscription that holds nothing keeps holding nothing exactly if nothing
is posted to it. -/
lemma holdsNothing_step_iff {a : SubscriptionActor} (h : a.HoldsNothing)
    (hd : a.info.detached = true) (e : Env × ActorEvent) :
    (a.step e).HoldsNothing ↔ a.PostsNothing e.2 := by
  have hquiet : e.2.posted = [] → (a.step e).HoldsNothing →
      ((a.step e).HoldsNothing ↔ a.PostsNothing e.2) := by
    intro hposted hstep
    refine iff_of_true hstep (.inr ?_)
    simp [hposted]
  obtain ⟨env, event⟩ := e
  cases event with
  | expired polledAt => exact hquiet rfl (h.pollExpired env polledAt)
  | retryReady polledAt => exact hquiet rfl (h.pollReady env polledAt)
  | request r =>
    cases r with
    | postMessages messages => exact holdsNothing_postMessages_iff h messages
    | pullMessages maxCount maxOutstanding => exact hquiet rfl (h.pullMessages hd _ _ _)
    | acknowledgeMessages ackIds => exact hquiet rfl (h.acknowledgeMessages ackIds)
    | modifyDeadline modifications => exact hquiet rfl (h.modifyDeadline env modifications)
    | seek seekTime => exact hquiet rfl (h.seekToTime env.order seekTime)
    | delete => exact hquiet rfl (h.delete env.topicAnswer)
    | detach =>
      have hstep : a.step (env, .request .detach) = a := if_pos hd
      exact hquiet rfl (by rw [hstep]; exact h)
    | getInfo => exact hquiet rfl h
    | getStats => exact hquiet rfl h
    | updateInfo update => exact hquiet rfl ⟨h.backlog, h.orderedQueues, h.outstanding,
        h.retryQueue, h.deliveryAttempts, h.keysInFlight⟩
    | modifyPushConfig pushConfig => exact hquiet rfl ⟨h.backlog, h.orderedQueues, h.outstanding,
        h.retryQueue, h.deliveryAttempts, h.keysInFlight⟩

lemma detached_step {a : SubscriptionActor} (hs : a.Sound) (e : Env × ActorEvent) :
    (a.step e).info.detached = true ↔ a.info.detached = true ∨ e.2 = .request .detach := by
  obtain ⟨env, event⟩ := e
  rcases config_step_cases hs env event with
    ⟨hr, hconfig⟩ | ⟨update, rfl⟩ | ⟨pushConfig, rfl⟩ | rfl | rfl
  · have hne : event ≠ .request .detach := by
      rintro rfl
      exact hr trivial
    rw [info_of_config hconfig, or_iff_left hne]
  · simp [step, receive, updateInfo, SubscriptionInfo.applyUpdate]
  · simp [step, receive, modifyPushConfig]
  · have hinfo : (a.delete env.topicAnswer).2.info = a.info := by
      unfold delete
      split_ifs
      · rfl
      · cases env.topicAnswer <;> rfl
    simp [step, receive, hinfo]
  · exact iff_of_true a.detached_detach (.inr rfl)

lemma detached_run {a : SubscriptionActor} (hs : a.Sound) (es : List (Env × ActorEvent)) :
    (a.run es).info.detached = true ↔
      a.info.detached = true ∨ ∃ e ∈ es, e.2 = .request .detach := by
  induction es generalizing a with
  | nil => simp [run]
  | cons e es ih =>
    change ((a.step e).run es).info.detached = true ↔ _
    rw [ih (hs.step e), detached_step hs, or_assoc]
    simp only [List.mem_cons, exists_eq_or_imp]

/-- The condition on a step: what is posted to a detached subscription is not kept. -/
def DetachedQuiet (a : SubscriptionActor) (e : Env × ActorEvent) : Prop :=
  a.info.detached = true → a.PostsNothing e.2

lemma detached_holdsNothing_step_iff {a : SubscriptionActor} (e : Env × ActorEvent)
    (hs : a.Sound) (h : a.info.detached = true → a.HoldsNothing) :
    ((a.step e).info.detached = true → (a.step e).HoldsNothing) ↔ a.DetachedQuiet e := by
  by_cases hd : a.info.detached = true
  · have hafter : (a.step e).info.detached = true := (detached_step hs e).mpr (.inl hd)
    rw [forall_prop_of_true hafter, holdsNothing_step_iff (h hd) hd e]
    exact ⟨fun hpost _ => hpost, fun hquiet => hquiet hd⟩
  · refine iff_of_true (fun hafter => ?_) fun hd' => absurd hd' hd
    -- the detach itself
    have he : e.2 = .request .detach := ((detached_step hs e).mp hafter).resolve_left hd
    have hstep : a.step e = clearMessages { a with info := { a.info with detached := true } } := by
      obtain ⟨env, event⟩ := e
      rw [show event = _ from he]
      exact if_neg hd
    rw [hstep]
    exact holdsNothing_clearMessages _

section

variable (info : SubscriptionInfo) (topic : Topic) (pushRegistry : PushSubscriptionsRegistry)
  (delegate : SubscriptionManagerState) (topicManager : Option TopicManagerRef)

/-- A subscription holds nothing after Detach, in every state of a run, exactly if every
later post finds it deleted or has no message that passes the filter. -/
theorem detached_holds_nothing_iff (es : List (Env × ActorEvent)) (hnew : info.detached = false) :
    (∀ n, (∃ e ∈ es.take n, e.2 = .request .detach) →
      let a := (start info topic pushRegistry delegate topicManager).run (es.take n)
      a.HoldsNothing ∧ ∀ now topicAlive, (a.getStats now topicAlive).outstandingMessagesCount = 0 ∧
        (a.getStats now topicAlive).backlogMessagesCount = 0 ∧
        (a.getStats now topicAlive).retryMessagesCount = 0) ↔
      Along DetachedQuiet (start info topic pushRegistry delegate topicManager) es := by
  set a := start info topic pushRegistry delegate topicManager with ha
  have hs : a.Sound := sound_start info topic pushRegistry delegate topicManager
  have hstart : a.info.detached = true → a.HoldsNothing := by
    intro hd
    exact absurd hd (ne_true_of_eq_false hnew)
  rw [← forall_run_take_iff (I := fun b => b.info.detached = true → b.HoldsNothing)
    (fun b e hb hI => detached_holdsNothing_step_iff e hb hI) hs hstart es]
  refine forall_congr' fun n => ?_
  have hdetached : (a.run (es.take n)).info.detached = true ↔
      ∃ e ∈ es.take n, e.2 = .request .detach := by
    rw [detached_run hs, or_iff_right]
    exact ne_true_of_eq_false hnew
  rw [hdetached]
  refine forall_congr' fun _ => ?_
  exact ⟨fun h => h.1, fun h => ⟨h, h.getStats⟩⟩

end

/-- A post after the detach whose only message the filter rejects. -/
theorem detached_holds_nothing_when_filtered :
    let info := { Sample.info with filter := some "attributes:kind" }
    let es := Sample.events [.detach, .postMessages [Sample.message 1 none]]
    ∀ n, (∃ e ∈ es.take n, e.2 = .request .detach) →
      ((Sample.start info).run (es.take n)).HoldsNothing := by
  intro info es n hn
  have hquiet : Along DetachedQuiet (start info Sample.topic ∅ .new none) es := by
    refine ⟨?_, ?_, trivial⟩
    · intro _
      exact .inr (by decide)
    · intro _
      exact .inr (by decide +kernel)
  exact ((detached_holds_nothing_iff info Sample.topic ∅ .new none es rfl).mpr hquiet n hn).1

/-- A message posted after the detach stays in the backlog. -/
theorem detached_subscription_keeps_post :
    let a := (Sample.start Sample.info).run (Sample.events
      [.detach, .postMessages [Sample.message 1 none]])
    a.backlog = [Sample.message 1 none] ∧ (a.getStats 0 true).backlogMessagesCount = 1 := by
  decide +kernel

end SubscriptionActor

end Deltio
