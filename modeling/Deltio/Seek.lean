import Deltio.Attempts
import Deltio.KeyOrder

namespace Deltio.SubscriptionActor

open Lib Places

def queued (a : SubscriptionActor) : List TopicMessage :=
  a.backlog ++ a.orderedQueues.values.flatten

lemma count_queued {a : SubscriptionActor} (h : a.places.Keyed a.route) (m : TopicMessage) :
    a.queued.count m = a.places.backlog.count m + (a.places.own a.route m).count m := by
  rw [queued, List.count_append, count_flatten_orderedQueues h]
  rfl

lemma mem_queued {a : SubscriptionActor} {m : TopicMessage} :
    m ∈ a.queued ↔ m ∈ a.backlog ∨ ∃ key, m ∈ a.queueOf key := by
  unfold queued
  rw [List.mem_append, List.mem_flatten]
  refine or_congr_right ⟨?_, ?_⟩
  · rintro ⟨queue, hqueue, hm⟩
    obtain ⟨key, hkey⟩ := (HashMap.mem_values _ _).mp hqueue
    refine ⟨key, ?_⟩
    rw [queueOf, hkey]
    exact hm
  · rintro ⟨key, hm⟩
    unfold queueOf at hm
    cases hget : a.orderedQueues.get key with
    | none =>
      rw [hget] at hm
      cases hm
    | some queue =>
      rw [hget] at hm
      exact ⟨queue, (HashMap.mem_values _ _).mpr ⟨key, hget⟩, hm⟩

/-- What is newer than the seek time is queued again, once for each time it was there. -/
lemma queued_seekToTime {a : SubscriptionActor} (h : a.places.Keyed a.route)
    (hdeleted : a.deleted = false) (order : DrainOrder) (seekTime : SystemTime) :
    (a.seekToTime order seekTime).queued.Perm
      ((a.queued ++ a.outstanding.held ++ a.retryQueue.held).filter (newerThan seekTime)) := by
  obtain ⟨hplaces, hconfig, -⟩ := seekToTime_spec order seekTime hdeleted
  have hroute : (a.seekToTime order seekTime).route = a.route := by
    rw [route, info_of_config hconfig]
  have hkeyed : (a.seekToTime order seekTime).places.Keyed (a.seekToTime order seekTime).route := by
    rw [hroute]
    exact (simulates_seekToTime order seekTime h hdeleted).steps.preserves
      (fun _ _ _ _ hp hstep => hstep.keyed hp) h
  rw [List.perm_iff_count]
  intro m
  rw [count_queued hkeyed, hroute, hplaces, count_rewind, count_filter_ite, List.append_assoc,
    List.count_append, count_queued h, (a.drained_perm order).count_eq]

lemma custody_seekToTime {a : SubscriptionActor} (hdeleted : a.deleted = false)
    (order : DrainOrder) (seekTime : SystemTime) :
    (a.seekToTime order seekTime).custody = (a.resetTo seekTime).custody := by
  unfold seekToTime
  rw [if_neg (ne_true_of_eq_false hdeleted)]
  exact custody_foldl_seekOne seekTime _ (a.resetTo seekTime)

lemma attempts_seekToTime {a : SubscriptionActor} (hdeleted : a.deleted = false)
    (order : DrainOrder) (seekTime : SystemTime) :
    (a.seekToTime order seekTime).deliveryAttempts = ∅ := by
  unfold seekToTime
  rw [if_neg (ne_true_of_eq_false hdeleted)]
  exact attempts_foldl_seekOne seekTime _ (a.resetTo seekTime)

section

variable (info : SubscriptionInfo) (topic : Topic) (pushRegistry : PushSubscriptionsRegistry)
  (delegate : SubscriptionManagerState) (topicManager : Option TopicManagerRef)

/-- A seek empties what is in flight and queues exactly what is newer than the seek time:
keyed messages in the queues of their keys and in order of publication, and in the backlog
the messages that were there before, in their order, and then others. -/
theorem seek_resets_delivery (es : List (Env × ActorEvent))
    (hinc : (posted es).Pairwise fun m m' => m.id.value < m'.id.value) (order : DrainOrder)
    (seekTime : SystemTime) :
    let a := (start info topic pushRegistry delegate topicManager).run es
    let b := a.seekToTime order seekTime
    a.deleted = false →
    (b.outstanding.messages = ∅ ∧ b.outstanding.expirations = ∅ ∧ b.retryQueue.messages = ∅ ∧
      b.retryQueue.schedule = ∅ ∧ b.keysInFlight = ∅ ∧ b.deliveryAttempts = ∅) ∧
    (b.queued : Multiset TopicMessage) =
      ((a.queued ++ a.outstanding.held ++ a.retryQueue.held : List TopicMessage) :
        Multiset TopicMessage).filter (fun m => seekTime < m.publishedAt) ∧
    (a.info.enableMessageOrdering = true →
      (∀ m ∈ b.queued, ∀ key, m.orderingKey = some key → m ∈ b.queueOf key) ∧
      ∀ key, (∀ m ∈ b.queueOf key, m.orderingKey = some key) ∧
        (b.queueOf key).Pairwise fun m m' => m.id.value < m'.id.value) ∧
    (∃ back, b.backlog = a.backlog.filter (fun m => seekTime < m.publishedAt) ++ back) ∧
    b.counters = a.counters ∧ b.nextAckId = a.nextAckId := by
  intro a b hdeleted
  have hsound : a.Sound := (sound_start info topic pushRegistry delegate topicManager).run es
  obtain ⟨hplaces, -, -⟩ := seekToTime_spec order seekTime hdeleted
  have hordered : b.places.Ordered a.route rank := by
    rw [hplaces]
    exact (ordered_run info topic pushRegistry delegate topicManager hinc).rewind
      ((Multiset.coe_eq_coe.mpr (a.drained_perm order)).trans (Multiset.coe_add _ _).symm)
  have hcustody := custody_seekToTime hdeleted order seekTime
  refine ⟨⟨?_, ?_, ?_, ?_, ?_, attempts_seekToTime hdeleted order seekTime⟩, ?_, ?_, ?_,
    a.counters_seek order seekTime, congrArg Custody.nextAckId hcustody⟩
  · exact congrArg (·.outstanding.messages) hcustody
  · exact congrArg (·.outstanding.expirations) hcustody
  · exact congrArg (·.retryQueue.messages) hcustody
  · exact congrArg (·.retryQueue.schedule) hcustody
  · exact congrArg (·.busy) hplaces
  · rw [Multiset.filter_coe, Multiset.coe_eq_coe]
    exact queued_seekToTime hsound.keyed hdeleted order seekTime
  · intro ho
    have hroute : ∀ m : TopicMessage, a.route m = m.orderingKey := fun m => by
      simp [route, routeOf, ho]
    have hkey : ∀ key, ∀ m ∈ b.queueOf key, m.orderingKey = some key := by
      intro key m hm
      rw [← hroute m]
      exact hordered.keyed key m hm
    refine ⟨?_, fun key => ⟨hkey key, hordered.increasing key⟩⟩
    intro m hm key hk
    rcases mem_queued.mp hm with hbacklog | ⟨key', hqueue⟩
    · have hnone := hordered.unkeyed m hbacklog
      rw [hroute, hk] at hnone
      cases hnone
    · have hsame : key' = key := Option.some.inj ((hkey key' m hqueue).symm.trans hk)
      exact hsame ▸ hqueue
  · exact ⟨_, congrArg (·.backlog) hplaces⟩

end

/-- The first message of a key is outstanding when a seek puts it back in front of the
second; the message without a key is too old. -/
theorem seek_puts_key_back :
    let a := (Sample.start Sample.info).run (Sample.events
      [.postMessages [Sample.message 1 none, Sample.message 2 (some "k"),
        Sample.message 3 (some "k")], .pullMessages 10 0])
    let b := a.seekToTime .identity 1
    b.queueOf "k" = [Sample.message 2 (some "k"), Sample.message 3 (some "k")] ∧
      b.keysInFlight = ∅ ∧ (b.queueOf "k").Pairwise fun m m' => m.id.value < m'.id.value := by
  intro a b
  obtain ⟨⟨-, -, -, -, hkeys, -⟩, -, hordered, -⟩ := seek_resets_delivery Sample.info Sample.topic ∅
    .new none (Sample.events [.postMessages [Sample.message 1 none, Sample.message 2 (some "k"),
      Sample.message 3 (some "k")], .pullMessages 10 0]) (by decide) .identity 1 (by decide +kernel)
  exact ⟨by decide +kernel, hkeys, ((hordered (by decide +kernel)).2 "k").2⟩

end Deltio.SubscriptionActor
