import Deltio.Frames
import Deltio.Runs

namespace Deltio.SubscriptionActor

open Lib Places

/-- The message is in the backlog, or in the queue of a key that is not in
flight. -/
def Deliverable (a : SubscriptionActor) (m : TopicMessage) : Prop :=
  m ∈ a.backlog ∨ ∃ key, key ∉ a.keysInFlight ∧ m ∈ a.queueOf key

lemma deliverable_iff_available (a : SubscriptionActor) (m : TopicMessage) :
    a.Deliverable m ↔ a.places.Available m := Iff.rfl

def Notified (a b : SubscriptionActor) : Prop :=
  a.observer.newMessagesAvailable < b.observer.newMessagesAvailable ∨
    a.observer.outstandingFreed < b.observer.outstandingFreed

/-- If the event leaves a deliverable message, and made a message deliverable or
lowered the outstanding count, it signals. -/
def Wakes (a : SubscriptionActor) (e : Env × ActorEvent) : Prop :=
  (∃ m, (a.step e).Deliverable m) →
    ((∃ m, (a.step e).Deliverable m ∧ ¬ a.Deliverable m) ∨
      (a.step e).outstanding.len < a.outstanding.len) →
    Notified a (a.step e)

lemma idleKeys_ne_nil_iff (a : SubscriptionActor) :
    a.idleKeys ≠ [] ↔ ∃ key, key ∉ a.keysInFlight ∧ a.queueOf key ≠ [] := by
  constructor
  · intro h
    obtain ⟨key, hkey⟩ := List.exists_mem_of_ne_nil _ h
    exact ⟨key, mem_idleKeys.mp hkey⟩
  · rintro ⟨key, hkey⟩
    exact List.ne_nil_of_mem (mem_idleKeys.mpr hkey)

lemma exists_deliverable_iff (a : SubscriptionActor) :
    (∃ m, a.Deliverable m) ↔ a.backlog ≠ [] ∨ a.idleKeys ≠ [] := by
  rw [idleKeys_ne_nil_iff]
  constructor
  · rintro ⟨m, hb | ⟨key, hidle, hq⟩⟩
    · exact .inl (List.ne_nil_of_mem hb)
    · exact .inr ⟨key, hidle, List.ne_nil_of_mem hq⟩
  · rintro (hb | ⟨key, hidle, hq⟩)
    · obtain ⟨m, hm⟩ := List.exists_mem_of_ne_nil _ hb
      exact ⟨m, .inl hm⟩
    · obtain ⟨m, hm⟩ := List.exists_mem_of_ne_nil _ hq
      exact ⟨m, .inr ⟨key, hidle, hm⟩⟩

/-- What a pull tests for is that something is deliverable. -/
lemma morePending_iff (a : SubscriptionActor) :
    a.morePending = true ↔ ∃ m, a.Deliverable m := by
  rw [exists_deliverable_iff]
  simp [morePending]

lemma effectiveMax_eq_zero_iff (a : SubscriptionActor) (maxCount maxOutstanding : UInt16) :
    a.effectiveMax maxCount maxOutstanding = 0 ↔
      maxCount = 0 ∨ (maxOutstanding ≠ 0 ∧ maxOutstanding.toNat ≤ a.outstanding.len % 2 ^ 16) := by
  have hcount : maxCount = 0 ↔ maxCount.toNat = 0 := by
    rw [← UInt16.toNat_inj]
    rfl
  have hout : maxOutstanding = 0 ↔ maxOutstanding.toNat = 0 := by
    rw [← UInt16.toNat_inj]
    rfl
  rw [hcount, ne_eq, hout]
  unfold effectiveMax maxPullCount
  dsimp only
  split_ifs <;> omega

/-- If a deliverable message remains after the pull, the pull itself signalled. -/
def PullPassesOn (a : SubscriptionActor) (now : Instant) (maxCount maxOutstanding : UInt16) :
    Prop :=
  let b := (a.pullMessages now maxCount maxOutstanding).2
  (∃ m, b.Deliverable m) → a.observer.newMessagesAvailable < b.observer.newMessagesAvailable

/-- A pull that gets past the early return signals whatever it leaves behind. -/
lemma pullPassesOn_of_capacity {a : SubscriptionActor} (hdel : a.deleted = false)
    (hdet : a.info.detached = false) {now : Instant} {maxCount maxOutstanding : UInt16}
    (hcap : a.effectiveMax maxCount maxOutstanding ≠ 0) :
    a.PullPassesOn now maxCount maxOutstanding := by
  unfold PullPassesOn pullMessages
  rw [if_neg (ne_true_of_eq_false hdel), if_neg (ne_true_of_eq_false hdet), if_neg hcap]
  dsimp only
  set b := (a.pullUpTo now (a.effectiveMax maxCount maxOutstanding)).2
  have hobs : b.observer = a.observer := observer_of_reports (a.reports_pullUpTo now _)
  intro hm
  have hpending : b.morePending = true := by
    rw [morePending_iff]
    unfold signalMore at hm
    split_ifs at hm <;> exact hm
  unfold signalMore
  rw [if_pos hpending, ← hobs]
  exact Nat.lt_succ_self _

/-- A pull passes the signal on exactly if it has capacity or nothing was
deliverable: a pull without capacity returns early. -/
theorem pull_passes_on_iff (a : SubscriptionActor) (hdel : a.deleted = false)
    (hdet : a.info.detached = false) (now : Instant) (maxCount maxOutstanding : UInt16) :
    a.PullPassesOn now maxCount maxOutstanding ↔
      (maxCount ≠ 0 ∧
        (maxOutstanding = 0 ∨ a.outstanding.len % 2 ^ 16 < maxOutstanding.toNat)) ∨
      ¬ ∃ m, a.Deliverable m := by
  by_cases hcap : a.effectiveMax maxCount maxOutstanding = 0
  · have hsame : (a.pullMessages now maxCount maxOutstanding).2 = a := by
      unfold pullMessages
      rw [if_neg (ne_true_of_eq_false hdel), if_neg (ne_true_of_eq_false hdet), if_pos hcap]
    have hpass : a.PullPassesOn now maxCount maxOutstanding ↔ ¬ ∃ m, a.Deliverable m := by
      unfold PullPassesOn
      rw [hsame]
      exact ⟨fun h hm => lt_irrefl _ (h hm), fun h hm => absurd hm h⟩
    rw [hpass]
    rw [effectiveMax_eq_zero_iff] at hcap
    constructor
    · exact .inr
    · rintro (⟨hc, ho⟩ | h)
      · rcases hcap with hcap | ⟨hne, hle⟩
        · exact absurd hcap hc
        · rcases ho with ho | ho
          · exact absurd ho hne
          · omega
      · exact h
  · refine iff_of_true (pullPassesOn_of_capacity hdel hdet hcap) (.inl ?_)
    rw [effectiveMax_eq_zero_iff, not_or, not_and_or, not_not, not_le] at hcap
    exact hcap

/-- A pull with room for one of two messages signals the other. -/
theorem pull_passes_on_second_message :
    ((Sample.start Sample.info).run (Sample.events
      [.postMessages [Sample.message 1 none, Sample.message 2 none]])).PullPassesOn 0 1 0 :=
  (pull_passes_on_iff _ (by decide +kernel) (by decide +kernel) 0 1 0).mpr
    (.inl ⟨by decide, .inl rfl⟩)

/-- A puller at its cap swallows the signal of a post. -/
theorem pull_at_cap_swallows_signal :
    ¬ ((Sample.start Sample.info).run (Sample.events
      [.postMessages [Sample.message 1 none], .pullMessages 10 1,
        .postMessages [Sample.message 2 none]])).PullPassesOn 0 1 1 := by
  intro h
  have hlt := h ⟨Sample.message 2 none, .inl (by decide +kernel)⟩
  revert hlt
  decide +kernel

lemma wakes_of_unchanged {a : SubscriptionActor} {e : Env × ActorEvent}
    (hd : ∀ m, (a.step e).Deliverable m → a.Deliverable m)
    (hl : a.outstanding.len ≤ (a.step e).outstanding.len) : a.Wakes e := by
  rintro - (⟨m, hm, hn⟩ | hlt)
  · exact absurd (hd m hm) hn
  · omega

lemma wakes_of_step_eq {a : SubscriptionActor} {e : Env × ActorEvent} (h : a.step e = a) :
    a.Wakes e := by
  apply wakes_of_unchanged
  · rw [h]
    exact fun _ hm => hm
  · rw [h]

lemma wakes_of_notified {a : SubscriptionActor} {e : Env × ActorEvent}
    (h : Notified a (a.step e)) : a.Wakes e := fun _ _ => h

lemma postLoop_true (msgs : List TopicMessage) (a : SubscriptionActor) :
    (postLoop msgs true a).1 = true := by
  induction msgs generalizing a with
  | nil => rfl
  | cons msg msgs ih =>
    unfold postLoop
    split_ifs
    · exact ih _
    · exact ih a

/-- Either a message was accepted, or nothing happened. -/
lemma postLoop_cases (msgs : List TopicMessage) (a : SubscriptionActor) :
    (postLoop msgs false a).1 = true ∨ postLoop msgs false a = (false, a) := by
  induction msgs with
  | nil => exact .inr rfl
  | cons msg msgs ih =>
    unfold postLoop
    split_ifs
    · exact .inl (postLoop_true msgs _)
    · exact ih

lemma wakes_postMessages (a : SubscriptionActor) (env : Env) (messages : List TopicMessage) :
    a.Wakes (env, .request (.postMessages messages)) := by
  have hstep : a.step (env, .request (.postMessages messages)) = a.postMessages messages := rfl
  unfold postMessages at hstep
  split_ifs at hstep with hd
  · exact wakes_of_step_eq hstep
  · rcases postLoop_cases messages a with h | h
    · apply wakes_of_notified
      rw [hstep]
      dsimp only
      rw [if_pos h]
      refine .inl ?_
      rw [← observer_of_reports (reports_postLoop messages false a)]
      exact Nat.lt_succ_self _
    · dsimp only at hstep
      rw [h, if_neg Bool.false_ne_true] at hstep
      exact wakes_of_step_eq hstep

lemma wakes_acknowledgeMessages (a : SubscriptionActor) (env : Env) (ackIds : List AckId) :
    a.Wakes (env, .request (.acknowledgeMessages ackIds)) := by
  have hstep : a.step (env, .request (.acknowledgeMessages ackIds)) =
    (a.acknowledgeMessages ackIds).2 := rfl
  unfold acknowledgeMessages at hstep
  split_ifs at hstep with hd
  · exact wakes_of_step_eq hstep
  · dsimp only at hstep
    set valid := ackIds.filter a.outstanding.contains
    have hlen := OutstandingMessageTracker.len_remove valid a.outstanding
    cases hacked : (a.outstanding.remove valid).1 with
    | nil =>
      rw [hacked] at hstep hlen
      apply wakes_of_unchanged
      · rw [hstep]
        exact fun _ h => h
      · rw [hstep]
        simpa [releaseAcked] using hlen.le
    | cons pulled rest =>
      have hobs : a.observer.outstandingFreed = (releaseAcked (pulled :: rest) []
          { a with outstanding := (a.outstanding.remove valid).2 }).2.observer.outstandingFreed := by
        rw [observer_of_reports (reports_releaseAcked _ _ _)]
      apply wakes_of_notified
      refine .inr ?_
      rw [hstep, hacked, hobs]
      simp only [List.isEmpty_cons, Bool.false_eq_true, if_false]
      split_ifs <;> exact Nat.lt_succ_self _

lemma retryReadyLoop_true (now : Instant) (ready : List TopicMessage) (a : SubscriptionActor) :
    (retryReadyLoop now ready true a).1 = true := by
  induction ready generalizing a with
  | nil => rfl
  | cons m ready ih =>
    unfold retryReadyLoop
    split_ifs
    · exact ih _
    · exact ih _

/-- Either a message was put back, or all of them were dropped. -/
lemma retryReadyLoop_cases (now : Instant) (ready : List TopicMessage) (a : SubscriptionActor) :
    (retryReadyLoop now ready false a).1 = true ∨
      ((∀ m, (retryReadyLoop now ready false a).2.Deliverable m → a.Deliverable m) ∧
        (retryReadyLoop now ready false a).2.outstanding = a.outstanding) := by
  induction ready generalizing a with
  | nil => exact .inr ⟨fun _ h => h, rfl⟩
  | cons m ready ih =>
    unfold retryReadyLoop
    split_ifs
    · exact ih (a.dropExpired m)
    · exact .inl (retryReadyLoop_true now ready _)

lemma wakes_retryReady (a : SubscriptionActor) (env : Env) (polledAt : Instant) :
    a.Wakes (env, .retryReady polledAt) := by
  have hstep : a.step (env, .retryReady polledAt) = a.pollReady env polledAt := rfl
  unfold pollReady handleRetryReady at hstep
  dsimp only at hstep
  set ready := (a.retryQueue.takeReady polledAt).1
  set b : SubscriptionActor := { a with retryQueue := (a.retryQueue.takeReady polledAt).2 }
  split_ifs at hstep with he hany
  · exact wakes_of_unchanged (by rw [hstep]; exact fun _ h => h) (by rw [hstep])
  · apply wakes_of_notified
    refine .inl ?_
    rw [hstep, ← show b.observer = a.observer from rfl,
      ← observer_of_reports (reports_retryReadyLoop env.now ready false b)]
    exact Nat.lt_succ_self _
  · rcases retryReadyLoop_cases env.now ready b with h | ⟨hd, ho⟩
    · exact absurd h hany
    · exact wakes_of_unchanged (by rw [hstep]; exact hd) (by rw [hstep, ho])

lemma outstanding_requeueLoop (now : Instant) (msgs : List PulledMessage) (dead : List TopicMessage)
    (ids : List MessageId) (a : SubscriptionActor) :
    (requeueLoop now msgs dead ids a).2.2.outstanding = a.outstanding := by
  induction msgs generalizing dead ids a with
  | nil => rfl
  | cons pulled rest ih =>
    unfold requeueLoop
    dsimp only
    split_ifs
    · exact ih _ _ ((a.countAttempt pulled.message.id).giveUp pulled.message)
    · rw [ih]
      unfold retryLater requeueOne
      split
      · rfl
      · split <;> rfl

/-- Failed deliveries signal only when the backlog is not empty. -/
lemma notified_requeueMessages_iff {a b : SubscriptionActor} (hab : b.observer = a.observer)
    (env : Env) (msgs : List PulledMessage) :
    Notified a (b.requeueMessages env msgs) ↔ (b.requeueMessages env msgs).backlog ≠ [] := by
  have hobs := (observer_of_reports (reports_requeueLoop env.now msgs [] [] b)).trans hab
  obtain ⟨spawned, attempts, counters, h⟩ := b.requeueMessages_eq env msgs
  rw [h]
  dsimp only
  split_ifs with hb
  · refine iff_of_false ?_ (not_not.mpr (List.isEmpty_iff.mp hb))
    unfold Notified
    rw [hobs]
    omega
  · refine iff_of_true (.inl ?_) fun hnil => hb (List.isEmpty_iff.mpr hnil)
    rw [← hobs]
    exact Nat.lt_succ_self _

def RequeuesUnkeyed (a : SubscriptionActor) (e : Env × ActorEvent) : Prop :=
  ∃ m, .requeue m ∈ failActs a.info a.deliveryAttempts ((a.failing e.2).map (·.message)) ∧
    a.route m = none

def RequeuesKeyed (a : SubscriptionActor) (e : Env × ActorEvent) : Prop :=
  ∃ m, .requeue m ∈ failActs a.info a.deliveryAttempts ((a.failing e.2).map (·.message)) ∧
    (a.route m).isSome

/-- Some delivery failed, the backlog is empty and stays so, and a keyed message
is deliverable or becomes so. -/
def MissesWakeup (a : SubscriptionActor) (e : Env × ActorEvent) : Prop :=
  a.failing e.2 ≠ [] ∧ a.backlog = [] ∧ ¬ a.RequeuesUnkeyed e ∧
    (a.RequeuesKeyed e ∨ a.idleKeys ≠ [])

lemma failed_failActs (info : SubscriptionInfo) (attempts : HashMap MessageId ℕ)
    (msgs : List TopicMessage) : ∀ act ∈ failActs info attempts msgs, Failed act := by
  intro act hact
  obtain ⟨m, -, rfl | rfl | rfl⟩ := mem_failActs hact <;> trivial

section Failing

variable {a : SubscriptionActor} {e : Env × ActorEvent}

/-- When the backlog is empty after failed deliveries. -/
lemma backlog_step_eq_nil_iff (hs : Simulates a a.places
      (failActs a.info a.deliveryAttempts ((a.failing e.2).map (·.message)))
      (a.step e) (a.step e).places) :
    (a.step e).backlog = [] ↔ a.backlog = [] ∧ ¬ a.RequeuesUnkeyed e := by
  rw [show (a.step e).backlog = [] ↔ _ from
    hs.steps.backlog_eq_nil_of_failed (failed_failActs _ _ _)]
  unfold RequeuesUnkeyed
  simp only [not_exists, not_and]
  rfl

/-- When a queued key is idle after failed deliveries. -/
lemma idleKeys_step_ne_nil_iff (hs : Simulates a a.places
      (failActs a.info a.deliveryAttempts ((a.failing e.2).map (·.message)))
      (a.step e) (a.step e).places) :
    (a.step e).idleKeys ≠ [] ↔ a.RequeuesKeyed e ∨ a.idleKeys ≠ [] := by
  have hkey := hs.steps.idle_of_failed (failed_failActs _ _ _)
  rw [idleKeys_ne_nil_iff, idleKeys_ne_nil_iff]
  constructor
  · rintro ⟨key, h⟩
    rcases (hkey key).mp h with h | ⟨m, hm, hr⟩
    · exact .inr ⟨key, h⟩
    · exact .inl ⟨m, hm, by rw [hr]; rfl⟩
  · rintro (⟨m, hm, hr⟩ | ⟨key, h⟩)
    · obtain ⟨key, hr⟩ := Option.isSome_iff_exists.mp hr
      exact ⟨key, (hkey key).mpr (.inr ⟨m, hm, hr⟩)⟩
    · exact ⟨key, (hkey key).mpr (.inl h)⟩

/-- Whether a failed delivery wakes a puller, from what it does to the places. -/
lemma wakes_failing_iff (hs : Simulates a a.places
      (failActs a.info a.deliveryAttempts ((a.failing e.2).map (·.message)))
      (a.step e) (a.step e).places)
    (hlen : a.outstanding.len = (a.failing e.2).length + (a.step e).outstanding.len) :
    a.Wakes e ↔ ¬ a.MissesWakeup e := by
  by_cases hnil : a.failing e.2 = []
  · refine iff_of_true (wakes_of_unchanged (fun m hm => ?_) ?_) fun h => h.1 hnil
    · rw [hnil] at hs
      rw [deliverable_iff_available, hs.steps.eq_of_nil] at hm
      exact hm
    · rw [hlen, hnil, List.length_nil, Nat.zero_add]
  · have hback := backlog_step_eq_nil_iff hs
    have hlt : (a.step e).outstanding.len < a.outstanding.len := by
      have hpos := List.length_pos_iff.mpr hnil
      omega
    have hnotified : Notified a (a.step e) ↔ (a.step e).backlog ≠ [] := by
      obtain ⟨outstanding, counters, hstep⟩ := step_of_failing hnil
      rw [hstep]
      exact notified_requeueMessages_iff (by rfl) e.1 _
    unfold Wakes MissesWakeup
    rw [exists_deliverable_iff, hnotified, idleKeys_step_ne_nil_iff hs]
    -- a lease ended, so the event must signal whatever is deliverable after it
    constructor
    · rintro h ⟨-, hb, hu, hk⟩
      exact h (.inr hk) (.inr hlt) (hback.mpr ⟨hb, hu⟩)
    · rintro h (hb | hk) -
      · exact hb
      · intro hb
        obtain ⟨hb, hu⟩ := hback.mp hb
        exact h ⟨hnil, hb, hu, hk⟩

end Failing

lemma outstanding_requeueMessages (a : SubscriptionActor) (env : Env)
    (msgs : List PulledMessage) : (a.requeueMessages env msgs).outstanding = a.outstanding :=
  (a.sameDelivery_requeueMessages env msgs).outstanding.trans
    (outstanding_requeueLoop env.now msgs [] [] a)

lemma wakes_modifyDeadline_iff {a : SubscriptionActor} (h : a.Fresh) (env : Env)
    (modifications : List DeadlineModification) :
    a.Wakes (env, .request (.modifyDeadline modifications)) ↔
      ¬ a.MissesWakeup (env, .request (.modifyDeadline modifications)) := by
  by_cases hd : a.deleted = true
  · have hstep : a.step (env, .request (.modifyDeadline modifications)) = a := by
      simp [step, receive, modifyDeadline, hd]
    exact iff_of_true (wakes_of_step_eq hstep) fun hm => hm.1 (by simp [failing, hd])
  · have hfailing : a.failing (.request (.modifyDeadline modifications)) =
        (a.outstanding.modify modifications).1 := if_neg hd
    apply wakes_failing_iff
    · rw [hfailing]
      exact simulates_modifyDeadline env modifications h (Bool.eq_false_iff.mpr hd)
    · rw [hfailing]
      change _ = _ + (a.modifyDeadline env modifications).2.outstanding.len
      unfold modifyDeadline
      rw [if_neg hd]
      dsimp only
      rw [outstanding_requeueMessages]
      exact OutstandingMessageTracker.len_modify modifications a.outstanding

lemma wakes_expired_iff {a : SubscriptionActor} (h : a.Fresh) (env : Env) (polledAt : Instant) :
    a.Wakes (env, .expired polledAt) ↔ ¬ a.MissesWakeup (env, .expired polledAt) := by
  apply wakes_failing_iff
  · exact simulates_pollExpired env polledAt h
  · have hlen := a.outstanding.len_takeExpired polledAt
    change _ = _ + (a.pollExpired env polledAt).outstanding.len
    unfold pollExpired handleExpiredMessages
    dsimp only
    split_ifs
    · exact hlen
    · rw [outstanding_requeueMessages]
      exact hlen

lemma wakes_pullMessages {a : SubscriptionActor} (h : a.Fresh) (env : Env)
    (maxCount maxOutstanding : UInt16) :
    a.Wakes (env, .request (.pullMessages maxCount maxOutstanding)) := by
  obtain ⟨acts, hs, hp, -⟩ := simulates_pullMessages env.now maxCount maxOutstanding h
  apply wakes_of_unchanged
  · exact fun m hm => hs.steps.available_of_pull hp hm
  · have hleased := congrArg Multiset.card (hs.steps.leased_eq hp)
    rw [Multiset.card_add] at hleased
    rw [OutstandingMessageTracker.len_eq_length_held, OutstandingMessageTracker.len_eq_length_held]
    change a.outstanding.held.length ≤
      (a.pullMessages env.now maxCount maxOutstanding).2.outstanding.held.length
    have hcard : ∀ b : SubscriptionActor, b.outstanding.held.length = b.places.leased.card :=
      fun _ => rfl
    rw [hcard, hcard, hleased]
    omega

lemma wakes_seek (a : SubscriptionActor) (env : Env) (seekTime : SystemTime) :
    a.Wakes (env, .request (.seek seekTime)) := by
  have hstep : a.step (env, .request (.seek seekTime)) = a.seekToTime env.order seekTime := rfl
  unfold seekToTime at hstep
  split_ifs at hstep with hd
  · exact wakes_of_step_eq hstep
  · apply wakes_of_notified
    refine .inl ?_
    rw [hstep, ← show (a.resetTo seekTime).observer = a.observer from rfl,
      ← observer_of_reports (reports_foldl_seekOne seekTime _ (a.resetTo seekTime))]
    exact Nat.lt_succ_self _

lemma wakes_of_cleared {a b : SubscriptionActor} {e : Env × ActorEvent}
    (h : (a.step e).places = b.places.clear) : a.Wakes e := by
  rintro ⟨m, hm⟩ -
  rw [deliverable_iff_available, h] at hm
  rcases hm with hm | ⟨k, -, hm⟩ <;> cases hm

lemma wakes_delete (a : SubscriptionActor) (env : Env) : a.Wakes (env, .request .delete) := by
  have hstep : a.step (env, .request .delete) = (a.delete env.topicAnswer).2 := rfl
  unfold delete at hstep
  split_ifs at hstep with hd
  · exact wakes_of_step_eq hstep
  · dsimp only at hstep
    split at hstep
    · exact wakes_of_unchanged (by rw [hstep]; exact fun _ h => h) (by rw [hstep])
    all_goals
      apply wakes_of_cleared (b := a)
      rw [hstep]
      rfl

lemma wakes_detach (a : SubscriptionActor) (env : Env) : a.Wakes (env, .request .detach) := by
  have hstep : a.step (env, .request .detach) = a.detach := rfl
  unfold detach at hstep
  split_ifs at hstep with hd
  · exact wakes_of_step_eq hstep
  · apply wakes_of_cleared (b := a)
    rw [hstep]
    rfl

/-- Only nacks and expired deadlines can miss a wake-up, and they do when the
backlog is empty and what is deliverable is keyed. -/
theorem event_wakes_iff (info : SubscriptionInfo) (topic : Topic)
    (pushRegistry : PushSubscriptionsRegistry) (delegate : SubscriptionManagerState)
    (topicManager : Option TopicManagerRef) (es : List (Env × ActorEvent)) (e : Env × ActorEvent) :
    let a := (start info topic pushRegistry delegate topicManager).run es
    a.Wakes e ↔ ¬ a.MissesWakeup e := by
  intro a
  have hfresh : a.Fresh := ((sound_start info topic pushRegistry delegate topicManager).run es).fresh
  obtain ⟨env, event⟩ := e
  cases event with
  | expired polledAt => exact wakes_expired_iff hfresh env polledAt
  | retryReady polledAt =>
    exact iff_of_true (a.wakes_retryReady env polledAt) fun h => h.1 rfl
  | request r =>
    cases r with
    | modifyDeadline modifications => exact wakes_modifyDeadline_iff hfresh env modifications
    | postMessages messages =>
      exact iff_of_true (a.wakes_postMessages env messages) fun h => h.1 rfl
    | pullMessages maxCount maxOutstanding =>
      exact iff_of_true (wakes_pullMessages hfresh env maxCount maxOutstanding) fun h => h.1 rfl
    | acknowledgeMessages ackIds =>
      exact iff_of_true (a.wakes_acknowledgeMessages env ackIds) fun h => h.1 rfl
    | seek seekTime => exact iff_of_true (a.wakes_seek env seekTime) fun h => h.1 rfl
    | delete => exact iff_of_true (a.wakes_delete env) fun h => h.1 rfl
    | detach => exact iff_of_true (a.wakes_detach env) fun h => h.1 rfl
    | getInfo | getStats | updateInfo | modifyPushConfig =>
      exact iff_of_true (wakes_of_unchanged (fun _ hm => hm) le_rfl) fun h => h.1 rfl

/-- A nacked message of a key goes back to the head of its queue, and nobody is
told. -/
theorem keyed_nack_misses_wakeup :
    ¬ ((Sample.start Sample.info).run (Sample.events
      [.postMessages [Sample.message 1 (some "k")], .pullMessages 10 0])).Wakes
        (Sample.env 0, .request (.modifyDeadline [.nack ⟨1⟩])) := by
  intro h
  have hn := h ⟨Sample.message 1 (some "k"), .inr ⟨"k", by decide +kernel, by decide +kernel⟩⟩
    (.inr (by decide +kernel))
  revert hn
  unfold Notified
  decide +kernel

end Deltio.SubscriptionActor
