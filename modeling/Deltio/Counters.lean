import Deltio.DeadLetter
import Deltio.Frames
import Deltio.Leases

namespace Deltio

open Lib

def ActorEvent.seeks : ActorEvent → Prop
  | .request (.seek _) => True
  | _ => False

namespace SubscriptionActor

def acked (a : SubscriptionActor) : ActorEvent → List PulledMessage
  | .request (.acknowledgeMessages ackIds) =>
    if a.deleted then [] else (a.outstanding.remove (ackIds.filter a.outstanding.contains)).1
  | _ => []

def countersAfter (a : SubscriptionActor) (e : Env × ActorEvent) : SubscriptionCounters :=
  match e.2 with
  | .request (.pullMessages _ _) =>
    { a.counters with pulled := a.counters.pulled + (a.pulled e).length }
  | .request (.acknowledgeMessages _) =>
    { a.counters with acked := a.counters.acked + (a.acked e.2).length }
  | .request (.modifyDeadline _) =>
    { a.counters with
      nacked := a.counters.nacked + (a.failing e.2).length
      deadLettered := a.counters.deadLettered + (a.givenUp e).length }
  | .expired _ =>
    { a.counters with
      expired := a.counters.expired + (a.failing e.2).length
      deadLettered := a.counters.deadLettered + (a.givenUp e).length }
  | _ => a.counters

lemma counters_publishDeadLetters (a : SubscriptionActor) (topics : TopicManager)
    (letters : List TopicMessage) (ids : List MessageId) :
    (a.publishDeadLetters topics letters ids).counters =
      { a.counters with deadLettered := a.counters.deadLettered + letters.length } := by
  unfold publishDeadLetters tryPublishDeadLetteredMessages
  split_ifs with he
  · rw [List.isEmpty_iff.mp he]
    rfl
  · dsimp only
    split
    · split <;> rfl
    · rfl

/-- A batch of failed deliveries counts what it gives up. -/
lemma counters_requeueMessages (a : SubscriptionActor) (env : Env) (msgs : List PulledMessage) :
    (a.requeueMessages env msgs).counters = { a.counters with
      deadLettered := a.counters.deadLettered +
        (buried (failActs a.info a.deliveryAttempts (msgs.map (·.message)))).length } := by
  obtain ⟨⟨letters, hletters, hall⟩, -⟩ := requeueLoop_letters env.now msgs [] [] a
  rw [List.nil_append] at hletters
  have hloop := counters_of_reports (reports_requeueLoop env.now msgs [] [] a)
  have hpublish := (requeueLoop env.now msgs [] [] a).2.2.counters_publishDeadLetters env.topics
    (requeueLoop env.now msgs [] [] a).1 (requeueLoop env.now msgs [] [] a).2.1
  rw [hloop, hletters, ← hall.length_eq, ← hletters] at hpublish
  unfold requeueMessages
  dsimp only
  split_ifs <;> exact hpublish

lemma counters_pullMessages (a : SubscriptionActor) (now : Instant)
    (maxCount maxOutstanding : UInt16) :
    (a.pullMessages now maxCount maxOutstanding).2.counters = { a.counters with
      pulled := a.counters.pulled +
        ((a.pullMessages now maxCount maxOutstanding).1.toOption.getD []).length } := by
  unfold pullMessages
  split_ifs
  · rfl
  · rfl
  · rfl
  · dsimp only
    rw [counters_of_reports (a.reports_pullUpTo now _)]
    rfl

lemma counters_acknowledgeMessages (a : SubscriptionActor) (ackIds : List AckId) :
    (a.acknowledgeMessages ackIds).2.counters = { a.counters with
      acked := a.counters.acked + (a.acked (.request (.acknowledgeMessages ackIds))).length } := by
  unfold acknowledgeMessages acked
  split_ifs
  · rfl
  · set removed := a.outstanding.remove (ackIds.filter a.outstanding.contains)
    have hloop := counters_of_reports
      (reports_releaseAcked removed.1 [] { a with outstanding := removed.2 })
    have hsignals : ∀ (b : SubscriptionActor) (c d : Bool),
        (if d then (if c then b else b.notifyOutstandingFreed) else
          (if c then b else b.notifyOutstandingFreed).notifyNewMessagesAvailable).counters =
          b.counters := by
      intro b c d
      cases c <;> cases d <;> rfl
    dsimp only
    rw [hsignals, hloop]

lemma counters_modifyDeadline (a : SubscriptionActor) (env : Env)
    (modifications : List DeadlineModification) :
    (a.step (env, .request (.modifyDeadline modifications))).counters =
      a.countersAfter (env, .request (.modifyDeadline modifications)) := by
  change (a.modifyDeadline env modifications).2.counters = _
  unfold modifyDeadline countersAfter givenUp failing
  split_ifs
  · rfl
  · exact counters_requeueMessages _ env _

lemma counters_expired (a : SubscriptionActor) (env : Env) (polledAt : Instant) :
    (a.step (env, .expired polledAt)).counters = a.countersAfter (env, .expired polledAt) := by
  change (a.pollExpired env polledAt).counters = _
  unfold pollExpired countersAfter givenUp failing
  dsimp only
  split_ifs with he
  · rw [List.isEmpty_iff.mp he]
    rfl
  · exact counters_requeueMessages _ env _

lemma counters_postMessages (a : SubscriptionActor) (messages : List TopicMessage) :
    (a.postMessages messages).counters = a.counters := by
  have hloop := counters_of_reports (reports_postLoop messages false a)
  unfold postMessages
  dsimp only
  split_ifs
  · rfl
  · exact hloop
  · exact hloop

lemma counters_retryReady (a : SubscriptionActor) (env : Env) (polledAt : Instant) :
    (a.pollReady env polledAt).counters = a.counters := by
  have hloop := counters_of_reports (reports_retryReadyLoop env.now
    (a.retryQueue.takeReady polledAt).1 false
    { a with retryQueue := (a.retryQueue.takeReady polledAt).2 })
  unfold pollReady handleRetryReady
  dsimp only
  split_ifs
  · rfl
  · exact hloop
  · exact hloop

lemma counters_seek (a : SubscriptionActor) (order : DrainOrder) (seekTime : SystemTime) :
    (a.seekToTime order seekTime).counters = a.counters := by
  unfold seekToTime
  dsimp only
  split_ifs
  · rfl
  · have hloop := counters_of_reports (reports_foldl_seekOne seekTime
      ((a.outstanding.drain order.outstanding).1.map PulledMessage.message ++
        (a.retryQueue.drain order.retrying).1) (a.resetTo seekTime))
    exact hloop

/-- What an event leaves of the counters, whatever the event is. -/
theorem counters_step (a : SubscriptionActor) (e : Env × ActorEvent) :
    (a.step e).counters = a.countersAfter e := by
  obtain ⟨env, event⟩ := e
  cases event with
  | expired polledAt => exact a.counters_expired env polledAt
  | retryReady polledAt => exact a.counters_retryReady env polledAt
  | request r =>
    cases r with
    | postMessages messages => exact a.counters_postMessages messages
    | pullMessages maxCount maxOutstanding =>
      exact a.counters_pullMessages env.now maxCount maxOutstanding
    | acknowledgeMessages ackIds => exact a.counters_acknowledgeMessages ackIds
    | modifyDeadline modifications => exact a.counters_modifyDeadline env modifications
    | seek seekTime => exact a.counters_seek env.order seekTime
    | delete =>
      change (a.delete env.topicAnswer).2.counters = a.counters
      unfold delete
      dsimp only
      split_ifs
      · rfl
      · split <;> rfl
    | detach =>
      change a.detach.counters = a.counters
      unfold detach
      split_ifs <;> rfl
    | getInfo | getStats | updateInfo | modifyPushConfig => rfl

/-- Where the outstanding messages come from and go to, when nothing is dropped.  Only
their deadlines can change on the way. -/
lemma values_step {α : Type*} {f : PulledMessage → α}
    (hf : ∀ message newDeadline, f (PulledMessage.modifyDeadline message newDeadline) = f message)
    {a : SubscriptionActor} (h : a.Fresh) {e : Env × ActorEvent} (hdiscards : ¬ e.2.discards)
    (hseeks : ¬ e.2.seeks) :
    ((a.failing e.2).map f ++ ((a.acked e.2).map f ++
      (a.step e).outstanding.messages.values.map f)).Perm
        ((a.pulled e).map f ++ a.outstanding.messages.values.map f) := by
  have hstep : (a.step e).outstanding = (a.custodyAfter e).outstanding :=
    congrArg Custody.outstanding (a.custody_step e)
  rw [hstep]
  obtain ⟨env, event⟩ := e
  cases event with
  | expired polledAt =>
    have hperm := (a.outstanding.perm_takeExpired polledAt).map f
    rw [List.map_append] at hperm
    exact hperm.symm
  | retryReady polledAt => exact List.Perm.refl _
  | request r =>
    cases r with
    | pullMessages maxCount maxOutstanding =>
      have hperm := (above_pulled h
        (env, .request (.pullMessages maxCount maxOutstanding))).perm_foldl_add.map f
      rw [List.map_append] at hperm
      exact hperm
    | acknowledgeMessages ackIds =>
      have hperm := (OutstandingMessageTracker.perm_remove
        (ackIds.filter a.outstanding.contains) a.outstanding).map f
      rw [List.map_append] at hperm
      simp only [custodyAfter, failing, acked, pulled]
      split_ifs
      · exact List.Perm.refl _
      · exact hperm.symm
    | modifyDeadline modifications =>
      have hperm := OutstandingMessageTracker.perm_modify_map hf modifications a.outstanding
      simp only [custodyAfter, failing, acked, pulled]
      split_ifs
      · exact List.Perm.refl _
      · exact hperm.symm
    | seek seekTime => exact absurd trivial hseeks
    | delete => exact absurd trivial hdiscards
    | detach => exact absurd trivial hdiscards
    | postMessages | getInfo | getStats | updateInfo | modifyPushConfig => exact List.Perm.refl _

lemma held_step {a : SubscriptionActor} (h : a.Fresh) {e : Env × ActorEvent}
    (hdiscards : ¬ e.2.discards) (hseeks : ¬ e.2.seeks) :
    ((a.failing e.2).map (·.message) ++ ((a.acked e.2).map (·.message) ++
      (a.step e).outstanding.held)).Perm ((a.pulled e).map (·.message) ++ a.outstanding.held) :=
  values_step (fun _ _ => rfl) h hdiscards hseeks

lemma len_step {a : SubscriptionActor} (h : a.Fresh) {e : Env × ActorEvent}
    (hdiscards : ¬ e.2.discards) (hseeks : ¬ e.2.seeks) :
    (a.step e).outstanding.len + (a.failing e.2).length + (a.acked e.2).length =
      a.outstanding.len + (a.pulled e).length := by
  have hlen := (held_step h hdiscards hseeks).length_eq
  simp only [List.length_append, List.length_map] at hlen
  simp only [OutstandingMessageTracker.len_eq_length_held]
  omega

lemma length_failActs (info : SubscriptionInfo) (attempts : HashMap MessageId ℕ)
    (msgs : List TopicMessage) : (failActs info attempts msgs).length = msgs.length := by
  induction msgs generalizing attempts with
  | nil => rfl
  | cons m msgs ih => rw [failActs, List.length_cons, ih, List.length_cons]

lemma length_givenUp_le (a : SubscriptionActor) (e : Env × ActorEvent) :
    (a.givenUp e).length ≤ (a.failing e.2).length := by
  have hle : (a.givenUp e).length ≤
      (failActs a.info a.deliveryAttempts ((a.failing e.2).map (·.message))).length :=
    List.length_filterMap_le _ _
  rwa [length_failActs, List.length_map] at hle

/-- Whatever was pulled is acked, nacked, expired or still outstanding, and only
nacked and expired messages are dead-lettered. -/
structure Balanced (a : SubscriptionActor) : Prop where
  pulled : a.counters.pulled =
    a.counters.acked + a.counters.nacked + a.counters.expired + a.outstanding.len
  deadLettered : a.counters.deadLettered ≤ a.counters.nacked + a.counters.expired

lemma Balanced.step {a : SubscriptionActor} (hs : a.Sound) (h : a.Balanced) {e : Env × ActorEvent}
    (hdiscards : ¬ e.2.discards) (hseeks : ¬ e.2.seeks) : (a.step e).Balanced := by
  have hlen := len_step hs.fresh hdiscards hseeks
  have hletters := a.length_givenUp_le e
  obtain ⟨hpulled, hdead⟩ := h
  constructor
  all_goals
    rw [counters_step]
    obtain ⟨env, event⟩ := e
    unfold countersAfter
    cases event with
    | expired | retryReady =>
      simp only [SubscriptionActor.pulled, acked, failing, List.length_nil] at hlen hletters ⊢
      omega
    | request r =>
      cases r with
      | pullMessages | acknowledgeMessages | modifyDeadline =>
        simp only [SubscriptionActor.pulled, acked, failing, List.length_nil] at hlen hletters ⊢
        omega
      | _ =>
        simp only [SubscriptionActor.pulled, acked, failing, List.length_nil] at hlen ⊢
        omega

/-- In every run without seek, detach and delete the counters balance. -/
theorem counters_balance (info : SubscriptionInfo) (topic : Topic)
    (pushRegistry : PushSubscriptionsRegistry) (delegate : SubscriptionManagerState)
    (topicManager : Option TopicManagerRef) (es : List (Env × ActorEvent))
    (hes : ∀ e ∈ es, ¬ e.2.discards ∧ ¬ e.2.seeks) :
    let a := (start info topic pushRegistry delegate topicManager).run es
    a.counters.pulled =
        a.counters.acked + a.counters.nacked + a.counters.expired + a.outstanding.len ∧
      a.counters.deadLettered ≤ a.counters.nacked + a.counters.expired := by
  intro a
  have hstep : ∀ b : SubscriptionActor, ∀ e ∈ es, b.Sound ∧ b.Balanced →
      (b.step e).Sound ∧ (b.step e).Balanced := by
    rintro b e he ⟨hs, hb⟩
    exact ⟨hs.step e, hb.step hs (hes e he).1 (hes e he).2⟩
  have hstart : (start info topic pushRegistry delegate topicManager).Balanced := ⟨rfl, le_rfl⟩
  obtain ⟨-, hpulled, hdead⟩ := run_preserves hstep
    ⟨sound_start info topic pushRegistry delegate topicManager, hstart⟩
  exact ⟨hpulled, hdead⟩

/-- Three messages are pulled, one is acked twice in a batch with an unknown ack ID,
and one is nacked: one is left. -/
theorem counters_balance_three_messages :
    let a := (Sample.start Sample.info).run (Sample.events
      [.postMessages [Sample.message 1 none, Sample.message 2 none, Sample.message 3 none],
        .pullMessages 10 0, .acknowledgeMessages [⟨1⟩, ⟨7⟩, ⟨1⟩],
        .modifyDeadline [.nack ⟨2⟩, .nack ⟨2⟩]])
    a.counters = ⟨3, 1, 1, 0, 0⟩ ∧ a.outstanding.len = 1 ∧
      a.counters.pulled =
        a.counters.acked + a.counters.nacked + a.counters.expired + a.outstanding.len := by
  refine ⟨by decide +kernel, by decide +kernel, ?_⟩
  refine (counters_balance Sample.info Sample.topic ∅ .new none (Sample.events
    [.postMessages [Sample.message 1 none, Sample.message 2 none, Sample.message 3 none],
      .pullMessages 10 0, .acknowledgeMessages [⟨1⟩, ⟨7⟩, ⟨1⟩],
      .modifyDeadline [.nack ⟨2⟩, .nack ⟨2⟩]]) fun e he => ?_).1
  simp only [Sample.events, List.map_cons, List.map_nil, List.mem_cons, List.not_mem_nil,
    or_false] at he
  rcases he with rfl | rfl | rfl | rfl <;> exact ⟨id, id⟩

end SubscriptionActor

end Deltio
