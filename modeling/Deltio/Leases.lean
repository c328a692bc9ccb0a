import Deltio.Runs

namespace Deltio

open Lib

namespace SubscriptionActor

structure Custody where
  outstanding : OutstandingMessageTracker
  nextAckId : AckId
  retryQueue : RetryQueue

def custody (a : SubscriptionActor) : Custody := ⟨a.outstanding, a.nextAckId, a.retryQueue⟩

lemma SameDelivery.custody {a b : SubscriptionActor} (h : SameDelivery a b) :
    b.custody = a.custody := by
  unfold SubscriptionActor.custody
  rw [h.outstanding, h.nextAckId, h.retryQueue]

@[simp] lemma custody_enqueue (a : SubscriptionActor) (m : TopicMessage) :
    (a.enqueue m).custody = a.custody := by
  unfold enqueue
  split <;> rfl

@[simp] lemma custody_requeueOne (a : SubscriptionActor) (m : TopicMessage) :
    (a.requeueOne m).custody = a.custody := by
  unfold requeueOne
  split <;> rfl

@[simp] lemma custody_settleAcked (a : SubscriptionActor) (m : TopicMessage) :
    (a.settleAcked m).2.custody = a.custody := by
  unfold settleAcked
  dsimp only
  split <;> rfl

@[simp] lemma custody_dropExpired (a : SubscriptionActor) (m : TopicMessage) :
    (a.dropExpired m).custody = a.custody := rfl

@[simp] lemma custody_seekOne (seekTime : SystemTime) (a : SubscriptionActor) (m : TopicMessage) :
    (seekOne seekTime a m).custody = a.custody := by
  unfold seekOne
  split_ifs
  · exact a.custody_requeueOne m
  · rfl

lemma custody_postLoop (msgs : List TopicMessage) (hadAny : Bool) (a : SubscriptionActor) :
    (postLoop msgs hadAny a).2.custody = a.custody := by
  induction msgs generalizing hadAny a with
  | nil => rfl
  | cons msg msgs ih =>
    unfold postLoop
    split_ifs
    · rw [ih, custody_enqueue]
    · exact ih hadAny a

lemma custody_postMessages (a : SubscriptionActor) (msgs : List TopicMessage) :
    (a.postMessages msgs).custody = a.custody := by
  have hloop := custody_postLoop msgs false a
  unfold postMessages
  dsimp only
  split_ifs
  · rfl
  · exact hloop
  · exact hloop

lemma custody_releaseAcked (acked : List PulledMessage) (freedKeys : List String)
    (a : SubscriptionActor) : (releaseAcked acked freedKeys a).2.custody = a.custody := by
  induction acked generalizing freedKeys a with
  | nil => rfl
  | cons pulled rest ih =>
    unfold releaseAcked
    dsimp only
    rw [ih, custody_settleAcked]

lemma custody_retryReadyLoop (now : Instant) (ready : List TopicMessage) (deliveredAny : Bool)
    (a : SubscriptionActor) : (retryReadyLoop now ready deliveredAny a).2.custody = a.custody := by
  induction ready generalizing deliveredAny a with
  | nil => rfl
  | cons m ready ih =>
    unfold retryReadyLoop
    split_ifs
    · rw [ih, custody_dropExpired]
    · rw [ih, custody_requeueOne]

lemma custody_foldl_seekOne (seekTime : SystemTime) (msgs : List TopicMessage)
    (a : SubscriptionActor) : (msgs.foldl (seekOne seekTime) a).custody = a.custody := by
  induction msgs generalizing a with
  | nil => rfl
  | cons m msgs ih => rw [List.foldl_cons, ih, custody_seekOne]

def deferOne (info : SubscriptionInfo) (now : Instant) (attempt : ℕ) (m : TopicMessage)
    (q : RetryQueue) : RetryQueue :=
  match info.retryPolicy with
  | some retryPolicy =>
    if exceedsMaxDeliveryAttempts info attempt then q
    else q.add m (AckDeadline.new (now + retryPolicy.calculateBackoff attempt))
  | none => q

/-- The retry queue after a batch of failures.  The attempts are counted along the way. -/
def deferAll (info : SubscriptionInfo) (now : Instant) :
    HashMap MessageId ℕ → List PulledMessage → RetryQueue → RetryQueue
  | _, [], q => q
  | attempts, p :: ps, q =>
    let attempt := nextAttempt attempts p.message.id
    deferAll info now (attempts.insert p.message.id attempt) ps
      (deferOne info now attempt p.message q)

lemma deferOne_preserves {I : RetryQueue → Prop} (hadd : ∀ q m d, I q → I (q.add m d))
    (info : SubscriptionInfo) (now : Instant) (attempt : ℕ) (m : TopicMessage) {q : RetryQueue}
    (h : I q) : I (deferOne info now attempt m q) := by
  unfold deferOne
  split
  · split_ifs
    · exact h
    · exact hadd _ _ _ h
  · exact h

/-- What adding to the retry queue keeps, a batch of failures keeps. -/
lemma deferAll_preserves {I : RetryQueue → Prop} (hadd : ∀ q m d, I q → I (q.add m d))
    (info : SubscriptionInfo) (now : Instant) (attempts : HashMap MessageId ℕ)
    (ps : List PulledMessage) {q : RetryQueue} (h : I q) : I (deferAll info now attempts ps q) := by
  induction ps generalizing attempts q with
  | nil => exact h
  | cons p ps ih => exact ih _ (deferOne_preserves hadd info now _ p.message h)

lemma deferOne_of_exceeds {info : SubscriptionInfo} {attempt : ℕ}
    (h : exceedsMaxDeliveryAttempts info attempt = true) (now : Instant) (m : TopicMessage)
    (q : RetryQueue) : deferOne info now attempt m q = q := by
  unfold deferOne
  split
  · rw [if_pos h]
  · rfl

lemma custody_retryLater (a : SubscriptionActor) (now : Instant) (m : TopicMessage) {attempt : ℕ}
    (hx : exceedsMaxDeliveryAttempts a.info attempt = false) :
    (a.retryLater now m attempt).custody =
      { a.custody with retryQueue := deferOne a.info now attempt m a.retryQueue } := by
  unfold retryLater deferOne
  cases a.info.retryPolicy with
  | none => exact a.custody_requeueOne m
  | some policy =>
    dsimp only
    rw [hx, if_neg Bool.false_ne_true]
    rfl

lemma info_retryLater (a : SubscriptionActor) (now : Instant) (m : TopicMessage) (attempt : ℕ) :
    (a.retryLater now m attempt).info = a.info := by
  unfold retryLater
  split
  · rfl
  · exact info_of_config (a.config_requeueOne m)

lemma custody_requeueLoop (now : Instant) (msgs : List PulledMessage) (dead : List TopicMessage)
    (ids : List MessageId) (a : SubscriptionActor) :
    (requeueLoop now msgs dead ids a).2.2.custody = { a.custody with
      retryQueue := deferAll a.info now a.deliveryAttempts msgs a.retryQueue } := by
  induction msgs generalizing dead ids a with
  | nil => rfl
  | cons pulled rest ih =>
    set m := pulled.message with hm
    set attempt := nextAttempt a.deliveryAttempts m.id with hattempt
    unfold requeueLoop
    dsimp only
    split_ifs with hx
    · rw [ih, deferAll, deferOne_of_exceeds hx]
      rfl
    · have hone := (a.countAttempt m.id).custody_retryLater now m
        (Bool.eq_false_iff.mpr hx : exceedsMaxDeliveryAttempts a.info attempt = false)
      rw [ih, hone, info_retryLater, deliveryAttempts_retryLater, deferAll]
      rw [show ((a.countAttempt m.id).retryLater now m attempt).retryQueue = _ from
        congrArg Custody.retryQueue hone]
      rfl

lemma custody_requeueMessages (a : SubscriptionActor) (env : Env) (msgs : List PulledMessage) :
    (a.requeueMessages env msgs).custody = { a.custody with
      retryQueue := deferAll a.info env.now a.deliveryAttempts msgs a.retryQueue } := by
  rw [← custody_requeueLoop env.now msgs [] [] a]
  exact (a.sameDelivery_requeueMessages env msgs).custody

/-- `b` comes from `a` by delivering `ps`: under consecutive ack IDs from the next one
on, and with one deadline. -/
structure Delivers (deadline : Instant) (a : SubscriptionActor) (ps : List PulledMessage)
    (b : SubscriptionActor) : Prop where
  outstanding : b.outstanding = ps.foldl .add a.outstanding
  ackIds : ps.map (fun p => p.ackId.value) = List.range' a.nextAckId.value ps.length
  nextAckId : b.nextAckId.value = a.nextAckId.value + ps.length
  retryQueue : b.retryQueue = a.retryQueue
  deadline : ∀ p ∈ ps, p.deadline = AckDeadline.new deadline

section

variable {now deadline : Instant} {a b c : SubscriptionActor}

lemma Delivers.nil (h : b.custody = a.custody) : Delivers deadline a [] b where
  outstanding := congrArg Custody.outstanding h
  ackIds := rfl
  nextAckId := congrArg (fun c => c.nextAckId.value) h
  retryQueue := congrArg Custody.retryQueue h
  deadline := by simp

lemma Delivers.trans {ps qs : List PulledMessage} (h₁ : Delivers deadline a ps b)
    (h₂ : Delivers deadline b qs c) : Delivers deadline a (ps ++ qs) c where
  outstanding := by rw [h₂.outstanding, h₁.outstanding, List.foldl_append]
  ackIds := by
    rw [List.map_append, h₁.ackIds, h₂.ackIds, h₁.nextAckId, List.length_append,
      List.range'_append_1]
  nextAckId := by rw [h₂.nextAckId, h₁.nextAckId, List.length_append, Nat.add_assoc]
  retryQueue := h₂.retryQueue.trans h₁.retryQueue
  deadline := by
    intro p hp
    rcases List.mem_append.mp hp with hp | hp
    · exact h₁.deadline p hp
    · exact h₂.deadline p hp

lemma delivers_deliver (a : SubscriptionActor) (deadline : Instant) (m : TopicMessage) :
    Delivers deadline a [(a.deliver deadline m).1] (a.deliver deadline m).2 where
  outstanding := rfl
  ackIds := rfl
  nextAckId := rfl
  retryQueue := rfl
  deadline := by
    intro p hp
    rw [List.mem_singleton.mp hp]
    rfl

/-- What does not touch the messages that are out can follow or precede. -/
lemma Delivers.of_custody {a' b' : SubscriptionActor} {ps : List PulledMessage}
    (h : Delivers deadline a ps b) (ha : a'.custody = a.custody) (hb : b'.custody = b.custody) :
    Delivers deadline a' ps b' := by
  have hbefore : Delivers deadline a' [] a := .nil ha.symm
  have hafter : Delivers deadline b [] b' := .nil hb
  have hall := hbefore.trans (h.trans hafter)
  rwa [List.nil_append, List.append_nil] at hall

lemma delivers_pullHead (now deadline : Instant) (key : String) (queue : List TopicMessage)
    (a : SubscriptionActor) :
    Delivers deadline a (pullHead now deadline key queue a).1.toList
      (pullHead now deadline key queue a).2 := by
  induction queue generalizing a with
  | nil => exact .nil rfl
  | cons head queue ih =>
    unfold pullHead
    split_ifs
    · exact (ih (a.dropExpired head)).of_custody rfl rfl
    · exact (a.delivers_deliver deadline head).of_custody rfl rfl

lemma delivers_pullOrdered (now deadline : Instant) (capacity : ℕ) (keys : List String)
    (result : List PulledMessage) (a : SubscriptionActor) :
    ∃ ps, (pullOrdered now deadline capacity keys result a).1 = result ++ ps ∧
      Delivers deadline a ps (pullOrdered now deadline capacity keys result a).2 := by
  induction keys generalizing result a with
  | nil => exact ⟨[], (List.append_nil _).symm, .nil rfl⟩
  | cons key keys ih =>
    unfold pullOrdered
    split_ifs
    · exact ⟨[], (List.append_nil _).symm, .nil rfl⟩
    · split
      · exact ih result a
      · next queue hqueue =>
        have hhead := delivers_pullHead now deadline key queue a
        obtain ⟨ps, hps, hd⟩ := ih (result ++ (pullHead now deadline key queue a).1.toList)
          (pullHead now deadline key queue a).2
        exact ⟨_, hps.trans (List.append_assoc _ _ _), hhead.trans hd⟩

lemma delivers_pullBacklog (now deadline : Instant) (capacity : ℕ) (backlog : List TopicMessage)
    (result : List PulledMessage) (a : SubscriptionActor) :
    ∃ ps, (pullBacklog now deadline capacity backlog result a).1 = result ++ ps ∧
      Delivers deadline a ps (pullBacklog now deadline capacity backlog result a).2 := by
  induction backlog generalizing result a with
  | nil => exact ⟨[], (List.append_nil _).symm, .nil rfl⟩
  | cons message backlog ih =>
    unfold pullBacklog
    split_ifs
    · exact ⟨[], (List.append_nil _).symm, .nil rfl⟩
    · obtain ⟨ps, hps, hd⟩ := ih result (a.dropExpired message)
      exact ⟨ps, hps, hd.of_custody rfl rfl⟩
    · obtain ⟨ps, hps, hd⟩ := ih (result ++ [(a.deliver deadline message).1])
        (a.deliver deadline message).2
      exact ⟨_, hps.trans (List.append_assoc _ _ _), (a.delivers_deliver deadline message).trans hd⟩

lemma delivers_pullUpTo (a : SubscriptionActor) (now : Instant) (capacity : ℕ) :
    Delivers (now + a.info.ackDeadline) a (a.pullUpTo now capacity).1
      (a.pullUpTo now capacity).2 := by
  set heads := pullOrdered now (now + a.info.ackDeadline) capacity
    (a.idleKeys.insertionSort (· ≤ ·)) [] a with hheads
  obtain ⟨ps, hps, hd⟩ := delivers_pullOrdered now (now + a.info.ackDeadline) capacity
    (a.idleKeys.insertionSort (· ≤ ·)) [] a
  obtain ⟨qs, hqs, hd'⟩ := delivers_pullBacklog now (now + a.info.ackDeadline) capacity
    heads.2.backlog heads.1 heads.2
  have hres : (a.pullUpTo now capacity).1 = ps ++ qs := by
    rw [List.nil_append] at hps
    exact hqs.trans (congrArg (· ++ qs) hps)
  rw [hres]
  exact hd.trans hd'

lemma delivers_pullMessages (a : SubscriptionActor) (now : Instant)
    (maxCount maxOutstanding : UInt16) :
    Delivers (now + a.info.ackDeadline) a
      ((a.pullMessages now maxCount maxOutstanding).1.toOption.getD [])
      (a.pullMessages now maxCount maxOutstanding).2 := by
  unfold pullMessages
  split_ifs
  · exact .nil rfl
  · exact .nil rfl
  · exact .nil rfl
  · have hd := a.delivers_pullUpTo now (a.effectiveMax maxCount maxOutstanding)
    exact hd.of_custody rfl (sameDelivery_signalMore _ _).custody

end

def Custody.clear (c : Custody) : Custody := ⟨c.outstanding.clear, c.nextAckId, c.retryQueue.clear⟩

/-- What an event leaves of the messages that are out. -/
def custodyAfter (a : SubscriptionActor) (e : Env × ActorEvent) : Custody :=
  match e.2 with
  | .request (.pullMessages _ _) =>
    ⟨(a.pulled e).foldl .add a.outstanding, ⟨a.nextAckId.value + (a.pulled e).length⟩, a.retryQueue⟩
  | .request (.acknowledgeMessages ackIds) =>
    if a.deleted then a.custody
    else { a.custody with
      outstanding := (a.outstanding.remove (ackIds.filter a.outstanding.contains)).2 }
  | .request (.modifyDeadline modifications) =>
    if a.deleted then a.custody
    else ⟨(a.outstanding.modify modifications).2, a.nextAckId,
      deferAll a.info e.1.now a.deliveryAttempts (a.failing e.2) a.retryQueue⟩
  | .expired polledAt =>
    ⟨(a.outstanding.takeExpired polledAt).2, a.nextAckId,
      deferAll a.info e.1.now a.deliveryAttempts (a.failing e.2) a.retryQueue⟩
  | .retryReady polledAt => { a.custody with retryQueue := (a.retryQueue.takeReady polledAt).2 }
  | .request (.seek _) => if a.deleted then a.custody else a.custody.clear
  | .request .delete =>
    if a.deleted ∨ e.1.topicAnswer = .closed then a.custody else a.custody.clear
  | .request .detach => if a.info.detached then a.custody else a.custody.clear
  | _ => a.custody

lemma custody_pull (a : SubscriptionActor) (env : Env) (maxCount maxOutstanding : UInt16) :
    (a.step (env, .request (.pullMessages maxCount maxOutstanding))).custody =
      a.custodyAfter (env, .request (.pullMessages maxCount maxOutstanding)) := by
  have hd := a.delivers_pullMessages env.now maxCount maxOutstanding
  change (a.pullMessages env.now maxCount maxOutstanding).2.custody = _
  simp only [custody, custodyAfter, pulled, hd.outstanding, hd.retryQueue]
  congr 1
  exact congrArg AckId.mk hd.nextAckId

lemma custody_acknowledge (a : SubscriptionActor) (env : Env) (ackIds : List AckId) :
    (a.step (env, .request (.acknowledgeMessages ackIds))).custody =
      a.custodyAfter (env, .request (.acknowledgeMessages ackIds)) := by
  change (a.acknowledgeMessages ackIds).2.custody = _
  unfold acknowledgeMessages custodyAfter
  dsimp only
  by_cases hd : a.deleted = true
  · rw [if_pos hd, if_pos hd]
  · rw [if_neg hd, if_neg hd]
    set removed := a.outstanding.remove (ackIds.filter a.outstanding.contains)
    have hloop := custody_releaseAcked removed.1 [] { a with outstanding := removed.2 }
    exact (sameDelivery_acknowledged _ _ _ _).custody.trans hloop

lemma custody_modifyDeadline (a : SubscriptionActor) (env : Env)
    (modifications : List DeadlineModification) :
    (a.step (env, .request (.modifyDeadline modifications))).custody =
      a.custodyAfter (env, .request (.modifyDeadline modifications)) := by
  change (a.modifyDeadline env modifications).2.custody = _
  unfold modifyDeadline custodyAfter failing
  dsimp only
  by_cases hd : a.deleted = true
  · rw [if_pos hd, if_pos hd]
  · simp only [if_neg hd]
    rw [custody_requeueMessages]
    rfl

lemma custody_expired (a : SubscriptionActor) (env : Env) (polledAt : Instant) :
    (a.step (env, .expired polledAt)).custody = a.custodyAfter (env, .expired polledAt) := by
  change (a.pollExpired env polledAt).custody = _
  unfold pollExpired custodyAfter failing
  dsimp only
  split_ifs with he
  · rw [List.isEmpty_iff.mp he]
    rfl
  · unfold handleExpiredMessages
    rw [custody_requeueMessages]
    rfl

lemma custody_retryReady (a : SubscriptionActor) (env : Env) (polledAt : Instant) :
    (a.step (env, .retryReady polledAt)).custody = a.custodyAfter (env, .retryReady polledAt) := by
  change (a.pollReady env polledAt).custody = _
  set taken := a.retryQueue.takeReady polledAt with htaken
  have hloop := custody_retryReadyLoop env.now taken.1 false { a with retryQueue := taken.2 }
  unfold pollReady handleRetryReady
  dsimp only
  split_ifs
  · rfl
  · exact hloop
  · exact hloop

lemma custody_seek (a : SubscriptionActor) (env : Env) (seekTime : SystemTime) :
    (a.step (env, .request (.seek seekTime))).custody =
      a.custodyAfter (env, .request (.seek seekTime)) := by
  change (a.seekToTime env.order seekTime).custody = _
  unfold seekToTime custodyAfter
  dsimp only
  split_ifs
  · rfl
  · exact custody_foldl_seekOne seekTime _ (a.resetTo seekTime)

lemma custody_delete (a : SubscriptionActor) (env : Env) :
    (a.step (env, .request .delete)).custody = a.custodyAfter (env, .request .delete) := by
  change (a.delete env.topicAnswer).2.custody = _
  unfold delete custodyAfter
  dsimp only
  by_cases hd : a.deleted = true
  · rw [if_pos hd, if_pos (.inl hd)]
  · rw [if_neg hd]
    cases ht : env.topicAnswer with
    | closed =>
      rw [if_pos (.inr rfl)]
      rfl
    | gone | removed =>
      rw [if_neg (by simp [hd])]
      rfl

/-- What an event leaves of the messages that are out, whatever the event is. -/
theorem custody_step (a : SubscriptionActor) (e : Env × ActorEvent) :
    (a.step e).custody = a.custodyAfter e := by
  obtain ⟨env, event⟩ := e
  cases event with
  | expired polledAt => exact a.custody_expired env polledAt
  | retryReady polledAt => exact a.custody_retryReady env polledAt
  | request r =>
    cases r with
    | postMessages messages => exact a.custody_postMessages messages
    | pullMessages maxCount maxOutstanding => exact a.custody_pull env maxCount maxOutstanding
    | acknowledgeMessages ackIds => exact a.custody_acknowledge env ackIds
    | modifyDeadline modifications => exact a.custody_modifyDeadline env modifications
    | seek seekTime => exact a.custody_seek env seekTime
    | delete => exact a.custody_delete env
    | detach =>
      change a.detach.custody = _
      unfold detach custodyAfter
      dsimp only
      split_ifs <;> rfl
    | getInfo => rfl
    | getStats => rfl
    | updateInfo update => rfl
    | modifyPushConfig pushConfig => rfl

lemma ackIds_pulled (a : SubscriptionActor) (e : Env × ActorEvent) :
    (a.pulled e).map (fun p => p.ackId.value) =
      List.range' a.nextAckId.value (a.pulled e).length := by
  unfold pulled
  split
  · exact (a.delivers_pullMessages _ _ _).ackIds
  · rfl

/-- A pull hands out ack IDs that are not in use. -/
lemma above_pulled {a : SubscriptionActor} (h : a.Fresh) (e : Env × ActorEvent) :
    a.outstanding.Above a.nextAckId.value (a.pulled e) :=
  ⟨fun id hid => h.ackId id hid, a.ackIds_pulled e⟩

lemma sideBySide_step {a : SubscriptionActor} (h : a.Fresh) (ht : a.outstanding.SideBySide)
    (e : Env × ActorEvent) : (a.step e).outstanding.SideBySide := by
  have hstep : (a.step e).outstanding = (a.custodyAfter e).outstanding :=
    congrArg Custody.outstanding (a.custody_step e)
  rw [hstep]
  unfold custodyAfter
  split
  · exact ht.foldl_add (above_pulled h e)
  · split_ifs
    · exact ht
    · exact ht.remove _
  · split_ifs
    · exact ht
    · exact ht.modify _
  · exact (ht.takeExpired _).sideBySide
  · exact ht
  · split_ifs
    · exact ht
    · exact ht.clear
  · split_ifs
    · exact ht
    · exact ht.clear
  · split_ifs
    · exact ht
    · exact ht.clear
  · exact ht

lemma timely_step {a : SubscriptionActor} (h : a.retryQueue.Timely) (e : Env × ActorEvent) :
    (a.step e).retryQueue.Timely := by
  have hstep : (a.step e).retryQueue = (a.custodyAfter e).retryQueue :=
    congrArg Custody.retryQueue (a.custody_step e)
  have hdefer := deferAll_preserves (I := RetryQueue.Timely) (fun q m d hq => hq.add m d) a.info
    e.1.now a.deliveryAttempts (a.failing e.2) h
  rw [hstep]
  unfold custodyAfter
  split
  · exact h
  · split_ifs <;> exact h
  · split_ifs
    · exact h
    · exact hdefer
  · exact hdefer
  · exact h.takeReady _
  · split_ifs
    · exact h
    · exact .clear _
  · split_ifs
    · exact h
    · exact .clear _
  · split_ifs
    · exact h
    · exact .clear _
  · exact h

/-- What every reachable state satisfies, its tracker and its schedule included. -/
structure Tracked (a : SubscriptionActor) : Prop where
  sound : a.Sound
  sideBySide : a.outstanding.SideBySide
  timely : a.retryQueue.Timely

lemma Tracked.step {a : SubscriptionActor} (h : a.Tracked) (e : Env × ActorEvent) :
    (a.step e).Tracked :=
  ⟨h.sound.step e, sideBySide_step h.sound.fresh h.sideBySide e, timely_step h.timely e⟩

theorem Tracked.run {a : SubscriptionActor} (h : a.Tracked) (es : List (Env × ActorEvent)) :
    (a.run es).Tracked :=
  run_preserves (fun _ e _ hb => hb.step e) h

section

variable (info : SubscriptionInfo) (topic : Topic) (pushRegistry : PushSubscriptionsRegistry)
  (delegate : SubscriptionManagerState) (topicManager : Option TopicManagerRef)

lemma tracked_start : (start info topic pushRegistry delegate topicManager).Tracked :=
  ⟨sound_start info topic pushRegistry delegate topicManager,
    OutstandingMessageTracker.sideBySide_new, RetryQueue.timely_new⟩

/-- In every reachable state the expirations are those of the outstanding messages, and
`takeExpired` runs to its end without unwrapping a `None`. -/
theorem tracker_side_by_side (es : List (Env × ActorEvent)) :
    let t := ((start info topic pushRegistry delegate topicManager).run es).outstanding
    (∀ deadline id, toLex (deadline, id) ∈ t.expirations ↔
      ∃ m, t.messages.get id = some m ∧ m.deadline = deadline) ∧
    (∀ id m, t.messages.get id = some m → m.ackId = id) ∧
    t.undefinedBehaviour = false ∧
    ∀ time, OutstandingMessageTracker.takeExpiredChecked time (t.expirations.list.length + 1) t [] =
      some (t.takeExpired time) := by
  intro t
  have ht : t.SideBySide :=
    ((tracked_start info topic pushRegistry delegate topicManager).run es).sideBySide
  refine ⟨ht.expirations, ht.ackId, ht.defined, fun time => ?_⟩
  exact (ht.takeExpired time).checked _ [] (Nat.lt_succ_self _)

end

def deliveries : SubscriptionActor → List (Env × ActorEvent) → List PulledMessage
  | _, [] => []
  | a, e :: es => a.pulled e ++ deliveries (a.step e) es

lemma deliveries_append (a : SubscriptionActor) (es es' : List (Env × ActorEvent)) :
    deliveries a (es ++ es') = deliveries a es ++ deliveries (a.run es) es' := by
  induction es generalizing a with
  | nil => rfl
  | cons e es ih => rw [List.cons_append, deliveries, deliveries, ih, List.append_assoc]; rfl

lemma nextAckId_step (a : SubscriptionActor) (e : Env × ActorEvent) :
    (a.step e).nextAckId.value = a.nextAckId.value + (a.pulled e).length := by
  have hstep : (a.step e).nextAckId = (a.custodyAfter e).nextAckId :=
    congrArg Custody.nextAckId (a.custody_step e)
  rw [hstep]
  obtain ⟨env, event⟩ := e
  cases event with
  | expired polledAt => rfl
  | retryReady polledAt => rfl
  | request r =>
    unfold custodyAfter
    cases r with
    | acknowledgeMessages | modifyDeadline | seek | delete | detach => split_ifs <;> rfl
    | _ => rfl

/-- The ack IDs of a run are consecutive. -/
theorem ackIds_deliveries (a : SubscriptionActor) (es : List (Env × ActorEvent)) :
    (deliveries a es).map (fun p => p.ackId.value) =
      List.range' a.nextAckId.value (deliveries a es).length := by
  induction es generalizing a with
  | nil => rfl
  | cons e es ih =>
    rw [deliveries, List.map_append, a.ackIds_pulled e, ih, nextAckId_step, List.length_append,
      List.range'_append_1]

lemma pairwise_ackIds_deliveries (a : SubscriptionActor) (es : List (Env × ActorEvent)) :
    ((deliveries a es).map (·.ackId)).Pairwise (· < ·) := by
  have hvalues : ((deliveries a es).map fun p => p.ackId.value).Pairwise (· < ·) := by
    rw [ackIds_deliveries]
    exact List.pairwise_lt_range'
  rw [List.pairwise_map] at hvalues ⊢
  exact hvalues

structure SameHoldings (a b : SubscriptionActor) : Prop where
  backlog : b.backlog = a.backlog
  orderedQueues : b.orderedQueues = a.orderedQueues
  keysInFlight : b.keysInFlight = a.keysInFlight
  outstanding : b.outstanding = a.outstanding
  retryQueue : b.retryQueue = a.retryQueue
  deliveryAttempts : b.deliveryAttempts = a.deliveryAttempts
  nextAckId : b.nextAckId = a.nextAckId
  counters : b.counters = a.counters

lemma SameHoldings.refl (a : SubscriptionActor) : SameHoldings a a :=
  ⟨rfl, rfl, rfl, rfl, rfl, rfl, rfl, rfl⟩

lemma filter_contains_of_stale {t : OutstandingMessageTracker} {ids : List AckId}
    (h : ∀ id ∈ ids, t.contains id = false) :
    ids.filter t.contains = [] ∧ (ids.filter fun id => !t.contains id) = ids := by
  constructor
  · rw [List.filter_eq_nil_iff]
    intro id hid
    rw [h id hid]
    exact Bool.false_ne_true
  · rw [List.filter_eq_self]
    intro id hid
    rw [h id hid]
    rfl

lemma acknowledgeMessages_stale {a : SubscriptionActor} (hd : a.deleted = false)
    {ackIds : List AckId} (h : ∀ id ∈ ackIds, a.outstanding.contains id = false) :
    a.acknowledgeMessages ackIds = (⟨[], ackIds⟩, a) := by
  obtain ⟨hvalid, hinvalid⟩ := filter_contains_of_stale h
  unfold acknowledgeMessages
  rw [if_neg (ne_true_of_eq_false hd), hvalid, hinvalid]
  rfl

/-- Nothing is nacked, so only the signal for a backlog is left. -/
lemma modifyDeadline_stale {a : SubscriptionActor} (hd : a.deleted = false) (env : Env)
    {modifications : List DeadlineModification}
    (h : ∀ d ∈ modifications, a.outstanding.contains d.ackId = false) :
    a.modifyDeadline env modifications = (⟨[], modifications.map DeadlineModification.ackId⟩,
      if a.backlog.isEmpty then a else a.notifyNewMessagesAvailable) := by
  have hstale : ∀ id ∈ modifications.map DeadlineModification.ackId, a.outstanding.contains id = false := by
    intro id hid
    obtain ⟨d, hmem, rfl⟩ := List.mem_map.mp hid
    exact h d hmem
  obtain ⟨hvalid, hinvalid⟩ := filter_contains_of_stale hstale
  have hmodify : a.outstanding.modify modifications = ([], a.outstanding) := by
    refine OutstandingMessageTracker.modify_of_absent fun d hmem => ?_
    exact Option.not_isSome_iff_eq_none.mp (Bool.eq_false_iff.mp (h d hmem))
  unfold modifyDeadline
  rw [if_neg (ne_true_of_eq_false hd)]
  dsimp only
  rw [hmodify, hvalid, hinvalid]
  rfl

lemma sameHoldings_modifyDeadline_stale {a : SubscriptionActor} (hd : a.deleted = false) (env : Env)
    {modifications : List DeadlineModification}
    (h : ∀ d ∈ modifications, a.outstanding.contains d.ackId = false) :
    SameHoldings a (a.modifyDeadline env modifications).2 := by
  rw [modifyDeadline_stale hd env h]
  dsimp only
  split_ifs
  · exact .refl a
  · exact ⟨rfl, rfl, rfl, rfl, rfl, rfl, rfl, rfl⟩

section

variable (info : SubscriptionInfo) (topic : Topic) (pushRegistry : PushSubscriptionsRegistry)
  (delegate : SubscriptionManagerState) (topicManager : Option TopicManagerRef)

/-- Ack IDs grow over the whole run.  IDs that are not outstanding are reported as
invalid and change nothing; after the deletion no ID is reported at all. -/
theorem ackIds_fresh_and_stale_harmless (es : List (Env × ActorEvent)) :
    let a := (start info topic pushRegistry delegate topicManager).run es
    ((deliveries (start info topic pushRegistry delegate topicManager) es).map (·.ackId)).Pairwise
      (· < ·) ∧
    (∀ ackIds, (∀ id ∈ ackIds, a.outstanding.contains id = false) →
      (a.acknowledgeMessages ackIds).1 = (if a.deleted then ⟨[], []⟩ else ⟨[], ackIds⟩) ∧
      SameHoldings a (a.acknowledgeMessages ackIds).2) ∧
    ∀ env modifications, (∀ d ∈ modifications, a.outstanding.contains d.ackId = false) →
      (a.modifyDeadline env modifications).1 =
        (if a.deleted then ⟨[], []⟩ else ⟨[], modifications.map DeadlineModification.ackId⟩) ∧
      SameHoldings a (a.modifyDeadline env modifications).2 := by
  intro a
  refine ⟨pairwise_ackIds_deliveries _ es, fun ackIds h => ?_, fun env modifications h => ?_⟩
  · by_cases hd : a.deleted = true
    · have hself : a.acknowledgeMessages ackIds = (⟨[], []⟩, a) := if_pos hd
      rw [hself, if_pos hd]
      exact ⟨rfl, .refl a⟩
    · rw [acknowledgeMessages_stale (Bool.eq_false_iff.mpr hd) h, if_neg hd]
      exact ⟨rfl, .refl a⟩
  · by_cases hd : a.deleted = true
    · have hself : a.modifyDeadline env modifications = (⟨[], []⟩, a) := if_pos hd
      rw [hself, if_pos hd]
      exact ⟨rfl, .refl a⟩
    · refine ⟨?_, sameHoldings_modifyDeadline_stale (Bool.eq_false_iff.mpr hd) env h⟩
      rw [modifyDeadline_stale (Bool.eq_false_iff.mpr hd) env h, if_neg hd]

end

/-- An ack ID that was acknowledged before is invalid and changes nothing. -/
theorem stale_ackId_after_ack :
    let a := (Sample.start Sample.info).run (Sample.events
      [.postMessages [Sample.message 1 none], .pullMessages 10 0, .acknowledgeMessages [⟨1⟩]])
    (a.acknowledgeMessages [⟨1⟩]).1 = ⟨[], [⟨1⟩]⟩ ∧
      SameHoldings a (a.acknowledgeMessages [⟨1⟩]).2 := by
  intro a
  have hstale : ∀ id ∈ [(⟨1⟩ : AckId)], a.outstanding.contains id = false := by decide +kernel
  have hdeleted : ¬ a.deleted = true := by decide +kernel
  obtain ⟨houtcome, hsame⟩ := (ackIds_fresh_and_stale_harmless Sample.info Sample.topic ∅ .new none (Sample.events
    [.postMessages [Sample.message 1 none], .pullMessages 10 0,
      .acknowledgeMessages [⟨1⟩]])).2.1 [⟨1⟩] hstale
  exact ⟨houtcome.trans (if_neg hdeleted), hsame⟩

/-- After a deletion an ack ID that was never issued is not reported as invalid. -/
theorem deleted_reports_no_ackId :
    let a := (Sample.start Sample.info).run (Sample.events [.delete])
    a.outstanding.contains ⟨1⟩ = false ∧ (a.acknowledgeMessages [⟨1⟩]).1.invalid ≠ [⟨1⟩] := by
  decide +kernel

end SubscriptionActor

end Deltio
