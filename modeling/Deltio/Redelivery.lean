import Deltio.Refinement

namespace Deltio.SubscriptionActor

open Lib Places

def failAct (info : SubscriptionInfo) (attempt : ℕ) (m : TopicMessage) : Act TopicMessage :=
  if exceedsMaxDeliveryAttempts info attempt then .bury m
  else if info.retryPolicy.isSome then .defer m
  else .requeue m

/-- What happens to a batch of failed messages.  The attempts are counted along
the way. -/
def failActs (info : SubscriptionInfo) :
    HashMap MessageId ℕ → List TopicMessage → List (Act TopicMessage)
  | _, [] => []
  | attempts, m :: ms =>
    let attempt := nextAttempt attempts m.id
    failAct info attempt m :: failActs info (attempts.insert m.id attempt) ms

lemma simulates_retryLater (now : Instant) {a : SubscriptionActor} (h : a.Fresh)
    (m : TopicMessage) (attempt : ℕ) (hand : List TopicMessage)
    (hx : exceedsMaxDeliveryAttempts a.info attempt = false) :
    Simulates a (a.placesWith (m :: hand) []) [failAct a.info attempt m]
      (a.retryLater now m attempt) ((a.retryLater now m attempt).placesWith hand []) := by
  have hleased : (a.placesWith (m :: hand) []).leased =
      m ::ₘ ((hand ++ a.outstanding.held : List TopicMessage) : Multiset TopicMessage) := rfl
  unfold retryLater failAct
  rw [hx, if_neg Bool.false_ne_true]
  cases a.info.retryPolicy with
  | none =>
    refine ⟨?_, a.config_requeueOne m, h.requeueOne m⟩
    rw [placesWith_requeueOne]
    exact (Step.nack hleased).steps
  | some policy =>
    set deliverAt := AckDeadline.new (now + policy.calculateBackoff attempt)
    refine ⟨?_, rfl, h.ackId, h.retry.add m deliverAt⟩
    have hw : ((a.retryQueue.add m deliverAt).held : Multiset TopicMessage) =
        m ::ₘ (a.retryQueue.held : Multiset TopicMessage) := by
      rw [RetryQueue.held_add h.retry, Multiset.cons_coe]
    have hq : placesWith { a with retryQueue := a.retryQueue.add m deliverAt } hand [] =
        { a.placesWith (m :: hand) [] with
          leased := (hand ++ a.outstanding.held : List TopicMessage)
          waiting := m ::ₘ (a.retryQueue.held : Multiset TopicMessage) } := by
      simp only [placesWith, List.nil_append, hw]
      rfl
    rw [hq]
    exact (Step.defer hleased).steps

lemma deliveryAttempts_retryLater (a : SubscriptionActor) (now : Instant) (m : TopicMessage)
    (attempt : ℕ) : (a.retryLater now m attempt).deliveryAttempts = a.deliveryAttempts := by
  unfold retryLater requeueOne
  split
  · rfl
  · split <;> rfl

lemma simulates_requeueLoop (now : Instant) (msgs : List PulledMessage)
    (dead : List TopicMessage) (ids : List MessageId) {a : SubscriptionActor} (h : a.Fresh) :
    Simulates a (a.placesWith (msgs.map (·.message)) [])
      (failActs a.info a.deliveryAttempts (msgs.map (·.message)))
      (requeueLoop now msgs dead ids a).2.2 (requeueLoop now msgs dead ids a).2.2.places := by
  induction msgs generalizing dead ids a with
  | nil => exact .refl h _
  | cons pulled rest ih =>
    set m := pulled.message with hm
    have hfresh : (a.countAttempt m.id).Fresh := ⟨h.ackId, h.retry⟩
    unfold requeueLoop
    dsimp only
    split_ifs with hx
    · refine .cons (b := (a.countAttempt m.id).giveUp m) ?_ rfl
        (ih _ _ (a := (a.countAttempt m.id).giveUp m) ⟨h.ackId, h.retry⟩)
      rw [failAct, if_pos hx]
      exact .bury rfl
    · have hs := simulates_retryLater now hfresh m (nextAttempt a.deliveryAttempts m.id)
        (rest.map (·.message)) (Bool.eq_false_iff.mpr hx)
      have hrest := ih dead ids hs.fresh
      rw [info_of_config hs.config, deliveryAttempts_retryLater] at hrest
      exact (hs.trans hrest).of_config rfl

lemma publishDeadLetters_eq (a : SubscriptionActor) (topics : TopicManager)
    (dead : List TopicMessage) (ids : List MessageId) :
    ∃ spawned attempts counters, a.publishDeadLetters topics dead ids =
      { a with spawned := spawned, deliveryAttempts := attempts, counters := counters } := by
  unfold publishDeadLetters tryPublishDeadLetteredMessages
  split_ifs
  · exact ⟨a.spawned, a.deliveryAttempts, a.counters, rfl⟩
  · dsimp only
    split
    · split
      · exact ⟨_, _, _, rfl⟩
      · exact ⟨a.spawned, _, _, rfl⟩
    · exact ⟨a.spawned, _, _, rfl⟩

/-- What follows the loop changes counters, attempts and spawned tasks, and
signals if the backlog is not empty. -/
lemma requeueMessages_eq (a : SubscriptionActor) (env : Env) (msgs : List PulledMessage) :
    ∃ spawned attempts counters,
      a.requeueMessages env msgs =
        let b := { (requeueLoop env.now msgs [] [] a).2.2 with
          spawned := spawned
          deliveryAttempts := attempts
          counters := counters }
        if b.backlog.isEmpty then b else b.notifyNewMessagesAvailable := by
  obtain ⟨spawned, attempts, counters, h⟩ :=
    (requeueLoop env.now msgs [] [] a).2.2.publishDeadLetters_eq env.topics
      (requeueLoop env.now msgs [] [] a).1 (requeueLoop env.now msgs [] [] a).2.1
  refine ⟨spawned, attempts, counters, ?_⟩
  unfold requeueMessages
  dsimp only
  rw [h]

lemma sameDelivery_requeueMessages (a : SubscriptionActor) (env : Env)
    (msgs : List PulledMessage) :
    SameDelivery (requeueLoop env.now msgs [] [] a).2.2 (a.requeueMessages env msgs) := by
  obtain ⟨spawned, attempts, counters, h⟩ := a.requeueMessages_eq env msgs
  rw [h]
  dsimp only
  split_ifs <;> exact ⟨rfl, rfl, rfl, rfl, rfl⟩

/-- A batch taken out of the tracker is requeued, deferred or given up. -/
lemma simulates_requeueMessages (env : Env) {msgs : List PulledMessage}
    {t : OutstandingMessageTracker} (counters : SubscriptionCounters) {a : SubscriptionActor}
    (h : a.Fresh) (hp : a.outstanding.held.Perm (msgs.map (·.message) ++ t.held))
    (ht : OutstandingMessageTracker.Shrinks a.outstanding t) :
    Simulates a a.places (failActs a.info a.deliveryAttempts (msgs.map (·.message)))
      (requeueMessages { a with outstanding := t, counters := counters } env msgs)
      (requeueMessages { a with outstanding := t, counters := counters } env msgs).places := by
  set b : SubscriptionActor := { a with outstanding := t, counters := counters }
  have hb : b.Fresh := ⟨fun id hid => ht id (h.ackId id hid), h.retry⟩
  have hplaces : b.placesWith (msgs.map (·.message)) [] = a.places := placesWith_eq_of_held hp
  rw [← hplaces]
  exact ((simulates_requeueLoop env.now msgs [] [] hb).sameDelivery
    (b.sameDelivery_requeueMessages env msgs)).of_config rfl

lemma simulates_modifyDeadline (env : Env) (modifications : List DeadlineModification)
    {a : SubscriptionActor} (h : a.Fresh) (hd : a.deleted = false) :
    Simulates a a.places (failActs a.info a.deliveryAttempts
        ((a.outstanding.modify modifications).1.map (·.message)))
      (a.modifyDeadline env modifications).2 (a.modifyDeadline env modifications).2.places := by
  unfold modifyDeadline
  rw [if_neg (ne_true_of_eq_false hd)]
  exact simulates_requeueMessages env _ h
    (OutstandingMessageTracker.perm_modify modifications a.outstanding)
    (OutstandingMessageTracker.shrinks_modify modifications a.outstanding)

lemma simulates_pollExpired (env : Env) (polledAt : Instant) {a : SubscriptionActor}
    (h : a.Fresh) :
    Simulates a a.places (failActs a.info a.deliveryAttempts
        ((a.outstanding.takeExpired polledAt).1.map (·.message)))
      (a.pollExpired env polledAt) (a.pollExpired env polledAt).places := by
  have hperm := (a.outstanding.perm_takeExpired polledAt).map PulledMessage.message
  rw [List.map_append] at hperm
  have hshrinks := a.outstanding.shrinks_takeExpired polledAt
  unfold pollExpired
  dsimp only
  split_ifs with he
  · have hp := placesWith_eq_of_held (a := a) hperm
    rw [List.isEmpty_iff.mp he] at hp ⊢
    rw [← hp]
    exact ⟨.nil _, rfl, h.ofOutstanding hshrinks⟩
  · exact simulates_requeueMessages env _ h hperm hshrinks

def retryAct (a : SubscriptionActor) (now : Instant) (m : TopicMessage) : Act TopicMessage :=
  if a.isMessageExpired m now then .rot m else .ripen m

lemma simulates_retryReadyLoop (now : Instant) (ready : List TopicMessage) (deliveredAny : Bool)
    {a : SubscriptionActor} (h : a.Fresh) :
    Simulates a (a.placesWith [] ready) (ready.map (a.retryAct now))
      (retryReadyLoop now ready deliveredAny a).2
      (retryReadyLoop now ready deliveredAny a).2.places := by
  induction ready generalizing deliveredAny a with
  | nil => exact .refl h _
  | cons m ready ih =>
    unfold retryReadyLoop
    rw [List.map_cons]
    split_ifs with he
    · refine .cons (b := a.dropExpired m) ?_ rfl
        (ih deliveredAny (a := a.dropExpired m) ⟨h.ackId, h.retry⟩)
      rw [retryAct, if_pos he]
      exact .rot rfl
    · have hc := a.config_requeueOne m
      have hs := ih true (h.requeueOne m)
      have hr : (a.requeueOne m).retryAct now = a.retryAct now := by
        funext m'
        simp only [retryAct, isMessageExpired_of_config hc]
      rw [placesWith_requeueOne, hr] at hs
      refine .cons ?_ hc hs
      rw [retryAct, if_neg he]
      exact .ripen rfl

lemma simulates_pollReady (env : Env) (polledAt : Instant) {a : SubscriptionActor} (h : a.Fresh) :
    Simulates a a.places ((a.retryQueue.takeReady polledAt).1.map (a.retryAct env.now))
      (a.pollReady env polledAt) (a.pollReady env polledAt).places := by
  have hp : placesWith { a with retryQueue := (a.retryQueue.takeReady polledAt).2 } []
      (a.retryQueue.takeReady polledAt).1 = a.places := by
    have hw : (((a.retryQueue.takeReady polledAt).1 ++ (a.retryQueue.takeReady polledAt).2.held :
        List TopicMessage) : Multiset TopicMessage) = a.retryQueue.held :=
      Multiset.coe_eq_coe.mpr (a.retryQueue.perm_takeReady polledAt).symm
    simp only [placesWith, hw]
    rfl
  have hf : Fresh { a with retryQueue := (a.retryQueue.takeReady polledAt).2 } :=
    ⟨h.ackId, h.retry.takeReady polledAt⟩
  have hs : Simulates a _ _ _ _ :=
    (simulates_retryReadyLoop env.now (a.retryQueue.takeReady polledAt).1 false hf).of_config rfl
  rw [hp] at hs
  unfold pollReady handleRetryReady
  dsimp only
  split_ifs with he
  · rw [List.isEmpty_iff.mp he] at hs ⊢
    exact hs
  · exact hs.sameDelivery ⟨rfl, rfl, rfl, rfl, rfl⟩
  · exact hs

/-- What the loops of a seek leave: each kept message is back in its place. -/
def afterSeek (route : TopicMessage → Option String) (seekTime : SystemTime)
    (msgs : List TopicMessage) (p : Places TopicMessage String) : Places TopicMessage String :=
  { p with
    backlog := p.backlog ++ msgs.filter fun m => newerThan seekTime m && (route m).isNone
    queue := fun k =>
      (msgs.filter fun m => newerThan seekTime m && decide (route m = some k)).reverse ++ p.queue k
    rewound := (msgs.filter fun m => !newerThan seekTime m : List TopicMessage) + p.rewound }

lemma afterSeek_cons (route : TopicMessage → Option String) (seekTime : SystemTime)
    (m : TopicMessage) (msgs : List TopicMessage) {p : Places TopicMessage String}
    (hb : p.busy = ∅) :
    afterSeek route seekTime (m :: msgs) p = afterSeek route seekTime msgs
      (if newerThan seekTime m then p.requeue route m else { p with rewound := m ::ₘ p.rewound }) := by
  cases hk : newerThan seekTime m with
  | false => simp [afterSeek, hk, ← Multiset.cons_coe]
  | true =>
    cases hr : route m with
    | none => simp [afterSeek, hk, hr, Places.requeue]
    | some k =>
      have hq : ∀ j, ((m :: msgs).filter
          fun m => newerThan seekTime m && decide (route m = some j)).reverse ++ p.queue j =
          (msgs.filter fun m => newerThan seekTime m && decide (route m = some j)).reverse ++
            Function.update p.queue k (m :: p.queue k) j := by
        intro j
        by_cases hj : k = j
        · subst hj
          simp [hk, hr]
        · simp [hk, hr, hj, Function.update_of_ne (Ne.symm hj)]
      simp only [afterSeek, Places.requeue, hr, if_true, hq, hb, Finset.erase_empty]
      simp [hk, hr]

lemma config_seekOne (seekTime : SystemTime) (a : SubscriptionActor) (m : TopicMessage) :
    (seekOne seekTime a m).config = a.config := by
  unfold seekOne
  split_ifs
  · exact a.config_requeueOne m
  · rfl

lemma Fresh.seekOne {a : SubscriptionActor} (h : a.Fresh) (seekTime : SystemTime)
    (m : TopicMessage) : (SubscriptionActor.seekOne seekTime a m).Fresh := by
  unfold SubscriptionActor.seekOne
  split_ifs
  · exact h.requeueOne m
  · exact ⟨h.ackId, h.retry⟩

lemma places_seekOne (seekTime : SystemTime) (a : SubscriptionActor) (m : TopicMessage) :
    (seekOne seekTime a m).places = if newerThan seekTime m then a.places.requeue a.route m
      else { a.places with rewound := m ::ₘ (a.ledger.seekDropped : Multiset TopicMessage) } := by
  unfold seekOne
  split_ifs
  · rw [places, placesWith_requeueOne]
  · rfl

lemma foldl_seekOne_spec (seekTime : SystemTime) (msgs : List TopicMessage)
    {a : SubscriptionActor} (h : a.Fresh) (hb : a.keysInFlight = ∅) :
    (msgs.foldl (seekOne seekTime) a).places = afterSeek a.route seekTime msgs a.places ∧
      (msgs.foldl (seekOne seekTime) a).config = a.config ∧
      (msgs.foldl (seekOne seekTime) a).Fresh := by
  induction msgs generalizing a with
  | nil => exact ⟨by simp [afterSeek], rfl, h⟩
  | cons m msgs ih =>
    have hc := config_seekOne seekTime a m
    have hp := places_seekOne seekTime a m
    have hb' : (seekOne seekTime a m).keysInFlight = ∅ := by
      have hbusy : (seekOne seekTime a m).keysInFlight = (seekOne seekTime a m).places.busy := rfl
      rw [hbusy, hp]
      split_ifs
      · unfold Places.requeue
        split <;> simp [placesWith, hb]
      · exact hb
    obtain ⟨h₁, h₂, h₃⟩ := ih (h.seekOne seekTime m) hb'
    refine ⟨?_, h₂.trans hc, h₃⟩
    rw [List.foldl_cons, h₁, route_of_config hc, hp, afterSeek_cons _ _ _ _ hb]
    rfl

/-- A message occurs among all queues as often as in its own. -/
lemma count_flatten_orderedQueues {a : SubscriptionActor} (hk : a.places.Keyed a.route)
    (m : TopicMessage) :
    a.orderedQueues.values.flatten.count m = (a.places.own a.route m).count m := by
  have hroute : ∀ j queue, a.orderedQueues.get j = some queue → m ∈ queue → a.route m = some j := by
    intro j queue hget hm
    refine hk j m ?_
    change m ∈ (a.orderedQueues.get j).getD []
    rwa [hget]
  cases hr : a.route m with
  | none =>
    rw [HashMap.count_flatten_values fun j queue hget hm => by
      rw [hroute j queue hget hm] at hr; cases hr]
    simp [own, hr]
  | some k =>
    rw [own_of_route hr]
    change _ = ((a.orderedQueues.get k).getD []).count m
    cases hget : a.orderedQueues.get k with
    | none =>
      refine HashMap.count_flatten_values fun j queue hj hm => ?_
      have hjk : j = k := Option.some.inj ((hroute j queue hj hm).symm.trans hr)
      rw [hjk, hget] at hj
      cases hj
    | some queue =>
      -- the queues of the other keys do not have it
      have hrest : (a.orderedQueues.remove k).values.flatten.count m = 0 := by
        refine HashMap.count_flatten_values fun j queue' hj hm => ?_
        rw [HashMap.get_remove] at hj
        split_ifs at hj with hjk
        exact hjk (Option.some.inj ((hroute j queue' hj hm).symm.trans hr))
      rw [(HashMap.values_perm_remove hget).flatten.count_eq, List.flatten_cons,
        List.count_append, hrest]
      rfl

lemma getD_filterMap_queue (queue : Option (List TopicMessage)) (keep : TopicMessage → Bool) :
    (queue.bind fun q => if (q.filter keep).isEmpty then none else some (q.filter keep)).getD [] =
      (queue.getD []).filter keep := by
  cases queue with
  | none => rfl
  | some q =>
    rw [Option.bind_some, Option.getD_some]
    split_ifs with h
    · exact (List.isEmpty_iff.mp h).symm
    · rfl

lemma queueOf_resetTo (a : SubscriptionActor) (seekTime : SystemTime) (k : String) :
    (a.resetTo seekTime).queueOf k = (a.queueOf k).filter (newerThan seekTime) := by
  change ((a.orderedQueues.filterMap _).get k).getD [] = _
  rw [HashMap.get_filterMap]
  exact getD_filterMap_queue _ _

/-- Resetting and bringing back what was out is a rewind. -/
lemma afterSeek_resetTo (a : SubscriptionActor) (seekTime : SystemTime) (out : List TopicMessage) :
    afterSeek a.route seekTime out (a.resetTo seekTime).places =
      a.places.rewind a.route (newerThan seekTime) out
        (out.filter (fun m => !newerThan seekTime m) +
          (a.backlog ++ a.orderedQueues.values.flatten).filter fun m => !newerThan seekTime m :
            Multiset TopicMessage) := by
  simp only [afterSeek, Places.rewind, placesWith, queueOf_resetTo]
  congr 1
  rw [resetTo, ← Multiset.coe_add, ← Multiset.add_assoc, Multiset.add_comm]

def drained (a : SubscriptionActor) (order : DrainOrder) : List TopicMessage :=
  (a.outstanding.drain order.outstanding).1.map PulledMessage.message ++
    (a.retryQueue.drain order.retrying).1

lemma drained_perm (a : SubscriptionActor) (order : DrainOrder) :
    (a.drained order).Perm (a.outstanding.held ++ a.retryQueue.held) :=
  ((order.outstanding_perm _).map _).append (order.retrying_perm _)

/-- A seek is a rewind of what was drained. -/
lemma seekToTime_spec (order : DrainOrder) (seekTime : SystemTime) {a : SubscriptionActor}
    (hd : a.deleted = false) :
    (a.seekToTime order seekTime).places =
        a.places.rewind a.route (newerThan seekTime) (a.drained order)
          ((a.drained order).filter (fun m => !newerThan seekTime m) +
            (a.backlog ++ a.orderedQueues.values.flatten).filter fun m => !newerThan seekTime m :
              Multiset TopicMessage) ∧
      (a.seekToTime order seekTime).config = a.config ∧
      (a.seekToTime order seekTime).Fresh := by
  have hfresh : (a.resetTo seekTime).Fresh := ⟨fun _ _ => rfl, RetryQueue.Fresh.clear _⟩
  obtain ⟨hp, hc, hf⟩ := foldl_seekOne_spec seekTime (a.drained order) hfresh rfl
  rw [show (a.resetTo seekTime).route = a.route from rfl, afterSeek_resetTo] at hp
  unfold seekToTime
  rw [if_neg (ne_true_of_eq_false hd)]
  exact ⟨hp, hc, hf.ackId, hf.retry⟩

lemma simulates_seekToTime (order : DrainOrder) (seekTime : SystemTime) {a : SubscriptionActor}
    (hk : a.places.Keyed a.route) (hd : a.deleted = false) :
    Simulates a a.places [.rewind] (a.seekToTime order seekTime)
      (a.seekToTime order seekTime).places := by
  obtain ⟨hp, hc, hf⟩ := seekToTime_spec order seekTime hd
  refine ⟨?_, hc, hf⟩
  rw [hp]
  -- what was out is drained once, and what is dropped is exactly what is not newer
  refine (Step.rewind _ _ _ ?_ ?_ ?_).steps
  · exact (Multiset.coe_eq_coe.mpr (a.drained_perm order)).trans (Multiset.coe_add _ _).symm
  · intro m hm
    have hn : (!newerThan seekTime m) = true := by simp [hm]
    have hqueued : (a.backlog ++ a.orderedQueues.values.flatten).count m =
        a.backlog.count m + (a.places.own a.route m).count m := by
      rw [List.count_append, count_flatten_orderedQueues hk]
    rw [Multiset.count_add, Multiset.coe_count, Multiset.coe_count, count_filter_ite,
      count_filter_ite, if_pos hn, if_pos hn, hqueued]
    exact Nat.add_comm _ _
  · intro m hm
    have hn : (!newerThan seekTime m) = false := by simp [hm]
    rw [Multiset.count_add, Multiset.coe_count, Multiset.coe_count, count_filter_ite,
      count_filter_ite, hn]
    rfl

end Deltio.SubscriptionActor
