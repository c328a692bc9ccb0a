import Deltio.Conservation

namespace Deltio.SubscriptionActor

open Lib Places

def inFlight (a : SubscriptionActor) (key : String) : List TopicMessage :=
  (a.outstanding.held ++ a.retryQueue.held).filter fun m => m.orderingKey = some key

/-- The message can still be delivered. -/
def Live (a : SubscriptionActor) (m : TopicMessage) : Prop :=
  m ∈ a.backlog ∨ (∃ key, m ∈ a.queueOf key) ∨ m ∈ a.outstanding.held ∨ m ∈ a.retryQueue.held

def Settled (a : SubscriptionActor) (m : TopicMessage) : Prop :=
  m ∈ a.ledger.acked ∨ m ∈ a.ledger.deadLettered ∨ m ∈ a.ledger.retentionDropped ∨
    m ∈ a.ledger.seekDropped

lemma settled_iff (a : SubscriptionActor) (m : TopicMessage) :
    a.Settled m ↔ 0 < a.places.settled m := by
  simp only [Settled, settled, placesWith, Multiset.coe_count, ← List.count_pos_iff]
  omega

/-- The messages of a subscription are ordered by their IDs. -/
abbrev rank (m : TopicMessage) : ℕ := m.id.value

lemma mem_out_iff (a : SubscriptionActor) (m : TopicMessage) :
    m ∈ a.places.out ↔ m ∈ a.outstanding.held ∨ m ∈ a.retryQueue.held := by
  simp [out, placesWith]

/-- What the order of the places says about the containers. -/
lemma inFlight_append_pairwise {a : SubscriptionActor} (ho : a.info.enableMessageOrdering = true)
    (h : a.places.Ordered a.route rank) (key : String) :
    (a.inFlight key).length ≤ 1 ∧
      (a.inFlight key ++ a.queueOf key).Pairwise fun m m' => m.id.value < m'.id.value := by
  have hroute : ∀ m : TopicMessage, a.route m = m.orderingKey := fun m => by
    simp [route, routeOf, ho]
  have hlen : (a.inFlight key).length ≤ 1 := by
    have hs := h.single key
    have hout : a.places.out = ((a.outstanding.held ++ a.retryQueue.held : List TopicMessage) :
        Multiset TopicMessage) := Multiset.coe_add _ _
    rw [hout, Multiset.filter_coe, Multiset.coe_card] at hs
    simp only [hroute] at hs
    exact hs
  refine ⟨hlen, List.pairwise_append.mpr
    ⟨pairwise_of_length_le_one hlen, h.increasing key, ?_⟩⟩
  intro m hm m' hm'
  obtain ⟨hm, hk⟩ := List.mem_filter.mp hm
  refine h.oldest key m ((a.mem_out_iff m).mpr (List.mem_append.mp hm)) ?_ m' hm'
  rw [hroute]
  exact of_decide_eq_true hk

/-- A message in flight is the oldest live message of its key. -/
lemma not_live_of_ordered {a : SubscriptionActor} (ho : a.info.enableMessageOrdering = true)
    (h : a.places.Ordered a.route rank) {m m' : TopicMessage} (hm : m ∈ a.outstanding.held)
    {key : String} (hk : m.orderingKey = some key) (hk' : m'.orderingKey = some key)
    (hlt : m'.id.value < m.id.value) : ¬ a.Live m' := by
  have hr : a.route m = some key := route_of_key hk ho
  have hr' : a.route m' = some key := route_of_key hk' ho
  have hout : m ∈ a.places.out := (a.mem_out_iff m).mpr (.inl hm)
  have hout' : m' ∉ a.places.out := by
    intro hmem
    obtain ⟨rest, hrest⟩ := Multiset.exists_cons_of_mem hout
    have hne : m' ≠ m := fun e => lt_irrefl _ (e ▸ hlt)
    rw [hrest] at hmem
    exact h.route_ne hrest hr m' ((Multiset.mem_cons.mp hmem).resolve_left hne) hr'
  rintro (hb | ⟨k, hq⟩ | hb | hb)
  · have hnone := h.unkeyed m' hb
    rw [hr'] at hnone
    cases hnone
  · have hkk : k = key := Option.some.inj ((h.keyed k m' hq).symm.trans hr')
    exact lt_asymm hlt (h.oldest key m hout hr m' (hkk ▸ hq))
  · exact hout' ((a.mem_out_iff m').mpr (.inl hb))
  · exact hout' ((a.mem_out_iff m').mpr (.inr hb))

lemma settled_of_not_live {a : SubscriptionActor} {m : TopicMessage}
    (hpos : 0 < a.places.occ a.route m) (h : ¬ a.Live m) : a.Settled m := by
  simp only [Live, not_or, not_exists] at h
  obtain ⟨hb, hq, ho, hw⟩ := h
  have hbacklog : a.places.backlog.count m = 0 := List.count_eq_zero.mpr hb
  have hown : (a.places.own a.route m).count m = 0 := by
    unfold own
    split
    · exact List.count_eq_zero.mpr (hq _)
    · rfl
  have hleased : a.places.leased.count m = 0 :=
    Multiset.count_eq_zero.mpr ho
  have hwaiting : a.places.waiting.count m = 0 :=
    Multiset.count_eq_zero.mpr hw
  rw [settled_iff]
  unfold settled
  unfold occ at hpos
  omega

/-- Messages that arrive in order of publication keep the order, also when a delete or a
detach drops what was there. -/
lemma Sound.ordered_step {a : SubscriptionActor} (h : a.Sound) {seen : List TopicMessage}
    (ho : a.places.Ordered a.route rank) (hseen : a.places.Seen a.route seen)
    (e : Env × ActorEvent)
    (hinc : (seen ++ e.2.posted).Pairwise fun m m' => m.id.value < m'.id.value) :
    (a.step e).places.Ordered (a.step e).route rank ∧
      (a.step e).places.Seen (a.step e).route (seen ++ e.2.posted) := by
  obtain ⟨acts, hs⟩ := exists_simulated h.fresh h.keyed e
  have hsub : (arrivals acts).Sublist e.2.posted := by
    rw [hs.arrivals_eq]
    split_ifs
    · exact List.nil_sublist _
    · exact List.filter_sublist
  have hsub' : (seen ++ arrivals acts).Sublist (seen ++ e.2.posted) :=
    (List.Sublist.refl seen).append hsub
  obtain ⟨hordered, hseen'⟩ := hs.steps.ordered ho hseen (hinc.sublist hsub')
  rw [hs.route_eq]
  exact ⟨hordered, fun m hm => hsub'.subset (hseen' m hm)⟩

lemma Sound.ordered_run {a : SubscriptionActor} (h : a.Sound) {seen : List TopicMessage}
    (ho : a.places.Ordered a.route rank) (hseen : a.places.Seen a.route seen)
    {es : List (Env × ActorEvent)}
    (hinc : (seen ++ posted es).Pairwise fun m m' => m.id.value < m'.id.value) :
    (a.run es).places.Ordered (a.run es).route rank := by
  induction es generalizing a seen with
  | nil => exact ho
  | cons e es ih =>
    rw [show posted (e :: es) = e.2.posted ++ posted es from List.flatMap_cons,
      ← List.append_assoc] at hinc
    obtain ⟨ho', hseen'⟩ := h.ordered_step ho hseen e (List.pairwise_append.mp hinc).1
    exact ih (h.step e) ho' hseen' hinc

section

variable (info : SubscriptionInfo) (topic : Topic) (pushRegistry : PushSubscriptionsRegistry)
  (delegate : SubscriptionManagerState) (topicManager : Option TopicManagerRef)

lemma ordering_run (es : List (Env × ActorEvent)) (ho : info.enableMessageOrdering = true) :
    ((start info topic pushRegistry delegate topicManager).run es).info.enableMessageOrdering =
      true := by
  have hI : ∀ b : SubscriptionActor, ∀ e ∈ es, b.Sound ∧ b.info.enableMessageOrdering = true →
      (b.step e).Sound ∧ (b.step e).info.enableMessageOrdering = true := by
    rintro b e - ⟨hb, hob⟩
    obtain ⟨acts, hs⟩ := exists_simulated hb.fresh hb.keyed e
    exact ⟨hb.step e, hs.ordering.trans hob⟩
  exact (run_preserves hI ⟨sound_start info topic pushRegistry delegate topicManager, ho⟩).2

lemma ordered_run {es : List (Env × ActorEvent)}
    (hinc : (posted es).Pairwise fun m m' => m.id.value < m'.id.value) :
    ((start info topic pushRegistry delegate topicManager).run es).places.Ordered
      ((start info topic pushRegistry delegate topicManager).run es).route rank := by
  have hstart : (start info topic pushRegistry delegate topicManager).places.Ordered
      (start info topic pushRegistry delegate topicManager).route rank := by
    constructor <;> simp [start, placesWith, out, Keyed, queueOf]
  have hseen : (start info topic pushRegistry delegate topicManager).places.Seen
      (start info topic pushRegistry delegate topicManager).route [] := by
    intro m hm
    rw [occ_start] at hm
    exact absurd hm (lt_irrefl 0)
  exact (sound_start info topic pushRegistry delegate topicManager).ordered_run hstart hseen hinc

/-- When a message of a key is pulled, the earlier messages of the key are
settled. -/
lemma settled_of_pulled {es : List (Env × ActorEvent)} (ho : info.enableMessageOrdering = true)
    (hes : ∀ e ∈ es, ¬ e.2.discards)
    (hinc : (posted es).Pairwise fun m m' => m.id.value < m'.id.value) (pull : Env × ActorEvent)
    {p : PulledMessage}
    (hp : p ∈ ((start info topic pushRegistry delegate topicManager).run es).pulled pull)
    {key : String} (hk : p.message.orderingKey = some key) {m : TopicMessage} (hm : m ∈ posted es)
    (hacc : ((start info topic pushRegistry delegate topicManager).run es).accepts m = true)
    (hmk : m.orderingKey = some key) (hlt : m.id.value < p.message.id.value) :
    let b := ((start info topic pushRegistry delegate topicManager).run es).step pull
    b.Settled m ∧ ¬ b.Live m := by
  intro b
  have hsound := (sound_start info topic pushRegistry delegate topicManager).run es
  obtain ⟨hall, hsame⟩ := append_pull hes hp
  have hrun : (start info topic pushRegistry delegate topicManager).run (es ++ [pull]) = b :=
    run_append _ es [pull]
  have hord := ordered_run info topic pushRegistry delegate topicManager (hsame ▸ hinc)
  have hocc := occ_run info topic pushRegistry delegate topicManager hall m
  have hob := ordering_run info topic pushRegistry delegate topicManager (es ++ [pull]) ho
  rw [hrun] at hord hocc hob
  have hlive := not_live_of_ordered hob hord (mem_held_of_pulled hsound.fresh hp) hk hmk hlt
  refine ⟨settled_of_not_live ?_ hlive, hlive⟩
  obtain ⟨acts, hs⟩ := exists_simulated hsound.fresh hsound.keyed pull
  rw [hocc, hsame, show b.accepts = _ from hs.accepts_eq]
  exact List.count_pos_iff.mpr (List.mem_filter.mpr ⟨hm, hacc⟩)

/-- Per key, at most one message is in flight, it comes before the queue of the
key, and the queue is in order of publication; so a message is pulled only when
every earlier message of its key is settled. -/
theorem keys_fifo_one_at_a_time (ho : info.enableMessageOrdering = true)
    (es : List (Env × ActorEvent)) (hes : ∀ e ∈ es, ¬ e.2.discards)
    (hinc : (posted es).Pairwise fun m m' => m.id.value < m'.id.value) :
    let a := (start info topic pushRegistry delegate topicManager).run es
    (∀ key, (a.inFlight key).length ≤ 1 ∧
      (a.inFlight key ++ a.queueOf key).Pairwise fun m m' => m.id.value < m'.id.value) ∧
    ∀ (pull : Env × ActorEvent), ∀ p ∈ a.pulled pull, ∀ key, p.message.orderingKey = some key →
      ∀ m ∈ posted es, a.accepts m = true → m.orderingKey = some key →
        m.id.value < p.message.id.value → (a.step pull).Settled m ∧ ¬ (a.step pull).Live m := by
  refine ⟨fun key => ?_, fun pull p hp key hk m hm hacc hmk hlt => ?_⟩
  · exact inFlight_append_pairwise (ordering_run info topic pushRegistry delegate topicManager es ho)
      (ordered_run info topic pushRegistry delegate topicManager hinc) key
  · exact settled_of_pulled info topic pushRegistry delegate topicManager ho hes hinc pull hp hk hm
      hacc hmk hlt

end

/-- The second message of a key is pulled once the first is acked. -/
theorem keys_fifo_one_at_a_time_after_ack :
    let a := (Sample.start Sample.info).run (Sample.events
      [.postMessages [Sample.message 1 (some "k"), Sample.message 2 (some "k")],
        .pullMessages 10 0, .acknowledgeMessages [⟨1⟩]])
    let pull := (Sample.env 0, ActorEvent.request (.pullMessages 10 0))
    (a.step pull).Settled (Sample.message 1 (some "k")) := by
  refine ((keys_fifo_one_at_a_time Sample.info Sample.topic ∅ .new none rfl (Sample.events
    [.postMessages [Sample.message 1 (some "k"), Sample.message 2 (some "k")],
      .pullMessages 10 0, .acknowledgeMessages [⟨1⟩]]) ?_ (by decide)).2
    (Sample.env 0, ActorEvent.request (.pullMessages 10 0))
    ⟨Sample.message 2 (some "k"), ⟨2⟩, AckDeadline.new (Duration.fromSecs 10), 1⟩
    (by decide +kernel) "k" rfl (Sample.message 1 (some "k")) ?_ (by decide +kernel) rfl
    (by decide)).1
  · simp [Sample.events, ActorEvent.discards]
  · simp [Sample.events, posted, ActorEvent.posted]

/-- Every key in flight has a message outstanding or waiting for its retry. -/
def KeysManned (a : SubscriptionActor) : Prop := ∀ key ∈ a.keysInFlight, a.inFlight key ≠ []

def DeadLettersKeyed (a : SubscriptionActor) (e : Env × ActorEvent) : Prop :=
  ∃ m : TopicMessage, m.orderingKey.isSome ∧
    .bury m ∈ failActs a.info a.deliveryAttempts ((a.failing e.2).map (·.message))

/-- A message with an ordering key whose backoff has elapsed is past the retention. -/
def DropsKeyedRetry (a : SubscriptionActor) (e : Env × ActorEvent) : Prop :=
  ∃ m ∈ a.ripe e.2, m.orderingKey.isSome ∧ a.isMessageExpired m e.1.now = true

/-- The event gives up no message with an ordering key. -/
def KeepsKeys (a : SubscriptionActor) (e : Env × ActorEvent) : Prop :=
  ¬ a.DeadLettersKeyed e ∧ ¬ a.DropsKeyedRetry e

lemma isSome_orderingKey_of_route {a : SubscriptionActor} {m : TopicMessage}
    (h : (a.route m).isSome) : m.orderingKey.isSome := by
  unfold route routeOf at h
  split_ifs at h
  · exact h
  · cases h

lemma KeepsKeys.not_strands {a : SubscriptionActor} {e : Env × ActorEvent} (h : a.KeepsKeys e)
    {act : Act TopicMessage} (hact : act ∈ a.redelivery e) : ¬ Strands a.route act := by
  intro hs
  rcases List.mem_append.mp hact with hact | hact
  · obtain ⟨m, -, rfl | rfl | rfl⟩ := mem_failActs hact
    · exact h.1 ⟨m, isSome_orderingKey_of_route hs, hact⟩
    · exact hs
    · exact hs
  · obtain ⟨m, hm, rfl⟩ := List.mem_map.mp hact
    unfold retryAct at hs
    split_ifs at hs with hx
    · exact h.2 ⟨m, hm, isSome_orderingKey_of_route hs, hx⟩
    · exact hs

/-- A step that gives up no keyed message leaves every key in flight manned. -/
lemma Sound.manned_step {a : SubscriptionActor} (h : a.Sound) (hm : a.places.Manned a.route)
    {e : Env × ActorEvent} (he : a.KeepsKeys e) :
    (a.step e).places.Manned (a.step e).route := by
  obtain ⟨acts, hs⟩ := exists_simulated h.fresh h.keyed e
  rw [hs.route_eq]
  have hboth : (a.step e).places.Keyed a.route ∧ (a.step e).places.Manned a.route := by
    refine hs.steps.preserves (I := fun p => p.Keyed a.route ∧ p.Manned a.route) ?_ ⟨h.keyed, hm⟩
    rintro p act q hact ⟨hk, hp⟩ hstep
    exact ⟨hstep.keyed hk, hstep.manned hk hp fun hst => he.not_strands (hs.strands act hact hst) hst⟩
  exact hboth.2

lemma keysManned_of_manned {a : SubscriptionActor} (h : a.places.Manned a.route) :
    a.KeysManned := by
  intro key hkey
  obtain ⟨m, hm, hr⟩ := h key hkey
  refine List.ne_nil_of_mem (a := m) (List.mem_filter.mpr ⟨?_, ?_⟩)
  · exact List.mem_append.mpr ((a.mem_out_iff m).mp hm)
  · unfold route routeOf at hr
    split_ifs at hr
    exact decide_eq_true hr

/-- While no keyed message is dead-lettered or dropped on its way back from the
retry queue, no key is blocked: each key in flight has a message that will free
it, and a queued key with nothing in flight is among those a pull visits. -/
theorem keys_not_blocked (info : SubscriptionInfo) (topic : Topic)
    (pushRegistry : PushSubscriptionsRegistry) (delegate : SubscriptionManagerState)
    (topicManager : Option TopicManagerRef) (es : List (Env × ActorEvent))
    (hes : Along KeepsKeys (start info topic pushRegistry delegate topicManager) es) :
    let a := (start info topic pushRegistry delegate topicManager).run es
    a.KeysManned ∧
      ∀ key, a.queueOf key ≠ [] → a.inFlight key = [] → key ∈ a.idleKeys := by
  intro a
  have hboth : a.Sound ∧ a.places.Manned a.route := by
    refine hes.preserves (I := fun b => b.Sound ∧ b.places.Manned b.route) ?_ ⟨sound_start .., ?_⟩
    · rintro b e ⟨hb, hm⟩ he
      exact ⟨hb.step e, hb.manned_step hm he⟩
    · intro key hkey
      simp [start, placesWith] at hkey
  have hmanned := keysManned_of_manned hboth.2
  refine ⟨hmanned, fun key hq hnone => mem_idleKeys.mpr ⟨fun hkey => ?_, hq⟩⟩
  exact hmanned key hkey hnone

/-- Nacked messages go back to the head of their queue and free their key. -/
theorem keys_not_blocked_after_nack :
    ((Sample.start Sample.info).run (Sample.events
      [.postMessages [Sample.message 1 (some "k"), Sample.message 2 (some "k")],
        .pullMessages 10 0, .modifyDeadline [.nack ⟨1⟩]])).KeysManned := by
  refine (keys_not_blocked Sample.info Sample.topic ∅ .new none (Sample.events
    [.postMessages [Sample.message 1 (some "k"), Sample.message 2 (some "k")],
      .pullMessages 10 0, .modifyDeadline [.nack ⟨1⟩]]) ?_).1
  refine ⟨⟨?_, ?_⟩, ⟨?_, ?_⟩, ⟨?_, ?_⟩, trivial⟩
  · rintro ⟨m, -, hm⟩; cases hm
  · rintro ⟨m, hm, -⟩; cases hm
  · rintro ⟨m, -, hm⟩; cases hm
  · rintro ⟨m, hm, -⟩; cases hm
  · rintro ⟨m, -, hm⟩
    have hacts : failActs Sample.info ∅ [Sample.message 1 (some "k")] =
        [.requeue (Sample.message 1 (some "k"))] := by decide +kernel
    change .bury m ∈ failActs Sample.info ∅ [Sample.message 1 (some "k")] at hm
    rw [hacts] at hm
    simp at hm
  · rintro ⟨m, hm, -⟩; cases hm

/-- A keyed message is nacked until it is dead-lettered: its key stays in
flight, and the next message of the key is stuck. -/
theorem keys_blocked_after_dead_letter :
    let a := (Sample.start { Sample.info with deadLetterPolicy := some Sample.deadLetterPolicy }).run
      (Sample.events (.postMessages [Sample.message 1 (some "k"), Sample.message 2 (some "k")] ::
        [1, 2, 3, 4, 5].flatMap fun i => [.pullMessages 10 0, .modifyDeadline [.nack ⟨i⟩]]))
    ¬ a.KeysManned ∧ a.inFlight "k" = [] ∧ a.queueOf "k" = [Sample.message 2 (some "k")] ∧
      a.idleKeys = [] := by
  refine ⟨fun h => h "k" ?_ ?_, ?_, ?_, ?_⟩ <;> decide +kernel

end Deltio.SubscriptionActor
