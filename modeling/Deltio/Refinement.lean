import Deltio.Lib.Ordering
import Deltio.SubscriptionActor

namespace Deltio.SubscriptionActor

open Lib Places

def routeOf (ordering : Bool) (m : TopicMessage) : Option String :=
  if ordering then m.orderingKey else none

abbrev route (a : SubscriptionActor) : TopicMessage → Option String :=
  routeOf a.info.enableMessageOrdering

/-- Where the messages of the actor are. -/
def placesWith (a : SubscriptionActor) (hand ready : List TopicMessage) :
    Places TopicMessage String where
  backlog := a.backlog
  queue := a.queueOf
  leased := (hand ++ a.outstanding.held : List TopicMessage)
  waiting := (ready ++ a.retryQueue.held : List TopicMessage)
  busy := a.keysInFlight
  acked := a.ledger.acked
  buried := a.ledger.deadLettered
  expired := a.ledger.retentionDropped
  rewound := a.ledger.seekDropped

abbrev places (a : SubscriptionActor) : Places TopicMessage String := a.placesWith [] []

/-- The next ack ID and the next retry sequence number are not in use. -/
structure Fresh (a : SubscriptionActor) : Prop where
  ackId : ∀ id, a.nextAckId ≤ id → a.outstanding.messages.get id = none
  retry : a.retryQueue.Fresh

/-- What the delivery of messages leaves alone. -/
structure Config where
  topic : Topic
  info : SubscriptionInfo
  pushRegistry : PushSubscriptionsRegistry
  delegate : SubscriptionManagerState
  deleted : Bool
  topicManager : Option TopicManagerRef
  compiledFilter : Option Filter

def config (a : SubscriptionActor) : Config :=
  ⟨a.topic, a.info, a.pushRegistry, a.delegate, a.deleted, a.topicManager, a.compiledFilter⟩

lemma info_of_config {a b : SubscriptionActor} (h : b.config = a.config) : b.info = a.info :=
  congrArg Config.info h

lemma route_of_config {a b : SubscriptionActor} (h : b.config = a.config) : b.route = a.route := by
  simp only [route, info_of_config h]

lemma accepts_of_config {a b : SubscriptionActor} (h : b.config = a.config) :
    b.accepts = a.accepts := by
  have hf : b.compiledFilter = a.compiledFilter := congrArg Config.compiledFilter h
  funext m
  simp only [accepts, hf]

lemma isMessageExpired_of_config {a b : SubscriptionActor} (h : b.config = a.config) :
    b.isMessageExpired = a.isMessageExpired := by
  funext m now
  simp only [isMessageExpired, info_of_config h]

lemma queueOf_insert (a : SubscriptionActor) (key : String) (queue : List TopicMessage) (k : String) :
    ((a.orderedQueues.insert key queue).get k).getD [] = Function.update a.queueOf key queue k := by
  rw [HashMap.get_insert]
  by_cases h : k = key
  · simp [h]
  · simp [h, queueOf]

lemma route_of_key {a : SubscriptionActor} {m : TopicMessage} {key : String}
    (hk : m.orderingKey = some key) (ho : a.info.enableMessageOrdering = true) :
    a.route m = some key := by
  simp [route, routeOf, ho, hk]

/-- The two ways a message is routed, by key or to the backlog. -/
lemma route_cases (a : SubscriptionActor) (m : TopicMessage) :
    (∃ key, m.orderingKey = some key ∧ a.info.enableMessageOrdering = true ∧
      a.route m = some key) ∨
    ((m.orderingKey = none ∨ a.info.enableMessageOrdering = false) ∧ a.route m = none) := by
  cases hk : m.orderingKey with
  | none => exact .inr ⟨.inl rfl, by simp [route, routeOf, hk]⟩
  | some key =>
    cases ho : a.info.enableMessageOrdering with
    | false => exact .inr ⟨.inr rfl, by simp [route, routeOf, ho]⟩
    | true => exact .inl ⟨key, rfl, rfl, route_of_key hk ho⟩

lemma placesWith_enqueue (a : SubscriptionActor) (m : TopicMessage) (hand ready : List TopicMessage) :
    (a.enqueue m).placesWith hand ready = (a.placesWith hand ready).enqueue a.route m := by
  rcases a.route_cases m with ⟨key, hk, ho, hr⟩ | ⟨h, hr⟩
  · have hq : (a.enqueue m).queueOf = Function.update a.queueOf key (a.queueOf key ++ [m]) := by
      funext k
      simp only [enqueue, hk, ho]
      exact a.queueOf_insert key _ k
    simp only [placesWith, hq, Places.enqueue, hr]
    simp [enqueue, hk, ho]
  · have he : a.enqueue m = { a with backlog := a.backlog ++ [m] } := by
      rcases h with h | h
      · simp [enqueue, h]
      · unfold enqueue; rw [h]; cases m.orderingKey <;> rfl
    simp only [he, Places.enqueue, hr]
    rfl

lemma placesWith_requeueOne (a : SubscriptionActor) (m : TopicMessage)
    (hand ready : List TopicMessage) :
    (a.requeueOne m).placesWith hand ready = (a.placesWith hand ready).requeue a.route m := by
  rcases a.route_cases m with ⟨key, hk, ho, hr⟩ | ⟨h, hr⟩
  · have hq : (a.requeueOne m).queueOf = Function.update a.queueOf key (m :: a.queueOf key) := by
      funext k
      simp only [requeueOne, hk, ho]
      exact a.queueOf_insert key _ k
    simp only [placesWith, hq, Places.requeue, hr]
    simp [requeueOne, hk, ho]
  · have he : a.requeueOne m = { a with backlog := a.backlog ++ [m] } := by
      rcases h with h | h
      · simp [requeueOne, h]
      · unfold requeueOne; rw [h]; cases m.orderingKey <;> rfl
    simp only [he, Places.requeue, hr]
    rfl

lemma placesWith_settleAcked (a : SubscriptionActor) (m : TopicMessage)
    (hand ready : List TopicMessage) :
    (a.settleAcked m).2.placesWith hand ready = release a.route { a.placesWith hand ready with
      acked := (m :: a.ledger.acked : List TopicMessage) } m := by
  rcases a.route_cases m with ⟨key, hk, ho, hr⟩ | ⟨h, hr⟩
  · simp only [release, hr, settleAcked, hk, ho]
    rfl
  · have he : (a.settleAcked m).2 = { a with
        deliveryAttempts := a.deliveryAttempts.remove m.id
        ledger := { a.ledger with acked := m :: a.ledger.acked } } := by
      rcases h with h | h
      · simp [settleAcked, h]
      · unfold settleAcked; dsimp only; rw [h]; cases m.orderingKey <;> rfl
    simp only [release, hr, he]
    rfl

lemma config_settleAcked (a : SubscriptionActor) (m : TopicMessage) :
    (a.settleAcked m).2.config = a.config := by
  unfold settleAcked
  dsimp only
  split <;> rfl

lemma Fresh.settleAcked {a : SubscriptionActor} (h : a.Fresh) (m : TopicMessage) :
    (a.settleAcked m).2.Fresh := by
  unfold SubscriptionActor.settleAcked
  dsimp only
  split <;> exact ⟨h.ackId, h.retry⟩

lemma config_enqueue (a : SubscriptionActor) (m : TopicMessage) :
    (a.enqueue m).config = a.config := by
  unfold enqueue
  split <;> rfl

lemma config_requeueOne (a : SubscriptionActor) (m : TopicMessage) :
    (a.requeueOne m).config = a.config := by
  unfold requeueOne
  split <;> rfl

lemma Fresh.enqueue {a : SubscriptionActor} (h : a.Fresh) (m : TopicMessage) :
    (a.enqueue m).Fresh := by
  unfold SubscriptionActor.enqueue
  split <;> exact ⟨h.ackId, h.retry⟩

lemma Fresh.requeueOne {a : SubscriptionActor} (h : a.Fresh) (m : TopicMessage) :
    (a.requeueOne m).Fresh := by
  unfold SubscriptionActor.requeueOne
  split <;> exact ⟨h.ackId, h.retry⟩

lemma Fresh.deliver {a : SubscriptionActor} (h : a.Fresh) (deadline : Instant) (m : TopicMessage) :
    (a.deliver deadline m).2.Fresh where
  ackId := by
    intro id hid
    have hlt : a.nextAckId.value + 1 ≤ id.value := hid
    have hne : id ≠ a.nextAckId := by rintro rfl; omega
    simp only [SubscriptionActor.deliver, OutstandingMessageTracker.add, HashMap.get_insert, hne,
      if_false]
    exact h.ackId id (show a.nextAckId.value ≤ id.value by omega)
  retry := h.retry

lemma held_deliver {a : SubscriptionActor} (h : a.Fresh) (deadline : Instant) (m : TopicMessage) :
    (a.deliver deadline m).2.outstanding.held = m :: a.outstanding.held :=
  OutstandingMessageTracker.held_add (h.ackId a.nextAckId le_rfl)

/-- `b` comes from `a` by the given acts on their places, and the actor is
otherwise as it was. -/
structure Simulates (a : SubscriptionActor) (p : Places TopicMessage String)
    (acts : List (Act TopicMessage)) (b : SubscriptionActor) (q : Places TopicMessage String) :
    Prop where
  steps : Steps a.route p acts q
  config : b.config = a.config
  fresh : b.Fresh

lemma Simulates.refl {a : SubscriptionActor} (h : a.Fresh) (p : Places TopicMessage String) :
    Simulates a p [] a p := ⟨.nil p, rfl, h⟩

lemma Simulates.trans {a b c : SubscriptionActor} {p q r : Places TopicMessage String}
    {as bs : List (Act TopicMessage)} (h₁ : Simulates a p as b q) (h₂ : Simulates b q bs c r) :
    Simulates a p (as ++ bs) c r where
  steps := h₁.steps.append (route_of_config h₁.config ▸ h₂.steps)
  config := h₂.config.trans h₁.config
  fresh := h₂.fresh

lemma Simulates.cons {a b c : SubscriptionActor} {p q r : Places TopicMessage String}
    {act : Act TopicMessage} {acts : List (Act TopicMessage)} (h : Step a.route p act q)
    (hc : b.config = a.config) (hs : Simulates b q acts c r) : Simulates a p (act :: acts) c r where
  steps := .cons h (route_of_config hc ▸ hs.steps)
  config := hs.config.trans hc
  fresh := hs.fresh

/-- Only the configuration of the first actor counts. -/
lemma Simulates.of_config {a b c : SubscriptionActor} {p q : Places TopicMessage String}
    {acts : List (Act TopicMessage)} (hs : Simulates b p acts c q) (hc : b.config = a.config) :
    Simulates a p acts c q where
  steps := route_of_config hc ▸ hs.steps
  config := hs.config.trans hc
  fresh := hs.fresh

/-- Nothing that matters for delivery differs between the two. -/
structure SameDelivery (b c : SubscriptionActor) : Prop where
  places : c.places = b.places
  config : c.config = b.config
  nextAckId : c.nextAckId = b.nextAckId
  outstanding : c.outstanding = b.outstanding
  retryQueue : c.retryQueue = b.retryQueue

lemma Simulates.sameDelivery {a b c : SubscriptionActor} {p : Places TopicMessage String}
    {acts : List (Act TopicMessage)} (h : Simulates a p acts b b.places) (hs : SameDelivery b c) :
    Simulates a p acts c c.places where
  steps := hs.places ▸ h.steps
  config := hs.config.trans h.config
  fresh := ⟨by rw [hs.nextAckId, hs.outstanding]; exact h.fresh.ackId,
    by rw [hs.retryQueue]; exact h.fresh.retry⟩

lemma simulates_postLoop (msgs : List TopicMessage) (hadAny : Bool) {a : SubscriptionActor}
    (h : a.Fresh) :
    Simulates a a.places ((msgs.filter a.accepts).map .enqueue) (postLoop msgs hadAny a).2
      (postLoop msgs hadAny a).2.places := by
  induction msgs generalizing hadAny a with
  | nil => exact .refl h _
  | cons msg msgs ih =>
    unfold postLoop
    cases hm : a.accepts msg with
    | false =>
      rw [List.filter_cons_of_neg (by simp [hm])]
      exact ih hadAny h
    | true =>
      have hc := a.config_enqueue msg
      have hrest := ih true (h.enqueue msg)
      rw [List.filter_cons_of_pos hm, List.map_cons]
      rw [accepts_of_config hc, places, placesWith_enqueue] at hrest
      exact .cons (.enqueue _ msg) hc hrest

/-- The acts of a pull: messages are leased, or expire. -/
def Pulls (acts : List (Act TopicMessage)) : Prop :=
  ∀ act ∈ acts, (∃ m, act = .lease m) ∨ ∃ m, act = .expire m

lemma Pulls.append {as bs : List (Act TopicMessage)} (h₁ : Pulls as) (h₂ : Pulls bs) :
    Pulls (as ++ bs) := by
  intro act hact
  rcases List.mem_append.mp hact with hact | hact
  · exact h₁ act hact
  · exact h₂ act hact

lemma Pulls.cons_lease {as : List (Act TopicMessage)} (h : Pulls as) (m : TopicMessage) :
    Pulls (.lease m :: as) := by
  intro act hact
  rcases List.mem_cons.mp hact with rfl | hact
  · exact .inl ⟨m, rfl⟩
  · exact h act hact

lemma Pulls.cons_expire {as : List (Act TopicMessage)} (h : Pulls as) (m : TopicMessage) :
    Pulls (.expire m :: as) := by
  intro act hact
  rcases List.mem_cons.mp hact with rfl | hact
  · exact .inr ⟨m, rfl⟩
  · exact h act hact

lemma pulls_nil : Pulls [] := by simp [Pulls]

/-- A queue that is being popped stands in for the entry of its key. -/
lemma simulates_pullHead (now deadline : Instant) {key : String} (queue : List TopicMessage)
    {a : SubscriptionActor} (h : a.Fresh) (hk : key ∉ a.keysInFlight) :
    ∃ acts, Simulates a { a.places with queue := Function.update a.queueOf key queue } acts
        (pullHead now deadline key queue a).2 (pullHead now deadline key queue a).2.places ∧
      Pulls acts ∧ leases acts = (pullHead now deadline key queue a).1.toList.map (·.message) ∧
      (pullHead now deadline key queue a).2.keysInFlight ⊆ insert key a.keysInFlight := by
  induction queue generalizing a with
  | nil =>
    refine ⟨[], ⟨?_, rfl, h.ackId, h.retry⟩, pulls_nil, rfl, Finset.subset_insert _ _⟩
    have hq : (pullHead now deadline key [] a).2.places =
        { a.places with queue := Function.update a.queueOf key [] } := by
      simp only [placesWith, pullHead]
      congr 1
      funext k
      exact a.queueOf_insert key [] k
    rw [hq]
    exact .nil _
  | cons head queue ih =>
    have hhead : ({ a.places with queue := Function.update a.queueOf key (head :: queue) } :
        Places TopicMessage String).queue key = head :: queue := Function.update_self _ _ _
    unfold pullHead
    split_ifs with he
    · obtain ⟨acts, hs, hp, hl, hf⟩ := ih (a := a.dropExpired head) ⟨h.ackId, h.retry⟩ hk
      refine ⟨.expire head :: acts,
        .cons (b := a.dropExpired head) (.expireQueue hhead) rfl ?_, hp.cons_expire head, hl, hf⟩
      simp only [Function.update_idem]
      exact hs
    · have hd := h.deliver deadline head
      refine ⟨[.lease head], ⟨?_, rfl, hd.ackId, hd.retry⟩, pulls_nil.cons_lease head, rfl, le_rfl⟩
      refine Steps.cons (.leaseQueue hhead hk) ?_
      have hq : ∀ k, (((a.deliver deadline head).2.orderedQueues.insert key queue).get k).getD [] =
          Function.update a.queueOf key queue k := (a.deliver deadline head).2.queueOf_insert key queue
      have hl : ((a.deliver deadline head).2.outstanding.held : Multiset TopicMessage) =
          head ::ₘ (a.outstanding.held : Multiset TopicMessage) := by
        rw [held_deliver h, Multiset.cons_coe]
      simp only [Function.update_idem, placesWith, List.nil_append, ← hl]
      -- the rest of the queue is written back under the key
      rw [show Function.update a.queueOf key queue = queueOf { (a.deliver deadline head).2 with
          orderedQueues := (a.deliver deadline head).2.orderedQueues.insert key queue
          keysInFlight := insert key (a.deliver deadline head).2.keysInFlight } from
        funext fun k => (hq k).symm]
      exact .nil _

/-- The visited keys are distinct, so a key is still idle when its turn comes. -/
lemma simulates_pullOrdered (now deadline : Instant) (capacity : ℕ) (keys : List String)
    (result : List PulledMessage) {a : SubscriptionActor} (h : a.Fresh) (hn : keys.Nodup)
    (hk : ∀ key ∈ keys, key ∉ a.keysInFlight) :
    ∃ acts, Simulates a a.places acts (pullOrdered now deadline capacity keys result a).2
        (pullOrdered now deadline capacity keys result a).2.places ∧
      Pulls acts ∧
      (pullOrdered now deadline capacity keys result a).1.map (·.message) =
        result.map (·.message) ++ leases acts := by
  induction keys generalizing result a with
  | nil => exact ⟨[], .refl h _, pulls_nil, by simp [pullOrdered, leases]⟩
  | cons key keys ih =>
    obtain ⟨hkey, hn⟩ := List.nodup_cons.mp hn
    have hrest : ∀ k ∈ keys, k ∉ a.keysInFlight := fun k hmem => hk k (List.mem_cons_of_mem _ hmem)
    unfold pullOrdered
    split_ifs with hc
    · exact ⟨[], .refl h _, pulls_nil, by simp [leases]⟩
    · split
      · exact ih result h hn hrest
      · next queue hq =>
        obtain ⟨acts₁, hs₁, hp₁, hl₁, hf⟩ :=
          simulates_pullHead now deadline queue h (hk key List.mem_cons_self)
        have hself : ({ a.places with queue := Function.update a.queueOf key queue } :
            Places TopicMessage String) = a.places := by
          have hu : Function.update a.queueOf key queue = a.queueOf :=
            Function.update_eq_self_iff.mpr (by simp [queueOf, hq])
          rw [hu]
          rfl
        rw [hself] at hs₁
        obtain ⟨acts₂, hs₂, hp₂, hl₂⟩ := ih (result ++ (pullHead now deadline key queue a).1.toList)
          hs₁.fresh hn fun k hmem hin => by
            rcases Finset.mem_insert.mp (hf hin) with rfl | hin
            · exact hkey hmem
            · exact hrest k hmem hin
        refine ⟨acts₁ ++ acts₂, hs₁.trans hs₂, hp₁.append hp₂, ?_⟩
        rw [hl₂, leases_append, hl₁, List.map_append, List.append_assoc]

lemma simulates_pullBacklog (now deadline : Instant) (capacity : ℕ) (backlog : List TopicMessage)
    (result : List PulledMessage) {a : SubscriptionActor} (h : a.Fresh) :
    ∃ acts, Simulates a { a.places with backlog := backlog } acts
        (pullBacklog now deadline capacity backlog result a).2
        (pullBacklog now deadline capacity backlog result a).2.places ∧
      Pulls acts ∧
      (pullBacklog now deadline capacity backlog result a).1.map (·.message) =
        result.map (·.message) ++ leases acts := by
  induction backlog generalizing result a with
  | nil => exact ⟨[], ⟨.nil _, rfl, h.ackId, h.retry⟩, pulls_nil, by simp [pullBacklog, leases]⟩
  | cons message backlog ih =>
    unfold pullBacklog
    split_ifs with hc he
    · exact ⟨[], ⟨.nil _, rfl, h.ackId, h.retry⟩, pulls_nil, by simp [leases]⟩
    · obtain ⟨acts, hs, hp, hl⟩ := ih result (a := a.dropExpired message) ⟨h.ackId, h.retry⟩
      exact ⟨.expire message :: acts,
        .cons (b := a.dropExpired message) (.expireBacklog rfl) rfl hs, hp.cons_expire _, hl⟩
    · obtain ⟨acts, hs, hp, hl⟩ := ih (result ++ [(a.deliver deadline message).1])
        (h.deliver deadline message)
      refine ⟨.lease message :: acts,
        .cons (b := (a.deliver deadline message).2) (.leaseBacklog rfl) rfl ?_, hp.cons_lease _, ?_⟩
      · have hheld : ((a.deliver deadline message).2.outstanding.held : Multiset TopicMessage) =
            message ::ₘ (a.outstanding.held : Multiset TopicMessage) := by
          rw [held_deliver h, Multiset.cons_coe]
        simp only [placesWith, List.nil_append, hheld] at hs ⊢
        exact hs
      · rw [hl, List.map_append, List.append_assoc]
        rfl

/-- The keys a pull visits: not in flight and with something queued. -/
lemma mem_idleKeys {a : SubscriptionActor} {key : String} :
    key ∈ a.idleKeys ↔ key ∉ a.keysInFlight ∧ a.queueOf key ≠ [] := by
  constructor
  · intro h
    simpa using (List.mem_filter.mp h).2
  · rintro ⟨hk, hq⟩
    refine List.mem_filter.mpr ⟨?_, by simp [hk, hq]⟩
    rw [HashMap.mem_keys]
    cases hget : a.orderedQueues.get key with
    | none => exact absurd (by simp [queueOf, hget]) hq
    | some queue => exact ⟨queue, rfl⟩

lemma idleKeys_spec (a : SubscriptionActor) :
    (a.idleKeys.insertionSort (· ≤ ·)).Nodup ∧
      ∀ key ∈ a.idleKeys.insertionSort (· ≤ ·), key ∉ a.keysInFlight := by
  have hp := List.perm_insertionSort (· ≤ ·) a.idleKeys
  refine ⟨hp.nodup_iff.mpr (a.orderedQueues.nodup_keys.filter _), fun key hkey => ?_⟩
  exact (mem_idleKeys.mp (hp.mem_iff.mp hkey)).1

lemma simulates_pullUpTo (now : Instant) (capacity : ℕ) {a : SubscriptionActor} (h : a.Fresh) :
    ∃ acts, Simulates a a.places acts (a.pullUpTo now capacity).2
        (a.pullUpTo now capacity).2.places ∧
      Pulls acts ∧ (a.pullUpTo now capacity).1.map (·.message) = leases acts := by
  obtain ⟨hn, hk⟩ := a.idleKeys_spec
  obtain ⟨acts₁, hs₁, hp₁, hl₁⟩ :=
    simulates_pullOrdered now (now + a.info.ackDeadline) capacity _ [] h hn hk
  obtain ⟨acts₂, hs₂, hp₂, hl₂⟩ :=
    simulates_pullBacklog now (now + a.info.ackDeadline) capacity _ _ hs₁.fresh
  refine ⟨acts₁ ++ acts₂, hs₁.trans hs₂, hp₁.append hp₂, ?_⟩
  rw [pullUpTo, hl₂, hl₁, leases_append]
  rfl

/-- A pull leases what it returns and lets expired messages go. -/
lemma sameDelivery_signalMore (a : SubscriptionActor) (counters : SubscriptionCounters) :
    SameDelivery a { a.signalMore with counters := counters } := by
  unfold signalMore
  split_ifs <;> exact ⟨rfl, rfl, rfl, rfl, rfl⟩

lemma simulates_pullMessages (now : Instant) (maxCount maxOutstanding : UInt16)
    {a : SubscriptionActor} (h : a.Fresh) :
    ∃ acts, Simulates a a.places acts (a.pullMessages now maxCount maxOutstanding).2
        (a.pullMessages now maxCount maxOutstanding).2.places ∧
      Pulls acts ∧
      leases acts =
        ((a.pullMessages now maxCount maxOutstanding).1.toOption.getD []).map (·.message) := by
  unfold pullMessages
  split_ifs
  · exact ⟨[], .refl h _, pulls_nil, rfl⟩
  · exact ⟨[], .refl h _, pulls_nil, rfl⟩
  · exact ⟨[], .refl h _, pulls_nil, rfl⟩
  · obtain ⟨acts, hs, hp, hl⟩ :=
      simulates_pullUpTo now (a.effectiveMax maxCount maxOutstanding) h
    exact ⟨acts, hs.sameDelivery (sameDelivery_signalMore _ _), hp, hl.symm⟩

lemma simulates_releaseAcked (acked : List PulledMessage) (freedKeys : List String)
    {a : SubscriptionActor} (h : a.Fresh) :
    Simulates a (a.placesWith (acked.map (·.message)) []) (acked.map fun p => .ack p.message)
      (releaseAcked acked freedKeys a).2 (releaseAcked acked freedKeys a).2.places := by
  induction acked generalizing freedKeys a with
  | nil => exact .refl h _
  | cons pulled rest ih =>
    have hs := ih (freedKeys ++ (a.settleAcked pulled.message).1.toList)
      (h.settleAcked pulled.message)
    rw [placesWith_settleAcked] at hs
    exact .cons (.ack (p := a.placesWith ((pulled :: rest).map (·.message)) []) rfl)
      (a.config_settleAcked pulled.message) hs

/-- A batch taken out of the tracker is still leased. -/
lemma placesWith_eq_of_held {a : SubscriptionActor} {taken : List TopicMessage}
    {t : OutstandingMessageTracker} (h : a.outstanding.held.Perm (taken ++ t.held)) :
    placesWith { a with outstanding := t } taken [] = a.places := by
  have hl : ((taken ++ t.held : List TopicMessage) : Multiset TopicMessage) =
      a.outstanding.held := Multiset.coe_eq_coe.mpr h.symm
  simp only [placesWith, hl]
  rfl

lemma Fresh.ofOutstanding {a : SubscriptionActor} (h : a.Fresh) {t : OutstandingMessageTracker}
    (ht : OutstandingMessageTracker.Shrinks a.outstanding t) : Fresh { a with outstanding := t } :=
  ⟨fun id hid => ht id (h.ackId id hid), h.retry⟩

/-- The signals after an acknowledgement. -/
lemma sameDelivery_acknowledged (a : SubscriptionActor) (noneAcked noneFreed : Bool)
    (counters : SubscriptionCounters) :
    let b := if noneAcked then a else a.notifyOutstandingFreed
    let c := if noneFreed then b else b.notifyNewMessagesAvailable
    SameDelivery a { c with counters := counters } := by
  cases noneAcked <;> cases noneFreed <;> exact ⟨rfl, rfl, rfl, rfl, rfl⟩

lemma simulates_acknowledgeMessages (ackIds : List AckId) {a : SubscriptionActor} (h : a.Fresh) :
    ∃ acts, Simulates a a.places acts (a.acknowledgeMessages ackIds).2
        (a.acknowledgeMessages ackIds).2.places ∧ ∀ act ∈ acts, ∃ m, act = .ack m := by
  unfold acknowledgeMessages
  split_ifs with hd
  · exact ⟨[], .refl h _, by simp⟩
  · set valid := ackIds.filter a.outstanding.contains
    have hperm := (OutstandingMessageTracker.perm_remove valid a.outstanding).map
      PulledMessage.message
    rw [List.map_append] at hperm
    have hs := simulates_releaseAcked (a.outstanding.remove valid).1 []
      (h.ofOutstanding (OutstandingMessageTracker.shrinks_remove valid a.outstanding))
    rw [placesWith_eq_of_held hperm] at hs
    refine ⟨(a.outstanding.remove valid).1.map fun p => .ack p.message,
      (hs.of_config (a := a) rfl).sameDelivery (sameDelivery_acknowledged _ _ _ _), fun act hact => ?_⟩
    obtain ⟨pulled, -, rfl⟩ := List.mem_map.mp hact
    exact ⟨_, rfl⟩

end Deltio.SubscriptionActor
