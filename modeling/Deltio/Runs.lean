import Deltio.Lib.Machine
import Deltio.Redelivery

namespace Deltio

open Lib Places

def ActorEvent.posted : ActorEvent → List TopicMessage
  | .request (.postMessages messages) => messages
  | _ => []

/-- The requests that drop the messages of a subscription. -/
def ActorEvent.discards : ActorEvent → Prop
  | .request .delete | .request .detach => True
  | _ => False

def ActorEvent.isDiscard : ActorEvent → Bool
  | .request .delete | .request .detach => true
  | _ => false

lemma ActorEvent.not_discards_of_all {es : List (Env × ActorEvent)}
    (h : es.all (fun e => !e.2.isDiscard) = true) : ∀ e ∈ es, ¬ e.2.discards := by
  intro e he hdiscards
  have hno := List.all_eq_true.mp h e he
  have hyes : e.2.isDiscard = true := by
    unfold ActorEvent.discards at hdiscards
    split at hdiscards
    · next heq => rw [heq]; rfl
    · next heq => rw [heq]; rfl
    · exact hdiscards.elim
  rw [hyes] at hno
  cases hno

/-- The requests that change more than the state of the delivery. -/
def ActorEvent.reconfigures : ActorEvent → Prop
  | .request (.updateInfo _) | .request (.modifyPushConfig _) | .request .delete
  | .request .detach => True
  | _ => False

namespace SubscriptionActor

def pulled (a : SubscriptionActor) (e : Env × ActorEvent) : List PulledMessage :=
  match e.2 with
  | .request (.pullMessages maxCount maxOutstanding) =>
    (a.pullMessages e.1.now maxCount maxOutstanding).1.toOption.getD []
  | _ => []

/-- The messages whose delivery fails in an event: nacked, or past their deadline. -/
def failing (a : SubscriptionActor) : ActorEvent → List PulledMessage
  | .request (.modifyDeadline modifications) =>
    if a.deleted then [] else (a.outstanding.modify modifications).1
  | .expired polledAt => (a.outstanding.takeExpired polledAt).1
  | _ => []

def ripe (a : SubscriptionActor) : ActorEvent → List TopicMessage
  | .retryReady polledAt => (a.retryQueue.takeReady polledAt).1
  | _ => []

def redelivery (a : SubscriptionActor) (e : Env × ActorEvent) : List (Act TopicMessage) :=
  failActs a.info a.deliveryAttempts ((a.failing e.2).map (·.message)) ++
    (a.ripe e.2).map (a.retryAct e.1.now)

/-- The event acts on the places as listed. -/
structure Simulated (a : SubscriptionActor) (e : Env × ActorEvent)
    (acts : List (Act TopicMessage)) : Prop where
  steps : Steps a.route a.places acts (a.step e).places
  fresh : (a.step e).Fresh
  ordering : (a.step e).info.enableMessageOrdering = a.info.enableMessageOrdering
  filter : (a.step e).compiledFilter = a.compiledFilter
  config : ¬ e.2.reconfigures → (a.step e).config = a.config
  arrivals_eq : arrivals acts = if a.deleted then [] else e.2.posted.filter a.accepts
  deleted : ¬ e.2.discards → (a.step e).deleted = a.deleted
  clears : .clear ∈ acts → e.2.discards
  strands : ∀ act ∈ acts, Strands a.route act → act ∈ a.redelivery e

lemma mem_failActs {info : SubscriptionInfo} {attempts : HashMap MessageId ℕ}
    {msgs : List TopicMessage} {act : Act TopicMessage} (h : act ∈ failActs info attempts msgs) :
    ∃ m ∈ msgs, act = .bury m ∨ act = .defer m ∨ act = .requeue m := by
  induction msgs generalizing attempts with
  | nil => simp [failActs] at h
  | cons m msgs ih =>
    rcases List.mem_cons.mp h with rfl | h
    · refine ⟨m, List.mem_cons_self, ?_⟩
      unfold failAct
      split_ifs
      · exact .inl rfl
      · exact .inr (.inl rfl)
      · exact .inr (.inr rfl)
    · obtain ⟨m', hm', h⟩ := ih h
      exact ⟨m', List.mem_cons_of_mem _ hm', h⟩

lemma mem_retryActs {a : SubscriptionActor} {now : Instant} {msgs : List TopicMessage}
    {act : Act TopicMessage} (h : act ∈ msgs.map (a.retryAct now)) :
    ∃ m ∈ msgs, act = .rot m ∨ act = .ripen m := by
  obtain ⟨m, hm, rfl⟩ := List.mem_map.mp h
  refine ⟨m, hm, ?_⟩
  unfold retryAct
  split_ifs
  · exact .inl rfl
  · exact .inr rfl

lemma Simulates.simulated {a : SubscriptionActor} {e : Env × ActorEvent}
    {acts : List (Act TopicMessage)} (h : Simulates a a.places acts (a.step e) (a.step e).places)
    (ha : arrivals acts = if a.deleted then [] else e.2.posted.filter a.accepts)
    (hc : .clear ∈ acts → e.2.discards)
    (hs : ∀ act ∈ acts, Strands a.route act → act ∈ a.redelivery e) : Simulated a e acts :=
  ⟨h.steps, h.fresh, by rw [info_of_config h.config], congrArg Config.compiledFilter h.config,
    fun _ => h.config, ha, fun _ => congrArg Config.deleted h.config, hc, hs⟩

lemma simulated_self {a : SubscriptionActor} {e : Env × ActorEvent} (h : a.Fresh)
    (hstep : a.step e = a) (hpost : e.2.posted = [] ∨ a.deleted = true) : Simulated a e [] where
  steps := by rw [hstep]; exact .nil _
  fresh := by rw [hstep]; exact h
  ordering := by rw [hstep]
  filter := by rw [hstep]
  config := by rw [hstep]; exact fun _ => rfl
  arrivals_eq := by rcases hpost with hpost | hpost <;> simp [hpost, arrivals]
  deleted := by rw [hstep]; exact fun _ => rfl
  clears := by simp
  strands := by simp

lemma simulated_reconfigured {a : SubscriptionActor} {e : Env × ActorEvent}
    (hp : (a.step e).places = a.places) (hf : (a.step e).Fresh)
    (ho : (a.step e).info.enableMessageOrdering = a.info.enableMessageOrdering)
    (hfilter : (a.step e).compiledFilter = a.compiledFilter) (hr : e.2.reconfigures)
    (hpost : e.2.posted = []) (hd : ¬ e.2.discards → (a.step e).deleted = a.deleted) :
    Simulated a e [] where
  steps := hp ▸ .nil _
  fresh := hf
  ordering := ho
  filter := hfilter
  config := fun hn => absurd hr hn
  arrivals_eq := by simp [hpost, arrivals]
  deleted := hd
  clears := by simp
  strands := by simp

/-- What the acts of failing and ripe messages are not. -/
lemma Simulates.redelivered {a : SubscriptionActor} {e : Env × ActorEvent}
    (h : Simulates a a.places (a.redelivery e) (a.step e) (a.step e).places)
    (hpost : e.2.posted = []) : Simulated a e (a.redelivery e) := by
  have hkind : ∀ act ∈ a.redelivery e, (∀ m, act ≠ .enqueue m) ∧ act ≠ .clear := by
    intro act hact
    rcases List.mem_append.mp hact with hact | hact
    · obtain ⟨m, -, rfl | rfl | rfl⟩ := mem_failActs hact <;> simp
    · obtain ⟨m, -, rfl | rfl⟩ := mem_retryActs hact <;> simp
  refine h.simulated ?_ ?_ fun act hact _ => hact
  · rw [arrivals_eq_nil fun m hm => (hkind _ hm).1 m rfl, hpost]
    simp
  · exact fun hm => absurd rfl (hkind _ hm).2

lemma simulated_postMessages {a : SubscriptionActor} (h : a.Fresh) (env : Env)
    (messages : List TopicMessage) :
    ∃ acts, Simulated a (env, .request (.postMessages messages)) acts := by
  by_cases hd : a.deleted = true
  · have hstep : a.step (env, .request (.postMessages messages)) = a := by
      simp [step, receive, postMessages, hd]
    exact ⟨[], simulated_self h hstep (.inr hd)⟩
  · have hs := simulates_postLoop messages false h
    refine ⟨(messages.filter a.accepts).map .enqueue, Simulates.simulated ?_ ?_ ?_ ?_⟩
    · change Simulates a a.places _ (a.postMessages messages) (a.postMessages messages).places
      unfold postMessages
      rw [if_neg hd]
      dsimp only
      split_ifs
      · exact hs.sameDelivery ⟨rfl, rfl, rfl, rfl, rfl⟩
      · exact hs
    · rw [if_neg hd, arrivals_map_enqueue]
      rfl
    · simp
    · intro act hact hstrands
      obtain ⟨m, -, rfl⟩ := List.mem_map.mp hact
      exact hstrands.elim

lemma simulated_pullMessages {a : SubscriptionActor} (h : a.Fresh) (env : Env)
    (maxCount maxOutstanding : UInt16) :
    ∃ acts, Simulated a (env, .request (.pullMessages maxCount maxOutstanding)) acts := by
  obtain ⟨acts, hs, hp, -⟩ := simulates_pullMessages env.now maxCount maxOutstanding h
  refine ⟨acts, Simulates.simulated hs ?_ ?_ ?_⟩
  · have hnone : ∀ m, Act.enqueue m ∉ acts := by
      intro m hm
      rcases hp _ hm with ⟨m', he⟩ | ⟨m', he⟩ <;> cases he
    simp [arrivals_eq_nil hnone, ActorEvent.posted]
  · intro hm
    rcases hp _ hm with ⟨m', he⟩ | ⟨m', he⟩ <;> cases he
  · intro act hact hstrands
    rcases hp _ hact with ⟨m', rfl⟩ | ⟨m', rfl⟩ <;> exact hstrands.elim

lemma simulated_acknowledgeMessages {a : SubscriptionActor} (h : a.Fresh) (env : Env)
    (ackIds : List AckId) :
    ∃ acts, Simulated a (env, .request (.acknowledgeMessages ackIds)) acts := by
  obtain ⟨acts, hs, hp⟩ := simulates_acknowledgeMessages ackIds h
  refine ⟨acts, Simulates.simulated hs ?_ ?_ ?_⟩
  · have hnone : ∀ m, Act.enqueue m ∉ acts := fun m hm => by
      obtain ⟨m', he⟩ := hp _ hm
      cases he
    simp [arrivals_eq_nil hnone, ActorEvent.posted]
  · intro hm
    obtain ⟨m', he⟩ := hp _ hm
    cases he
  · intro act hact hstrands
    obtain ⟨m', rfl⟩ := hp _ hact
    exact hstrands.elim

lemma simulated_modifyDeadline {a : SubscriptionActor} (h : a.Fresh) (env : Env)
    (modifications : List DeadlineModification) :
    ∃ acts, Simulated a (env, .request (.modifyDeadline modifications)) acts := by
  by_cases hd : a.deleted = true
  · have hstep : a.step (env, .request (.modifyDeadline modifications)) = a := by
      simp [step, receive, modifyDeadline, hd]
    exact ⟨[], simulated_self h hstep (.inl rfl)⟩
  · have hs := simulates_modifyDeadline env modifications h (Bool.eq_false_iff.mpr hd)
    refine ⟨_, Simulates.redelivered ?_ rfl⟩
    simp only [redelivery, failing, ripe, if_neg hd, List.map_nil, List.append_nil]
    exact hs

lemma simulated_expired {a : SubscriptionActor} (h : a.Fresh) (env : Env) (polledAt : Instant) :
    ∃ acts, Simulated a (env, .expired polledAt) acts := by
  refine ⟨_, Simulates.redelivered ?_ rfl⟩
  simp only [redelivery, failing, ripe, List.map_nil, List.append_nil]
  exact simulates_pollExpired env polledAt h

lemma simulated_retryReady {a : SubscriptionActor} (h : a.Fresh) (env : Env)
    (polledAt : Instant) : ∃ acts, Simulated a (env, .retryReady polledAt) acts := by
  refine ⟨_, Simulates.redelivered ?_ rfl⟩
  simp only [redelivery, failing, ripe, List.map_nil, failActs, List.nil_append]
  exact simulates_pollReady env polledAt h

lemma simulated_seek {a : SubscriptionActor} (h : a.Fresh) (hk : a.places.Keyed a.route)
    (env : Env) (seekTime : SystemTime) :
    ∃ acts, Simulated a (env, .request (.seek seekTime)) acts := by
  by_cases hd : a.deleted = true
  · have hstep : a.step (env, .request (.seek seekTime)) = a := by
      simp [step, receive, seekToTime, hd]
    exact ⟨[], simulated_self h hstep (.inl rfl)⟩
  · have hs := simulates_seekToTime env.order seekTime hk (Bool.eq_false_iff.mpr hd)
    exact ⟨_, Simulates.simulated hs (by simp [arrivals, ActorEvent.posted]) (by simp)
      (by simp [Strands])⟩

lemma Fresh.clearMessages (a : SubscriptionActor) : a.clearMessages.Fresh :=
  ⟨fun _ _ => rfl, RetryQueue.Fresh.clear _⟩

lemma simulated_clear {a : SubscriptionActor} {e : Env × ActorEvent}
    (hp : (a.step e).places = a.places.clear) (hf : (a.step e).Fresh)
    (ho : (a.step e).info.enableMessageOrdering = a.info.enableMessageOrdering)
    (hfilter : (a.step e).compiledFilter = a.compiledFilter) (hpost : e.2.posted = [])
    (hd : e.2.discards) (hr : e.2.reconfigures) : Simulated a e [.clear] where
  steps := hp ▸ (Step.clear _).steps
  fresh := hf
  ordering := ho
  filter := hfilter
  config := fun hn => absurd hr hn
  arrivals_eq := by simp [hpost, arrivals]
  deleted := fun hn => absurd hd hn
  clears := fun _ => hd
  strands := by simp [Strands]

lemma simulated_delete {a : SubscriptionActor} (h : a.Fresh) (env : Env) :
    ∃ acts, Simulated a (env, .request .delete) acts := by
  by_cases hd : a.deleted = true
  · have hstep : a.step (env, .request .delete) = a := by simp [step, receive, delete, hd]
    exact ⟨[], simulated_self h hstep (.inl rfl)⟩
  · cases ht : env.topicAnswer with
    | closed =>
      -- the call returns after setting the flag
      have hstep : a.step (env, .request .delete) = { a with deleted := true } := by
        simp [step, receive, delete, hd, ht]
      exact ⟨[], simulated_reconfigured (by rw [hstep]; rfl) (by rw [hstep]; exact ⟨h.ackId, h.retry⟩)
        (by rw [hstep]) (by rw [hstep]) trivial rfl fun hn => absurd trivial hn⟩
    | gone | removed =>
      have hstep : a.step (env, .request .delete) = { clearMessages { a with
          deleted := true
          delegate := a.delegate.delete a.info.name
          observer := a.observer.notifyDeleted } with
          pushRegistry := a.pushRegistry.set a.info.name none } := by
        simp only [step, receive, delete, hd, ht]
        rfl
      refine ⟨_, simulated_clear ?_ ?_ ?_ ?_ rfl trivial trivial⟩ <;> rw [hstep]
      · rfl
      · exact ⟨(Fresh.clearMessages _).ackId, (Fresh.clearMessages _).retry⟩
      · rfl
      · rfl

lemma simulated_detach {a : SubscriptionActor} (h : a.Fresh) (env : Env) :
    ∃ acts, Simulated a (env, .request .detach) acts := by
  by_cases hd : a.info.detached = true
  · have hstep : a.step (env, .request .detach) = a := by simp [step, receive, detach, hd]
    exact ⟨[], simulated_self h hstep (.inl rfl)⟩
  · have hstep : a.step (env, .request .detach) =
        clearMessages { a with info := { a.info with detached := true } } := by
      simp [step, receive, detach, hd]
    refine ⟨_, simulated_clear ?_ ?_ ?_ ?_ rfl trivial trivial⟩ <;> rw [hstep]
    · rfl
    · exact Fresh.clearMessages _
    · rfl
    · rfl

/-- An event in which deliveries fail re-queues them. -/
lemma step_of_failing {a : SubscriptionActor} {e : Env × ActorEvent} (h : a.failing e.2 ≠ []) :
    ∃ outstanding counters, a.step e =
      requeueMessages { a with outstanding := outstanding, counters := counters } e.1
        (a.failing e.2) := by
  obtain ⟨env, event⟩ := e
  cases event with
  | retryReady polledAt => exact absurd rfl h
  | expired polledAt =>
    have hbatch : ¬ (a.outstanding.takeExpired polledAt).1.isEmpty = true :=
      fun he => h (List.isEmpty_iff.mp he)
    refine ⟨(a.outstanding.takeExpired polledAt).2, { a.counters with
      expired := a.counters.expired + (a.outstanding.takeExpired polledAt).1.length }, ?_⟩
    change a.pollExpired env polledAt = _
    unfold pollExpired
    dsimp only
    rw [if_neg hbatch]
    rfl
  | request r =>
    cases r with
    | modifyDeadline modifications =>
      have hd : ¬ a.deleted = true := fun hd => h (if_pos hd)
      have hfailing : a.failing (.request (.modifyDeadline modifications)) =
        (a.outstanding.modify modifications).1 := if_neg hd
      refine ⟨(a.outstanding.modify modifications).2, { a.counters with
        nacked := a.counters.nacked + (a.outstanding.modify modifications).1.length }, ?_⟩
      change (a.modifyDeadline env modifications).2 = _
      dsimp only
      rw [hfailing]
      unfold modifyDeadline
      rw [if_neg hd]
    | _ => exact absurd rfl h

/-- Every event is a sequence of acts of leased delivery. -/
theorem exists_simulated {a : SubscriptionActor} (h : a.Fresh) (hk : a.places.Keyed a.route)
    (e : Env × ActorEvent) : ∃ acts, Simulated a e acts := by
  obtain ⟨env, event⟩ := e
  cases event with
  | expired polledAt => exact simulated_expired h env polledAt
  | retryReady polledAt => exact simulated_retryReady h env polledAt
  | request r =>
    cases r with
    | postMessages messages => exact simulated_postMessages h env messages
    | pullMessages maxCount maxOutstanding =>
      exact simulated_pullMessages h env maxCount maxOutstanding
    | acknowledgeMessages ackIds => exact simulated_acknowledgeMessages h env ackIds
    | modifyDeadline modifications => exact simulated_modifyDeadline h env modifications
    | seek seekTime => exact simulated_seek h hk env seekTime
    | delete => exact simulated_delete h env
    | detach => exact simulated_detach h env
    | getInfo => exact ⟨[], simulated_self h rfl (.inl rfl)⟩
    | getStats => exact ⟨[], simulated_self h rfl (.inl rfl)⟩
    | updateInfo update =>
      exact ⟨[], simulated_reconfigured rfl ⟨h.ackId, h.retry⟩ rfl rfl trivial rfl fun _ => rfl⟩
    | modifyPushConfig pushConfig =>
      exact ⟨[], simulated_reconfigured rfl ⟨h.ackId, h.retry⟩ rfl rfl trivial rfl fun _ => rfl⟩

/-- What every reachable state satisfies. -/
structure Sound (a : SubscriptionActor) : Prop where
  fresh : a.Fresh
  keyed : a.places.Keyed a.route

lemma sound_start (info : SubscriptionInfo) (topic : Topic)
    (pushRegistry : PushSubscriptionsRegistry) (delegate : SubscriptionManagerState)
    (topicManager : Option TopicManagerRef) :
    (start info topic pushRegistry delegate topicManager).Sound where
  fresh := ⟨fun _ _ => rfl, RetryQueue.fresh_new⟩
  keyed := fun k m hm => by simp [start, placesWith, queueOf] at hm

lemma occ_start (info : SubscriptionInfo) (topic : Topic)
    (pushRegistry : PushSubscriptionsRegistry) (delegate : SubscriptionManagerState)
    (topicManager : Option TopicManagerRef) (m : TopicMessage) :
    (start info topic pushRegistry delegate topicManager).places.occ
      (start info topic pushRegistry delegate topicManager).route m = 0 := by
  cases hroute : (start info topic pushRegistry delegate topicManager).route m with
  | none => simp only [occ, own, hroute]; rfl
  | some key => simp only [occ, own, hroute]; rfl

lemma Simulated.route_eq {a : SubscriptionActor} {e : Env × ActorEvent}
    {acts : List (Act TopicMessage)} (h : Simulated a e acts) : (a.step e).route = a.route := by
  simp only [route, h.ordering]

lemma Simulated.accepts_eq {a : SubscriptionActor} {e : Env × ActorEvent}
    {acts : List (Act TopicMessage)} (h : Simulated a e acts) : (a.step e).accepts = a.accepts := by
  funext m
  simp only [accepts, h.filter]

lemma Simulated.keyed {a : SubscriptionActor} {e : Env × ActorEvent}
    {acts : List (Act TopicMessage)} (h : Simulated a e acts) (hk : a.places.Keyed a.route) :
    (a.step e).places.Keyed (a.step e).route := by
  rw [h.route_eq]
  exact h.steps.preserves (fun _ _ _ _ hp hstep => hstep.keyed hp) hk

lemma Sound.step {a : SubscriptionActor} (h : a.Sound) (e : Env × ActorEvent) :
    (a.step e).Sound := by
  obtain ⟨acts, hs⟩ := exists_simulated h.fresh h.keyed e
  exact ⟨hs.fresh, hs.keyed h.keyed⟩

/-- Four requests change the configuration; every other event leaves it alone. -/
lemma config_step_cases {a : SubscriptionActor} (hs : a.Sound) (env : Env) (event : ActorEvent) :
    (¬ event.reconfigures ∧ (a.step (env, event)).config = a.config) ∨
      (∃ update, event = .request (.updateInfo update)) ∨
      (∃ pushConfig, event = .request (.modifyPushConfig pushConfig)) ∨
      event = .request .delete ∨ event = .request .detach := by
  by_cases hr : event.reconfigures
  · right
    cases event with
    | expired | retryReady => exact hr.elim
    | request r =>
      cases r with
      | updateInfo update => exact .inl ⟨update, rfl⟩
      | modifyPushConfig pushConfig => exact .inr (.inl ⟨pushConfig, rfl⟩)
      | delete => exact .inr (.inr (.inl rfl))
      | detach => exact .inr (.inr (.inr rfl))
      | _ => exact hr.elim
  · obtain ⟨acts, hsim⟩ := exists_simulated hs.fresh hs.keyed (env, event)
    exact .inl ⟨hr, hsim.config hr⟩

lemma detached_detach (a : SubscriptionActor) : a.detach.info.detached = true := by
  unfold detach
  split_ifs with hd
  · exact hd
  · rfl

/-- The actor as a machine all of whose events can happen. -/
lemma machine_run (a : SubscriptionActor) (es : List (Env × ActorEvent)) :
    Machine.run (fun a e => some (a.step e)) a es = some (a.run es) := by
  induction es generalizing a with
  | nil => rfl
  | cons e es ih => exact ih (a.step e)

/-- An invariant of every step is an invariant of the run. -/
theorem run_preserves {I : SubscriptionActor → Prop} {a : SubscriptionActor}
    {es : List (Env × ActorEvent)} (hI : ∀ b, ∀ e ∈ es, I b → I (b.step e)) (ha : I a) :
    I (a.run es) := by
  have halong : Machine.Along (fun a e => some (a.step e)) (fun _ e => e ∈ es) a es :=
    Machine.along_of_forall (fun _ _ he => he) a
  refine halong.preserves (machine_run a es) ha fun b e c hb he hstep => ?_
  cases hstep
  exact hI b e he hb

theorem Sound.run {a : SubscriptionActor} (h : a.Sound) (es : List (Env × ActorEvent)) :
    (a.run es).Sound :=
  run_preserves (fun _ e _ hb => hb.step e) h

def Along (C : SubscriptionActor → Env × ActorEvent → Prop) :
    SubscriptionActor → List (Env × ActorEvent) → Prop
  | _, [] => True
  | a, e :: es => C a e ∧ Along C (a.step e) es

lemma along_machine_iff {C : SubscriptionActor → Env × ActorEvent → Prop} {a : SubscriptionActor}
    {es : List (Env × ActorEvent)} :
    Machine.Along (fun a e => some (a.step e)) C a es ↔ Along C a es := by
  induction es generalizing a with
  | nil => exact Iff.rfl
  | cons e es ih => rw [← Machine.along_cons_of_some _ rfl, ih, Along]

/-- An invariant of every step that meets the condition. -/
theorem Along.preserves {C : SubscriptionActor → Env × ActorEvent → Prop}
    {I : SubscriptionActor → Prop} {a : SubscriptionActor} {es : List (Env × ActorEvent)}
    (h : Along C a es) (hI : ∀ b e, I b → C b e → I (b.step e)) (ha : I a) : I (a.run es) := by
  refine (along_machine_iff.mpr h).preserves (machine_run a es) ha fun b e c hb hc hstep => ?_
  cases hstep
  exact hI b e hb hc

/-- If a step keeps the invariant exactly when it meets the condition, the
invariant holds along the run exactly when every step meets the condition. -/
theorem forall_run_take_iff {C : SubscriptionActor → Env × ActorEvent → Prop}
    {I : SubscriptionActor → Prop}
    (hI : ∀ b e, b.Sound → I b → (I (b.step e) ↔ C b e)) {a : SubscriptionActor} (hs : a.Sound)
    (ha : I a) (es : List (Env × ActorEvent)) :
    (∀ n, I (a.run (es.take n))) ↔ Along C a es := by
  rw [← along_machine_iff, ← Machine.forall_run_take_iff (J := Sound) (I := I) ?_ ?_ hs ha]
  · simp only [machine_run, Option.some.injEq, forall_eq']
  · rintro b e c hb ⟨⟩
    exact hb.step e
  · rintro b e c hb hIb ⟨⟩
    exact hI b e hb hIb

def posted (es : List (Env × ActorEvent)) : List TopicMessage := es.flatMap fun e => e.2.posted

/-- A run without delete and detach, read as acts. -/
structure SimulatedRun (a : SubscriptionActor) (es : List (Env × ActorEvent))
    (acts : List (Act TopicMessage)) : Prop where
  steps : Steps a.route a.places acts (a.run es).places
  route_eq : (a.run es).route = a.route
  accepts_eq : (a.run es).accepts = a.accepts
  arrivals_eq : arrivals acts = (posted es).filter a.accepts
  deleted : (a.run es).deleted = false
  noClear : .clear ∉ acts

theorem exists_simulatedRun {a : SubscriptionActor} {es : List (Env × ActorEvent)} (h : a.Sound)
    (hd : a.deleted = false) (hes : ∀ e ∈ es, ¬ e.2.discards) : ∃ acts, SimulatedRun a es acts := by
  induction es generalizing a with
  | nil => exact ⟨[], .nil _, rfl, rfl, rfl, hd, List.not_mem_nil⟩
  | cons e es ih =>
    have he := hes e List.mem_cons_self
    obtain ⟨acts, hs⟩ := exists_simulated h.fresh h.keyed e
    have hd' : (a.step e).deleted = false := (hs.deleted he).trans hd
    obtain ⟨acts', hr⟩ := ih (h.step e) hd' fun e' he' => hes e' (List.mem_cons_of_mem _ he')
    refine ⟨acts ++ acts', hs.steps.append (hs.route_eq ▸ hr.steps), hr.route_eq.trans hs.route_eq,
      hr.accepts_eq.trans hs.accepts_eq, ?_, hr.deleted, ?_⟩
    · rw [arrivals_append, hs.arrivals_eq, hr.arrivals_eq, hs.accepts_eq, hd,
        if_neg Bool.false_ne_true, ← List.filter_append]
      rfl
    · intro hc
      rcases List.mem_append.mp hc with hc | hc
      · exact he (hs.clears hc)
      · exact hr.noClear hc

lemma run_append (a : SubscriptionActor) (es es' : List (Env × ActorEvent)) :
    a.run (es ++ es') = (a.run es).run es' := List.foldl_append

lemma posted_append (es es' : List (Env × ActorEvent)) :
    posted (es ++ es') = posted es ++ posted es' := List.flatMap_append

/-- Only a pull returns messages, and it posts and discards none. -/
lemma not_discards_of_mem_pulled {a : SubscriptionActor} {e : Env × ActorEvent} {p : PulledMessage}
    (hp : p ∈ a.pulled e) : ¬ e.2.discards ∧ e.2.posted = [] := by
  obtain ⟨env, event⟩ := e
  unfold pulled at hp
  split at hp
  · next h =>
    rw [show event = _ from h]
    exact ⟨id, rfl⟩
  · cases hp

/-- A run goes on with a pull that returns something. -/
lemma append_pull {a : SubscriptionActor} {es : List (Env × ActorEvent)}
    (hes : ∀ e ∈ es, ¬ e.2.discards) {pull : Env × ActorEvent} {p : PulledMessage}
    (hp : p ∈ a.pulled pull) :
    (∀ e ∈ es ++ [pull], ¬ e.2.discards) ∧ posted (es ++ [pull]) = posted es := by
  obtain ⟨hpull, hposted⟩ := not_discards_of_mem_pulled hp
  constructor
  · intro e he
    rcases List.mem_append.mp he with he | he
    · exact hes e he
    · rw [List.mem_singleton.mp he]
      exact hpull
  · rw [posted_append, show posted [pull] = [] by simp [posted, hposted], List.append_nil]

/-- What a pull returns is outstanding after it. -/
lemma mem_held_of_pulled {a : SubscriptionActor} (h : a.Fresh) {e : Env × ActorEvent}
    {p : PulledMessage} (hp : p ∈ a.pulled e) : p.message ∈ (a.step e).outstanding.held := by
  obtain ⟨env, event⟩ := e
  unfold pulled at hp
  split at hp
  · next maxCount maxOutstanding he =>
    rw [show event = _ from he]
    obtain ⟨acts, hs, hpulls, hl⟩ := simulates_pullMessages env.now maxCount maxOutstanding h
    have hmem : p.message ∈ (a.pullMessages env.now maxCount maxOutstanding).2.places.leased := by
      rw [hs.steps.leased_eq hpulls, hl]
      exact Multiset.mem_add.mpr (.inl (Multiset.mem_coe.mpr (List.mem_map_of_mem hp)))
    exact Multiset.mem_coe.mp hmem
  · cases hp

lemma occ_step_le {a : SubscriptionActor} (hs : a.Sound) (e : Env × ActorEvent) (m : TopicMessage) :
    (a.step e).places.occ (a.step e).route m ≤ a.places.occ a.route m + e.2.posted.count m := by
  obtain ⟨acts, hsim⟩ := exists_simulated hs.fresh hs.keyed e
  have harrivals : (arrivals acts).count m ≤ e.2.posted.count m := by
    rw [hsim.arrivals_eq]
    split_ifs
    · exact Nat.zero_le _
    · exact List.Sublist.count_le m List.filter_sublist
  rw [hsim.route_eq]
  exact (hsim.steps.occ_le hs.keyed m).trans (Nat.add_le_add_left harrivals _)

/-- In any run, a message occurs at most as often as it was posted. -/
lemma occ_run_le {a : SubscriptionActor} (hs : a.Sound) (es : List (Env × ActorEvent))
    (m : TopicMessage) :
    (a.run es).places.occ (a.run es).route m ≤ a.places.occ a.route m + (posted es).count m := by
  induction es generalizing a with
  | nil => exact Nat.le_add_right _ _
  | cons e es ih =>
    have htail := ih (hs.step e)
    have hhead := occ_step_le hs e m
    have hsplit : (posted (e :: es)).count m = e.2.posted.count m + (posted es).count m := by
      rw [posted, List.flatMap_cons, List.count_append]
      rfl
    change ((a.step e).run es).places.occ ((a.step e).run es).route m ≤ _
    omega

/-- A message that is out or settled is in no pull, unless it was posted twice. -/
lemma not_mem_pulled_of_away {a : SubscriptionActor} (hs : a.Sound) {pull : Env × ActorEvent}
    {m : TopicMessage} (hocc : a.places.occ a.route m ≤ 1) (haway : 0 < a.places.away m) :
    m ∉ (a.pulled pull).map (·.message) := by
  intro hm
  obtain ⟨env, event⟩ := pull
  unfold pulled at hm
  split at hm
  · next maxCount maxOutstanding he =>
    obtain ⟨acts, hsim, hpulls, hleases⟩ :=
      simulates_pullMessages env.now maxCount maxOutstanding hs.fresh
    rw [← hleases] at hm
    have htwice := hsim.steps.away_lt_occ hpulls hm
    have hnone : Act.clear ∉ acts := by
      intro hc
      rcases hpulls _ hc with ⟨m', he⟩ | ⟨m', he⟩ <;> cases he
    have hnew : arrivals acts = [] := by
      refine arrivals_eq_nil fun m' hm' => ?_
      rcases hpulls _ hm' with ⟨m'', he⟩ | ⟨m'', he⟩ <;> cases he
    have hkeep := hsim.steps.occ_eq hs.keyed hnone m
    rw [hnew, List.count_nil] at hkeep
    omega
  · cases hm

lemma occ_le_posted (info : SubscriptionInfo) (topic : Topic)
    (pushRegistry : PushSubscriptionsRegistry) (delegate : SubscriptionManagerState)
    (topicManager : Option TopicManagerRef) (es : List (Env × ActorEvent)) (m : TopicMessage) :
    ((start info topic pushRegistry delegate topicManager).run es).places.occ
      ((start info topic pushRegistry delegate topicManager).run es).route m ≤
      (posted es).count m := by
  have hle := occ_run_le (sound_start info topic pushRegistry delegate topicManager) es m
  rwa [occ_start, Nat.zero_add] at hle

end SubscriptionActor

namespace Sample

def topic : Topic := ⟨⟨"project", "topic"⟩, 1⟩

def info : SubscriptionInfo :=
  { SubscriptionInfo.newWithDefaults ⟨"project", "subscription"⟩ with enableMessageOrdering := true }

def deadLetterTopic : Topic := ⟨⟨"project", "dead-letters"⟩, 2⟩

def topics : TopicManager :=
  ⟨(HashMap.insert ∅ topic.name topic).insert deadLetterTopic.name deadLetterTopic, 2⟩

def deadLetterPolicy : DeadLetterPolicy := ⟨deadLetterTopic.name, 5⟩

def pushTo (endpoint : String) : PushConfig := ⟨endpoint, none, none⟩

def message (id : ℕ) (key : Option String) : TopicMessage where
  id := ⟨id⟩
  publishedAt := id
  publishedAtInstant := 0
  data := []
  attributes := none
  orderingKey := key

/-- Insertion order, and a topic that removes on request. -/
def env (now : Instant) : Env where
  now := now
  topics := topics
  order := .identity
  topicAnswer := .removed

def start (info : SubscriptionInfo) : SubscriptionActor :=
  SubscriptionActor.start info topic ∅ .new none

def events (rs : List SubscriptionRequest) : List (Env × ActorEvent) :=
  rs.map fun r => (env 0, .request r)

end Sample

end Deltio
