import Deltio.Runs
import Deltio.SubscriptionManager

namespace Deltio

open Lib Places

namespace SubscriptionActor

def deadLetterAttributes : List String :=
  ["CloudPubSubDeadLetterSourceDeliveryCount", "CloudPubSubDeadLetterSourceSubscription",
    "CloudPubSubDeadLetterSourceSubscriptionProject", "CloudPubSubDeadLetterSourceTopicPublishTime"]

/-- The dead letter carries the data of the message and its attributes. -/
structure Carries (m letter : TopicMessage) : Prop where
  data : letter.data = m.data
  attributes : ∀ key, key ∉ deadLetterAttributes →
    (letter.attributes.getD ∅).get key = (m.attributes.getD ∅).get key

def buried (acts : List (Act TopicMessage)) : List TopicMessage :=
  acts.filterMap fun
    | .bury m => some m
    | _ => none

/-- The messages of an event that exceed the maximum number of attempts. -/
def givenUp (a : SubscriptionActor) (e : Env × ActorEvent) : List TopicMessage :=
  buried (failActs a.info a.deliveryAttempts ((a.failing e.2).map (·.message)))

/-- If the event gives up messages and the dead letter topic exists, one task is
spawned that publishes them to that topic, each once. -/
def ForwardsDeadLetters (a : SubscriptionActor) (e : Env × ActorEvent) : Prop :=
  ∀ dlp dlqTopic, a.info.deadLetterPolicy = some dlp →
    e.1.topics.getTopic dlp.deadLetterTopic = some dlqTopic → a.givenUp e ≠ [] →
    ∃ letters, (a.step e).spawned = a.spawned ++ [(dlqTopic, letters)] ∧
      List.Forall₂ Carries (a.givenUp e) letters

lemma buried_failActs_cons (info : SubscriptionInfo) (attempts : HashMap MessageId ℕ)
    (m : TopicMessage) (msgs : List TopicMessage) :
    buried (failActs info attempts (m :: msgs)) =
      (if exceedsMaxDeliveryAttempts info (nextAttempt attempts m.id) then [m] else []) ++
        buried (failActs info (attempts.insert m.id (nextAttempt attempts m.id)) msgs) := by
  simp only [failActs, failAct]
  split_ifs <;> rfl

lemma carries_deadLetterMessage (a : SubscriptionActor) (now : Instant) (m : TopicMessage)
    (attempt : ℕ) : Carries m (a.deadLetterMessage now m attempt) where
  data := rfl
  attributes := by
    intro key hkey
    simp only [deadLetterAttributes, List.mem_cons, List.not_mem_nil, or_false, not_or] at hkey
    obtain ⟨h₁, h₂, h₃, h₄⟩ := hkey
    simp only [deadLetterMessage, TopicMessage.new, Option.getD_some, HashMap.get_insert, h₁, h₂,
      h₃, h₄, if_false]

lemma retryLater_frame (a : SubscriptionActor) (now : Instant) (m : TopicMessage) (attempt : ℕ) :
    (a.retryLater now m attempt).info = a.info ∧
      (a.retryLater now m attempt).topicManager = a.topicManager ∧
      (a.retryLater now m attempt).spawned = a.spawned := by
  unfold retryLater requeueOne
  split
  · exact ⟨rfl, rfl, rfl⟩
  · split <;> exact ⟨rfl, rfl, rfl⟩

/-- The loop collects one dead letter for each message it gives up, in order. -/
lemma requeueLoop_letters (now : Instant) (msgs : List PulledMessage) (dead : List TopicMessage)
    (ids : List MessageId) (a : SubscriptionActor) :
    (∃ letters, (requeueLoop now msgs dead ids a).1 = dead ++ letters ∧
      List.Forall₂ Carries
        (buried (failActs a.info a.deliveryAttempts (msgs.map (·.message)))) letters) ∧
    (requeueLoop now msgs dead ids a).2.2.info = a.info ∧
    (requeueLoop now msgs dead ids a).2.2.topicManager = a.topicManager ∧
    (requeueLoop now msgs dead ids a).2.2.spawned = a.spawned := by
  induction msgs generalizing dead ids a with
  | nil => exact ⟨⟨[], (List.append_nil dead).symm, .nil⟩, rfl, rfl, rfl⟩
  | cons pulled rest ih =>
    set m := pulled.message
    set attempt := nextAttempt a.deliveryAttempts m.id
    rw [List.map_cons, buried_failActs_cons]
    unfold requeueLoop
    dsimp only
    split_ifs with hx
    · obtain ⟨⟨letters, hletters, hall⟩, hframe⟩ := ih (dead ++ [a.deadLetterMessage now m attempt])
        (ids ++ [m.id]) ((a.countAttempt m.id).giveUp m)
      refine ⟨⟨a.deadLetterMessage now m attempt :: letters, ?_, ?_⟩, hframe⟩
      · rw [hletters, List.append_assoc]
        rfl
      · exact .cons (a.carries_deadLetterMessage now m attempt) hall
    · obtain ⟨hinfo, htm, hspawned⟩ := (a.countAttempt m.id).retryLater_frame now m attempt
      obtain ⟨⟨letters, hletters, hall⟩, hframe⟩ :=
        ih dead ids ((a.countAttempt m.id).retryLater now m attempt)
      refine ⟨⟨letters, hletters, ?_⟩, hframe.1.trans hinfo, hframe.2.1.trans htm,
        hframe.2.2.trans hspawned⟩
      rw [hinfo, deliveryAttempts_retryLater] at hall
      exact hall

/-- One task is spawned for the dead letters, if the topic manager is known. -/
lemma spawned_publishDeadLetters {a : SubscriptionActor} {topics : TopicManager}
    {dlp : DeadLetterPolicy} {dlqTopic : Topic} (hdlp : a.info.deadLetterPolicy = some dlp)
    (htopic : topics.getTopic dlp.deadLetterTopic = some dlqTopic) {letters : List TopicMessage}
    (hne : letters ≠ []) (ids : List MessageId) :
    (a.publishDeadLetters topics letters ids).spawned =
      if a.topicManager.isSome then a.spawned ++ [(dlqTopic, letters)] else a.spawned := by
  unfold publishDeadLetters tryPublishDeadLetteredMessages
  rw [if_neg fun he => hne (List.isEmpty_iff.mp he)]
  dsimp only
  rw [hdlp]
  cases a.topicManager with
  | none => rfl
  | some ref =>
    dsimp only
    rw [htopic]
    rfl

/-- What a batch of failed deliveries spawns. -/
lemma spawned_requeueMessages (a : SubscriptionActor) (env : Env) (msgs : List PulledMessage)
    {dlp : DeadLetterPolicy} {dlqTopic : Topic} (hdlp : a.info.deadLetterPolicy = some dlp)
    (htopic : env.topics.getTopic dlp.deadLetterTopic = some dlqTopic)
    (hne : buried (failActs a.info a.deliveryAttempts (msgs.map (·.message))) ≠ []) :
    let letters := (requeueLoop env.now msgs [] [] a).1
    List.Forall₂ Carries
        (buried (failActs a.info a.deliveryAttempts (msgs.map (·.message)))) letters ∧
      (a.requeueMessages env msgs).spawned =
        if a.topicManager.isSome then a.spawned ++ [(dlqTopic, letters)] else a.spawned := by
  obtain ⟨⟨letters, hletters, hall⟩, hinfo, htm, hspawned⟩ :=
    requeueLoop_letters env.now msgs [] [] a
  rw [List.nil_append] at hletters
  dsimp only
  rw [hletters]
  refine ⟨hall, ?_⟩
  have hnonempty : letters ≠ [] := by
    rintro rfl
    exact hne (List.forall₂_nil_right_iff.mp hall)
  have hpublish := spawned_publishDeadLetters (hinfo ▸ hdlp) htopic hnonempty
    (requeueLoop env.now msgs [] [] a).2.1
  rw [htm, hspawned, ← hletters] at hpublish
  have hsignal : ∀ b : SubscriptionActor,
      (if b.backlog.isEmpty then b else b.notifyNewMessagesAvailable).spawned = b.spawned := by
    intro b
    split_ifs <;> rfl
  rw [← hletters]
  exact (hsignal _).trans hpublish

/-- What an event that gives up messages spawns. -/
lemma spawned_step {a : SubscriptionActor} {e : Env × ActorEvent} {dlp : DeadLetterPolicy}
    {dlqTopic : Topic} (hdlp : a.info.deadLetterPolicy = some dlp)
    (htopic : e.1.topics.getTopic dlp.deadLetterTopic = some dlqTopic) (hne : a.givenUp e ≠ []) :
    ∃ outstanding counters letters, letters = (requeueLoop e.1.now (a.failing e.2) [] []
        { a with outstanding := outstanding, counters := counters }).1 ∧
      List.Forall₂ Carries (a.givenUp e) letters ∧
      (a.step e).spawned =
        if a.topicManager.isSome then a.spawned ++ [(dlqTopic, letters)] else a.spawned := by
  have hfail : a.failing e.2 ≠ [] := fun hnil => hne (by simp [givenUp, hnil, failActs, buried])
  obtain ⟨outstanding, counters, hstep⟩ := step_of_failing hfail
  rw [hstep]
  obtain ⟨hall, hspawned⟩ := spawned_requeueMessages
    { a with outstanding := outstanding, counters := counters } e.1 (a.failing e.2) hdlp htopic hne
  exact ⟨outstanding, counters, _, rfl, hall, hspawned⟩

/-- An actor that knows the topic manager forwards what it gives up; one that
does not drops it. -/
lemma forwardsDeadLetters_iff (a : SubscriptionActor) (e : Env × ActorEvent) :
    a.ForwardsDeadLetters e ↔ a.topicManager.isSome = true ∨ a.givenUp e = [] ∨
      ∀ dlp, a.info.deadLetterPolicy = some dlp →
        e.1.topics.getTopic dlp.deadLetterTopic = none := by
  constructor
  · intro h
    by_contra hno
    simp only [not_or, not_forall] at hno
    obtain ⟨htm, hne, dlp, hdlp, htopic⟩ := hno
    obtain ⟨dlqTopic, htopic⟩ := Option.ne_none_iff_exists'.mp htopic
    obtain ⟨letters, hspawned, -⟩ := h dlp dlqTopic hdlp htopic hne
    obtain ⟨-, -, letters', -, -, hsame⟩ := spawned_step hdlp htopic hne
    rw [hsame, if_neg htm] at hspawned
    simp at hspawned
  · rintro h dlp dlqTopic hdlp htopic hne
    have htm : a.topicManager.isSome = true := by
      rcases h with h | h | h
      · exact h
      · exact absurd h hne
      · rw [h dlp hdlp] at htopic
        cases htopic
    obtain ⟨-, -, letters, -, hall, hsame⟩ := spawned_step hdlp htopic hne
    refine ⟨letters, ?_, hall⟩
    rw [hsame, if_pos htm]

/-- The actor never gets to know the topic manager later. -/
lemma topicManager_step {a : SubscriptionActor} (h : a.Sound) (e : Env × ActorEvent) :
    (a.step e).topicManager = a.topicManager := by
  obtain ⟨env, event⟩ := e
  rcases config_step_cases h env event with
    ⟨-, hconfig⟩ | ⟨update, rfl⟩ | ⟨pushConfig, rfl⟩ | rfl | rfl
  · exact congrArg Config.topicManager hconfig
  · rfl
  · rfl
  · change (a.delete env.topicAnswer).2.topicManager = _
    unfold delete
    split_ifs
    · rfl
    · dsimp only
      split <;> rfl
  · change a.detach.topicManager = _
    unfold detach
    split_ifs <;> rfl

lemma topicManager_run {a : SubscriptionActor} (h : a.Sound) (es : List (Env × ActorEvent)) :
    (a.run es).topicManager = a.topicManager := by
  have hI : ∀ b : SubscriptionActor, ∀ e ∈ es, b.Sound ∧ b.topicManager = a.topicManager →
      (b.step e).Sound ∧ (b.step e).topicManager = a.topicManager := by
    rintro b e - ⟨hb, hbt⟩
    exact ⟨hb.step e, (topicManager_step hb e).trans hbt⟩
  exact (run_preserves hI ⟨h, rfl⟩).2

/-- In every run of a created subscription, an event forwards the messages it
gives up exactly if the subscription was created with a dead letter policy, or
there is nothing to forward, or nowhere to forward it to. -/
theorem dead_letters_forwarded_iff {manager : SubscriptionManager} {info : SubscriptionInfo}
    {topic : Topic} {subscription : Subscription} {a : SubscriptionActor}
    (hcreate : manager.createSubscription info topic = .ok (subscription, a))
    (es : List (Env × ActorEvent)) (e : Env × ActorEvent) :
    (a.run es).ForwardsDeadLetters e ↔ info.deadLetterPolicy.isSome = true ∨
      (a.run es).givenUp e = [] ∨ ∀ dlp, (a.run es).info.deadLetterPolicy = some dlp →
        e.1.topics.getTopic dlp.deadLetterTopic = none := by
  obtain ⟨state, rfl⟩ := SubscriptionManager.start_of_createSubscription hcreate
  have hsound := sound_start info topic manager.pushRegistry state
    (info.deadLetterPolicy.map fun _ => ⟨⟩)
  rw [forwardsDeadLetters_iff, topicManager_run hsound es]
  simp only [start, Option.isSome_map]

end SubscriptionActor

namespace Sample

def manager : SubscriptionManager := ⟨.new, ∅, topics⟩

def fiveNacks : List SubscriptionRequest :=
  .postMessages [message 1 none] ::
    [1, 2, 3, 4].flatMap (fun i => [.pullMessages 10 0, .modifyDeadline [.nack ⟨i⟩]]) ++
    [.pullMessages 10 0]

end Sample

namespace SubscriptionActor

/-- With a dead letter policy from the start, the fifth nack forwards the
message. -/
theorem dead_letter_forwarded_with_initial_policy :
    ∃ subscription a, Sample.manager.createSubscription
        { Sample.info with deadLetterPolicy := some Sample.deadLetterPolicy } Sample.topic =
          .ok (subscription, a) ∧
      (a.run (Sample.events Sample.fiveNacks)).ForwardsDeadLetters
        (Sample.env 0, .request (.modifyDeadline [.nack ⟨5⟩])) := by
  have hcreate : Sample.manager.createSubscription
      { Sample.info with deadLetterPolicy := some Sample.deadLetterPolicy } Sample.topic =
        .ok (⟨Sample.info.name, 2, Sample.topic⟩, _) := rfl
  refine ⟨⟨Sample.info.name, 2, Sample.topic⟩, _, hcreate, ?_⟩
  exact (dead_letters_forwarded_iff hcreate (Sample.events Sample.fiveNacks) _).mpr (.inl rfl)

/-- The dead letter policy is added after the creation: the fifth nack gives the
message up and nobody gets it. -/
theorem dead_letter_lost_with_added_policy :
    ∃ subscription a, Sample.manager.createSubscription Sample.info Sample.topic =
        .ok (subscription, a) ∧
      let b := a.run (Sample.events
        (.updateInfo { deadLetterPolicy := some (some Sample.deadLetterPolicy) } ::
          Sample.fiveNacks))
      let nack := (Sample.env 0, ActorEvent.request (.modifyDeadline [.nack ⟨5⟩]))
      ¬ b.ForwardsDeadLetters nack ∧ b.givenUp nack = [Sample.message 1 none] ∧
        (b.step nack).spawned = [] := by
  refine ⟨⟨Sample.info.name, 2, Sample.topic⟩, _, rfl, ?_, ?_, ?_⟩
  · intro h
    obtain ⟨letters, hs, -⟩ := h Sample.deadLetterPolicy Sample.deadLetterTopic
      (by decide +kernel) (by decide +kernel) (by decide +kernel)
    have hlen := congrArg List.length hs
    rw [List.length_append, List.length_singleton] at hlen
    revert hlen
    decide +kernel
  · decide +kernel
  · decide +kernel

end SubscriptionActor

end Deltio
