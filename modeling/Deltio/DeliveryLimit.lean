import Deltio.AttemptRuns

namespace Deltio

open Lib Places

/-- The events after which the dead letter policy still has the given limit.  A seek and
a detach are left out. -/
def ActorEvent.KeepsLimit (limit : ℕ) : ActorEvent → Prop
  | .request (.seek _) | .request .detach => False
  | .request (.updateInfo update) => ∀ policy, update.deadLetterPolicy = some policy →
    ∃ dlp, policy = some dlp ∧ dlp.maxDeliveryAttempts = limit
  | _ => True

namespace SubscriptionActor

def HasLimit (limit : ℕ) (info : SubscriptionInfo) : Prop :=
  ∃ dlp, info.deadLetterPolicy = some dlp ∧ dlp.maxDeliveryAttempts = limit

def timesDelivered (a : SubscriptionActor) (es : List (Env × ActorEvent)) (m : TopicMessage) : ℕ :=
  ((deliveries a es).map (·.message)).count m

lemma timesDelivered_append (a : SubscriptionActor) (es es' : List (Env × ActorEvent))
    (m : TopicMessage) :
    timesDelivered a (es ++ es') m = timesDelivered a es m + timesDelivered (a.run es) es' m := by
  unfold timesDelivered
  rw [deliveries_append, List.map_append, List.count_append]

lemma timesDelivered_singleton (a : SubscriptionActor) (e : Env × ActorEvent) (m : TopicMessage) :
    timesDelivered a [e] m = ((a.pulled e).map (·.message)).count m := by
  unfold timesDelivered deliveries deliveries
  rw [List.append_nil]

lemma not_seeks_of_keepsLimit {limit : ℕ} {e : ActorEvent} (h : e.KeepsLimit limit) : ¬ e.seeks := by
  intro hs
  cases e with
  | request r =>
    cases r with
    | seek seekTime => exact h
    | _ => exact hs
  | _ => exact hs

section

variable {a : SubscriptionActor} {e : Env × ActorEvent} {limit : ℕ}

lemma HasLimit.exceeds_iff {info : SubscriptionInfo} (h : HasLimit limit info) (attempt : ℕ) :
    exceedsMaxDeliveryAttempts info attempt = true ↔ limit < attempt := by
  obtain ⟨dlp, hdlp, hmax⟩ := h
  unfold exceedsMaxDeliveryAttempts
  rw [hdlp]
  dsimp only
  rw [hmax, decide_eq_true_iff]
  exact Int.ofNat_lt

lemma HasLimit.step (hs : a.Sound) (h : HasLimit limit a.info) (he : e.2.KeepsLimit limit) :
    HasLimit limit (a.step e).info := by
  obtain ⟨env, event⟩ := e
  rcases config_step_cases hs env event with
    ⟨-, hconfig⟩ | ⟨update, rfl⟩ | ⟨pushConfig, rfl⟩ | rfl | rfl
  · rw [info_of_config hconfig]
    exact h
  · change HasLimit limit (a.info.applyUpdate update)
    cases hpolicy : update.deadLetterPolicy with
    | none =>
      obtain ⟨dlp, hdlp, hmax⟩ := h
      refine ⟨dlp, ?_, hmax⟩
      unfold SubscriptionInfo.applyUpdate
      rw [hpolicy]
      exact hdlp
    | some policy =>
      obtain ⟨dlp, rfl, hmax⟩ := he policy hpolicy
      refine ⟨dlp, ?_, hmax⟩
      unfold SubscriptionInfo.applyUpdate
      rw [hpolicy]
      rfl
  · exact h
  · change HasLimit limit (a.delete env.topicAnswer).2.info
    unfold delete
    split_ifs
    · exact h
    · dsimp only
      split <;> exact h
  · exact he.elim

end

/-- A message that is held has failed less often than the limit allows, and was
delivered as often as it failed, and once more if it is outstanding. -/
structure Limited (limit : ℕ) (a : SubscriptionActor) (d f : TopicMessage → ℕ) : Prop where
  held : ∀ m, a.Holds m → f m < limit ∧ d m = f m + a.outstanding.held.count m
  delivered : ∀ m, d m ≤ limit

section

variable {a : SubscriptionActor} {e : Env × ActorEvent} {ms gone : List TopicMessage}
  {limit : ℕ} {d f : TopicMessage → ℕ}

/-- The message is given up exactly if it has used up the limit. -/
lemma mem_givenUp_iff (hlimit : HasLimit limit a.info) (hlt : limit < 2 ^ 16 - 1)
    (hsingle : a.Single ms) (hcounted : Counted True a f) {m : TopicMessage}
    (hm : m ∈ (a.failing e.2).map (·.message)) : m ∈ a.givenUp e ↔ limit < f m + 2 := by
  have hids : (((a.failing e.2).map (·.message)).map (·.id)).Nodup := by
    rw [List.map_map]
    exact hsingle.nodup_ids_failing e.2
  have hnext := nextAttempt_of_entry (hcounted.counts (.inl trivial) m (holds_of_failing hm))
  rw [entry, if_neg (Nat.succ_ne_zero _), Option.some.injEq] at hnext
  unfold givenUp
  rw [mem_buried_failActs hids, hlimit.exceeds_iff, hnext, and_iff_right hm]
  omega

/-- What is held after the event was not settled in it. -/
lemma Accounts.count_gone (h : Accounts a e gone) (hsingle' : (a.step e).Single ms)
    {m : TopicMessage} (hm : (a.step e).Holds m) : gone.count m = 0 := by
  have hnone := hsingle'.not_settled hm
  rw [h.settled] at hnone
  omega

lemma Limited.held_step (h : Limited limit a d f) (hpos : 0 < limit)
    (hlimit : HasLimit limit a.info) (hlt : limit < 2 ^ 16 - 1) (hsingle : a.Single ms)
    (hsingle' : (a.step e).Single (ms ++ e.2.posted)) (hcounted : Counted True a f)
    (hnew : ∀ m, m ∉ ms → d m = 0 ∧ f m = 0) (haccounts : Accounts a e gone) {m : TopicMessage}
    (hafter : (a.step e).Holds m) :
    f m + ((a.failing e.2).map (·.message)).count m < limit ∧
      d m + ((a.pulled e).map (·.message)).count m =
        f m + ((a.failing e.2).map (·.message)).count m + (a.step e).outstanding.held.count m := by
  have hheld := haccounts.held m
  have hcauses := haccounts.causes m
  rw [haccounts.count_gone hsingle' hafter] at hcauses
  by_cases hm : a.Holds m
  · obtain ⟨hfew, hd⟩ := h.held m hm
    refine ⟨?_, by omega⟩
    by_cases hfails : m ∈ (a.failing e.2).map (·.message)
    · have hkept : m ∉ a.givenUp e := List.count_eq_zero.mp (by omega)
      rw [mem_givenUp_iff hlimit hlt hsingle hcounted hfails] at hkept
      rw [List.count_eq_one_of_mem (hsingle.nodup_failing e.2) hfails]
      omega
    · rw [List.count_eq_zero.mpr hfails]
      exact hfew
  · have hposted : m ∈ e.2.posted :=
      posted_of_arriving ((haccounts.holds_before hsingle.sound hafter).resolve_left hm)
    have hfresh : m ∉ ms := fun hmem => ne_id_of_posted hsingle' hposted m hmem rfl
    obtain ⟨hd, hf⟩ := hnew m hfresh
    have hout : a.outstanding.held.count m = 0 :=
      List.count_eq_zero.mpr fun hmem => hfresh (hsingle.mem_of_held hmem)
    have hpulled : ((a.pulled e).map (·.message)).count m = 0 := by
      refine List.count_eq_zero.mpr fun hmem => ?_
      obtain ⟨p, hp, -⟩ := List.mem_map.mp hmem
      rw [(not_discards_of_mem_pulled hp).2] at hposted
      cases hposted
    omega

/-- One event keeps the limit. -/
lemma Limited.step (h : Limited limit a d f) (hpos : 0 < limit)
    (hlimit : HasLimit limit a.info) (hlt : limit < 2 ^ 16 - 1) (hsingle : a.Single ms)
    (hsingle' : (a.step e).Single (ms ++ e.2.posted)) (hcounted : Counted True a f)
    (hnew : ∀ m, m ∉ ms → d m = 0 ∧ f m = 0) (hseeks : ¬ e.2.seeks) :
    Limited limit (a.step e) (fun m => d m + ((a.pulled e).map (·.message)).count m)
      fun m => a.recount e m (f m) := by
  have hheld : ∀ m, (a.step e).Holds m → a.recount e m (f m) < limit ∧
      d m + ((a.pulled e).map (·.message)).count m =
        a.recount e m (f m) + (a.step e).outstanding.held.count m := by
    intro m hafter
    rw [recount_of_not_seeks hseeks]
    rcases accounts_step_cases hsingle.sound e (hsingle.nodup_ids_failing e.2) with
      hreset | ⟨⟨gone, haccounts⟩, -⟩
    · rcases hreset.seeks with hs | hempty
      · exact absurd hs hseeks
      · exact absurd hafter (hempty m)
    · exact h.held_step hpos hlimit hlt hsingle hsingle' hcounted hnew haccounts hafter
  refine ⟨hheld, fun m => ?_⟩
  by_cases hm : m ∈ (a.pulled e).map (·.message)
  · obtain ⟨p, hp, rfl⟩ := List.mem_map.mp hm
    have hafter : (a.step e).Holds p.message :=
      .inr (.inr (.inl (mem_held_of_pulled hsingle.sound.fresh hp)))
    have hone := hsingle'.count_out_le p.message
    obtain ⟨hfew, hd⟩ := hheld p.message hafter
    omega
  · rw [List.count_eq_zero.mpr hm]
    exact h.delivered m

end

/-- The loop writes a dead letter with the attempt that is recorded before the batch. -/
lemma mem_letters_requeueLoop (now : Instant) {msgs : List PulledMessage}
    (hids : (msgs.map (·.message.id)).Nodup) (dead : List TopicMessage) (ids : List MessageId)
    (a : SubscriptionActor) {p : PulledMessage} (hp : p ∈ msgs)
    (hx : exceedsMaxDeliveryAttempts a.info (nextAttempt a.deliveryAttempts p.message.id) = true) :
    a.deadLetterMessage now p.message (nextAttempt a.deliveryAttempts p.message.id) ∈
      (requeueLoop now msgs dead ids a).1 := by
  induction msgs generalizing dead ids a with
  | nil => cases hp
  | cons head msgs ih =>
    obtain ⟨hhead, hids⟩ := List.nodup_cons.mp hids
    rcases List.mem_cons.mp hp with rfl | hp
    · obtain ⟨⟨letters, hletters, -⟩, -⟩ := requeueLoop_letters now msgs
        (dead ++ [a.deadLetterMessage now p.message (nextAttempt a.deliveryAttempts p.message.id)])
        (ids ++ [p.message.id]) ((a.countAttempt p.message.id).giveUp p.message)
      unfold requeueLoop
      dsimp only
      rw [if_pos hx, hletters, List.append_assoc]
      exact List.mem_append_right _ List.mem_cons_self
    · have hne : p.message.id ≠ head.message.id :=
        fun heq => hhead (List.mem_map.mpr ⟨p, hp, heq⟩)
      -- the rest of the batch sees the same attempt
      have hrest : ∀ (b : SubscriptionActor) (dead : List TopicMessage) (ids : List MessageId),
          b.info = a.info → b.deliveryAttempts = (a.countAttempt head.message.id).deliveryAttempts →
          a.deadLetterMessage now p.message (nextAttempt a.deliveryAttempts p.message.id) ∈
            (requeueLoop now msgs dead ids b).1 := by
        intro b dead ids hinfo hattempts
        have hnext : nextAttempt b.deliveryAttempts p.message.id =
            nextAttempt a.deliveryAttempts p.message.id := by
          rw [hattempts]
          exact nextAttempt_insert hne _
        have hmem := ih hids dead ids b hp (by rw [hinfo, hnext]; exact hx)
        unfold deadLetterMessage at hmem ⊢
        rwa [hinfo, hnext] at hmem
      unfold requeueLoop
      dsimp only
      split_ifs
      · exact hrest _ _ _ rfl rfl
      · exact hrest _ _ _ (info_retryLater _ _ _ _) (deliveryAttempts_retryLater _ _ _ _)

lemma count_deadLetterMessage (a : SubscriptionActor) (now : Instant) (m : TopicMessage)
    (attempt : ℕ) : ((a.deadLetterMessage now m attempt).attributes.getD ∅).get
      "CloudPubSubDeadLetterSourceDeliveryCount" = some (toString (attempt - 1)) := by
  simp [deadLetterMessage, TopicMessage.new, HashMap.get_insert]

/-- The message is published to the dead letter topic, if that exists and the topic
manager is known, with the given number of deliveries. -/
def PublishesDeadLetter (a : SubscriptionActor) (e : Env × ActorEvent) (m : TopicMessage)
    (count : ℕ) : Prop :=
  ∀ dlp dlqTopic, a.info.deadLetterPolicy = some dlp →
    e.1.topics.getTopic dlp.deadLetterTopic = some dlqTopic → a.topicManager.isSome = true →
    ∃ letters, (a.step e).spawned = a.spawned ++ [(dlqTopic, letters)] ∧
      ∃ letter ∈ letters, Carries m letter ∧ (letter.attributes.getD ∅).get
        "CloudPubSubDeadLetterSourceDeliveryCount" = some (toString count)

section

variable {a : SubscriptionActor} {e : Env × ActorEvent} {ms : List TopicMessage}

lemma publishesDeadLetter_of_givenUp (hsingle : a.Single ms) {m : TopicMessage}
    (hm : m ∈ a.givenUp e) :
    a.PublishesDeadLetter e m (nextAttempt a.deliveryAttempts m.id - 1) := by
  intro dlp dlqTopic hdlp htopic htm
  obtain ⟨outstanding, counters, letters, hletters, -, hspawned⟩ :=
    spawned_step hdlp htopic (List.ne_nil_of_mem hm)
  rw [if_pos htm] at hspawned
  have hids := hsingle.nodup_ids_failing e.2
  have hbatch : (((a.failing e.2).map (·.message)).map (·.id)).Nodup := by
    rw [List.map_map]
    exact hids
  obtain ⟨hfails, hx⟩ := (mem_buried_failActs hbatch).mp hm
  obtain ⟨p, hp, rfl⟩ := List.mem_map.mp hfails
  have hmem := mem_letters_requeueLoop e.1.now hids [] []
    { a with outstanding := outstanding, counters := counters } hp hx
  rw [← hletters] at hmem
  exact ⟨letters, hspawned, _, hmem, carries_deadLetterMessage _ _ _ _,
    count_deadLetterMessage _ _ _ _⟩

lemma mem_deadLettered_of_givenUp (hsingle : a.Single ms) {m : TopicMessage}
    (hm : m ∈ a.givenUp e) : m ∈ (a.step e).ledger.deadLettered := by
  have hne : a.failing e.2 ≠ [] := by
    intro hnil
    unfold givenUp at hm
    rw [hnil] at hm
    cases hm
  obtain ⟨outstanding, counters, hstep⟩ := step_of_failing hne
  obtain ⟨-, hledger⟩ := attempts_requeueMessages
    { a with outstanding := outstanding, counters := counters } e.1
    (hsingle.nodup_ids_failing e.2)
  rw [hstep, hledger]
  exact List.mem_append_left _ (List.mem_reverse.mpr hm)

variable {limit : ℕ} {d f : TopicMessage → ℕ}

/-- A failing message was delivered once more than it failed. -/
lemma Limited.delivered_of_failing (h : Limited limit a d f) (hsingle : a.Single ms)
    {m : TopicMessage} (hm : m ∈ (a.failing e.2).map (·.message)) : d m = f m + 1 := by
  have hone := hsingle.count_out_le m
  have hpos := List.count_pos_iff.mpr (mem_held_of_failing hm)
  have hd := (h.held m (holds_of_failing hm)).2
  omega

/-- Below the limit a failure leaves the message in the subscription. -/
lemma Limited.kept_of_failing (h : Limited limit a d f) (hlimit : HasLimit limit a.info)
    (hlt : limit < 2 ^ 16 - 1) (hsingle : a.Single ms)
    (hsingle' : (a.step e).Single (ms ++ e.2.posted)) (hcounted : Counted True a f)
    {m : TopicMessage} (hm : m ∈ (a.failing e.2).map (·.message)) (hfew : d m < limit) :
    m ∉ (a.step e).ledger.deadLettered ∧ (a.step e).Holds m := by
  have hd := h.delivered_of_failing hsingle hm
  have hkept : m ∉ a.givenUp e := by
    rw [mem_givenUp_iff hlimit hlt hsingle hcounted hm]
    omega
  have hne : a.failing e.2 ≠ [] := by
    intro hnil
    rw [hnil] at hm
    cases hm
  have haccounts := accounts_of_failing hsingle.sound hne (hsingle.nodup_ids_failing e.2)
  have hafter := haccounts.holds_after hsingle.sound (holds_of_failing hm) hkept
  have hnone := hsingle'.not_settled hafter
  refine ⟨List.count_eq_zero.mp ?_, hafter⟩
  unfold Ledger.count at hnone
  omega

/-- At the limit a failure moves the message to the dead letter topic. -/
lemma Limited.gone_of_failing (h : Limited limit a d f) (hlimit : HasLimit limit a.info)
    (hlt : limit < 2 ^ 16 - 1) (hsingle : a.Single ms)
    (hsingle' : (a.step e).Single (ms ++ e.2.posted)) (hcounted : Counted True a f)
    {m : TopicMessage} (hm : m ∈ (a.failing e.2).map (·.message)) (hall : d m = limit) :
    m ∈ (a.step e).ledger.deadLettered ∧ ¬ (a.step e).Holds m ∧
      a.PublishesDeadLetter e m limit := by
  have hd := h.delivered_of_failing hsingle hm
  have hgiven : m ∈ a.givenUp e := by
    rw [mem_givenUp_iff hlimit hlt hsingle hcounted hm]
    omega
  have hdead := mem_deadLettered_of_givenUp hsingle hgiven
  have hnext := nextAttempt_of_entry (hcounted.counts (.inl trivial) m (holds_of_failing hm))
  rw [entry, if_neg (Nat.succ_ne_zero _), Option.some.injEq] at hnext
  refine ⟨hdead, fun hafter => ?_, ?_⟩
  · have hnone := hsingle'.not_settled hafter
    have hpos := List.count_pos_iff.mpr hdead
    unfold Ledger.count at hnone
    omega
  · have hcount : nextAttempt a.deliveryAttempts m.id - 1 = limit := by omega
    rw [← hcount]
    exact publishesDeadLetter_of_givenUp hsingle hgiven

end

section

variable (info : SubscriptionInfo) (topic : Topic) (pushRegistry : PushSubscriptionsRegistry)
  (delegate : SubscriptionManagerState) (topicManager : Option TopicManagerRef)

lemma timesDelivered_of_not_posted (es : List (Env × ActorEvent)) {m : TopicMessage}
    (hm : m ∉ posted es) :
    timesDelivered (start info topic pushRegistry delegate topicManager) es m = 0 := by
  induction es using List.reverseRecOn with
  | nil => rfl
  | append_singleton es e ih =>
    rw [posted_append, List.mem_append, not_or] at hm
    rw [timesDelivered_append, ih hm.1, Nat.zero_add, timesDelivered_singleton]
    refine List.count_eq_zero.mpr fun hmem => hm.1 ?_
    obtain ⟨p, hp, rfl⟩ := List.mem_map.mp hmem
    exact mem_posted_of_pulled info topic pushRegistry delegate topicManager hp

/-- The limit and the bound on deliveries hold in every state of a run. -/
lemma limited_run {limit : ℕ} (hpos : 0 < limit) (hlt : limit < 2 ^ 16 - 1)
    (hlimit : HasLimit limit info) {es : List (Env × ActorEvent)}
    (hes : ∀ e ∈ es, e.2.KeepsLimit limit) (hids : ((posted es).map (·.id)).Nodup) :
    HasLimit limit ((start info topic pushRegistry delegate topicManager).run es).info ∧
      Limited limit ((start info topic pushRegistry delegate topicManager).run es)
        (timesDelivered (start info topic pushRegistry delegate topicManager) es)
        (failures (start info topic pushRegistry delegate topicManager) es) := by
  set s := start info topic pushRegistry delegate topicManager with hstart
  induction es using List.reverseRecOn with
  | nil =>
    refine ⟨hlimit, fun m hm => ?_, fun m => Nat.zero_le _⟩
    rcases hm with h | ⟨key, h⟩ | h | h <;> cases h
  | append_singleton es e ih =>
    obtain ⟨hsingle, hsingle'⟩ :=
      single_run_step info topic pushRegistry delegate topicManager hids
    have hbefore : ∀ e' ∈ es, e'.2.KeepsLimit limit :=
      fun e' he' => hes e' (List.mem_append_left _ he')
    have he := hes e (List.mem_append_right _ List.mem_cons_self)
    obtain ⟨hkept, hlimited⟩ := ih hbefore hsingle.ids
    have hcounted : Counted True (s.run es) (failures s es) :=
      counted_run info topic pushRegistry delegate topicManager hsingle.ids
        fun _ e' he' => not_seeks_of_keepsLimit (hbefore e' he')
    have hstep := hlimited.step hpos hkept hlt hsingle hsingle' hcounted (fun m hm =>
      ⟨timesDelivered_of_not_posted info topic pushRegistry delegate topicManager es hm,
        failures_of_not_posted info topic pushRegistry delegate topicManager es hm⟩)
      (not_seeks_of_keepsLimit he)
    have hd : timesDelivered s (es ++ [e]) =
        fun m => timesDelivered s es m + (((s.run es).pulled e).map (·.message)).count m := by
      funext m
      rw [timesDelivered_append, timesDelivered_singleton]
    have hf : failures s (es ++ [e]) = fun m => (s.run es).recount e m (failures s es m) :=
      funext fun m => failures_append s es e m
    rw [run_append, hd, hf]
    exact ⟨hkept.step hsingle.sound he, hstep⟩

/-- As long as the dead letter policy keeps its limit, a message is delivered that often
at most.  Until then a failed delivery leaves it in the subscription, and the failure of
the last one moves it to the dead letter topic. -/
theorem dead_lettered_at_limit {limit : ℕ} (hmin : 5 ≤ limit) (hmax : limit ≤ 100)
    (hlimit : ∃ dlp, info.deadLetterPolicy = some dlp ∧ dlp.maxDeliveryAttempts = limit)
    (es : List (Env × ActorEvent)) (hes : ∀ e ∈ es, e.2.KeepsLimit limit)
    (hids : ((posted es).map (·.id)).Nodup) (m : TopicMessage) :
    let s := start info topic pushRegistry delegate topicManager
    timesDelivered s es m ≤ limit ∧
    ∀ before e after, es = before ++ e :: after →
      m ∈ ((s.run before).failing e.2).map (·.message) →
      let a := s.run before
      let b := a.step e
      0 < timesDelivered s before m ∧
      (timesDelivered s before m < limit → m ∉ b.ledger.deadLettered ∧ b.Holds m) ∧
      (timesDelivered s before m = limit → m ∈ b.ledger.deadLettered ∧ ¬ b.Holds m ∧
        a.PublishesDeadLetter e m limit ∧ m ∉ (deliveries b after).map (·.message)) := by
  intro s
  have hpos : 0 < limit := by omega
  have hlt : limit < 2 ^ 16 - 1 := by omega
  obtain ⟨-, hall⟩ :=
    limited_run info topic pushRegistry delegate topicManager hpos hlt hlimit hes hids
  refine ⟨hall.delivered m, ?_⟩
  rintro before e after rfl hm a b
  have hsplit : before ++ e :: after = before ++ [e] ++ after := List.append_cons before e after
  rw [hsplit] at hes hids hall
  have hbefore : ∀ e' ∈ before, e'.2.KeepsLimit limit :=
    fun e' he' => hes e' (List.mem_append_left _ (List.mem_append_left _ he'))
  have hprefix : ((posted (before ++ [e])).map (·.id)).Nodup := by
    rw [posted_append, List.map_append] at hids
    exact (List.nodup_append.mp hids).1
  obtain ⟨hsingle, hsingle'⟩ :=
    single_run_step info topic pushRegistry delegate topicManager hprefix
  obtain ⟨hkept, hlimited⟩ :=
    limited_run info topic pushRegistry delegate topicManager hpos hlt hlimit hbefore hsingle.ids
  have hcounted : Counted True a (failures s before) :=
    counted_run info topic pushRegistry delegate topicManager hsingle.ids
      fun _ e' he' => not_seeks_of_keepsLimit (hbefore e' he')
  have hpositive : 0 < timesDelivered s before m := by
    have hd : timesDelivered s before m = failures s before m + 1 :=
      hlimited.delivered_of_failing hsingle hm
    omega
  refine ⟨hpositive, fun hfew => ?_, fun hlast => ?_⟩
  · exact hlimited.kept_of_failing hkept hlt hsingle hsingle' hcounted hm hfew
  · obtain ⟨hdead, hgone, hletter⟩ :=
      hlimited.gone_of_failing hkept hlt hsingle hsingle' hcounted hm hlast
    -- the bound on the whole run leaves nothing for the rest of it
    refine ⟨hdead, hgone, hletter, ?_⟩
    have hle : timesDelivered s (before ++ [e] ++ after) m ≤ limit := hall.delivered m
    have hrun : s.run (before ++ [e]) = b := run_append s before [e]
    rw [timesDelivered_append, timesDelivered_append, hrun] at hle
    have hnone : timesDelivered b after m = 0 := by omega
    exact List.count_eq_zero.mp hnone

end

end SubscriptionActor

namespace Sample

def limitedInfo : SubscriptionInfo := { info with deadLetterPolicy := some deadLetterPolicy }

end Sample

namespace SubscriptionActor

/-- With a limit of five, the fifth nack moves the message to the dead letter topic, and
no later pull returns it. -/
theorem dead_lettered_at_fifth_nack :
    let s := start Sample.limitedInfo Sample.topic ∅ .new (some ⟨⟩)
    let before := Sample.events Sample.fiveNacks
    let nack : Env × ActorEvent := (Sample.env 0, .request (.modifyDeadline [.nack ⟨5⟩]))
    let after := Sample.events [.pullMessages 10 0]
    timesDelivered s before (Sample.message 1 none) = 5 ∧
      Sample.message 1 none ∈ ((s.run before).step nack).ledger.deadLettered ∧
      (s.run before).PublishesDeadLetter nack (Sample.message 1 none) 5 ∧
      Sample.message 1 none ∉ (deliveries ((s.run before).step nack) after).map (·.message) := by
  intro s before nack after
  have hlast : timesDelivered s before (Sample.message 1 none) = 5 := by decide +kernel
  have hids : ((posted (before ++ nack :: after)).map (·.id)).Nodup := by decide +kernel
  have hfails : Sample.message 1 none ∈ ((s.run before).failing nack.2).map (·.message) := by
    decide +kernel
  have hes : ∀ e ∈ before ++ nack :: after, e.2.KeepsLimit 5 := by
    intro e he
    simp only [before, nack, after, Sample.events, Sample.fiveNacks, List.flatMap_cons,
      List.flatMap_nil, List.append_nil, List.cons_append, List.nil_append, List.map_cons,
      List.map_nil, List.mem_cons, List.not_mem_nil, or_false] at he
    rcases he with rfl | rfl | rfl | rfl | rfl | rfl | rfl | rfl | rfl | rfl | rfl | rfl <;> trivial
  obtain ⟨-, hall⟩ := dead_lettered_at_limit Sample.limitedInfo Sample.topic ∅ .new (some ⟨⟩)
    (by decide : 5 ≤ 5) (by decide) ⟨Sample.deadLetterPolicy, rfl, rfl⟩
    (before ++ nack :: after) hes hids (Sample.message 1 none)
  have hstart : start Sample.limitedInfo Sample.topic ∅ .new (some ⟨⟩) = s := rfl
  rw [hstart] at hall
  -- the rest does not depend on what the run computes
  clear_value s before nack after
  obtain ⟨hdead, -, hletter, hnever⟩ := (hall before nack after rfl hfails).2.2 hlast
  exact ⟨hlast, hdead, hletter, hnever⟩

end SubscriptionActor

end Deltio
