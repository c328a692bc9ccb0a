import Deltio.AttemptRuns

namespace Deltio

open Lib

namespace SubscriptionActor

lemma nextAttempt_eq (attempts : HashMap MessageId ℕ) (id : MessageId) :
    nextAttempt attempts id = min ((attempts.get id).getD 1 + 1) (2 ^ 16 - 1) := by
  unfold nextAttempt
  cases attempts.get id <;> rfl

def Reported (a : SubscriptionActor) : Prop :=
  ∀ p ∈ a.outstanding.messages.values,
    p.deliveryAttempt = (a.deliveryAttempts.get p.message.id).getD 1

def report (p : PulledMessage) : TopicMessage × ℕ := (p.message, p.deliveryAttempt)

section

variable {a : SubscriptionActor} {e : Env × ActorEvent} {ms : List TopicMessage}

/-- An event in which deliveries fail does nothing else to messages. -/
lemma not_drops_of_failing (h : a.failing e.2 ≠ []) :
    ¬ e.2.discards ∧ ¬ e.2.seeks ∧ a.pulled e = [] ∧ e.2.posted = [] := by
  obtain ⟨env, event⟩ := e
  cases event with
  | expired polledAt => exact ⟨id, id, rfl, rfl⟩
  | retryReady polledAt => exact absurd rfl h
  | request r =>
    cases r with
    | modifyDeadline modifications => exact ⟨id, id, rfl, rfl⟩
    | _ => exact absurd rfl h

/-- A request that drops messages drops all of them, or none. -/
lemma outstanding_of_drops (h : e.2.discards ∨ e.2.seeks) :
    (a.step e).outstanding = a.outstanding ∨ (a.step e).outstanding = a.outstanding.clear := by
  have hstep : (a.step e).outstanding = (a.custodyAfter e).outstanding :=
    congrArg Custody.outstanding (a.custody_step e)
  rw [hstep]
  obtain ⟨env, event⟩ := e
  cases event with
  | request r =>
    cases r with
    | seek | delete | detach =>
      unfold custodyAfter
      dsimp only
      split_ifs
      · exact .inl rfl
      · exact .inr rfl
    | _ => exact (h.elim id id).elim
  | _ => exact (h.elim id id).elim

/-- What is outstanding after an event was pulled in it, or was outstanding before. -/
lemma report_before (h : a.Fresh) {p : PulledMessage}
    (hp : p ∈ (a.step e).outstanding.messages.values) :
    report p ∈ (a.pulled e).map report ++ a.outstanding.messages.values.map report := by
  by_cases hdrops : e.2.discards ∨ e.2.seeks
  · rcases outstanding_of_drops hdrops with hsame | hclear
    · rw [hsame] at hp
      exact List.mem_append_right _ (List.mem_map_of_mem hp)
    · rw [hclear] at hp
      cases hp
  · rw [not_or] at hdrops
    have hperm := values_step (f := report) (fun _ _ => rfl) h hdrops.1 hdrops.2
    refine hperm.subset ?_
    exact List.mem_append_right _ (List.mem_append_right _ (List.mem_map_of_mem hp))

lemma report_of_failing (h : a.Fresh) {p : PulledMessage} (hp : p ∈ a.failing e.2) :
    report p ∈ a.outstanding.messages.values.map report := by
  obtain ⟨hdiscards, hseeks, hpull, -⟩ := not_drops_of_failing (List.ne_nil_of_mem hp)
  have hperm := values_step (f := report) (fun _ _ => rfl) h hdiscards hseeks
  rw [hpull] at hperm
  exact hperm.subset (List.mem_append_left _ (List.mem_map_of_mem hp))

lemma Reported.attempt_of_report (h : a.Reported) {p : PulledMessage}
    (hp : report p ∈ a.outstanding.messages.values.map report) :
    p.deliveryAttempt = (a.deliveryAttempts.get p.message.id).getD 1 := by
  obtain ⟨q, hq, heq⟩ := List.mem_map.mp hp
  obtain ⟨hmessage, hattempt⟩ := Prod.ext_iff.mp heq
  dsimp only [report] at hmessage hattempt
  rw [← hmessage, ← hattempt]
  exact h q hq

/-- A failing message is not outstanding after the event. -/
lemma Moves.not_failing (h : a.Moves e) (hsingle : a.Single ms)
    (hsingle' : (a.step e).Single (ms ++ e.2.posted)) {m : TopicMessage}
    (hm : m ∈ (a.step e).outstanding.held) : m.id ∉ (a.failing e.2).map (·.message.id) := by
  intro hid
  obtain ⟨p, hp, heq⟩ := List.mem_map.mp hid
  have hfails : p.message ∈ (a.failing e.2).map (·.message) := List.mem_map_of_mem hp
  have hposted := List.mem_append_left e.2.posted (hsingle.mem_of_held (mem_held_of_failing hfails))
  rw [hsingle'.eq_of_id hposted (hsingle'.mem_of_held hm) heq] at hfails
  have hcount := h.held m
  rw [(not_drops_of_failing (List.ne_nil_of_mem hp)).2.2.1, List.map_nil, List.count_nil] at hcount
  have hone := hsingle.count_out_le m
  have hbefore := List.count_pos_iff.mpr hfails
  have hafter := List.count_pos_iff.mpr hm
  omega

lemma Reported.step (h : a.Reported) (hsingle : a.Single ms)
    (hsingle' : (a.step e).Single (ms ++ e.2.posted)) : (a.step e).Reported := by
  intro p hp
  have hheld : p.message ∈ (a.step e).outstanding.held := List.mem_map_of_mem hp
  rcases accounts_step_cases hsingle.sound e (hsingle.nodup_ids_failing e.2) with
    hreset | ⟨⟨gone, haccounts⟩, -⟩
  · rw [hreset.outstanding] at hheld
    cases hheld
  · have hgone := haccounts.not_gone hsingle' (.inr (.inr (.inl hheld)))
    rw [haccounts.attempts, if_neg hgone,
      if_neg (haccounts.not_failing hsingle hsingle' hheld)]
    rcases List.mem_append.mp (report_before hsingle.sound.fresh hp) with hpulled | hbefore
    · obtain ⟨q, hq, heq⟩ := List.mem_map.mp hpulled
      obtain ⟨hmessage, hattempt⟩ := Prod.ext_iff.mp heq
      dsimp only [report] at hmessage hattempt
      rw [← hmessage] at hgone ⊢
      rw [← hattempt]
      exact (haccounts.pulled q hq).resolve_right hgone
    · exact h.attempt_of_report hbefore

/-- The attempt after a failure is one more than reported. -/
lemma Reported.nextAttempt_of_failing (h : a.Reported) (hf : a.Fresh) {p : PulledMessage}
    (hp : p ∈ a.failing e.2) : nextAttempt a.deliveryAttempts p.message.id =
      min (p.deliveryAttempt + 1) (2 ^ 16 - 1) := by
  rw [nextAttempt_eq, h.attempt_of_report (report_of_failing hf hp)]

end

/-- The message waits for the backoff of the attempt it was reported with. -/
def WaitsReportedBackoff (a : SubscriptionActor) (e : Env × ActorEvent) (retryPolicy : RetryPolicy)
    (p : PulledMessage) : Prop :=
  let backoff : Duration := min retryPolicy.maximumBackoff
    (retryPolicy.minimumBackoff * 2 ^ min (p.deliveryAttempt - 1) 20)
  ∃ seq, (a.step e).retryQueue.messages.get seq = some p.message ∧
    toLex (AckDeadline.new (e.1.now + backoff), seq) ∈ (a.step e).retryQueue.schedule

/-- The backoffs of this attempt and of the next end at the same time: the exponent is at its
cap, or both are rounded up to the same deadline. -/
def BackoffsCoincide (retryPolicy : RetryPolicy) (now : Instant) (attempt : ℕ) : Prop :=
  20 < attempt ∨
    AckDeadline.new (now + (min retryPolicy.maximumBackoff
        (retryPolicy.minimumBackoff * 2 ^ (attempt - 1)) : Duration)) =
      AckDeadline.new (now + (min retryPolicy.maximumBackoff
        (retryPolicy.minimumBackoff * 2 ^ attempt) : Duration))

lemma backoffsCoincide_iff (retryPolicy : RetryPolicy) (now : Instant) (attempt : ℕ) :
    BackoffsCoincide retryPolicy now attempt ↔
      AckDeadline.new (now + (min retryPolicy.maximumBackoff
          (retryPolicy.minimumBackoff * 2 ^ min (attempt - 1) 20) : Duration)) =
        AckDeadline.new (now + (min retryPolicy.maximumBackoff
          (retryPolicy.minimumBackoff * 2 ^ min attempt 20) : Duration)) := by
  unfold BackoffsCoincide
  by_cases hcap : 20 < attempt
  · rw [min_eq_right (by omega : 20 ≤ attempt - 1), min_eq_right hcap.le]
    exact ⟨fun _ => rfl, fun _ => .inl hcap⟩
  · rw [min_eq_left (by omega : attempt - 1 ≤ 20), min_eq_left (Nat.le_of_not_lt hcap)]
    exact or_iff_right hcap

/-- There is no backoff at all. -/
lemma backoffsCoincide_of_zero {retryPolicy : RetryPolicy} (h : retryPolicy.minimumBackoff = 0)
    (now : Instant) (attempt : ℕ) : BackoffsCoincide retryPolicy now attempt := by
  right
  rw [h, Nat.zero_mul, Nat.zero_mul]

/-- The backoff has reached its maximum, and stays there. -/
lemma backoffsCoincide_of_max {retryPolicy : RetryPolicy} {attempt : ℕ}
    (h : retryPolicy.maximumBackoff ≤ retryPolicy.minimumBackoff * 2 ^ (attempt - 1))
    (now : Instant) : BackoffsCoincide retryPolicy now attempt := by
  have hmono : retryPolicy.minimumBackoff * 2 ^ (attempt - 1) ≤
      retryPolicy.minimumBackoff * 2 ^ attempt :=
    Nat.mul_le_mul_left _ (Nat.pow_le_pow_right (by decide) (Nat.sub_le _ _))
  right
  rw [min_eq_left h, min_eq_left (h.trans hmono)]

section

variable {a : SubscriptionActor} {e : Env × ActorEvent} {ms : List TopicMessage}

/-- The failure is scheduled for the backoff of the next attempt, so the one reported is
kept only if both end at the same time. -/
lemma waitsReportedBackoff_iff (h : a.Reported) (ht : a.Tracked) (hsingle : a.Single ms)
    (hsingle' : (a.step e).Single (ms ++ e.2.posted)) {retryPolicy : RetryPolicy}
    (hpolicy : a.info.retryPolicy = some retryPolicy)
    (hmax : retryPolicy.maximumBackoff ≤ Duration.max) {p : PulledMessage}
    (hp : p ∈ a.failing e.2) (hkept : p.message ∉ a.givenUp e) :
    a.WaitsReportedBackoff e retryPolicy p ↔
      BackoffsCoincide retryPolicy e.1.now p.deliveryAttempt := by
  have hids := hsingle.nodup_ids_failing e.2
  have hbatch : (((a.failing e.2).map (·.message)).map (·.id)).Nodup := by
    rw [List.map_map]
    exact hids
  have hx : exceedsMaxDeliveryAttempts a.info (nextAttempt a.deliveryAttempts p.message.id) =
      false := by
    by_contra hx
    exact hkept ((mem_buried_failActs hbatch).mpr
      ⟨List.mem_map_of_mem hp, Bool.eq_true_of_not_eq_false hx⟩)
  obtain ⟨seq, hwaits, hscheduled⟩ := scheduled_of_failing ht hids hp hpolicy hx
  have hexp : min (min (p.deliveryAttempt + 1) (2 ^ 16 - 1) - 1) 20 = min p.deliveryAttempt 20 := by
    omega
  rw [h.nextAttempt_of_failing ht.sound.fresh hp, RetryPolicy.calculateBackoff_eq hmax, hexp]
    at hwaits hscheduled
  rw [backoffsCoincide_iff]
  constructor
  · rintro ⟨seq', hget, hdue⟩
    have hseq : seq' = seq := HashMap.eq_of_get_of_count hget hwaits.message
      (le_of_add_le_right (hsingle'.count_out_le p.message))
    subst hseq
    exact hwaits.due _ hdue
  · intro hsame
    refine ⟨seq, hwaits.message, ?_⟩
    rw [hsame]
    exact hscheduled

end

section

variable (info : SubscriptionInfo) (topic : Topic) (pushRegistry : PushSubscriptionsRegistry)
  (delegate : SubscriptionManagerState) (topicManager : Option TopicManagerRef)

lemma reported_run {es : List (Env × ActorEvent)} (hids : ((posted es).map (·.id)).Nodup) :
    ((start info topic pushRegistry delegate topicManager).run es).Reported := by
  induction es using List.reverseRecOn with
  | nil => exact fun p hp => (by cases hp)
  | append_singleton es e ih =>
    obtain ⟨hsingle, hsingle'⟩ :=
      single_run_step info topic pushRegistry delegate topicManager hids
    rw [run_append]
    exact (ih hsingle.ids).step hsingle hsingle'

/-- In every reachable state, a delivery that fails and is not given up waits for the
backoff of the attempt it was reported with exactly if that and the next one end at the
same time. -/
theorem reported_backoff_iff (es : List (Env × ActorEvent))
    (hids : ((posted es).map (·.id)).Nodup) (e : Env × ActorEvent) {retryPolicy : RetryPolicy}
    (hpolicy : ((start info topic pushRegistry delegate topicManager).run es).info.retryPolicy =
      some retryPolicy) (hmax : retryPolicy.maximumBackoff ≤ Duration.max) :
    let a := (start info topic pushRegistry delegate topicManager).run es
    ∀ p ∈ a.failing e.2, p.message ∉ a.givenUp e →
      (a.WaitsReportedBackoff e retryPolicy p ↔
        BackoffsCoincide retryPolicy e.1.now p.deliveryAttempt) := by
  intro a p hp hkept
  obtain ⟨-, -, -, hposted⟩ := not_drops_of_failing (List.ne_nil_of_mem hp)
  have hall : posted (es ++ [e]) = posted es := by
    rw [posted_append, show posted [e] = [] by simp [posted, hposted], List.append_nil]
  have hsingles := single_run_step info topic pushRegistry delegate topicManager (hall ▸ hids)
  have htracked : a.Tracked := (tracked_start info topic pushRegistry delegate topicManager).run es
  exact waitsReportedBackoff_iff
    (reported_run info topic pushRegistry delegate topicManager hids) htracked hsingles.1
    hsingles.2 hpolicy hmax hp hkept

end

end SubscriptionActor

namespace Sample

def retryInfo (minimumBackoff maximumBackoff : Duration) : SubscriptionInfo :=
  { info with retryPolicy := some ⟨minimumBackoff, maximumBackoff⟩ }

def onePull : List (Env × ActorEvent) :=
  events [.postMessages [message 1 none], .pullMessages 10 0]

def firstDelivery : PulledMessage := ⟨message 1 none, ⟨1⟩, ⟨10000000000⟩, 1⟩

def firstNack : Env × ActorEvent := (env 0, .request (.modifyDeadline [.nack ⟨1⟩]))

end Sample

namespace SubscriptionActor

/-- A backoff that is always ten seconds is what the first nack waits for. -/
theorem reported_backoff_of_constant :
    let a := (Sample.start (Sample.retryInfo (.fromSecs 10) (.fromSecs 10))).run Sample.onePull
    Sample.firstDelivery ∈ a.failing Sample.firstNack.2 ∧
      a.WaitsReportedBackoff Sample.firstNack ⟨.fromSecs 10, .fromSecs 10⟩
        Sample.firstDelivery := by
  intro a
  have hp : Sample.firstDelivery ∈ a.failing Sample.firstNack.2 := by decide +kernel
  have hkept : Sample.firstDelivery.message ∉ a.givenUp Sample.firstNack := by decide +kernel
  have hiff := reported_backoff_iff (Sample.retryInfo (.fromSecs 10) (.fromSecs 10)) Sample.topic ∅
    .new none Sample.onePull (by decide +kernel) Sample.firstNack
    (show _ = some ⟨.fromSecs 10, .fromSecs 10⟩ by decide +kernel) (by decide +kernel)
    Sample.firstDelivery hp hkept
  exact ⟨hp, hiff.mpr (backoffsCoincide_of_max (by decide +kernel) _)⟩

/-- With backoffs from one second to a minute, the first nack waits two seconds. -/
theorem first_nack_waits_twice_the_minimum :
    let a := (Sample.start (Sample.retryInfo (.fromSecs 1) (.fromSecs 60))).run Sample.onePull
    Sample.firstDelivery ∈ a.failing Sample.firstNack.2 ∧
      Sample.firstDelivery.message ∉ a.givenUp Sample.firstNack ∧
      ¬ a.WaitsReportedBackoff Sample.firstNack ⟨.fromSecs 1, .fromSecs 60⟩
        Sample.firstDelivery := by
  intro a
  refine ⟨by decide +kernel, by decide +kernel, ?_⟩
  rintro ⟨seq, -, hdue⟩
  have hall : ∀ key ∈ (a.step Sample.firstNack).retryQueue.schedule.list,
      (ofLex key).1 = AckDeadline.new (Duration.fromSecs 2 : ℕ) := by decide +kernel
  have hlate : AckDeadline.new (Duration.fromSecs 1 : ℕ) =
      AckDeadline.new (Duration.fromSecs 2 : ℕ) := hall _ hdue
  revert hlate
  decide +kernel

end SubscriptionActor

end Deltio
