import Deltio.Attempts

namespace Deltio

open Lib Places

namespace SubscriptionActor

section

variable {a : SubscriptionActor} {e : Env × ActorEvent} {ms : List TopicMessage}

lemma holds_iff (hs : a.Sound) (m : TopicMessage) :
    a.Holds m ↔ a.ledger.count m < a.places.occ a.route m := by
  rw [holds_iff_places, hs.keyed.holds_iff, settled_places]

lemma Single.mem_of_holds (h : a.Single ms) {m : TopicMessage} (hm : a.Holds m) : m ∈ ms :=
  h.mem_of_occ (Nat.zero_lt_of_lt ((holds_iff h.sound m).mp hm))

/-- A message with a distinct ID that is held is not settled. -/
lemma Single.not_settled (h : a.Single ms) {m : TopicMessage} (hm : a.Holds m) :
    a.ledger.count m = 0 := by
  have hlt := (holds_iff h.sound m).mp hm
  have hone := h.occ_le_one m
  omega

lemma Single.mem_of_settled (h : a.Single ms) {m : TopicMessage} (hm : 0 < a.ledger.count m) :
    m ∈ ms := by
  apply h.mem_of_occ
  rw [← settled_places] at hm
  unfold Places.settled at hm
  unfold Places.occ
  omega

lemma holds_of_failing {m : TopicMessage} (hm : m ∈ (a.failing e.2).map (·.message)) :
    a.Holds m := .inr (.inr (.inl (mem_held_of_failing hm)))

/-- What is held after the event was held before it, or arrives in it. -/
lemma Accounts.holds_before {gone : List TopicMessage} (h : Accounts a e gone) (hs : a.Sound)
    {m : TopicMessage} (hm : (a.step e).Holds m) : a.Holds m ∨ m ∈ a.arriving e.2 := by
  rw [holds_iff (hs.step e), h.occ, h.settled] at hm
  rw [holds_iff hs, ← List.count_pos_iff]
  omega

/-- What is held before the event and does not go is held after it. -/
lemma Accounts.holds_after {gone : List TopicMessage} (h : Accounts a e gone) (hs : a.Sound)
    {m : TopicMessage} (hm : a.Holds m) (hgone : m ∉ gone) : (a.step e).Holds m := by
  rw [holds_iff hs] at hm
  rw [holds_iff (hs.step e), h.occ, h.settled, List.count_eq_zero.mpr hgone]
  omega

/-- What is held after the event is another message than those that went. -/
lemma Accounts.not_gone {gone : List TopicMessage} (h : Accounts a e gone)
    (hsingle : (a.step e).Single ms) {m : TopicMessage} (hm : (a.step e).Holds m) :
    m.id ∉ gone.map (·.id) := by
  intro hid
  obtain ⟨m', hgone, heq⟩ := List.mem_map.mp hid
  have hsettled : 0 < (a.step e).ledger.count m' := by
    have hpos := List.count_pos_iff.mpr hgone
    rw [h.settled]
    omega
  have hsame := hsingle.eq_of_id (hsingle.mem_of_settled hsettled) (hsingle.mem_of_holds hm) heq
  rw [hsame, hsingle.not_settled hm] at hsettled
  exact lt_irrefl _ hsettled

lemma deleted_of_step (hs : a.Sound) (h : (a.step e).deleted = false) : a.deleted = false := by
  obtain ⟨env, event⟩ := e
  rcases config_step_cases hs env event with
    ⟨-, hconfig⟩ | ⟨update, rfl⟩ | ⟨pushConfig, rfl⟩ | rfl | rfl
  · exact (congrArg Config.deleted hconfig).symm.trans h
  · exact h
  · exact h
  · by_contra hdeleted
    have hstep : a.step (env, .request .delete) = a := by
      simp [step, receive, delete, Bool.eq_true_of_not_eq_false hdeleted]
    rw [hstep] at h
    exact hdeleted h
  · have hsame : a.detach.deleted = a.deleted := by
      unfold detach
      split_ifs <;> rfl
    exact hsame.symm.trans h

end

/-- The failures of a message after an event, from those before it.  A seek starts over. -/
def recount (a : SubscriptionActor) (e : Env × ActorEvent) (m : TopicMessage) (n : ℕ) : ℕ :=
  match e.2 with
  | .request (.seek _) => 0
  | _ => n + ((a.failing e.2).map (·.message)).count m

def failuresFrom (m : TopicMessage) : ℕ → SubscriptionActor → List (Env × ActorEvent) → ℕ
  | n, _, [] => n
  | n, a, e :: es => failuresFrom m (a.recount e m n) (a.step e) es

def failures (a : SubscriptionActor) (es : List (Env × ActorEvent)) (m : TopicMessage) : ℕ :=
  failuresFrom m 0 a es

lemma failures_append (a : SubscriptionActor) (es : List (Env × ActorEvent))
    (e : Env × ActorEvent) (m : TopicMessage) :
    failures a (es ++ [e]) m = (a.run es).recount e m (failures a es m) := by
  have hfrom : ∀ (n : ℕ) (b : SubscriptionActor), failuresFrom m n b (es ++ [e]) =
      (b.run es).recount e m (failuresFrom m n b es) := by
    induction es with
    | nil => exact fun _ _ => rfl
    | cons e' es ih => exact fun n b => ih (b.recount e' m n) (b.step e')
  exact hfrom 0 a

lemma recount_of_seeks {e : Env × ActorEvent} (h : e.2.seeks) (a : SubscriptionActor)
    (m : TopicMessage) (n : ℕ) : a.recount e m n = 0 := by
  obtain ⟨env, event⟩ := e
  cases event with
  | request r =>
    cases r with
    | seek seekTime => rfl
    | _ => exact h.elim
  | _ => exact h.elim

lemma recount_of_not_seeks {e : Env × ActorEvent} (h : ¬ e.2.seeks) (a : SubscriptionActor)
    (m : TopicMessage) (n : ℕ) :
    a.recount e m n = n + ((a.failing e.2).map (·.message)).count m := by
  obtain ⟨env, event⟩ := e
  cases event with
  | request r =>
    cases r with
    | seek seekTime => exact absurd trivial h
    | _ => rfl
  | _ => rfl

def entry (n : ℕ) : Option ℕ := if n = 0 then none else some (min (2 ^ 16 - 1) (1 + n))

/-- Every entry is that of a held message, and says how often that failed.  A deleted
actor ignores a seek, so it has the right count only if there was none. -/
structure Counted (noSeek : Prop) (a : SubscriptionActor) (n : TopicMessage → ℕ) : Prop where
  keys : ∀ id k, a.deliveryAttempts.get id = some k → ∃ m, a.Holds m ∧ m.id = id
  counts : noSeek ∨ a.deleted = false → ∀ m, a.Holds m → a.deliveryAttempts.get m.id = entry (n m)

/-- One failure more. -/
lemma nextAttempt_of_entry {attempts : HashMap MessageId ℕ} {id : MessageId} {n : ℕ}
    (h : attempts.get id = entry n) : some (nextAttempt attempts id) = entry (n + 1) := by
  unfold nextAttempt
  rw [h]
  unfold entry
  rw [if_neg (Nat.succ_ne_zero n)]
  split_ifs with hn
  · subst hn
    rfl
  · dsimp only
    congr 1
    omega

lemma getD_entry (n : ℕ) : (entry n).getD 1 = min (2 ^ 16 - 1) (1 + n) := by
  unfold entry
  split_ifs with hn
  · subst hn
    rfl
  · rfl

section

variable {noSeek : Prop} {a : SubscriptionActor} {e : Env × ActorEvent}
  {ms gone : List TopicMessage} {n : TopicMessage → ℕ}

/-- An entry after the event is that of a message that was held and did not go. -/
lemma Accounts.keys (h : Accounts a e gone) (hs : a.Sound) (hcounted : Counted noSeek a n)
    {id : MessageId} {k : ℕ} (hget : (a.step e).deliveryAttempts.get id = some k) :
    ∃ m, (a.step e).Holds m ∧ m.id = id := by
  rw [h.attempts] at hget
  split_ifs at hget with hgone hfailing
  · obtain ⟨p, hp, rfl⟩ := List.mem_map.mp hfailing
    refine ⟨p.message, h.holds_after hs (holds_of_failing (List.mem_map_of_mem hp)) ?_, rfl⟩
    exact fun hmem => hgone (List.mem_map_of_mem (f := fun m : TopicMessage => m.id) hmem)
  · obtain ⟨m, hm, rfl⟩ := hcounted.keys id k hget
    refine ⟨m, h.holds_after hs hm ?_, rfl⟩
    exact fun hmem => hgone (List.mem_map_of_mem (f := fun m : TopicMessage => m.id) hmem)

/-- A message that arrives has no entry. -/
lemma Counted.get_of_new (h : Counted noSeek a n) (hsingle : a.Single ms) {m : TopicMessage}
    (hm : ∀ m' ∈ ms, m'.id ≠ m.id) : a.deliveryAttempts.get m.id = none := by
  cases hget : a.deliveryAttempts.get m.id with
  | none => rfl
  | some k =>
    obtain ⟨m', hholds, heq⟩ := h.keys m.id k hget
    exact absurd heq (hm m' (hsingle.mem_of_holds hholds))

/-- A held message is counted by its own failures. -/
lemma Accounts.get_of_held (h : Accounts a e gone) (hsingle : a.Single ms)
    (hsingle' : (a.step e).Single (ms ++ e.2.posted)) {m : TopicMessage} (hm : a.Holds m)
    (hafter : (a.step e).Holds m) (hget : a.deliveryAttempts.get m.id = entry (n m)) :
    (a.step e).deliveryAttempts.get m.id =
      entry (n m + ((a.failing e.2).map (·.message)).count m) := by
  rw [h.attempts, if_neg (h.not_gone hsingle' hafter)]
  by_cases hfailing : m ∈ (a.failing e.2).map (·.message)
  · have hids : m.id ∈ (a.failing e.2).map (·.message.id) := by
      obtain ⟨p, hp, rfl⟩ := List.mem_map.mp hfailing
      exact List.mem_map_of_mem (f := fun p : PulledMessage => p.message.id) hp
    rw [if_pos hids, List.count_eq_one_of_mem (hsingle.nodup_failing e.2) hfailing]
    exact nextAttempt_of_entry hget
  · have hids : m.id ∉ (a.failing e.2).map (·.message.id) := by
      intro hid
      obtain ⟨p, hp, heq⟩ := List.mem_map.mp hid
      have hmem : p.message ∈ (a.failing e.2).map (·.message) := List.mem_map_of_mem hp
      have hposted := hsingle.mem_of_held (mem_held_of_failing hmem)
      exact hfailing (hsingle.eq_of_id hposted (hsingle.mem_of_holds hm) heq ▸ hmem)
    rw [if_neg hids, hget, List.count_eq_zero.mpr hfailing, Nat.add_zero]

lemma ne_id_of_posted (hsingle' : (a.step e).Single (ms ++ e.2.posted)) {m : TopicMessage}
    (hm : m ∈ e.2.posted) : ∀ m' ∈ ms, m'.id ≠ m.id := by
  intro m' hm' heq
  have hids := hsingle'.ids
  rw [List.map_append, List.nodup_append] at hids
  exact hids.2.2 m'.id (List.mem_map_of_mem hm') m.id (List.mem_map_of_mem hm) heq

lemma Accounts.counted (h : Accounts a e gone) (hseeks : e.2.seeks → a.deleted = true)
    (hsingle : a.Single ms) (hsingle' : (a.step e).Single (ms ++ e.2.posted))
    (hnew : ∀ m, m ∉ ms → n m = 0) (hnone : noSeek → ¬ e.2.seeks)
    (hcounted : Counted noSeek a n) :
    Counted noSeek (a.step e) fun m => a.recount e m (n m) := by
  refine ⟨fun id k hget => h.keys hsingle.sound hcounted hget, fun hdeleted m hafter => ?_⟩
  have hlive : noSeek ∨ a.deleted = false := hdeleted.imp_right (deleted_of_step hsingle.sound)
  have hquiet : ¬ e.2.seeks := by
    rcases hlive with hlive | hlive
    · exact hnone hlive
    · exact fun hs => ne_true_of_eq_false hlive (hseeks hs)
  rw [recount_of_not_seeks hquiet]
  by_cases hm : a.Holds m
  · exact h.get_of_held hsingle hsingle' hm hafter (hcounted.counts hlive m hm)
  · have hposted : m ∈ e.2.posted :=
      posted_of_arriving ((h.holds_before hsingle.sound hafter).resolve_left hm)
    have hother := ne_id_of_posted hsingle' hposted
    have hfresh : m ∉ ms := fun hmem => hother m hmem rfl
    have hfailing : m.id ∉ (a.failing e.2).map (·.message.id) := by
      intro hid
      obtain ⟨p, hp, heq⟩ := List.mem_map.mp hid
      exact hother p.message
        (hsingle.mem_of_held (mem_held_of_failing (List.mem_map_of_mem hp))) heq
    have hcount : ((a.failing e.2).map (·.message)).count m = 0 := by
      refine List.count_eq_zero.mpr fun hmem => hfresh ?_
      exact hsingle.mem_of_held (mem_held_of_failing hmem)
    rw [h.attempts, if_neg (h.not_gone hsingle' hafter), if_neg hfailing,
      hcounted.get_of_new hsingle hother, hnew m hfresh, hcount]
    rfl

lemma Counted.step (hcounted : Counted noSeek a n) (hsingle : a.Single ms)
    (hsingle' : (a.step e).Single (ms ++ e.2.posted)) (hnew : ∀ m, m ∉ ms → n m = 0)
    (hnone : noSeek → ¬ e.2.seeks) :
    Counted noSeek (a.step e) fun m => a.recount e m (n m) := by
  rcases accounts_step_cases hsingle.sound e (hsingle.nodup_ids_failing e.2) with
    hreset | ⟨⟨gone, haccounts⟩, hseeks⟩
  · refine ⟨fun id k hget => ?_, fun _ m hm => ?_⟩
    · rw [hreset.attempts] at hget
      cases hget
    · rw [hreset.attempts]
      rcases hreset.seeks with hseeks | hempty
      · rw [recount_of_seeks hseeks]
        rfl
      · exact absurd hm (hempty m)
  · exact haccounts.counted hseeks hsingle hsingle' hnew hnone hcounted

/-- A pull reports one more than the failures so far. -/
lemma Counted.attempt_of_pulled (hcounted : Counted noSeek a n) (hsingle : a.Single ms)
    (hsingle' : (a.step e).Single (ms ++ e.2.posted)) {p : PulledMessage} (hp : p ∈ a.pulled e) :
    p.deliveryAttempt = min (2 ^ 16 - 1) (1 + n p.message) := by
  obtain ⟨-, hposted⟩ := not_discards_of_mem_pulled hp
  have hafter : (a.step e).Holds p.message :=
    .inr (.inr (.inl (mem_held_of_pulled hsingle.sound.fresh hp)))
  have hlive : a.deleted = false := by
    by_contra hdeleted
    rw [pulled_of_ended (.inl (Bool.eq_true_of_not_eq_false hdeleted))] at hp
    cases hp
  have hquiet : ¬ e.2.seeks := by
    intro hs
    obtain ⟨env, event⟩ := e
    unfold pulled at hp
    split at hp
    · next heq =>
      rw [show event = _ from heq] at hs
      exact hs
    · cases hp
  rcases accounts_step_cases hsingle.sound e (hsingle.nodup_ids_failing e.2) with
    hreset | ⟨⟨gone, haccounts⟩, -⟩
  · rcases hreset.seeks with hs | hempty
    · exact absurd hs hquiet
    · exact absurd hafter (hempty _)
  · have hbefore : a.Holds p.message := by
      refine (haccounts.holds_before hsingle.sound hafter).resolve_right fun harrives => ?_
      rw [arriving_of_posted hposted] at harrives
      cases harrives
    have hget := (haccounts.pulled p hp).resolve_right (haccounts.not_gone hsingle' hafter)
    rw [hget, hcounted.counts (.inr hlive) _ hbefore, getD_entry]

end

section

variable (info : SubscriptionInfo) (topic : Topic) (pushRegistry : PushSubscriptionsRegistry)
  (delegate : SubscriptionManagerState) (topicManager : Option TopicManagerRef)

lemma failures_of_not_posted (es : List (Env × ActorEvent)) {m : TopicMessage}
    (hm : m ∉ posted es) :
    failures (start info topic pushRegistry delegate topicManager) es m = 0 := by
  induction es using List.reverseRecOn with
  | nil => rfl
  | append_singleton es e ih =>
    rw [posted_append, List.mem_append, not_or] at hm
    rw [failures_append, ih hm.1]
    by_cases hs : e.2.seeks
    · exact recount_of_seeks hs _ m 0
    · rw [recount_of_not_seeks hs, Nat.zero_add]
      refine List.count_eq_zero.mpr fun hfailing => hm.1 ?_
      exact mem_posted_of_held info topic pushRegistry delegate topicManager
        (mem_held_of_failing hfailing)

lemma single_run_step {es : List (Env × ActorEvent)} {e : Env × ActorEvent}
    (hids : ((posted (es ++ [e])).map (·.id)).Nodup) :
    ((start info topic pushRegistry delegate topicManager).run es).Single (posted es) ∧
      (((start info topic pushRegistry delegate topicManager).run es).step e).Single
        (posted es ++ e.2.posted) := by
  have hposted : posted (es ++ [e]) = posted es ++ e.2.posted := by
    rw [posted_append]
    exact congrArg (posted es ++ ·) (List.append_nil _)
  have hafter := single_run info topic pushRegistry delegate topicManager hids
  rw [run_append, hposted] at hafter
  rw [hposted, List.map_append] at hids
  exact ⟨single_run info topic pushRegistry delegate topicManager (List.nodup_append.mp hids).1,
    hafter⟩

lemma counted_run {noSeek : Prop} {es : List (Env × ActorEvent)}
    (hids : ((posted es).map (·.id)).Nodup) (hnone : noSeek → ∀ e ∈ es, ¬ e.2.seeks) :
    Counted noSeek ((start info topic pushRegistry delegate topicManager).run es)
      (failures (start info topic pushRegistry delegate topicManager) es) := by
  induction es using List.reverseRecOn with
  | nil => exact ⟨fun _ _ h => (by cases h), fun _ _ _ => rfl⟩
  | append_singleton es e ih =>
    obtain ⟨hsingle, hsingle'⟩ :=
      single_run_step info topic pushRegistry delegate topicManager hids
    have hfailures : failures (start info topic pushRegistry delegate topicManager) (es ++ [e]) =
        fun m => ((start info topic pushRegistry delegate topicManager).run es).recount e m
          (failures (start info topic pushRegistry delegate topicManager) es m) :=
      funext fun m => failures_append _ es e m
    have hbefore := ih hsingle.ids fun h e' he' => hnone h e' (List.mem_append_left _ he')
    rw [run_append, hfailures]
    refine hbefore.step hsingle hsingle' (fun m hm => ?_) fun h => ?_
    · exact failures_of_not_posted info topic pushRegistry delegate topicManager es hm
    · exact hnone h e (List.mem_append_right _ List.mem_cons_self)

/-- Over posted messages with distinct IDs, a pull reports one more than the failures of
the message since it was posted or since the last seek, and the attempts have entries of
held messages only. -/
theorem delivery_attempts_numbered (es : List (Env × ActorEvent))
    (hids : ((posted es).map (·.id)).Nodup) :
    let a := (start info topic pushRegistry delegate topicManager).run es
    (∀ pull, ∀ p ∈ a.pulled pull, p.deliveryAttempt = min (2 ^ 16 - 1)
      (1 + failures (start info topic pushRegistry delegate topicManager) es p.message)) ∧
    ∀ id attempt, a.deliveryAttempts.get id = some attempt → ∃ m, m.id = id ∧
      (m ∈ a.backlog ∨ (∃ key, m ∈ a.queueOf key) ∨ m ∈ a.outstanding.held ∨
        m ∈ a.retryQueue.held) := by
  intro a
  have hcounted := counted_run info topic pushRegistry delegate topicManager hids False.elim
  constructor
  · intro pull p hp
    obtain ⟨-, hposted⟩ := not_discards_of_mem_pulled hp
    have hall : posted (es ++ [pull]) = posted es := by
      rw [posted_append, show posted [pull] = [] by simp [posted, hposted], List.append_nil]
    rw [← hall] at hids
    obtain ⟨hsingle, hsingle'⟩ :=
      single_run_step info topic pushRegistry delegate topicManager hids
    exact hcounted.attempt_of_pulled hsingle hsingle' hp
  · intro id attempt hget
    obtain ⟨m, hm, hid⟩ := hcounted.keys id attempt hget
    exact ⟨m, hid, hm⟩

end

/-- A nack, an expiry and a seek: the third pull reports two failures, and the pull after
the seek none. -/
theorem delivery_attempts_after_seek :
    let pull : Env × ActorEvent := (Sample.env 0, .request (.pullMessages 10 0))
    let twice : List (Env × ActorEvent) := Sample.events [.postMessages [Sample.message 1 none],
        .pullMessages 10 0, .modifyDeadline [.nack ⟨1⟩], .pullMessages 10 0] ++
      [(Sample.env 0, .expired 20000000000)]
    let sought := twice ++ Sample.events [.seek 0]
    (∃ p ∈ ((Sample.start Sample.info).run twice).pulled pull, p.deliveryAttempt = 3 ∧
      p.deliveryAttempt = min (2 ^ 16 - 1)
        (1 + failures (Sample.start Sample.info) twice p.message)) ∧
    ∃ p ∈ ((Sample.start Sample.info).run sought).pulled pull, p.deliveryAttempt = 1 ∧
      p.deliveryAttempt = min (2 ^ 16 - 1)
        (1 + failures (Sample.start Sample.info) sought p.message) := by
  intro pull twice sought
  have htwice : ⟨Sample.message 1 none, ⟨3⟩, ⟨10000000000⟩, 3⟩ ∈
      ((Sample.start Sample.info).run twice).pulled pull := by decide +kernel
  have hsought : ⟨Sample.message 1 none, ⟨3⟩, ⟨10000000000⟩, 1⟩ ∈
      ((Sample.start Sample.info).run sought).pulled pull := by decide +kernel
  refine ⟨⟨_, htwice, rfl, ?_⟩, ⟨_, hsought, rfl, ?_⟩⟩
  · exact (delivery_attempts_numbered Sample.info Sample.topic ∅ .new none twice
      (by decide +kernel)).1 pull _ htwice
  · exact (delivery_attempts_numbered Sample.info Sample.topic ∅ .new none sought
      (by decide +kernel)).1 pull _ hsought

end SubscriptionActor

end Deltio
