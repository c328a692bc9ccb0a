import Deltio.Leases

namespace Deltio

open Lib Places

def lastDeadline (id : AckId) : List DeadlineModification → AckDeadline → AckDeadline
  | [], deadline => deadline
  | modification :: modifications, deadline =>
    lastDeadline id modifications
      (if modification.ackId = id then modification.newDeadline.getD deadline else deadline)

namespace ActorEvent

def moveDeadline (id : AckId) (deadline : AckDeadline) : ActorEvent → AckDeadline
  | .request (.modifyDeadline modifications) => lastDeadline id modifications deadline
  | _ => deadline

/-- The event nacks the ack ID, takes what has expired at its deadline, or seeks. -/
def EndsLease (id : AckId) (deadline : AckDeadline) : ActorEvent → Prop
  | .request (.modifyDeadline modifications) => .nack id ∈ modifications
  | .expired polledAt => deadline.time ≤ polledAt
  | .request (.seek _) => True
  | _ => False

/-- The event takes what is ready at the delivery time, or seeks. -/
def EndsBackoff (deliverAt : AckDeadline) : ActorEvent → Prop
  | .retryReady polledAt => deliverAt.time ≤ polledAt
  | .request (.seek _) => True
  | _ => False

end ActorEvent

def deadlineAfter (id : AckId) (deadline : AckDeadline) (es : List (Env × ActorEvent)) :
    AckDeadline :=
  es.foldl (fun deadline e => e.2.moveDeadline id deadline) deadline

/-- Without a nack, the message under an ack ID only gets a new deadline. -/
lemma modified_of_not_nack {id : AckId} {modifications : List DeadlineModification}
    (h : DeadlineModification.nack id ∉ modifications) (q : PulledMessage) :
    OutstandingMessageTracker.modified id modifications (some q) =
      some (q.modifyDeadline (lastDeadline id modifications q.deadline)) := by
  induction modifications generalizing q with
  | nil => rfl
  | cons modification modifications ih =>
    rw [List.mem_cons, not_or] at h
    unfold OutstandingMessageTracker.modified lastDeadline
    by_cases hid : modification.ackId = id
    · obtain ⟨ackId, newDeadline⟩ := modification
      cases newDeadline with
      | none =>
        subst hid
        exact absurd rfl h.1
      | some d =>
        rw [if_pos hid, if_pos hid]
        exact ih h.2 (q.modifyDeadline d)
    · rw [if_neg hid, if_neg hid]
      exact ih h.2 q

namespace SubscriptionActor

/-- No pull returns anything any more. -/
def Ended (a : SubscriptionActor) : Prop := a.deleted = true ∨ a.info.detached = true

lemma pulled_of_ended {a : SubscriptionActor} (h : a.Ended) (e : Env × ActorEvent) :
    a.pulled e = [] := by
  unfold pulled
  split
  · unfold pullMessages
    rcases h with h | h
    · rw [if_pos h]
      rfl
    · split_ifs <;> rfl
  · rfl

lemma ended_delete (a : SubscriptionActor) (env : Env) : (a.step (env, .request .delete)).Ended := by
  left
  change (a.delete env.topicAnswer).2.deleted = true
  unfold delete
  split_ifs with hd
  · exact hd
  · cases env.topicAnswer <;> rfl

lemma Ended.step {a : SubscriptionActor} (hs : a.Sound) (h : a.Ended) (e : Env × ActorEvent) :
    (a.step e).Ended := by
  obtain ⟨env, event⟩ := e
  rcases config_step_cases hs env event with
    ⟨-, hconfig⟩ | ⟨update, rfl⟩ | ⟨pushConfig, rfl⟩ | rfl | rfl
  · have hdeleted : (a.step (env, event)).deleted = a.deleted := congrArg Config.deleted hconfig
    unfold Ended
    rw [info_of_config hconfig, hdeleted]
    exact h
  · exact h
  · exact h
  · exact a.ended_delete env
  · exact .inr a.detached_detach

/-- The message is outstanding under the ack ID until the deadline. -/
def Leased (a : SubscriptionActor) (id : AckId) (m : TopicMessage) (deadline : AckDeadline) : Prop :=
  ∃ q, a.outstanding.messages.get id = some q ∧ q.message = m ∧ q.deadline = deadline

lemma Leased.away {a : SubscriptionActor} {id : AckId} {m : TopicMessage} {deadline : AckDeadline}
    (h : a.Leased id m deadline) : 0 < a.places.away m := by
  obtain ⟨q, hq, rfl, -⟩ := h
  have hheld : q.message ∈ a.outstanding.held :=
    List.mem_map_of_mem ((HashMap.mem_values _ _).mpr ⟨id, hq⟩)
  have hcount : 0 < a.places.leased.count q.message :=
    Multiset.count_pos.mpr (Multiset.mem_coe.mpr hheld)
  unfold Places.away
  omega

/-- What a pull returns is leased until its deadline. -/
lemma leased_of_pulled {a : SubscriptionActor} (hs : a.Sound) {e : Env × ActorEvent}
    {p : PulledMessage} (hp : p ∈ a.pulled e) : (a.step e).Leased p.ackId p.message p.deadline := by
  refine ⟨p, ?_, rfl, rfl⟩
  have hget := (above_pulled hs.fresh e).get_of_mem hp
  have hstep : (a.step e).outstanding = (a.custodyAfter e).outstanding :=
    congrArg Custody.outstanding (a.custody_step e)
  rw [hstep]
  obtain ⟨env, event⟩ := e
  cases event with
  | expired polledAt => cases hp
  | retryReady polledAt => cases hp
  | request r =>
    cases r with
    | pullMessages maxCount maxOutstanding => exact hget
    | _ => cases hp

lemma deadline_of_pulled {a : SubscriptionActor} {e : Env × ActorEvent} {p : PulledMessage}
    (hp : p ∈ a.pulled e) : p.deadline = AckDeadline.new (e.1.now + a.info.ackDeadline) := by
  unfold pulled at hp
  split at hp
  · exact (a.delivers_pullMessages _ _ _).deadline p hp
  · cases hp

/-- Acked messages are settled. -/
lemma acked_releaseAcked (acked : List PulledMessage) (freedKeys : List String)
    (a : SubscriptionActor) {m : TopicMessage}
    (h : m ∈ acked.map (·.message) ∨ m ∈ a.ledger.acked) :
    m ∈ (releaseAcked acked freedKeys a).2.ledger.acked := by
  induction acked generalizing freedKeys a with
  | nil =>
    rcases h with h | h
    · cases h
    · exact h
  | cons pulled rest ih =>
    have hledger : (a.settleAcked pulled.message).2.ledger.acked =
        pulled.message :: a.ledger.acked := by
      unfold settleAcked
      dsimp only
      split <;> rfl
    unfold releaseAcked
    refine ih _ _ ?_
    rw [hledger]
    rw [List.map_cons, List.mem_cons] at h
    rw [List.mem_cons]
    tauto

/-- An acknowledged lease settles its message. -/
lemma settled_of_acknowledge {a : SubscriptionActor} {id : AckId} {q : PulledMessage}
    (hq : a.outstanding.messages.get id = some q) (hd : ¬ a.deleted = true) {ackIds : List AckId}
    (hid : id ∈ ackIds.filter a.outstanding.contains) :
    0 < (a.acknowledgeMessages ackIds).2.places.settled q.message := by
  have hmem : q.message ∈ (a.acknowledgeMessages ackIds).2.ledger.acked := by
    have htaken := OutstandingMessageTracker.mem_remove_of_get hid hq
    have hloop := acked_releaseAcked _ [] { a with
      outstanding := (a.outstanding.remove (ackIds.filter a.outstanding.contains)).2 }
      (.inl (List.mem_map_of_mem htaken))
    unfold acknowledgeMessages
    rw [if_neg hd]
    dsimp only
    split_ifs <;> exact hloop
  have hcount : 0 < (a.acknowledgeMessages ackIds).2.places.acked.count q.message :=
    Multiset.count_pos.mpr (Multiset.mem_coe.mpr hmem)
  unfold settled
  omega

/-- The message stays out of reach: it is leased, settled, or there are no more pulls. -/
inductive Kept (a : SubscriptionActor) (id : AckId) (m : TopicMessage) (deadline : AckDeadline) : Prop
  | leased (h : a.Leased id m deadline)
  | settled (h : 0 < a.places.settled m)
  | ended (h : a.Ended)

/-- A leased message stays out of reach unless the event ends its lease. -/
lemma Leased.step {a : SubscriptionActor} (ht : a.Tracked) {id : AckId} {m : TopicMessage}
    {deadline : AckDeadline} (h : a.Leased id m deadline) (e : Env × ActorEvent)
    (he : ¬ e.2.EndsLease id deadline) :
    (a.step e).Kept id m (e.2.moveDeadline id deadline) := by
  obtain ⟨q, hq, rfl, rfl⟩ := h
  have hstep : (a.step e).outstanding = (a.custodyAfter e).outstanding :=
    congrArg Custody.outstanding (a.custody_step e)
  obtain ⟨env, event⟩ := e
  cases event with
  | retryReady polledAt => exact .leased ⟨q, by rw [hstep]; exact hq, rfl, rfl⟩
  | expired polledAt =>
    have hlt : polledAt < q.deadline.time := not_le.mp he
    refine .leased ⟨q, ?_, rfl, rfl⟩
    rw [hstep]
    change (a.outstanding.takeExpired polledAt).2.messages.get id = some q
    rw [(ht.sideBySide.takeExpired polledAt).get, hq, Option.filter_some,
      if_pos (decide_eq_true hlt)]
  | request r =>
    cases r with
    | pullMessages maxCount maxOutstanding =>
      refine .leased ⟨q, ?_, rfl, rfl⟩
      rw [hstep]
      have hlt : id.value < a.nextAckId.value := by
        by_contra hge
        have hnone := ht.sound.fresh.ackId id (not_lt.mp hge)
        rw [hq] at hnone
        cases hnone
      exact ((above_pulled ht.sound.fresh _).get_foldl_add hlt).trans hq
    | acknowledgeMessages ackIds =>
      by_cases hd : a.deleted = true
      · exact .ended ((show a.Ended from .inl hd).step ht.sound _)
      by_cases hid : id ∈ ackIds.filter a.outstanding.contains
      · exact .settled (settled_of_acknowledge hq hd hid)
      · refine .leased ⟨q, ?_, rfl, rfl⟩
        rw [hstep]
        unfold custodyAfter
        dsimp only
        rw [if_neg hd, OutstandingMessageTracker.get_remove, if_neg hid, hq]
    | modifyDeadline modifications =>
      by_cases hd : a.deleted = true
      · exact .ended ((show a.Ended from .inl hd).step ht.sound _)
      · refine .leased ⟨q.modifyDeadline (lastDeadline id modifications q.deadline), ?_, rfl, rfl⟩
        rw [hstep]
        unfold custodyAfter
        dsimp only
        rw [if_neg hd, OutstandingMessageTracker.get_modify, hq]
        exact modified_of_not_nack he q
    | seek seekTime => exact absurd trivial he
    | delete => exact .ended (a.ended_delete env)
    | detach => exact .ended (.inr a.detached_detach)
    | _ => exact .leased ⟨q, by rw [hstep]; exact hq, rfl, rfl⟩

lemma settled_step {a : SubscriptionActor} (hs : a.Sound) {m : TopicMessage}
    (h : 0 < a.places.settled m) (e : Env × ActorEvent) : 0 < (a.step e).places.settled m := by
  obtain ⟨acts, hsim⟩ := exists_simulated hs.fresh hs.keyed e
  exact h.trans_le (hsim.steps.settled_le m)

lemma Kept.step {a : SubscriptionActor} (ht : a.Tracked) {id : AckId} {m : TopicMessage}
    {deadline : AckDeadline} (h : a.Kept id m deadline) (e : Env × ActorEvent)
    (he : ¬ e.2.EndsLease id deadline) : (a.step e).Kept id m (e.2.moveDeadline id deadline) := by
  cases h with
  | leased h => exact h.step ht e he
  | settled h => exact .settled (settled_step ht.sound h e)
  | ended h => exact .ended (h.step ht.sound e)

/-- Over a run, either some event ends the lease or the message stays out of reach. -/
theorem Kept.run {a : SubscriptionActor} (ht : a.Tracked) {id : AckId} {m : TopicMessage}
    {deadline : AckDeadline} (h : a.Kept id m deadline) (es : List (Env × ActorEvent)) :
    (∃ es₁ e es₂, es = es₁ ++ e :: es₂ ∧ e.2.EndsLease id (deadlineAfter id deadline es₁)) ∨
      (a.run es).Kept id m (deadlineAfter id deadline es) := by
  induction es generalizing a deadline with
  | nil => exact .inr h
  | cons e es ih =>
    by_cases he : e.2.EndsLease id deadline
    · exact .inl ⟨[], e, es, rfl, he⟩
    · rcases ih (ht.step e) (h.step ht e he) with ⟨es₁, e', es₂, rfl, hend⟩ | hkept
      · exact .inl ⟨e :: es₁, e', es₂, rfl, hend⟩
      · exact .inr hkept

lemma Kept.not_mem_pulled {a : SubscriptionActor} (hs : a.Sound) {id : AckId} {m : TopicMessage}
    {deadline : AckDeadline} (h : a.Kept id m deadline) (hocc : a.places.occ a.route m ≤ 1)
    (pull : Env × ActorEvent) : m ∉ (a.pulled pull).map (·.message) := by
  cases h with
  | leased h => exact not_mem_pulled_of_away hs hocc h.away
  | settled h => exact not_mem_pulled_of_away hs hocc (h.trans_le (Nat.le_add_left _ _))
  | ended h =>
    rw [pulled_of_ended h]
    exact List.not_mem_nil

/-- The message waits for its delivery time, or there are no more pulls. -/
inductive Deferred (a : SubscriptionActor) (m : TopicMessage) (deliverAt : AckDeadline) : Prop
  | waits (seq : ℕ) (h : a.retryQueue.Waits seq m deliverAt)
  | ended (h : a.Ended)

lemma Deferred.step {a : SubscriptionActor} (ht : a.Tracked) {m : TopicMessage}
    {deliverAt : AckDeadline} (h : a.Deferred m deliverAt) (e : Env × ActorEvent)
    (he : ¬ e.2.EndsBackoff deliverAt) : (a.step e).Deferred m deliverAt := by
  cases h with
  | ended h => exact .ended (h.step ht.sound e)
  | waits seq h =>
    have hstep : (a.step e).retryQueue = (a.custodyAfter e).retryQueue :=
      congrArg Custody.retryQueue (a.custody_step e)
    have hdefer := deferAll_preserves (I := fun q => q.Fresh ∧ q.Waits seq m deliverAt)
      (fun q m' d hq => ⟨hq.1.add m' d, hq.2.add hq.1 m' d⟩) a.info e.1.now a.deliveryAttempts
      (a.failing e.2) ⟨ht.sound.fresh.retry, h⟩
    obtain ⟨env, event⟩ := e
    cases event with
    | expired polledAt => exact .waits seq (by rw [hstep]; exact hdefer.2)
    | retryReady polledAt =>
      have hlt : polledAt < deliverAt.time := not_le.mp he
      exact .waits seq (by rw [hstep]; exact h.takeReady hlt)
    | request r =>
      cases r with
      | acknowledgeMessages ackIds =>
        refine .waits seq ?_
        rw [hstep]
        unfold custodyAfter
        dsimp only
        split_ifs <;> exact h
      | modifyDeadline modifications =>
        refine .waits seq ?_
        rw [hstep]
        unfold custodyAfter
        dsimp only
        split_ifs
        · exact h
        · exact hdefer.2
      | seek seekTime => exact absurd trivial he
      | delete => exact .ended (a.ended_delete env)
      | detach => exact .ended (.inr a.detached_detach)
      | _ => exact .waits seq (by rw [hstep]; exact h)

/-- Over a run, either some event ends the backoff or the message keeps waiting. -/
theorem Deferred.run {a : SubscriptionActor} (ht : a.Tracked) {m : TopicMessage}
    {deliverAt : AckDeadline} (h : a.Deferred m deliverAt) (es : List (Env × ActorEvent)) :
    (∃ e ∈ es, e.2.EndsBackoff deliverAt) ∨ (a.run es).Deferred m deliverAt := by
  induction es generalizing a with
  | nil => exact .inr h
  | cons e es ih =>
    by_cases he : e.2.EndsBackoff deliverAt
    · exact .inl ⟨e, List.mem_cons_self, he⟩
    · rcases ih (ht.step e) (h.step ht e he) with ⟨e', hmem, hend⟩ | hdeferred
      · exact .inl ⟨e', List.mem_cons_of_mem _ hmem, hend⟩
      · exact .inr hdeferred

lemma Deferred.not_mem_pulled {a : SubscriptionActor} (hs : a.Sound) {m : TopicMessage}
    {deliverAt : AckDeadline} (h : a.Deferred m deliverAt) (hocc : a.places.occ a.route m ≤ 1)
    (pull : Env × ActorEvent) : m ∉ (a.pulled pull).map (·.message) := by
  cases h with
  | waits seq h =>
    refine not_mem_pulled_of_away hs hocc ?_
    have hheld : m ∈ a.retryQueue.held := (HashMap.mem_values _ _).mpr ⟨seq, h.message⟩
    have hcount : 0 < a.places.waiting.count m :=
      Multiset.count_pos.mpr (Multiset.mem_coe.mpr hheld)
    unfold Places.away
    omega
  | ended h =>
    rw [pulled_of_ended h]
    exact List.not_mem_nil

/-- A failed message that is not given up waits for the backoff of its attempt.  The
other messages of the batch do not count attempts of this one. -/
lemma scheduled_deferAll {info : SubscriptionInfo} {retryPolicy : RetryPolicy}
    (hpolicy : info.retryPolicy = some retryPolicy) (now : Instant)
    (attempts : HashMap MessageId ℕ) {ps : List PulledMessage}
    (hids : (ps.map (·.message.id)).Nodup) {q : RetryQueue} (hf : q.Fresh) (ht : q.Timely)
    {p : PulledMessage} (hp : p ∈ ps)
    (hx : exceedsMaxDeliveryAttempts info (nextAttempt attempts p.message.id) = false) :
    let deliverAt := AckDeadline.new
      (now + retryPolicy.calculateBackoff (nextAttempt attempts p.message.id))
    ∃ seq, (deferAll info now attempts ps q).Waits seq p.message deliverAt ∧
      toLex (deliverAt, seq) ∈ (deferAll info now attempts ps q).schedule := by
  induction ps generalizing attempts q with
  | nil => cases hp
  | cons head ps ih =>
    obtain ⟨hhead, hids⟩ := List.nodup_cons.mp hids
    unfold deferAll
    dsimp only
    rcases List.mem_cons.mp hp with rfl | hp
    · have hone : deferOne info now (nextAttempt attempts p.message.id) p.message q =
          q.add p.message (AckDeadline.new
            (now + retryPolicy.calculateBackoff (nextAttempt attempts p.message.id))) := by
        unfold deferOne
        rw [hpolicy]
        dsimp only
        rw [hx, if_neg Bool.false_ne_true]
      rw [hone]
      refine ⟨q.nextSeq, ?_⟩
      exact (deferAll_preserves (I := fun q' => q'.Fresh ∧ q'.Waits q.nextSeq p.message _ ∧
          toLex (_, q.nextSeq) ∈ q'.schedule)
        (fun q' m' d hq => ⟨hq.1.add m' d, hq.2.1.add hq.1 m' d,
          (SortedSet.mem_insert _ _ _).mpr (.inr hq.2.2)⟩) info now _ ps
        ⟨hf.add _ _, RetryQueue.waits_add ht _ _, (SortedSet.mem_insert _ _ _).mpr (.inl rfl)⟩).2
    · have hne : p.message.id ≠ head.message.id := by
        intro heq
        exact hhead (List.mem_map.mpr ⟨p, hp, heq⟩)
      have hsame : nextAttempt (attempts.insert head.message.id
          (nextAttempt attempts head.message.id)) p.message.id =
          nextAttempt attempts p.message.id := by
        simp only [nextAttempt, HashMap.get_insert, if_neg hne]
      obtain ⟨hf', ht'⟩ := deferOne_preserves (I := fun q' => q'.Fresh ∧ q'.Timely)
        (fun q' m' d hq => ⟨hq.1.add m' d, hq.2.add m' d⟩) info now
        (nextAttempt attempts head.message.id) head.message ⟨hf, ht⟩
      have hrest := ih (attempts.insert head.message.id (nextAttempt attempts head.message.id))
        hids hf' ht' hp (hsame ▸ hx)
      rwa [hsame] at hrest

lemma held_perm_failing (a : SubscriptionActor) (e : ActorEvent) :
    ∃ rest, a.outstanding.held.Perm ((a.failing e).map (·.message) ++ rest) := by
  unfold failing
  split
  · split_ifs
    · exact ⟨_, List.Perm.refl _⟩
    · exact ⟨_, OutstandingMessageTracker.perm_modify _ a.outstanding⟩
  · next polledAt =>
    have hperm := (a.outstanding.perm_takeExpired polledAt).map PulledMessage.message
    rw [List.map_append] at hperm
    exact ⟨_, hperm⟩
  · exact ⟨_, List.Perm.refl _⟩

lemma scheduled_of_failing {a : SubscriptionActor} (ht : a.Tracked) {e : Env × ActorEvent}
    (hids : ((a.failing e.2).map (·.message.id)).Nodup) {p : PulledMessage}
    (hp : p ∈ a.failing e.2) {retryPolicy : RetryPolicy}
    (hpolicy : a.info.retryPolicy = some retryPolicy)
    (hx : exceedsMaxDeliveryAttempts a.info (nextAttempt a.deliveryAttempts p.message.id) = false) :
    let deliverAt := AckDeadline.new
      (e.1.now + retryPolicy.calculateBackoff (nextAttempt a.deliveryAttempts p.message.id))
    ∃ seq, (a.step e).retryQueue.Waits seq p.message deliverAt ∧
      toLex (deliverAt, seq) ∈ (a.step e).retryQueue.schedule := by
  obtain ⟨seq, hseq⟩ := scheduled_deferAll hpolicy e.1.now a.deliveryAttempts hids
    ht.sound.fresh.retry ht.timely hp hx
  refine ⟨seq, ?_⟩
  have hstep : (a.step e).retryQueue = (a.custodyAfter e).retryQueue :=
    congrArg Custody.retryQueue (a.custody_step e)
  rw [hstep]
  obtain ⟨env, event⟩ := e
  cases event with
  | expired polledAt => exact hseq
  | retryReady polledAt => cases hp
  | request r =>
    cases r with
    | modifyDeadline modifications =>
      unfold custodyAfter
      dsimp only
      split_ifs with hd
      · have hnone : a.failing (.request (.modifyDeadline modifications)) = [] := if_pos hd
        rw [hnone] at hp
        cases hp
      · exact hseq
    | _ => cases hp

/-- The messages of the actor are among `ms`, whose IDs are distinct. -/
structure Single (a : SubscriptionActor) (ms : List TopicMessage) : Prop where
  sound : a.Sound
  ids : (ms.map (·.id)).Nodup
  occ : ∀ m, a.places.occ a.route m ≤ ms.count m

section

variable {a : SubscriptionActor} {ms : List TopicMessage}

lemma Single.occ_le_one (h : a.Single ms) (m : TopicMessage) : a.places.occ a.route m ≤ 1 :=
  (h.occ m).trans (List.nodup_iff_count_le_one.mp (List.Nodup.of_map _ h.ids) m)

lemma Single.mem_of_occ (h : a.Single ms) {m : TopicMessage} (hm : 0 < a.places.occ a.route m) :
    m ∈ ms := List.count_pos_iff.mp (hm.trans_le (h.occ m))

lemma Single.eq_of_id (h : a.Single ms) {m m' : TopicMessage} (hm : m ∈ ms) (hm' : m' ∈ ms)
    (heq : m.id = m'.id) : m = m' := List.inj_on_of_nodup_map h.ids hm hm' heq

lemma Single.mem_of_held (h : a.Single ms) {m : TopicMessage} (hm : m ∈ a.outstanding.held) :
    m ∈ ms := by
  have hcount : 0 < a.places.leased.count m := Multiset.count_pos.mpr (Multiset.mem_coe.mpr hm)
  apply h.mem_of_occ
  unfold Places.occ
  omega

lemma mem_held_of_failing {e : ActorEvent} {m : TopicMessage}
    (hm : m ∈ (a.failing e).map (·.message)) : m ∈ a.outstanding.held := by
  obtain ⟨rest, hperm⟩ := a.held_perm_failing e
  exact hperm.mem_iff.mpr (List.mem_append_left _ hm)

/-- A message is outstanding or waiting once at most. -/
lemma Single.count_out_le (h : a.Single ms) (m : TopicMessage) :
    a.outstanding.held.count m + a.retryQueue.held.count m ≤ 1 := by
  have hone := h.occ_le_one m
  have hleased : a.places.leased.count m = a.outstanding.held.count m := Multiset.coe_count _ _
  have hwaiting : a.places.waiting.count m = a.retryQueue.held.count m := by
    simp only [placesWith, List.nil_append, Multiset.coe_count]
  unfold Places.occ at hone
  omega

lemma Single.nodup_failing (h : a.Single ms) (e : ActorEvent) :
    ((a.failing e).map (·.message)).Nodup := by
  obtain ⟨rest, hperm⟩ := a.held_perm_failing e
  have hheld : a.outstanding.held.Nodup :=
    List.nodup_iff_count_le_one.mpr fun m => le_of_add_le_left (h.count_out_le m)
  exact (List.nodup_append.mp (hperm.nodup_iff.mp hheld)).1

/-- The messages of a failing batch have distinct IDs. -/
lemma Single.nodup_ids_failing (h : a.Single ms) (e : ActorEvent) :
    ((a.failing e).map (·.message.id)).Nodup := by
  have hmap := (h.nodup_failing e).map_on fun m hm m' hm' heq =>
    h.eq_of_id (h.mem_of_held (mem_held_of_failing hm)) (h.mem_of_held (mem_held_of_failing hm')) heq
  rwa [List.map_map] at hmap

end

section

variable (info : SubscriptionInfo) (topic : Topic) (pushRegistry : PushSubscriptionsRegistry)
  (delegate : SubscriptionManagerState) (topicManager : Option TopicManagerRef)

lemma mem_posted_of_held {es : List (Env × ActorEvent)} {m : TopicMessage}
    (hm : m ∈ ((start info topic pushRegistry delegate topicManager).run es).outstanding.held) :
    m ∈ posted es := by
  set a := (start info topic pushRegistry delegate topicManager).run es
  have hle := occ_le_posted info topic pushRegistry delegate topicManager es m
  have hcount : 0 < a.places.leased.count m := Multiset.count_pos.mpr (Multiset.mem_coe.mpr hm)
  have hocc : a.places.leased.count m ≤ a.places.occ a.route m := by
    unfold occ
    omega
  exact List.count_pos_iff.mp (hcount.trans_le (hocc.trans hle))

lemma mem_posted_of_pulled {es : List (Env × ActorEvent)} {pull : Env × ActorEvent}
    {p : PulledMessage}
    (hp : p ∈ ((start info topic pushRegistry delegate topicManager).run es).pulled pull) :
    p.message ∈ posted es := by
  have hsound := (sound_start info topic pushRegistry delegate topicManager).run es
  have hheld := mem_held_of_pulled hsound.fresh hp
  have hstep : (start info topic pushRegistry delegate topicManager).run (es ++ [pull]) =
      ((start info topic pushRegistry delegate topicManager).run es).step pull :=
    run_append _ es [pull]
  rw [← hstep] at hheld
  have hposted := mem_posted_of_held info topic pushRegistry delegate topicManager hheld
  rwa [posted_append, show posted [pull] = [] by simp [posted, (not_discards_of_mem_pulled hp).2],
    List.append_nil] at hposted

lemma single_run {es : List (Env × ActorEvent)} (hids : ((posted es).map (·.id)).Nodup) :
    ((start info topic pushRegistry delegate topicManager).run es).Single (posted es) where
  sound := (sound_start info topic pushRegistry delegate topicManager).run es
  ids := hids
  occ := occ_le_posted info topic pushRegistry delegate topicManager es

/-- No pull returns a leased message before its lease has ended, nor a message in its
backoff before that has elapsed. -/
theorem lease_and_backoff_exclusivity (before : List (Env × ActorEvent)) (first : Env × ActorEvent)
    (between : List (Env × ActorEvent)) (again : Env × ActorEvent)
    (hids : ((posted (before ++ first :: between)).map (·.id)).Nodup) :
    let a := (start info topic pushRegistry delegate topicManager).run before
    let b := (a.step first).run between
    (∀ p ∈ a.pulled first, p.deadline = AckDeadline.new (first.1.now + a.info.ackDeadline) ∧
      ∀ p' ∈ b.pulled again, p'.message.id = p.message.id →
        ∃ es₁ e es₂, between = es₁ ++ e :: es₂ ∧
          e.2.EndsLease p.ackId (deadlineAfter p.ackId p.deadline es₁)) ∧
    ∀ p ∈ a.failing first.2, ∀ retryPolicy, a.info.retryPolicy = some retryPolicy →
      let attempt := nextAttempt a.deliveryAttempts p.message.id
      exceedsMaxDeliveryAttempts a.info attempt = false →
      ∀ p' ∈ b.pulled again, p'.message.id = p.message.id →
        ∃ e ∈ between, e.2.EndsBackoff
          (AckDeadline.new (first.1.now + retryPolicy.calculateBackoff attempt)) := by
  intro a b
  have hb : (start info topic pushRegistry delegate topicManager).run (before ++ first :: between) =
      b := run_append _ before (first :: between)
  have hta : a.Tracked := (tracked_start info topic pushRegistry delegate topicManager).run before
  have htb : b.Tracked := (hta.step first).run between
  have hocc : ∀ m, b.places.occ b.route m ≤ 1 := by
    intro m
    have hle := occ_le_posted info topic pushRegistry delegate topicManager
      (before ++ first :: between) m
    rw [hb] at hle
    exact hle.trans (List.nodup_iff_count_le_one.mp (List.Nodup.of_map _ hids) m)
  -- messages with the same ID are the same, as both were posted
  have hsame : ∀ m ∈ posted (before ++ first :: between), ∀ p' ∈ b.pulled again,
      p'.message.id = m.id → p'.message = m := by
    intro m hm p' hp' heq
    rw [← hb] at hp'
    exact List.inj_on_of_nodup_map hids
      (mem_posted_of_pulled info topic pushRegistry delegate topicManager hp') hm heq
  have hbefore : posted before ⊆ posted (before ++ first :: between) := by
    rw [posted_append]
    exact List.subset_append_left _ _
  refine ⟨fun p hp => ⟨deadline_of_pulled hp, fun p' hp' heq => ?_⟩, ?_⟩
  · have hposted := mem_posted_of_pulled info topic pushRegistry delegate topicManager hp
    rcases (Kept.leased (leased_of_pulled hta.sound hp)).run (hta.step first) between
      with hend | hkept
    · exact hend
    · refine absurd ?_ (hkept.not_mem_pulled htb.sound (hocc _) again)
      exact List.mem_map.mpr ⟨p', hp', hsame _ (hbefore hposted) p' hp' heq⟩
  · intro p hp retryPolicy hpolicy attempt hx p' hp' heq
    have hheld : p.message ∈ a.outstanding.held := mem_held_of_failing (List.mem_map_of_mem hp)
    have hposted := mem_posted_of_held info topic pushRegistry delegate topicManager hheld
    have hidsBefore : ((posted before).map (·.id)).Nodup := by
      rw [posted_append, List.map_append] at hids
      exact (List.nodup_append.mp hids).1
    have hsingle := single_run info topic pushRegistry delegate topicManager hidsBefore
    obtain ⟨seq, hwaits, -⟩ :=
      scheduled_of_failing hta (hsingle.nodup_ids_failing first.2) hp hpolicy hx
    rcases (Deferred.waits seq hwaits).run (hta.step first) between with hend | hkept
    · exact hend
    · refine absurd ?_ (hkept.not_mem_pulled htb.sound (hocc _) again)
      exact List.mem_map.mpr ⟨p', hp', hsame _ (hbefore hposted) p' hp' heq⟩

end

/-- A message is pulled, expires and is pulled again: the expiry ended the first lease.  With a
retry policy it is nacked and pulled again: its backoff of two seconds had elapsed. -/
theorem exclusivity_until_expiry :
    let pull : Env × ActorEvent := (Sample.env 0, .request (.pullMessages 10 0))
    (let before := Sample.events [.postMessages [Sample.message 1 none]]
      let between : List (Env × ActorEvent) := [(Sample.env 0, .expired 20000000000)]
      let a := (Sample.start Sample.info).run before
      ∃ p ∈ a.pulled pull, ∃ p' ∈ ((a.step pull).run between).pulled pull,
        p'.message.id = p.message.id ∧ ∃ es₁ e es₂, between = es₁ ++ e :: es₂ ∧
          e.2.EndsLease p.ackId (deadlineAfter p.ackId p.deadline es₁)) ∧
    let info := { Sample.info with retryPolicy := some ⟨.fromSecs 1, .fromSecs 60⟩ }
    let before := Sample.events [.postMessages [Sample.message 1 none], .pullMessages 10 0]
    let nack : Env × ActorEvent := (Sample.env 0, .request (.modifyDeadline [.nack ⟨1⟩]))
    let between : List (Env × ActorEvent) := [(Sample.env 0, .retryReady 3000000000)]
    let a := (Sample.start info).run before
    ∃ p ∈ a.failing nack.2, ∃ p' ∈ ((a.step nack).run between).pulled pull,
      p'.message.id = p.message.id ∧ ∃ e ∈ between, e.2.EndsBackoff ⟨2000000000⟩ := by
  intro pull
  constructor
  · intro before between a
    have hp : ⟨Sample.message 1 none, ⟨1⟩, ⟨10000000000⟩, 1⟩ ∈ a.pulled pull := by decide +kernel
    have hp' : ⟨Sample.message 1 none, ⟨2⟩, ⟨10000000000⟩, 2⟩ ∈
        ((a.step pull).run between).pulled pull := by decide +kernel
    have hids : ((posted (before ++ pull :: between)).map (·.id)).Nodup := by decide +kernel
    have hends := ((lease_and_backoff_exclusivity Sample.info Sample.topic ∅ .new none before pull
      between pull hids).1 _ hp).2 _ hp' rfl
    exact ⟨_, hp, _, hp', rfl, hends⟩
  · intro info before nack between a
    have hp : ⟨Sample.message 1 none, ⟨1⟩, ⟨10000000000⟩, 1⟩ ∈ a.failing nack.2 := by
      decide +kernel
    have hp' : ⟨Sample.message 1 none, ⟨2⟩, ⟨10000000000⟩, 2⟩ ∈
        ((a.step nack).run between).pulled pull := by decide +kernel
    have hids : ((posted (before ++ nack :: between)).map (·.id)).Nodup := by decide +kernel
    have hends := (lease_and_backoff_exclusivity info Sample.topic ∅ .new none before nack
      between pull hids).2 _ hp ⟨.fromSecs 1, .fromSecs 60⟩ (by decide +kernel) (by decide +kernel)
      _ hp' rfl
    have htime : AckDeadline.new (nack.1.now + (RetryPolicy.mk (.fromSecs 1) (.fromSecs 60)
        ).calculateBackoff (nextAttempt a.deliveryAttempts (Sample.message 1 none).id)) =
        ⟨2000000000⟩ := by decide +kernel
    exact ⟨_, hp, _, hp', rfl, htime ▸ hends⟩

end SubscriptionActor

end Deltio
