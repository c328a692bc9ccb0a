import Deltio.Attempts
import Deltio.PushLoop

namespace Deltio

open Lib SubscriptionActor

namespace SubscriptionActor

/-- The message of a delivery is out of reach for pulls. -/
def Guarded (a : SubscriptionActor) (p : PulledMessage) : Prop :=
  ∃ deadline, a.Kept p.ackId p.message deadline

/-- It stays so unless an event ends the lease. -/
lemma Guarded.step {a : SubscriptionActor} (ht : a.Tracked) {p : PulledMessage} (h : a.Guarded p)
    {e : Env × ActorEvent} (he : ∀ q, a.outstanding.messages.get p.ackId = some q →
      ¬ e.2.EndsLease p.ackId q.deadline) : (a.step e).Guarded p := by
  obtain ⟨deadline, hkept⟩ := h
  cases hkept with
  | leased hleased =>
    have hlasts : ¬ e.2.EndsLease p.ackId deadline := by
      obtain ⟨q, hq, -, rfl⟩ := hleased
      exact he q hq
    exact ⟨_, hleased.step ht e hlasts⟩
  | settled hsettled => exact ⟨deadline, .settled (settled_step ht.sound hsettled e)⟩
  | ended hended => exact ⟨deadline, .ended (hended.step ht.sound e)⟩

lemma guarded_of_pulled {a : SubscriptionActor} (hs : a.Sound) {e : Env × ActorEvent}
    {p : PulledMessage} (hp : p ∈ a.pulled e) : (a.step e).Guarded p :=
  ⟨p.deadline, .leased (leased_of_pulled hs hp)⟩

/-- The message is acked, or there are no more pulls. -/
def Over (a : SubscriptionActor) (m : TopicMessage) : Prop := 0 < a.places.settled m ∨ a.Ended

lemma Over.step {a : SubscriptionActor} (hs : a.Sound) {m : TopicMessage} (h : a.Over m)
    (e : Env × ActorEvent) : (a.step e).Over m :=
  h.imp (fun h => settled_step hs h e) fun h => h.step hs e

lemma Over.guarded {a : SubscriptionActor} {p : PulledMessage} (h : a.Over p.message) :
    a.Guarded p := by
  rcases h with h | h
  · exact ⟨p.deadline, .settled h⟩
  · exact ⟨p.deadline, .ended h⟩

/-- Acking a guarded delivery settles its message for good. -/
lemma Guarded.over_of_acknowledge {a : SubscriptionActor} (hs : a.Sound) {p : PulledMessage}
    (h : a.Guarded p) (env : Env) :
    (a.step (env, .request (.acknowledgeMessages [p.ackId]))).Over p.message := by
  obtain ⟨deadline, hkept⟩ := h
  cases hkept with
  | leased hleased =>
    obtain ⟨q, hq, hmessage, -⟩ := hleased
    by_cases hdeleted : a.deleted = true
    · exact .inr ((show a.Ended from .inl hdeleted).step hs _)
    · have hid : p.ackId ∈ [p.ackId].filter a.outstanding.contains := by
        refine List.mem_filter.mpr ⟨List.mem_cons_self, ?_⟩
        rw [OutstandingMessageTracker.contains, HashMap.containsKey, hq]
        rfl
      rw [← hmessage]
      exact .inl (settled_of_acknowledge hq hdeleted hid)
  | settled hsettled => exact .inl (settled_step hs hsettled _)
  | ended hended => exact .inr (hended.step hs _)

lemma Guarded.not_mem_pulled {a : SubscriptionActor} (hs : a.Sound) {p : PulledMessage}
    (h : a.Guarded p) (hocc : a.places.occ a.route p.message ≤ 1) (pull : Env × ActorEvent) :
    p.message ∉ (a.pulled pull).map (·.message) := by
  obtain ⟨deadline, hkept⟩ := h
  exact hkept.not_mem_pulled hs hocc pull

lemma nodup_messages_pulled {a : SubscriptionActor} (hs : a.Sound) (env : Env)
    (maxCount maxOutstanding : UInt16)
    (hocc : ∀ m, (a.step (env, .request (.pullMessages maxCount maxOutstanding))).places.occ
      (a.step (env, .request (.pullMessages maxCount maxOutstanding))).route m ≤ 1) :
    ((a.pulled (env, .request (.pullMessages maxCount maxOutstanding))).map (·.message)).Nodup := by
  set e : Env × ActorEvent := (env, .request (.pullMessages maxCount maxOutstanding)) with he
  refine List.nodup_iff_count_le_one.mpr fun m => ?_
  have hheld := (moves_step hs (e := e) id id).held m
  have hleased : (a.step e).places.leased.count m = (a.step e).outstanding.held.count m :=
    Multiset.coe_count _ _
  have hfailing : ((a.failing e.2).map (·.message)).count m = 0 := rfl
  have hacked : ((a.acked e.2).map (·.message)).count m = 0 := rfl
  have hone := hocc m
  unfold Places.occ at hone
  omega

structure Empty (a₀ : SubscriptionActor) : Prop where
  tracked : a₀.Tracked
  occ : ∀ es m, (a₀.run es).places.occ (a₀.run es).route m ≤ (posted es).count m

lemma empty_start (info : SubscriptionInfo) (topic : Topic)
    (pushRegistry : PushSubscriptionsRegistry) (delegate : SubscriptionManagerState)
    (topicManager : Option TopicManagerRef) :
    (start info topic pushRegistry delegate topicManager).Empty where
  tracked := tracked_start info topic pushRegistry delegate topicManager
  occ := occ_le_posted info topic pushRegistry delegate topicManager

/-- With distinct IDs, a message is nowhere twice. -/
lemma Empty.occ_le_one {a₀ : SubscriptionActor} (h : a₀.Empty) {es : List (Env × ActorEvent)}
    (hids : ((posted es).map (·.id)).Nodup) (m : TopicMessage) :
    (a₀.run es).places.occ (a₀.run es).route m ≤ 1 :=
  (h.occ es m).trans (List.nodup_iff_count_le_one.mp (List.Nodup.of_map _ hids) m)

lemma Empty.mem_posted {a₀ : SubscriptionActor} (h : a₀.Empty) {es : List (Env × ActorEvent)}
    {pull : Env × ActorEvent} {p : PulledMessage} (hp : p ∈ (a₀.run es).pulled pull) :
    p.message ∈ posted es := by
  have hsound : (a₀.run es).Sound := (h.tracked.run es).sound
  have hnone : posted [pull] = [] := by simp [posted, (not_discards_of_mem_pulled hp).2]
  have hle := h.occ (es ++ [pull]) p.message
  rw [posted_append, hnone, List.append_nil, run_append] at hle
  have hleased : 0 < ((a₀.run es).step pull).places.leased.count p.message :=
    Multiset.count_pos.mpr (mem_held_of_pulled hsound.fresh hp)
  refine List.count_pos_iff.mp (lt_of_lt_of_le hleased (le_trans ?_ hle))
  change _ ≤ ((a₀.run es).step pull).places.occ _ p.message
  unfold Places.occ
  omega

end SubscriptionActor

namespace PushTasks

variable {ι : Type*} {engine : Base64Engine} {a₀ : SubscriptionActor}
  {maxConcurrency : ℕ} {s s' : PushTasks ι}

/-- The message is in the page of a task, and its dispatch has not been settled. -/
def Unsettled (s : PushTasks ι) (i : ι) (p : PulledMessage) : Prop :=
  ∃ t, s.task i = .dispatching t ∧ p ∈ t.page ∧ (t.stage p).isSettled = false

/-- What else happens to the subscription brings new messages only, and does not end the lease
of a message that is being pushed. -/
def Undisturbed (a₀ : SubscriptionActor) (s : PushTasks ι) : PushEvent ι → Prop
  | .other e => ((posted (s.history ++ [e])).map (·.id)).Nodup ∧
    ∀ i p, s.Unsettled i p → ∀ q, (s.actor a₀).outstanding.messages.get p.ackId = some q →
      ¬ e.2.EndsLease p.ackId q.deadline
  | _ => True

lemma actor_of_history {e : Env × ActorEvent} (h : s'.history = s.history ++ [e]) :
    s'.actor a₀ = (s.actor a₀).step e := by
  rw [actor, h, run_append]
  rfl

/-- Unsettled messages are out of reach for pulls, and no message is unsettled twice.  Acked
messages are over. -/
structure Exclusive (a₀ : SubscriptionActor) (s : PushTasks ι) : Prop where
  ids : ((posted s.history).map (·.id)).Nodup
  guarded : ∀ i p, s.Unsettled i p → (s.actor a₀).Guarded p
  known : ∀ i p, s.Unsettled i p → p.message ∈ posted s.history
  issued : ∀ i p, s.Unsettled i p → p.ackId.value < (s.actor a₀).nextAckId.value
  ackIds : ∀ i p j q, s.Unsettled i p → s.Unsettled j q → p.ackId = q.ackId → i = j ∧ p = q
  messages : ∀ i p j q, s.Unsettled i p → s.Unsettled j q → p.message = q.message → i = j ∧ p = q
  acked : ∀ i p, (p, .acknowledgeMessages [p.ackId]) ∈ s.settles i →
    (s.actor a₀).Over p.message ∧ p.message ∈ posted s.history

lemma Exclusive.start : (start : PushTasks ι).Exclusive a₀ where
  ids := List.nodup_nil
  guarded := by simp [Unsettled, PushTasks.start]
  known := by simp [Unsettled, PushTasks.start]
  issued := by simp [Unsettled, PushTasks.start]
  ackIds := by simp [Unsettled, PushTasks.start]
  messages := by simp [Unsettled, PushTasks.start]
  acked := by simp [PushTasks.start]

lemma Exclusive.of_history_eq (h : s.Exclusive a₀) (hhistory : s'.history = s.history)
    (hsettles : s'.settles = s.settles)
    (hunsettled : ∀ j q, s'.Unsettled j q → s.Unsettled j q) : s'.Exclusive a₀ := by
  have hactor : s'.actor a₀ = s.actor a₀ := by rw [actor, hhistory, actor]
  refine ⟨?_, ?_, ?_, ?_, ?_, ?_, ?_⟩
  · rw [hhistory]
    exact h.ids
  · intro i p hp
    rw [hactor]
    exact h.guarded i p (hunsettled i p hp)
  · intro i p hp
    rw [hhistory]
    exact h.known i p (hunsettled i p hp)
  · intro i p hp
    rw [hactor]
    exact h.issued i p (hunsettled i p hp)
  · intro i p j q hp hq
    exact h.ackIds i p j q (hunsettled i p hp) (hunsettled j q hq)
  · intro i p j q hp hq
    exact h.messages i p j q (hunsettled i p hp) (hunsettled j q hq)
  · rw [hactor, hhistory, hsettles]
    exact h.acked

/-- The actor handles an event that leaves the leases of unsettled messages alone. -/
lemma Exclusive.handle (h : s.Exclusive a₀) (hempty : a₀.Empty) {e : Env × ActorEvent}
    (hhistory : s'.history = s.history ++ [e])
    (hids : ((posted (s.history ++ [e])).map (·.id)).Nodup)
    (hunsettled : ∀ j q, s'.Unsettled j q → s.Unsettled j q)
    (hleases : ∀ j p, s'.Unsettled j p → ∀ q,
      (s.actor a₀).outstanding.messages.get p.ackId = some q → ¬ e.2.EndsLease p.ackId q.deadline)
    (hover : ∀ i p, (p, .acknowledgeMessages [p.ackId]) ∈ s'.settles i →
      (p, .acknowledgeMessages [p.ackId]) ∈ s.settles i ∨
        (s'.actor a₀).Over p.message ∧ p.message ∈ posted s.history) : s'.Exclusive a₀ := by
  have hactor : s'.actor a₀ = (s.actor a₀).step e := actor_of_history hhistory
  have htracked : (s.actor a₀).Tracked := hempty.tracked.run _
  have hposted : posted s.history ⊆ posted s'.history := by
    rw [hhistory, posted_append]
    exact List.subset_append_left _ _
  refine ⟨?_, ?_, ?_, ?_, ?_, ?_, ?_⟩
  · rw [hhistory]
    exact hids
  · intro i p hp
    rw [hactor]
    exact (h.guarded i p (hunsettled i p hp)).step htracked (hleases i p hp)
  · intro i p hp
    exact hposted (h.known i p (hunsettled i p hp))
  · intro i p hp
    rw [hactor]
    exact (h.issued i p (hunsettled i p hp)).trans_le (Streams.nextAckId_le_step _ e)
  · intro i p j q hp hq
    exact h.ackIds i p j q (hunsettled i p hp) (hunsettled j q hq)
  · intro i p j q hp hq
    exact h.messages i p j q (hunsettled i p hp) (hunsettled j q hq)
  · intro i p hp
    rcases hover i p hp with hold | ⟨hover, hknown⟩
    · obtain ⟨hover, hknown⟩ := h.acked i p hold
      rw [hactor]
      exact ⟨hover.step htracked.sound e, hposted hknown⟩
    · exact ⟨hover, hposted hknown⟩

section

variable [DecidableEq ι]

lemma unsettled_setTask {i j : ι} {task : TaskState} {q : PulledMessage}
    (h : (s.setTask i task).Unsettled j q) : s.Unsettled j q ∨ j = i ∧ ∃ t,
      task = .dispatching t ∧ q ∈ t.page ∧ (t.stage q).isSettled = false := by
  obtain ⟨t, htask, hpage, hstage⟩ := h
  change Function.update s.task i task j = _ at htask
  by_cases hj : j = i
  · rw [hj, Function.update_self] at htask
    exact .inr ⟨hj, t, htask, hpage, hstage⟩
  · rw [Function.update_of_ne hj] at htask
    exact .inl ⟨t, htask, hpage, hstage⟩

lemma unsettled_of_goesOn {i j : ι} {t u : PushTask} {q : PulledMessage}
    (htask : s.task i = .dispatching t) (hpage : u.page = t.page)
    (hstage : ∀ p, (u.stage p).isSettled = false → (t.stage p).isSettled = false)
    (h : (s.setTask i (.dispatching u)).Unsettled j q) : s.Unsettled j q := by
  rcases unsettled_setTask h with h | ⟨rfl, u', hu', hq, hsettled⟩
  · exact h
  · cases hu'
    exact ⟨t, htask, hpage ▸ hq, hstage q hsettled⟩

lemma unsettled_of_gone {i j : ι} {task : TaskState} {q : PulledMessage}
    (hgone : ∀ t, task ≠ .dispatching t) (h : (s.setTask i task).Unsettled j q) :
    s.Unsettled j q := by
  rcases unsettled_setTask h with h | ⟨-, t, ht, -⟩
  · exact h
  · exact absurd ht (hgone t)

lemma posted_pullEvent (env : Env) : posted [pullEvent maxConcurrency env] = [] := rfl

lemma ackId_mem_pulled {a : SubscriptionActor} {e : Env × ActorEvent} {p : PulledMessage}
    (hp : p ∈ a.pulled e) :
    a.nextAckId.value ≤ p.ackId.value ∧ p.ackId.value < (a.step e).nextAckId.value := by
  have hmem : p.ackId.value ∈ (a.pulled e).map fun p => p.ackId.value :=
    List.mem_map_of_mem hp
  rw [a.ackIds_pulled e, List.mem_range'_1] at hmem
  rwa [a.nextAckId_step e]

lemma Exclusive.pull (h : s.Exclusive a₀) (hempty : a₀.Empty) (i : ι) (env : Env)
    (config : PushConfig) :
    ((s.handle (pullEvent maxConcurrency env)).setTask i (.dispatching
      (.start maxConcurrency config
        ((s.actor a₀).pulled (pullEvent maxConcurrency env))))).Exclusive a₀ := by
  set e := pullEvent maxConcurrency env with he
  set s' := (s.handle e).setTask i (.dispatching
    (.start maxConcurrency config ((s.actor a₀).pulled e))) with hs'
  have hposted : posted (s.history ++ [e]) = posted s.history := by
    rw [posted_append, posted_pullEvent, List.append_nil]
  have hsound : (s.actor a₀).Sound := (hempty.tracked.run _).sound
  have hactor : s'.actor a₀ = (s.actor a₀).step e := actor_of_history rfl
  have hhandled : (s.handle e).Exclusive a₀ :=
    h.handle hempty rfl (by rw [hposted]; exact h.ids) (fun _ _ hq => hq)
      (fun _ _ _ _ _ hends => hends) (fun _ _ hp => .inl hp)
  have hunsettled : ∀ j q, s'.Unsettled j q →
      s.Unsettled j q ∨ j = i ∧ q ∈ (s.actor a₀).pulled e := by
    intro j q hq
    rcases unsettled_setTask hq with hq | ⟨hj, t, ht, hpage, -⟩
    · exact .inl hq
    · cases ht
      exact .inr ⟨hj, hpage⟩
  have hold : ∀ j p, s.Unsettled j p → ∀ q ∈ (s.actor a₀).pulled e,
      p.ackId ≠ q.ackId ∧ p.message ≠ q.message := by
    intro j p hp q hq
    have hlt := h.issued j p hp
    have hge := (ackId_mem_pulled hq).1
    have hout := (h.guarded j p hp).not_mem_pulled hsound (hempty.occ_le_one h.ids _) e
    refine ⟨fun hid => ?_, fun hmessage => hout ?_⟩
    · rw [hid] at hlt
      omega
    · rw [hmessage]
      exact List.mem_map_of_mem hq
  have hnewIds : ∀ p ∈ (s.actor a₀).pulled e, ∀ q ∈ (s.actor a₀).pulled e,
      p.ackId = q.ackId → p = q := by
    have hnodup : (((s.actor a₀).pulled e).map fun p => p.ackId.value).Nodup := by
      rw [(s.actor a₀).ackIds_pulled e]
      exact List.nodup_range'
    intro p hp q hq hid
    exact List.inj_on_of_nodup_map hnodup hp hq (congrArg AckId.value hid)
  have hnewMessages : ∀ p ∈ (s.actor a₀).pulled e, ∀ q ∈ (s.actor a₀).pulled e,
      p.message = q.message → p = q := by
    have hids : ((posted (s.history ++ [e])).map (·.id)).Nodup := by
      rw [hposted]
      exact h.ids
    have hnodup := nodup_messages_pulled hsound env (batchSize maxConcurrency) 0 fun m => by
      have hone := hempty.occ_le_one hids m
      rwa [run_append] at hone
    intro p hp q hq hmessage
    exact List.inj_on_of_nodup_map hnodup hp hq hmessage
  refine ⟨hhandled.ids, ?_, ?_, ?_, ?_, ?_, hhandled.acked⟩
  · intro j p hp
    rcases hunsettled j p hp with hp | ⟨-, hp⟩
    · exact hhandled.guarded j p hp
    · rw [hactor]
      exact guarded_of_pulled hsound hp
  · intro j p hp
    rcases hunsettled j p hp with hp | ⟨-, hp⟩
    · exact hhandled.known j p hp
    · change p.message ∈ posted (s.history ++ [e])
      rw [hposted]
      exact hempty.mem_posted hp
  · intro j p hp
    rcases hunsettled j p hp with hp | ⟨-, hp⟩
    · exact hhandled.issued j p hp
    · rw [hactor]
      exact (ackId_mem_pulled hp).2
  · intro j p k q hp hq hid
    rcases hunsettled j p hp with hpold | ⟨hj, hpnew⟩
    · rcases hunsettled k q hq with hqold | ⟨-, hqnew⟩
      · exact h.ackIds j p k q hpold hqold hid
      · exact absurd hid (hold j p hpold q hqnew).1
    · rcases hunsettled k q hq with hqold | ⟨hk, hqnew⟩
      · exact absurd hid.symm (hold k q hqold p hpnew).1
      · exact ⟨hj.trans hk.symm, hnewIds p hpnew q hqnew hid⟩
  · intro j p k q hp hq hmessage
    rcases hunsettled j p hp with hpold | ⟨hj, hpnew⟩
    · rcases hunsettled k q hq with hqold | ⟨-, hqnew⟩
      · exact h.messages j p k q hpold hqold hmessage
      · exact absurd hmessage (hold j p hpold q hqnew).2
    · rcases hunsettled k q hq with hqold | ⟨hk, hqnew⟩
      · exact absurd hmessage.symm (hold k q hqold p hpnew).2
      · exact ⟨hj.trans hk.symm, hnewMessages p hpnew q hqnew hmessage⟩

/-- A dispatch acks or nacks its own message, and nothing else. -/
lemma Exclusive.settle (h : s.Exclusive a₀) (hempty : a₀.Empty) {i : ι} {t : PushTask}
    {p : PulledMessage} {result : PushResult} (env : Env) (htask : s.task i = .dispatching t)
    (hpage : p ∈ t.page) (hstage : t.stage p = .answered result)
    (hhistory : s'.history = s.history ++ [(env, .request (settleRequest p result))])
    (htask' : s'.task = Function.update s.task i (.dispatching (t.setStage p (.settled result))))
    (hsettles : s'.settles = Function.update s.settles i
      (s.settles i ++ [(p, settleRequest p result)])) : s'.Exclusive a₀ := by
  have hwas : s.Unsettled i p := ⟨t, htask, hpage, by rw [hstage]; rfl⟩
  have hsound : (s.actor a₀).Sound := (hempty.tracked.run _).sound
  have hunsettled : ∀ j q, s'.Unsettled j q → s.Unsettled j q ∧ ¬ (j = i ∧ q = p) := by
    rintro j q ⟨t', ht', hq, hsettled⟩
    rw [htask'] at ht'
    by_cases hj : j = i
    · subst hj
      rw [Function.update_self] at ht'
      cases ht'
      have hne : q ≠ p := by
        rintro rfl
        rw [PushTask.stage_setStage_self] at hsettled
        cases hsettled
      rw [PushTask.stage_setStage_of_ne t hne] at hsettled
      exact ⟨⟨t, htask, hq, hsettled⟩, fun hboth => hne hboth.2⟩
    · rw [Function.update_of_ne hj] at ht'
      exact ⟨⟨t', ht', hq, hsettled⟩, fun hboth => hj hboth.1⟩
  have hnone : posted [(env, ActorEvent.request (settleRequest p result))] = [] := by
    unfold settleRequest
    split_ifs <;> rfl
  refine h.handle hempty hhistory ?_ (fun j q hq => (hunsettled j q hq).1) ?_ ?_
  · rw [posted_append, hnone, List.append_nil]
    exact h.ids
  · intro j q hq q' hq' hends
    obtain ⟨hq, hne⟩ := hunsettled j q hq
    -- only a nack of its own ack ID would end its lease
    unfold settleRequest at hends
    split_ifs at hends
    · exact hends
    · have hid : q.ackId = p.ackId := by
        have hmem := List.mem_singleton.mp hends
        exact congrArg DeadlineModification.ackId hmem
      exact hne (h.ackIds j q i p hq hwas hid)
  · intro j q hq
    rw [hsettles] at hq
    by_cases hj : j = i
    · rw [hj, Function.update_self, List.mem_append, List.mem_singleton] at hq
      rcases hq with hq | hq
      · exact .inl (hj ▸ hq)
      · obtain ⟨rfl, hrequest⟩ := Prod.mk.inj hq
        refine .inr ⟨?_, h.known i q hwas⟩
        rw [actor_of_history hhistory, ← hrequest]
        exact (h.guarded i q hwas).over_of_acknowledge hsound env
    · rw [Function.update_of_ne hj] at hq
      exact .inl hq

lemma Exclusive.step (h : s.Exclusive a₀) (hempty : a₀.Empty)
    (horderly : s.Orderly engine a₀ maxConcurrency)
    {e : PushEvent ι} (hundisturbed : s.Undisturbed a₀ e)
    (hstep : s.step engine a₀ maxConcurrency e = some s') : s'.Exclusive a₀ := by
  cases transition_of_step hstep with
  | other e =>
    exact h.handle hempty rfl hundisturbed.1 (fun _ _ hq => hq) hundisturbed.2
      fun _ _ hp => .inl hp
  | spawn htask => exact h.of_history_eq rfl rfl fun _ _ => unsettled_of_gone (by simp)
  | @pullFailed i env config htask hnone =>
    have hposted : posted (s.history ++ [pullEvent maxConcurrency env]) = posted s.history := by
      rw [posted_append, posted_pullEvent, List.append_nil]
    have hgone : ∀ j q, ((s.handle (pullEvent maxConcurrency env)).setTask i .returned).Unsettled
        j q → s.Unsettled j q := fun j q hq =>
      unsettled_of_gone (s := s.handle (pullEvent maxConcurrency env)) (by simp) hq
    exact h.handle hempty rfl (by rw [hposted]; exact h.ids) hgone
      (fun _ _ _ _ _ hends => hends) fun _ _ hp => .inl hp
  | pull htask => exact h.pull hempty _ _ _
  | @next i t p jobs htask hnext =>
    have hfresh : t.stage p = .queued := by
      have ht : t.Orderly engine maxConcurrency a₀.info.name (s.requests i) (s.responses i)
          (s.settles i) := by
        have hi := horderly i
        rwa [htask] at hi
      rw [ht.queued]
      obtain ⟨hqueued, -⟩ := Jobs.next_eq_some hnext
      have hnodup := ht.nodup
      rw [← ht.order, hqueued] at hnodup
      intro hmem
      exact (List.nodup_append.mp hnodup).2.2 p hmem p List.mem_cons_self rfl
    refine h.of_history_eq rfl rfl fun j q hq => ?_
    refine unsettled_of_goesOn (i := i)
      (u := { t.setStage p .sending with jobs := jobs, pausing := true }) htask rfl ?_ hq
    intro q hq
    by_cases hqp : q = p
    · rw [hqp, hfresh]
      rfl
    · rwa [PushTask.stage_setStage_of_ne t hqp] at hq
  | resume htask =>
    exact h.of_history_eq rfl rfl fun _ _ => unsettled_of_goesOn htask rfl fun _ hq => hq
  | @respond i t p result htask hstage =>
    refine h.of_history_eq rfl rfl fun j q hq => ?_
    refine unsettled_of_goesOn (i := i) (u := t.setStage p (.answered result)) htask rfl ?_ hq
    intro q hq
    by_cases hqp : q = p
    · rw [hqp, hstage]
      rfl
    · rwa [PushTask.stage_setStage_of_ne t hqp] at hq
  | @settle i t p env result htask hstage =>
    have hpage : p ∈ t.page := by
      have ht : t.Orderly engine maxConcurrency a₀.info.name (s.requests i) (s.responses i)
          (s.settles i) := by
        have hi := horderly i
        rwa [htask] at hi
      rw [← ht.order]
      refine List.mem_append_left _ ?_
      by_contra hnot
      rw [(ht.queued p).mpr hnot] at hstage
      cases hstage
    exact h.settle hempty env htask hpage hstage rfl rfl rfl
  | release htask hstage hrelease =>
    exact h.of_history_eq rfl rfl fun _ _ => unsettled_of_goesOn htask rfl fun _ hq => hq
  | finish htask hqueued hrunning =>
    exact h.of_history_eq rfl rfl fun _ _ => unsettled_of_gone (by simp)
  | cancel hdeleted => exact h.of_history_eq rfl rfl fun _ _ => unsettled_of_gone (by simp)

end

/-- While leases last and message IDs are distinct, no ack ID and no message is in the hands of
two tasks at once, no pull returns a message that is being pushed, and a message that an endpoint
has taken is never pulled again. -/
theorem pushed_messages_exclusive [DecidableEq ι] (engine : Base64Engine)
    (info : SubscriptionInfo) (topic : Topic) (pushRegistry : PushSubscriptionsRegistry)
    (delegate : SubscriptionManagerState) (topicManager : Option TopicManagerRef)
    (maxConcurrency : ℕ) (es : List (PushEvent ι))
    (s : PushTasks ι) :
    let a₀ := SubscriptionActor.start info topic pushRegistry delegate topicManager
    start.run engine a₀ maxConcurrency es = some s →
    Machine.Along (step engine a₀ maxConcurrency) (Undisturbed a₀) start es →
    (∀ i p j q, s.Unsettled i p → s.Unsettled j q → p.ackId = q.ackId → i = j ∧ p = q) ∧
    (∀ i p j q, s.Unsettled i p → s.Unsettled j q → p.message.id = q.message.id →
      i = j ∧ p = q) ∧
    (∀ i p, s.Unsettled i p → ∀ pull, ∀ q ∈ (s.actor a₀).pulled pull,
      q.message.id ≠ p.message.id) ∧
    ∀ i p, (p, .acknowledgeMessages [p.ackId]) ∈ s.settles i → ∀ pull,
      ∀ q ∈ (s.actor a₀).pulled pull, q.message.id ≠ p.message.id := by
  intro a₀ hrun hundisturbed
  have hempty : a₀.Empty := empty_start info topic pushRegistry delegate topicManager
  obtain ⟨-, h⟩ : s.Orderly engine a₀ maxConcurrency ∧ s.Exclusive a₀ :=
    hundisturbed.preserves (I := fun s => s.Orderly engine a₀ maxConcurrency ∧ s.Exclusive a₀) hrun
      ⟨.start, .start⟩ fun u e v hu hc hstep =>
        ⟨hu.1.step hstep, hu.2.step hempty hu.1 hc hstep⟩
  have hsound : (s.actor a₀).Sound := (hempty.tracked.run _).sound
  have hpulled : ∀ p, p.message ∈ posted s.history → (s.actor a₀).Guarded p → ∀ pull,
      ∀ q ∈ (s.actor a₀).pulled pull, q.message.id ≠ p.message.id := by
    intro p hknown hguarded pull q hq hid
    have hsame : q.message = p.message :=
      List.inj_on_of_nodup_map h.ids (hempty.mem_posted hq) hknown hid
    refine hguarded.not_mem_pulled hsound (hempty.occ_le_one h.ids _) pull ?_
    rw [← hsame]
    exact List.mem_map_of_mem hq
  refine ⟨h.ackIds, fun i p j q hp hq hid => ?_, fun i p hp => ?_, fun i p hp => ?_⟩
  · refine h.messages i p j q hp hq ?_
    exact List.inj_on_of_nodup_map h.ids (h.known i p hp) (h.known j q hq) hid
  · exact hpulled p (h.known i p hp) (h.guarded i p hp)
  · obtain ⟨hover, hknown⟩ := h.acked i p hp
    exact hpulled p hknown hover.guarded

/-- The first message is acked and the second is still in the hands of its task when another
task pulls: it gets neither. -/
theorem pushed_messages_exclusive_two_tasks : ∃ s,
    start.run .standard (Deltio.Sample.start Sample.info) 1
      (Sample.post :: (Sample.postsFirst ++ [.spawn 1, .pull 1 (Deltio.Sample.env 0)])) = some s ∧
    s.Unsettled 0 Sample.second ∧
    ∀ pull, ∀ q ∈ (s.actor (Deltio.Sample.start Sample.info)).pulled pull,
      q.message.id ≠ ⟨1⟩ ∧ q.message.id ≠ ⟨2⟩ := by
  have hreached : ∃ s, start.run .standard (Deltio.Sample.start Sample.info) 1
      (Sample.post :: (Sample.postsFirst ++ [.spawn 1, .pull 1 (Deltio.Sample.env 0)])) = some s ∧
      s.Unsettled 0 Sample.second ∧
      s.settles 0 = [(Sample.first, .acknowledgeMessages [⟨1⟩])] :=
    ⟨_, rfl, ⟨_, rfl, List.mem_cons_of_mem _ List.mem_cons_self, rfl⟩, rfl⟩
  obtain ⟨s, hrun, hunsettled, hsettles⟩ := hreached
  have hundisturbed : Machine.Along (step .standard (Deltio.Sample.start Sample.info) 1)
      (Undisturbed (Deltio.Sample.start Sample.info)) start
      (Sample.post :: (Sample.postsFirst ++ [.spawn 1, .pull 1 (Deltio.Sample.env 0)])) := by
    intro s' _
    refine ⟨⟨by decide +kernel, by simp [Unsettled, start]⟩, Machine.along_of_forall ?_ s'⟩
    simp [Sample.postsFirst, Undisturbed]
  obtain ⟨-, -, hpushed, hacked⟩ := pushed_messages_exclusive .standard Sample.info
    Deltio.Sample.topic ∅ .new none 1 _ s hrun hundisturbed
  refine ⟨s, hrun, hunsettled, fun pull q hq => ⟨?_, ?_⟩⟩
  · exact hacked 0 Sample.first (hsettles ▸ List.mem_cons_self) pull q hq
  · exact hpushed 0 Sample.second hunsettled pull q hq

end PushTasks

end Deltio
