import Deltio.Runs

namespace Deltio

open Lib Places

/-- Where a message can be.  The last four are final. -/
inductive Whereabouts where
  | backlog
  | ordered (key : String)
  | outstanding
  | retryQueue
  | acked
  | deadLettered
  | retentionDropped
  | seekDropped
deriving DecidableEq

def Whereabouts.terminal : Whereabouts → Bool
  | .acked | .deadLettered | .retentionDropped | .seekDropped => true
  | _ => false

namespace SubscriptionActor

/-- How often a message is there; for outstanding messages, under how many ack
IDs. -/
def occurrences (a : SubscriptionActor) : Whereabouts → TopicMessage → ℕ
  | .backlog, m => a.backlog.count m
  | .ordered key, m => (a.queueOf key).count m
  | .outstanding, m => (a.outstanding.messages.values.map PulledMessage.message).count m
  | .retryQueue, m => a.retryQueue.messages.values.count m
  | .acked, m => a.ledger.acked.count m
  | .deadLettered, m => a.ledger.deadLettered.count m
  | .retentionDropped, m => a.ledger.retentionDropped.count m
  | .seekDropped, m => a.ledger.seekDropped.count m

/-- The message is there once and nowhere else, and a queue it is in is that of
its own key. -/
structure ExactlyAt (a : SubscriptionActor) (m : TopicMessage) (w : Whereabouts) : Prop where
  once : a.occurrences w m = 1
  nowhereElse : ∀ w', w' ≠ w → a.occurrences w' m = 0
  ownKey : ∀ key, w = .ordered key → m.orderingKey = some key

def homes (route : TopicMessage → Option String) (m : TopicMessage) : List Whereabouts :=
  .backlog :: ((route m).toList.map .ordered ++
    [.outstanding, .retryQueue, .acked, .deadLettered, .retentionDropped, .seekDropped])

lemma sum_occurrences_homes (a : SubscriptionActor) (m : TopicMessage) :
    ((homes a.route m).map fun w => a.occurrences w m).sum = a.places.occ a.route m := by
  have hleased : (a.outstanding.messages.values.map PulledMessage.message).count m =
      a.places.leased.count m := (Multiset.coe_count m _).symm
  have hwaiting : a.retryQueue.messages.values.count m = a.places.waiting.count m :=
    (Multiset.coe_count m _).symm
  cases hr : a.route m with
  | none =>
    simp only [homes, hr, Option.toList, List.map_nil, List.nil_append, List.map_cons,
      List.sum_cons, List.sum_nil, occurrences, hleased, hwaiting, occ, own, List.count_nil]
    simp only [placesWith, Multiset.coe_count]
    omega
  | some key =>
    simp only [homes, hr, Option.toList, List.map_cons, List.map_nil, List.cons_append,
      List.nil_append, List.sum_cons, List.sum_nil, occurrences, hleased, hwaiting, occ, own]
    simp only [placesWith, Multiset.coe_count]
    omega

/-- A place that is no home of the message does not have it. -/
lemma occurrences_eq_zero {a : SubscriptionActor} (hk : a.places.Keyed a.route)
    {m : TopicMessage} {w : Whereabouts} (hw : w ∉ homes a.route m) : a.occurrences w m = 0 := by
  cases w with
  | ordered key =>
    refine List.count_eq_zero.mpr fun hm => hw ?_
    have hr : a.route m = some key := hk key m hm
    simp [homes, hr]
  | _ => simp [homes] at hw

lemma nodup_homes (route : TopicMessage → Option String) (m : TopicMessage) :
    (homes route m).Nodup := by
  cases hr : route m <;> simp [homes, hr]

/-- Natural numbers that add up to one: one of them is one. -/
lemma exists_eq_one_of_sum_eq_one {α : Type*} {f : α → ℕ} {l : List α} (hn : l.Nodup)
    (h : (l.map f).sum = 1) : ∃ x ∈ l, f x = 1 ∧ ∀ y ∈ l, y ≠ x → f y = 0 := by
  induction l with
  | nil => simp at h
  | cons x l ih =>
    obtain ⟨hx, hn⟩ := List.nodup_cons.mp hn
    rw [List.map_cons, List.sum_cons] at h
    rcases Nat.eq_zero_or_pos (f x) with h0 | hpos
    · obtain ⟨z, hz, hz1, hrest⟩ := ih hn (by omega)
      refine ⟨z, List.mem_cons_of_mem _ hz, hz1, fun y hy hne => ?_⟩
      rcases List.mem_cons.mp hy with rfl | hy
      · exact h0
      · exact hrest y hy hne
    · refine ⟨x, List.mem_cons_self, by omega, fun y hy hne => ?_⟩
      rcases List.mem_cons.mp hy with rfl | hy
      · exact absurd rfl hne
      · exact List.sum_eq_zero_iff_forall_eq_nat.mp (by omega) _ (List.mem_map_of_mem hy)

lemma exists_exactlyAt {a : SubscriptionActor} (hk : a.places.Keyed a.route) {m : TopicMessage}
    (h : a.places.occ a.route m = 1) : ∃ w, a.ExactlyAt m w := by
  rw [← sum_occurrences_homes] at h
  obtain ⟨w, hw, h1, hrest⟩ := exists_eq_one_of_sum_eq_one (nodup_homes a.route m) h
  refine ⟨w, h1, fun w' hne => ?_, ?_⟩
  · by_cases hw' : w' ∈ homes a.route m
    · exact hrest w' hw' hne
    · exact occurrences_eq_zero hk hw'
  · rintro key rfl
    have hr : a.route m = some key := hk key m (List.count_pos_iff.mp (by
      change 0 < a.occurrences (.ordered key) m
      omega))
    unfold route routeOf at hr
    split_ifs at hr
    exact hr

lemma occurrences_eq_zero_of_occ {a : SubscriptionActor} (hk : a.places.Keyed a.route)
    {m : TopicMessage} (h : a.places.occ a.route m = 0) (w : Whereabouts) :
    a.occurrences w m = 0 := by
  by_cases hw : w ∈ homes a.route m
  · rw [← sum_occurrences_homes] at h
    exact List.sum_eq_zero_iff_forall_eq_nat.mp h _ (List.mem_map_of_mem hw)
  · exact occurrences_eq_zero hk hw

lemma settled_of_terminal {a : SubscriptionActor} {m : TopicMessage} {w : Whereabouts}
    (hw : w.terminal = true) (h : 0 < a.occurrences w m) : 0 < a.places.settled m := by
  cases w with
  | acked | deadLettered | retentionDropped | seekDropped =>
    simp only [occurrences] at h
    simp only [settled, placesWith, Multiset.coe_count]
    omega
  | _ => simp [Whereabouts.terminal] at hw

section

variable (info : SubscriptionInfo) (topic : Topic) (pushRegistry : PushSubscriptionsRegistry)
  (delegate : SubscriptionManagerState) (topicManager : Option TopicManagerRef)

/-- In a run, a message occurs as often as it was posted and passed the filter. -/
lemma occ_run {es : List (Env × ActorEvent)} (hes : ∀ e ∈ es, ¬ e.2.discards) (m : TopicMessage) :
    (((start info topic pushRegistry delegate topicManager).run es).places.occ
      ((start info topic pushRegistry delegate topicManager).run es).route m) =
      ((posted es).filter
        ((start info topic pushRegistry delegate topicManager).run es).accepts).count m := by
  have hsound := sound_start info topic pushRegistry delegate topicManager
  obtain ⟨acts, hr⟩ := exists_simulatedRun hsound rfl hes
  rw [hr.route_eq, hr.accepts_eq, hr.steps.occ_eq hsound.keyed hr.noClear, hr.arrivals_eq,
    occ_start, Nat.zero_add]

/-- A settled message is not in the next pull: it would occur twice. -/
lemma not_mem_pulled_of_settled {es : List (Env × ActorEvent)}
    (hids : ((posted es).map (·.id)).Nodup) (pull : Env × ActorEvent) {m : TopicMessage}
    (hm : 0 < ((start info topic pushRegistry delegate topicManager).run es).places.settled m) :
    m ∉ (((start info topic pushRegistry delegate topicManager).run es).pulled pull).map
      (·.message) := by
  have hsound := (sound_start info topic pushRegistry delegate topicManager).run es
  have honce : (posted es).count m ≤ 1 :=
    List.nodup_iff_count_le_one.mp (List.Nodup.of_map _ hids) m
  have hocc := (occ_le_posted info topic pushRegistry delegate topicManager es m).trans honce
  exact not_mem_pulled_of_away hsound hocc (hm.trans_le (Nat.le_add_left _ _))

/-- Every accepted message is in exactly one place, every other message is
nowhere, and a settled message is in no later pull. -/
theorem message_conservation (es : List (Env × ActorEvent)) (hes : ∀ e ∈ es, ¬ e.2.discards)
    (hids : ((posted es).map (·.id)).Nodup) :
    let a := (start info topic pushRegistry delegate topicManager).run es
    (∀ m ∈ posted es, a.accepts m = true → ∃ w, a.ExactlyAt m w) ∧
    (∀ m ∈ posted es, a.accepts m = false → ∀ w, a.occurrences w m = 0) ∧
    ∀ (later : List (Env × ActorEvent)) (pull : Env × ActorEvent),
      (∀ e ∈ later, ¬ e.2.discards) → ((posted (es ++ later)).map (·.id)).Nodup →
      ∀ m w, w.terminal = true → 0 < a.occurrences w m →
        m ∉ ((a.run later).pulled pull).map (·.message) := by
  intro a
  have hsound : a.Sound := (sound_start info topic pushRegistry delegate topicManager).run es
  have hocc := occ_run info topic pushRegistry delegate topicManager hes
  refine ⟨fun m hm hacc => ?_, fun m hm hacc => ?_, ?_⟩
  · have hn : ((posted es).filter a.accepts).Nodup := (List.Nodup.of_map _ hids).filter _
    refine exists_exactlyAt hsound.keyed ?_
    rw [hocc, List.count_eq_one_of_mem hn (List.mem_filter.mpr ⟨hm, hacc⟩)]
  · refine occurrences_eq_zero_of_occ hsound.keyed ?_
    rw [hocc, List.count_eq_zero]
    intro hmem
    rw [(List.mem_filter.mp hmem).2] at hacc
    cases hacc
  · -- a settled message is still settled when the later pull comes
    intro later pull hlater hids' m w hw hpos
    obtain ⟨acts₀, hr₀⟩ := exists_simulatedRun
      (sound_start info topic pushRegistry delegate topicManager) rfl hes
    obtain ⟨acts, hr⟩ := exists_simulatedRun hsound hr₀.deleted hlater
    have hsettled := hr.steps.settled_le m
    have hrun := run_append (start info topic pushRegistry delegate topicManager) es later
    rw [show a.run later = (start info topic pushRegistry delegate topicManager).run (es ++ later)
      from hrun.symm]
    refine not_mem_pulled_of_settled info topic pushRegistry delegate topicManager hids' pull ?_
    rw [hrun]
    exact lt_of_lt_of_le (settled_of_terminal hw hpos) hsettled

end

/-- Two messages are posted and pulled, one is acked, and the subscription is
rewound: the other message is in exactly one place. -/
theorem message_conservation_after_seek :
    ∃ w, ((Sample.start Sample.info).run (Sample.events
      [.postMessages [Sample.message 1 (some "k"), Sample.message 2 none], .pullMessages 10 0,
        .acknowledgeMessages [⟨1⟩], .seek 0])).ExactlyAt (Sample.message 2 none) w := by
  refine (message_conservation Sample.info Sample.topic ∅ .new none (Sample.events
    [.postMessages [Sample.message 1 (some "k"), Sample.message 2 none], .pullMessages 10 0,
      .acknowledgeMessages [⟨1⟩], .seek 0]) ?_ (by decide)).1 _ ?_ (by decide +kernel)
  · simp [Sample.events, ActorEvent.discards]
  · simp [Sample.events, posted, ActorEvent.posted]

end SubscriptionActor

end Deltio
