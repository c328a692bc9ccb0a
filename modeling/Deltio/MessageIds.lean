import Deltio.PublishLog
import Mathlib.Data.List.Flatten

namespace Deltio

open Lib

def MessageId.toUInt64 (id : MessageId) : UInt64 := .ofNat id.value

namespace PublishLog

def assigned (l : PublishLog) : List MessageId := l.publishes.flatMap fun q => q.batch.map (·.id)

/-- The batches that were published while the subscription was attached. -/
def due (l : PublishLog) (s : Subscription) : List (List TopicMessage) :=
  (l.publishes.filter (s ∈ ·.attached)).map (·.batch)

def PostSucceeds (l : PublishLog) : ManagersEvent → Prop
  | .server (.posting _ (.post s)) => l.managers.server.isOpen s = true
  | _ => True

instance (l : PublishLog) : DecidablePred l.PostSucceeds
  | .server (.posting _ (.post _)) => inferInstanceAs (Decidable (_ = true))
  | .server (.posting _ (.join _)) | .server (.posting _ .finish) | .server (.create ..)
  | .server (.sendAttach _) | .server (.request ..) | .server (.topicRequest ..)
  | .server (.topicReceive ..) | .server (.receive _) | .server (.sendRemove _)
  | .server (.finishDelete _) | .server (.stop _) | .createTopic _ | .deleteTopic _
  | .topicGone _ => inferInstanceAs (Decidable True)

end PublishLog

namespace MessageId

/-- The number of the topic is above that of the message.  It is kept in 32 bits. -/
lemma toNat_toUInt64_new (topicInternalId : ℕ) {topicLocalMessageId : ℕ}
    (h : topicLocalMessageId < 2 ^ 32) :
    (new topicInternalId topicLocalMessageId).toUInt64.toNat =
      topicInternalId % 2 ^ 32 * 2 ^ 32 + topicLocalMessageId := by
  rw [toUInt64, new, UInt64.toNat_ofNat', ← Nat.shiftLeft_add_eq_or_of_lt h, Nat.shiftLeft_eq]
  dsimp only
  omega

end MessageId

/-- What is found in some lists only is counted in these. -/
lemma count_flatMap_filter {α β : Type} [DecidableEq β] {f : α → List β} {p : α → Bool} {b : β}
    {l : List α} (h : ∀ a ∈ l, b ∈ f a → p a = true) :
    (l.flatMap f).count b = ((l.filter p).flatMap f).count b := by
  induction l with
  | nil => rfl
  | cons a l ih =>
    have hrest := ih fun a' ha' => h a' (List.mem_cons_of_mem a ha')
    rw [List.flatMap_cons, List.count_append, hrest, List.filter_cons]
    split_ifs with ha
    · rw [List.flatMap_cons, List.count_append]
    · have hnone : b ∉ f a := fun hb => ha (h a List.mem_cons_self hb)
      rw [List.count_eq_zero.mpr hnone, Nat.zero_add]

namespace PublishLog

variable {l l' : PublishLog}

namespace Assigns

lemma length_assignedTo (h : l.Assigns) {t : Topic} (ht : t ∈ l.managers.createdTopics) :
    (l.assignedTo t).length = l.managers.nextMessageId t := by
  rw [h.ids t ht, List.length_map, List.length_range]

/-- Where an ID comes from. -/
lemma eq_new_of_mem (h : l.Assigns) {t : Topic} {id : MessageId} (hid : id ∈ l.assignedTo t) :
    t ∈ l.managers.createdTopics ∧ ∃ i < (l.assignedTo t).length,
      id = MessageId.new t.internalId (i + 1) := by
  have ht : t ∈ l.managers.createdTopics := by
    by_contra hnew
    rw [assignedTo, h.publishesOf_eq_nil hnew] at hid
    cases hid
  refine ⟨ht, ?_⟩
  rw [h.ids t ht] at hid
  obtain ⟨i, hi, rfl⟩ := List.mem_map.mp hid
  refine ⟨i, ?_, rfl⟩
  rw [h.length_assignedTo ht]
  exact List.mem_range.mp hi

/-- Within a topic the IDs grow. -/
lemma pairwise_assignedTo (h : l.Assigns) {t : Topic} (hlen : (l.assignedTo t).length < 2 ^ 32) :
    ((l.assignedTo t).map MessageId.toUInt64).Pairwise (· < ·) := by
  by_cases ht : t ∈ l.managers.createdTopics
  · rw [h.length_assignedTo ht] at hlen
    rw [h.ids t ht, List.map_map, List.pairwise_map]
    refine List.pairwise_lt_range.imp_of_mem fun {i j} hi hj hlt => ?_
    rw [List.mem_range] at hi hj
    simp only [Function.comp_apply]
    rw [UInt64.lt_iff_toNat_lt, MessageId.toNat_toUInt64_new _ (by omega),
      MessageId.toNat_toUInt64_new _ (by omega)]
    omega
  · rw [assignedTo, h.publishesOf_eq_nil ht]
    exact .nil

/-- Topics do not share IDs.  The last number of a topic may be zero in 32 bits, which no
other topic has. -/
lemma topic_eq (h : l.Assigns) (htopics : l.managers.createdTopics.length < 2 ^ 32)
    (hmessages : ∀ t, (l.assignedTo t).length < 2 ^ 32) {t t' : Topic} {id id' : MessageId}
    (hid : id ∈ l.assignedTo t) (hid' : id' ∈ l.assignedTo t')
    (heq : id.toUInt64 = id'.toUInt64) : t = t' := by
  obtain ⟨ht, i, hi, rfl⟩ := h.eq_new_of_mem hid
  obtain ⟨ht', i', hi', rfl⟩ := h.eq_new_of_mem hid'
  have hlen := hmessages t
  have hlen' := hmessages t'
  have hnat := congrArg UInt64.toNat heq
  rw [MessageId.toNat_toUInt64_new _ (by omega), MessageId.toNat_toUInt64_new _ (by omega)] at hnat
  have hbounds := h.live.topics.counted.bounds ht
  have hbounds' := h.live.topics.counted.bounds ht'
  have hnext := h.live.topics.counted.next
  exact h.live.topics.counted.eq_of_id ht ht' (by omega)

lemma nodup_assigned (h : l.Assigns) (htopics : l.managers.createdTopics.length < 2 ^ 32)
    (hmessages : ∀ t, (l.assignedTo t).length < 2 ^ 32) :
    (l.assigned.map MessageId.toUInt64).Nodup := by
  have hmem : ∀ q ∈ l.publishes, ∀ id ∈ q.batch.map (·.id), id ∈ l.assignedTo q.topic := by
    intro q hq id hid
    exact List.mem_flatMap.mpr ⟨q, List.mem_filter.mpr ⟨hq, decide_eq_true rfl⟩, hid⟩
  refine List.nodup_iff_count_le_one.mpr fun v => ?_
  by_cases hv : v ∈ l.assigned.map MessageId.toUInt64
  · -- all publishes with this ID are of one topic
    obtain ⟨id, hid, rfl⟩ := List.mem_map.mp hv
    obtain ⟨q, hq, hid⟩ := List.mem_flatMap.mp hid
    have hcount : (l.assigned.map MessageId.toUInt64).count id.toUInt64 =
        ((l.assignedTo q.topic).map MessageId.toUInt64).count id.toUInt64 := by
      rw [assigned, assignedTo, List.map_flatMap, List.map_flatMap]
      refine count_flatMap_filter fun q' hq' hmem' => ?_
      obtain ⟨id', hid', heq⟩ := List.mem_map.mp hmem'
      refine decide_eq_true ?_
      exact h.topic_eq htopics hmessages (hmem q' hq' id' hid') (hmem q hq id hid) heq
    rw [hcount]
    have hnodup := (h.pairwise_assignedTo (hmessages q.topic)).imp fun hlt => UInt64.ne_of_lt hlt
    exact List.nodup_iff_count_le_one.mp hnodup _
  · rw [List.count_eq_zero.mpr hv]
    exact Nat.zero_le 1

end Assigns

end PublishLog

namespace Posting

def left (p : Posting) (s : Subscription) : List (List TopicMessage) :=
  if s ∈ p.attached ∧ p.fanOut.task s = .pending then [p.batch] else []

def Unfailed (p : Posting) : Prop := ∀ s, p.fanOut.task s ≠ .finished (.error .closed)

/-- An event of the posting that does not find a closed mailbox. -/
lemma left_step {p : Posting} (hp : p.Unfailed) {isOpen : Subscription → Bool} {e : FanOutEvent}
    (hopen : ∀ s, e = .post s → isOpen s = true) {f : FanOut}
    (hstep : p.fanOut.step p.attached isOpen p.batch e = some f) :
    Unfailed { p with fanOut := f } ∧ ∀ s, (if e = .post s then [p.batch] else []) ++
      (if f.returned.isSome then [] else left { p with fanOut := f } s) = p.left s := by
  obtain ⟨hrunning, htrans⟩ := FanOut.transition_of_step hstep
  -- the task of one subscription moves on, and is not pending after it
  have hmove : ∀ (s₀ : Subscription) (t : PostTask)
      {sent : Subscription → List (List TopicMessage)},
      t ≠ .pending → t ≠ .finished (.error .closed) →
      f = { p.fanOut with task := Function.update p.fanOut.task s₀ t, sent := sent } →
      Unfailed { p with fanOut := f } ∧ f.returned.isSome = false ∧
        ∀ s, left { p with fanOut := f } s = if s = s₀ then [] else p.left s := by
    rintro s₀ t sent hpending hfailed rfl
    refine ⟨fun s => ?_, hrunning, fun s => ?_⟩
    · dsimp only
      rw [Function.update_apply]
      split_ifs
      · exact hfailed
      · exact hp s
    · simp only [left, Function.update_apply]
      by_cases hs : s = s₀
      · simp only [hs, if_true, hpending, and_false, if_false]
      · simp only [hs, if_false]
  cases htrans with
  | @post s₀ hs₀ htask _ =>
    obtain ⟨hunfailed, hret, hleft⟩ := hmove s₀ (.finished (.ok ())) (by simp) (by simp) rfl
    refine ⟨hunfailed, fun s => ?_⟩
    rw [hret, if_neg Bool.false_ne_true, hleft]
    by_cases hs : s = s₀
    · rw [if_pos hs, hs, if_pos rfl, left, if_pos ⟨hs₀, htask⟩, List.append_nil]
    · rw [if_neg hs, if_neg fun he => hs (FanOutEvent.post.inj he).symm, List.nil_append]
  | @fail s₀ _ _ hclosed =>
    rw [hopen s₀ rfl] at hclosed
    cases hclosed
  | @join s₀ hs₀ htask =>
    obtain ⟨hunfailed, hret, hleft⟩ := hmove s₀ .joined (by simp) (by simp) rfl
    refine ⟨hunfailed, fun s => ?_⟩
    simp only [hret, Bool.false_eq_true, if_false, hleft, reduceCtorEq, List.nil_append]
    split_ifs with hs
    · rw [hs, left, if_neg (fun h => by rw [htask] at h; cases h.2)]
    · rfl
  | @abort s₀ _ htask => exact absurd htask (hp s₀)
  | finish hall =>
    refine ⟨hp, fun s => ?_⟩
    have hnone : p.left s = [] := by
      refine if_neg ?_
      rintro ⟨hs, hpending⟩
      rw [hall s hs] at hpending
      cases hpending
    rw [hnone]
    rfl

end Posting

namespace Managers

variable {w w' : Managers}

def pending (w : Managers) (s : Subscription) : List (List TopicMessage) :=
  ((w.server.topics s.topic).posting.map (·.left s)).getD []

lemma addressed_step (h : w.server.Addressed) {e : ManagersEvent} (hstep : w.step e = some w') :
    w'.server.Addressed := by
  cases transition_of_step hstep with
  | createTopic => exact h.setTopic (by simp) (fun _ hs => absurd hs List.not_mem_nil) (by simp)
  | @deleteTopic t actor _ _ hactor =>
    refine h.setTopic (h.requests t) ?_ (h.posting t)
    rw [hactor, TopicActor.delete]
    split_ifs
    · exact h.attached t
    · exact fun _ hs => absurd hs List.not_mem_nil
  | topicGone => exact h.setSubscription _ (by simp)
  | server _ hserver => exact h.step hserver

/-- A topic posts its own publishes to its own subscriptions. -/
lemma topic_of_attached (h : w.server.Addressed) {e : ManagersEvent} {q : Publish}
    (hq : q ∈ w.publishOf e) {s : Subscription} (hs : s ∈ q.attached) : s.topic = q.topic := by
  unfold publishOf at hq
  split at hq
  · next t publishTime publishInstant =>
    split at hq
    · rw [List.mem_singleton.mp hq] at hs ⊢
      exact h.attached t s hs
    · cases hq
  · cases hq

/-- A batch reaches the mailbox of a subscription from its topic. -/
lemma deliveredBy_eq_nil (h : w.server.Addressed) {e : ManagersEvent} (hstep : w.step e = some w')
    {s : Subscription} (hne : ∀ e', e ≠ .server (.posting s.topic e')) :
    w.deliveredBy s e = [] := by
  unfold deliveredBy
  split
  · next t s' =>
    refine if_neg ?_
    rintro ⟨rfl, -⟩
    cases transition_of_step hstep with
    | server _ hserver =>
      cases Server.transition_of_step hserver with
      | @posting _ _ p f hposting _ hfan =>
        have htopic := h.posting t p hposting s' (FanOut.mem_of_post hfan)
        exact hne (.post s') (by rw [htopic])
  · rfl

lemma posting_eq_of_step {e : ManagersEvent} (hstep : w.step e = some w') (h : w.LiveTopics)
    {t : Topic} (hnone : t ∉ w.createdTopics → (w.server.topics t).posting = none)
    (hreceive : ∀ publishTime publishInstant,
      e ≠ .server (.topicReceive t publishTime publishInstant))
    (hposting : ∀ e', e ≠ .server (.posting t e')) :
    (w'.server.topics t).posting = (w.server.topics t).posting := by
  rcases posting_unchanged hstep hreceive hposting with hsame | ⟨hnone', topicManager, hcreate⟩
  · exact hsame
  · -- the topic is new
    obtain ⟨-, ht, -⟩ := TopicManager.createTopic_eq_ok hcreate
    have hnew : t ∉ w.createdTopics := h.counted.not_mem (by rw [ht])
    rw [hnone', hnone hnew]

end Managers

namespace PublishLog

variable {l l' : PublishLog}

/-- A subscription has got every batch that was published while it was attached, up to the
one that its topic is posting. -/
structure Served (l : PublishLog) : Prop where
  assigns : l.Assigns
  returns : l.Returns
  addressed : l.managers.server.Addressed
  attached : ∀ q ∈ l.publishes, ∀ s ∈ q.attached, s.topic = q.topic
  unfailed : ∀ t p, (l.managers.server.topics t).posting = some p → p.Unfailed
  received : ∀ s, l.received s ++ l.managers.pending s = l.due s

lemma due_step {e : ManagersEvent} (h : l.step e = some l') (s : Subscription) :
    l'.due s = l.due s ++ ((l.managers.publishOf e).filter (s ∈ ·.attached)).map (·.batch) := by
  rw [due, (step_eq_some h).2.1, List.filter_append, List.map_append]
  rfl

namespace Served

lemma start : PublishLog.start.Served where
  assigns := .start
  returns := .start
  addressed := .start _ _
  attached _ hq := absurd hq List.not_mem_nil
  unfailed _ _ hp := by cases hp
  received _ := rfl

lemma posting_eq_none (h : l.Served) {t : Topic} (ht : t ∉ l.managers.createdTopics) :
    (l.managers.server.topics t).posting = none := by
  rw [Option.eq_none_iff_forall_ne_some]
  intro p hp
  obtain ⟨q, hq, -⟩ := h.returns.posting t p hp
  rw [h.assigns.publishesOf_eq_nil ht] at hq
  cases hq

lemma unfailed_step (h : l.Served) {e : ManagersEvent} (hsucceeds : l.PostSucceeds e)
    (hstep : l.step e = some l') {t : Topic} {p : Posting}
    (hp : (l'.managers.server.topics t).posting = some p) : p.Unfailed := by
  rcases Managers.posting_cases (step_eq_some hstep).1 hp with ⟨hold, -⟩ |
    ⟨_, _, _, _, -, -, rfl⟩ | ⟨e', p₀, f, rfl, hold, hfan, -, rfl⟩
  · exact h.unfailed t p hold
  · exact fun s => by simp [FanOut.start]
  · refine (Posting.left_step (h.unfailed t p₀ hold) ?_ hfan).1
    rintro s rfl
    exact hsucceeds

lemma received_receive (h : l.Served) {s : Subscription} {publishTime : SystemTime}
    {publishInstant : Instant}
    (hstep : l.step (.server (.topicReceive s.topic publishTime publishInstant)) = some l') :
    l'.received s ++ l'.managers.pending s = l'.due s := by
  obtain ⟨hmanagers, -, -, hreceived⟩ := step_eq_some hstep
  obtain ⟨r, rest, hidle, hmailbox, hposting⟩ := Managers.posting_receive hmanagers
  have hold : l.received s = l.due s := by
    have hserved := h.received s
    rwa [Managers.pending, hidle, Option.map_none, Option.getD_none, List.append_nil] at hserved
  have hdelivered : l.managers.deliveredBy s
      (.server (.topicReceive s.topic publishTime publishInstant)) = [] := rfl
  rw [hreceived, hdelivered, List.append_nil, hold, due_step hstep, Managers.pending, hposting]
  congr 1
  by_cases hr : ∃ messages, r = .publishMessages messages
  · obtain ⟨messages, rfl⟩ := hr
    rw [Managers.publishOf_eq hmailbox, List.filter_singleton]
    by_cases hs : s ∈ (l.managers.server.topics s.topic).actor.subscriptions.values
    · rw [decide_eq_true (by exact hs)]
      exact if_pos ⟨hs, rfl⟩
    · rw [decide_eq_false (by exact hs)]
      exact if_neg fun hleft => hs hleft.1
  · have hne : ∀ messages, r ≠ .publishMessages messages := fun messages he => hr ⟨messages, he⟩
    rw [Managers.publishOf_eq_nil hmailbox hne]
    cases r with
    | publishMessages messages => exact absurd rfl (hne messages)
    | _ => rfl

lemma received_posting (h : l.Served) {s : Subscription} {e : FanOutEvent}
    (hsucceeds : l.PostSucceeds (.server (.posting s.topic e)))
    (hstep : l.step (.server (.posting s.topic e)) = some l') :
    l'.received s ++ l'.managers.pending s = l'.due s := by
  obtain ⟨hmanagers, -, -, hreceived⟩ := step_eq_some hstep
  obtain ⟨p, f, hp, hfan, hposting⟩ := Managers.posting_posting hmanagers
  have hopen : ∀ s', e = .post s' → l.managers.server.isOpen s' = true := by
    rintro s' rfl
    exact hsucceeds
  obtain ⟨-, hleft⟩ := Posting.left_step (h.unfailed _ p hp) hopen hfan
  have hdelivered : l.managers.deliveredBy s (.server (.posting s.topic e)) =
      if e = .post s then [p.batch] else [] := by
    cases e with
    | post s' =>
      simp only [Managers.deliveredBy, hp, FanOutEvent.post.injEq]
      by_cases hs : s' = s
      · rw [if_pos ⟨hs, hopen s (by rw [hs])⟩, if_pos hs]
        rfl
      · rw [if_neg fun h => hs h.1, if_neg hs]
    | join | finish => rfl
  have hpending : l'.managers.pending s =
      if f.returned.isSome then [] else Posting.left { p with fanOut := f } s := by
    rw [Managers.pending, hposting]
    split_ifs <;> rfl
  have hpublish : l.managers.publishOf (.server (.posting s.topic e)) = [] := rfl
  rw [hreceived, hdelivered, hpending, List.append_assoc, hleft, due_step hstep, hpublish,
    List.filter_nil, List.map_nil, List.append_nil, ← h.received s, Managers.pending, hp]
  rfl

lemma received_step (h : l.Served) {e : ManagersEvent} (hsucceeds : l.PostSucceeds e)
    (hstep : l.step e = some l') (s : Subscription) :
    l'.received s ++ l'.managers.pending s = l'.due s := by
  by_cases hreceive : ∃ publishTime publishInstant,
      e = .server (.topicReceive s.topic publishTime publishInstant)
  · obtain ⟨publishTime, publishInstant, rfl⟩ := hreceive
    exact h.received_receive hstep
  by_cases hposting : ∃ e', e = .server (.posting s.topic e')
  · obtain ⟨e', rfl⟩ := hposting
    exact h.received_posting hsucceeds hstep
  push Not at hreceive hposting
  obtain ⟨hmanagers, -, -, hreceived⟩ := step_eq_some hstep
  have hnone : (l.managers.publishOf e).filter (s ∈ ·.attached) = [] := by
    refine List.filter_eq_nil_iff.mpr fun q hq hs => ?_
    have htopic := Managers.topic_of_attached h.addressed hq (decide_eq_true_iff.mp hs)
    obtain ⟨publishTime, publishInstant, he⟩ := Managers.topic_of_publishOf hq
    exact hreceive publishTime publishInstant (by rw [he, htopic])
  have hsame := Managers.posting_eq_of_step hmanagers h.assigns.live.topics
    (fun ht => h.posting_eq_none ht) hreceive hposting
  rw [hreceived, Managers.deliveredBy_eq_nil h.addressed hmanagers hposting, List.append_nil,
    due_step hstep, hnone, List.map_nil, List.append_nil, ← h.received s, Managers.pending, hsame]
  rfl

lemma step (h : l.Served) {e : ManagersEvent} (hsucceeds : l.PostSucceeds e)
    (hstep : l.step e = some l') : l'.Served where
  assigns := h.assigns.step hstep
  returns := h.returns.step hstep
  addressed := Managers.addressed_step h.addressed (step_eq_some hstep).1
  attached q hq s hs := by
    rw [(step_eq_some hstep).2.1] at hq
    rcases List.mem_append.mp hq with hq | hq
    · exact h.attached q hq s hs
    · exact Managers.topic_of_attached h.addressed hq hs
  unfailed _ _ := h.unfailed_step hsucceeds hstep
  received := h.received_step hsucceeds hstep

lemma run (h : l.Served) {es : List ManagersEvent}
    (hsucceeds : Machine.Along PublishLog.step PostSucceeds l es) (hrun : l.run es = some l') :
    l'.Served :=
  hsucceeds.preserves hrun h fun _ _ _ hl hsucceeds hstep => hl.step hsucceeds hstep

/-- The batches are some of those that the topic has published, in their order. -/
lemma received_sublist (h : l.Served) (s : Subscription) :
    ((l.received s).flatten.map (·.id)).Sublist (l.assignedTo s.topic) := by
  have hfilter : l.publishes.filter (s ∈ ·.attached) =
      (l.publishesOf s.topic).filter (s ∈ ·.attached) := by
    rw [publishesOf, List.filter_filter]
    refine List.filter_congr fun q hq => ?_
    by_cases hs : s ∈ q.attached
    · simp [hs, h.attached q hq s hs]
    · simp [hs]
  have hdue : ((l.due s).flatten.map (·.id)).Sublist (l.assignedTo s.topic) := by
    rw [due, ← List.flatMap_def, List.map_flatMap, hfilter]
    exact List.filter_sublist.flatMap _
  have hstart : l.received s <+: l.due s := ⟨_, h.received s⟩
  exact (hstart.sublist.flatten.map _).trans hdue

end Served

/-- No two messages get the same ID.  A publish returns one ID for each message in the
order of the request, the IDs of a topic grow, and if every batch finds the mailboxes open
that it is posted to, each attached subscription receives the batches in that order. -/
theorem message_ids_unique_and_ordered {es : List ManagersEvent} {l : PublishLog}
    (hrun : start.run es = some l) (htopics : l.managers.createdTopics.length < 2 ^ 32)
    (hmessages : ∀ t, (l.assignedTo t).length < 2 ^ 32) :
    (l.assigned.map MessageId.toUInt64).Nodup ∧
    (∀ a ∈ l.answers, a.1 ∈ l.publishes ∧ a.2 = a.1.batch.map (·.id)) ∧
    (∀ q ∈ l.publishes, q.InOrder) ∧
    (∀ t, ((l.assignedTo t).map MessageId.toUInt64).Pairwise (· < ·)) ∧
    (Machine.Along step PostSucceeds start es → ∀ s,
      ((l.received s).flatten.map fun m => m.id.toUInt64).Pairwise (· < ·) ∧
      ((l.managers.server.topics s.topic).posting = none → l.received s = l.due s)) := by
  have hassigns : l.Assigns :=
    Machine.run_preserves hrun Assigns.start fun _ _ _ hl hstep => hl.step hstep
  have hreturns : l.Returns :=
    Machine.run_preserves hrun Returns.start fun _ _ _ hl hstep => hl.step hstep
  refine ⟨hassigns.nodup_assigned htopics hmessages, hreturns.answers, hassigns.inOrder,
    fun t => hassigns.pairwise_assignedTo (hmessages t), fun hsucceeds s => ?_⟩
  have hserved := Served.start.run hsucceeds hrun
  constructor
  · have hsublist := (hserved.received_sublist s).map MessageId.toUInt64
    rw [List.map_map] at hsublist
    exact (hassigns.pairwise_assignedTo (hmessages s.topic)).sublist hsublist
  · intro hidle
    have hreceived := hserved.received s
    rwa [Managers.pending, hidle, Option.map_none, Option.getD_none, List.append_nil] at hreceived

namespace Sample

open Managers.Sample

def message : TopicMessage := .new [] none 0

/-- Two messages are published to a subscription.  Then their topic is deleted and created
again, and another message is published. -/
def publishTwice : List ManagersEvent :=
  [.createTopic info, .server (.create name (topic 2)), .server (.sendAttach (subscription 2)),
    .server (.topicReceive (topic 2) 0 0),
    .server (.topicRequest (topic 2) (.publishMessages [message, message])),
    .server (.topicReceive (topic 2) 0 0), .server (.posting (topic 2) (.post (subscription 2))),
    .server (.posting (topic 2) (.join (subscription 2))), .server (.posting (topic 2) .finish),
    .deleteTopic (topic 2), .createTopic info,
    .server (.topicRequest (topic 3) (.publishMessages [message])),
    .server (.topicReceive (topic 3) 0 0), .server (.posting (topic 3) .finish)]

end Sample

/-- The IDs of the new topic start over below its own number. -/
theorem message_ids_of_recreated_topic : ∃ l, start.run Sample.publishTwice = some l ∧
    l.answers.map (·.2) =
      [[MessageId.new 2 1, MessageId.new 2 2], [MessageId.new 3 1]] ∧
    (l.assigned.map MessageId.toUInt64).Nodup ∧
    l.received (Managers.Sample.subscription 2) = l.due (Managers.Sample.subscription 2) ∧
    (l.received (Managers.Sample.subscription 2)).flatten.map (·.id) =
      [MessageId.new 2 1, MessageId.new 2 2] := by
  have hreached : (start.run Sample.publishTwice).map (fun l => (l.managers.createdTopics.length,
      l.assigned.length, l.answers.map (·.2),
      (l.received (Managers.Sample.subscription 2)).flatten.map (·.id),
      (l.managers.server.topics (Managers.Sample.topic 2)).posting.isNone)) =
      some (2, 3, [[MessageId.new 2 1, MessageId.new 2 2], [MessageId.new 3 1]],
        [MessageId.new 2 1, MessageId.new 2 2], true) := by
    decide +kernel
  have hsucceeds : Machine.Along step PostSucceeds start Sample.publishTwice := by
    decide +kernel
  obtain ⟨l, hrun, hl⟩ := Option.map_eq_some_iff.mp hreached
  simp only [Prod.mk.injEq] at hl
  obtain ⟨htopics, hassigned, hanswers, hreceived, hidle⟩ := hl
  have hfew : ∀ t, (l.assignedTo t).length < 2 ^ 32 := by
    intro t
    have hsublist : (l.assignedTo t).Sublist l.assigned := List.filter_sublist.flatMap _
    have hle := hsublist.length_le
    omega
  obtain ⟨hnodup, -, -, -, hserved⟩ := message_ids_unique_and_ordered hrun (by omega) hfew
  refine ⟨l, hrun, hanswers, hnodup, (hserved hsucceeds _).2 ?_, hreceived⟩
  exact Option.isNone_iff_eq_none.mp hidle

end PublishLog

end Deltio
