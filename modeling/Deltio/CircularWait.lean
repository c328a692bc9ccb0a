import Deltio.ServerRuns

namespace Deltio.Server

open Lib

def HasToPost (sv : Server) (t : Topic) (s : Subscription) : Prop :=
  match (sv.topics t).posting with
  | some p => s ∈ p.attached ∧ p.fanOut.task s = .pending
  | none => False

/-- The actor is inside `delete`, waiting for its topic to accept or answer
`RemoveSubscription`. -/
def DeleteWaits (sv : Server) (s : Subscription) : Prop :=
  sv.phase s = .removing ∨ sv.phase s = .awaiting

/-- The topic waits for room in the mailbox of a subscription that waits for the
topic. -/
def CircularWait (sv : Server) (s : Subscription) : Prop :=
  sv.HasToPost s.topic s ∧ ¬ sv.hasRoom s ∧ sv.DeleteWaits s

/-- There is room for the topic: it takes up a publish only if no attached
subscription that is deleting itself has a full mailbox, and a client does not
take the last place in the mailbox of one it still has to post to. -/
def LeavesRoom (sv : Server) : ServerEvent → Prop
  | .topicReceive t _ _ =>
    match (sv.topics t).mailbox with
    | .publishMessages _ :: _ =>
      ∀ s ∈ (sv.topics t).actor.subscriptions.values, sv.DeleteWaits s → sv.hasRoom s
    | _ => True
  | .request s _ =>
    sv.HasToPost s.topic s → sv.DeleteWaits s → (sv.mailbox s).length + 1 < mailboxCapacity
  | _ => True

instance (sv : Server) (t : Topic) (s : Subscription) : Decidable (sv.HasToPost t s) :=
  match h : (sv.topics t).posting with
  | some p =>
    decidable_of_iff (s ∈ p.attached ∧ p.fanOut.task s = .pending) (by rw [HasToPost, h])
  | none => isFalse (by rw [HasToPost, h]; exact id)

instance (sv : Server) (s : Subscription) : Decidable (sv.DeleteWaits s) :=
  inferInstanceAs (Decidable (_ ∨ _))

instance (sv : Server) (s : Subscription) : Decidable (sv.CircularWait s) :=
  inferInstanceAs (Decidable (_ ∧ _))

variable {sv sv' : Server}

/-- Neither a posting task nor a mailbox nor a phase of a subscription changes. -/
lemma CircularWait.of_eq {s : Subscription} (h : sv'.CircularWait s)
    (hposting : (sv'.topics s.topic).posting = (sv.topics s.topic).posting)
    (hmailbox : sv'.mailbox s = sv.mailbox s) (hphase : sv'.phase s = sv.phase s) :
    sv.CircularWait s := by
  unfold CircularWait HasToPost hasRoom DeleteWaits at *
  rwa [hposting, hmailbox, hphase] at h

/-- A subscription that is not waiting for its topic is set. -/
lemma CircularWait.of_setSubscription {s s' : Subscription} {side : SubscriptionSide}
    (h : (sv.setSubscription s' side).CircularWait s)
    (hside : (side.phase ≠ .removing ∧ side.phase ≠ .awaiting) ∨
      side.mailbox.length < mailboxCapacity) : sv.CircularWait s := by
  by_cases hs : s = s'
  · obtain ⟨-, hfull, hwaits⟩ := h
    rw [hasRoom, mailbox_setSubscription, if_pos hs] at hfull
    rw [DeleteWaits, phase_setSubscription, if_pos hs] at hwaits
    rcases hside with ⟨hremoving, hawaiting⟩ | hroom
    · exact (hwaits.elim hremoving hawaiting).elim
    · exact absurd hroom hfull
  · refine h.of_eq rfl ?_ ?_
    · rw [mailbox_setSubscription, if_neg hs]
    · rw [phase_setSubscription, if_neg hs]

lemma CircularWait.of_sendTopic {s : Subscription} {t : Topic} {r : TopicRequest}
    (h : (sv.sendTopic t r).CircularWait s) : sv.CircularWait s := by
  refine h.of_eq ?_ rfl rfl
  rw [sendTopic, topics_setTopic]
  split_ifs with ht
  · rw [ht]
  · rfl

/-- A send to one that was not waiting already closes the circle exactly if it
takes the last place. -/
lemma circularWait_send_iff {s s' : Subscription} {r : SubscriptionRequest}
    (h : ¬ sv.CircularWait s) :
    (sv.send s' r).CircularWait s ↔ s = s' ∧ sv.HasToPost s.topic s ∧ sv.DeleteWaits s ∧
      ¬ (sv.mailbox s).length + 1 < mailboxCapacity := by
  by_cases hs : s = s'
  · subst hs
    unfold CircularWait hasRoom DeleteWaits
    rw [mailbox_send, if_pos rfl, phase_send, List.length_append, List.length_singleton]
    exact ⟨fun ⟨hpost, hfull, hwaits⟩ => ⟨rfl, hpost, hwaits, hfull⟩,
      fun ⟨_, hpost, hwaits, hfull⟩ => ⟨hpost, hfull, hwaits⟩⟩
  · refine iff_of_false (fun hwait => h ?_) fun hwait => hs hwait.1
    refine hwait.of_eq rfl ?_ (phase_send ..)
    rw [mailbox_send, if_neg hs]

section TopicHandle

variable {s : Subscription} {t : Topic} {publishTime : SystemTime} {publishInstant : Instant}
  {rest : List TopicRequest}

/-- A topic that takes up anything but a publish does not wait. -/
lemma CircularWait.of_topicHandle {r : TopicRequest} (hr : ∀ messages, r ≠ .publishMessages messages)
    (h : (sv.topicHandle t publishTime publishInstant r rest).CircularWait s) :
    sv.CircularWait s := by
  obtain ⟨hpost, hfull, hwaits⟩ := h
  unfold HasToPost topicHandle at hpost
  rw [topics_setTopic] at hpost
  refine ⟨?_, ?_, ?_⟩
  · split_ifs at hpost with ht
    · cases r with
      | publishMessages messages => exact absurd rfl (hr messages)
      | _ => exact hpost.elim
    · rwa [topics_answer] at hpost
  · change ¬ ((sv.answer r).mailbox s).length < _ at hfull
    rwa [mailbox_answer] at hfull
  · change (sv.answer r).phase s = _ ∨ (sv.answer r).phase s = _ at hwaits
    rcases phase_answer sv s r with he | ⟨he, -⟩
    · rwa [he] at hwaits
    · exact .inr he

/-- A topic that takes up a publish has to post to every attached subscription. -/
lemma circularWait_publish_iff {messages : List TopicMessage} (h : ¬ sv.CircularWait s) :
    (sv.topicHandle t publishTime publishInstant (.publishMessages messages) rest).CircularWait s ↔
      s.topic = t ∧ s ∈ (sv.topics t).actor.subscriptions.values ∧ ¬ sv.hasRoom s ∧
        sv.DeleteWaits s := by
  by_cases ht : s.topic = t
  · have hpost : (sv.topicHandle t publishTime publishInstant (.publishMessages messages)
        rest).HasToPost s.topic s ↔ s ∈ (sv.topics t).actor.subscriptions.values := by
      unfold HasToPost topicHandle
      rw [topics_setTopic, if_pos ht]
      exact and_iff_left rfl
    exact (and_congr_left' hpost).trans (and_iff_right ht).symm
  · refine iff_of_false (fun hwait => h (hwait.of_eq ?_ rfl rfl)) fun hwait => ht hwait.1
    unfold topicHandle
    rw [topics_setTopic, if_neg ht]
    rfl

end TopicHandle

/-- A posting task that gets its turn does not wait any more, and the others wait
for the same mailboxes as before. -/
lemma CircularWait.of_posting (haddr : sv.Addressed) {s : Subscription} {t : Topic}
    {e : FanOutEvent} {p : Posting} {f : FanOut} (hposting : (sv.topics t).posting = some p)
    (hstep : p.fanOut.step p.attached sv.isOpen p.batch e = some f)
    (h : ((sv.deliver p.batch e).setTopic t { sv.topics t with
      posting := if f.returned.isSome then none else some { p with fanOut := f } }).CircularWait s) :
    sv.CircularWait s := by
  obtain ⟨hpost, hfull, hwaits⟩ := h
  -- the batch that was delivered, if any, went to somebody else
  have hold : sv.HasToPost s.topic s ∧ e ≠ .post s := by
    unfold HasToPost at hpost ⊢
    rw [topics_setTopic] at hpost
    by_cases ht : s.topic = t
    · rw [if_pos ht] at hpost
      rw [ht, hposting]
      dsimp only at hpost
      by_cases hret : f.returned.isSome
      · rw [if_pos hret] at hpost
        exact hpost.elim
      · rw [if_neg hret] at hpost
        obtain ⟨hpending, hne⟩ := FanOut.pending_of_step hstep hpost.2
        exact ⟨⟨hpost.1, hpending⟩, hne⟩
    · rw [if_neg ht, topics_deliver] at hpost
      refine ⟨hpost, ?_⟩
      rintro rfl
      exact ht (haddr.posting t p hposting s (FanOut.mem_of_post hstep))
  have hmailbox : (sv.deliver p.batch e).mailbox s = sv.mailbox s := by
    rcases deliver_cases sv p.batch e with hd | ⟨s', rfl, -, hd⟩ <;> rw [hd]
    rw [mailbox_send, if_neg (fun hs => hold.2 (by rw [hs]))]
  refine ⟨hold.1, ?_, ?_⟩
  · change ¬ ((sv.deliver p.batch e).mailbox s).length < _ at hfull
    rwa [hmailbox] at hfull
  · change (sv.deliver p.batch e).phase s = _ ∨ (sv.deliver p.batch e).phase s = _ at hwaits
    rwa [phase_deliver] at hwaits

/-- A step closes a circle exactly if it leaves no room for the topic. -/
lemma circularWait_step_iff (haddr : sv.Addressed) (hbounded : sv.Bounded)
    (h : ∀ s, ¬ sv.CircularWait s) {e : ServerEvent} (hstep : sv.step e = some sv') :
    (∀ s, ¬ sv'.CircularWait s) ↔ sv.LeavesRoom e := by
  cases transition_of_step hstep with
  | create =>
    refine iff_of_true (fun s hs => h s ?_) trivial
    exact (CircularWait.of_setSubscription hs (.inl ⟨nofun, nofun⟩)).of_eq rfl rfl rfl
  | @sendAttach s₀ =>
    refine iff_of_true (fun s hs => h s (hs.of_sendTopic.of_eq rfl ?_ ?_)) trivial
    · exact mailbox_setSubscription_of_eq sv s rfl
    · exact phase_setSubscription_of_eq sv s rfl
  | @request s₀ r =>
    constructor
    · intro hno hpost hwaits
      by_contra hfull
      exact hno s₀ ((circularWait_send_iff (h s₀)).mpr ⟨rfl, hpost, hwaits, hfull⟩)
    · intro hroom s hs
      obtain ⟨rfl, hpost, hwaits, hfull⟩ := (circularWait_send_iff (h s)).mp hs
      exact hfull (hroom hpost hwaits)
  | topicRequest => exact iff_of_true (fun s hs => h s hs.of_sendTopic) trivial
  | @topicReceive t publishTime publishInstant r rest hidle hmailbox =>
    unfold LeavesRoom
    dsimp only
    rw [hmailbox]
    cases r with
    | publishMessages messages =>
      constructor
      · intro hno s hs hwaits
        by_contra hfull
        exact hno s ((circularWait_publish_iff (h s)).mpr
          ⟨haddr.attached t s hs, hs, hfull, hwaits⟩)
      · intro hroom s hs
        obtain ⟨-, hs, hfull, hwaits⟩ := (circularWait_publish_iff (h s)).mp hs
        exact hfull (hroom s hs hwaits)
    | _ =>
      refine iff_of_true (fun s hs => h s (CircularWait.of_topicHandle ?_ hs)) trivial
      exact fun _ => nofun
  | posting hposting _ hfan =>
    exact iff_of_true (fun s hs => h s (CircularWait.of_posting haddr hposting hfan hs)) trivial
  | @receive s₀ r rest _ hmailbox =>
    refine iff_of_true (fun s hs => h s (CircularWait.of_setSubscription hs (.inr ?_))) trivial
    -- the request that was taken up leaves a place
    have hle := hbounded s₀
    rw [hmailbox, List.length_cons] at hle
    exact hle
  | @sendRemove s₀ hphase =>
    refine iff_of_true (fun s hs => h s ?_) trivial
    obtain ⟨hpost, hfull, hwaits⟩ := hs.of_sendTopic
    rw [hasRoom, mailbox_setPhase] at hfull
    refine ⟨hpost, hfull, ?_⟩
    rw [DeleteWaits, phase_setPhase] at hwaits
    split_ifs at hwaits with hs₀
    · rw [hs₀]
      exact .inl hphase
    · exact hwaits
  | finishDelete =>
    refine iff_of_true (fun s hs => h s ?_) trivial
    exact (CircularWait.of_setSubscription hs (.inl ⟨nofun, nofun⟩)).of_eq rfl rfl rfl
  | stop =>
    refine iff_of_true (fun s hs => h s ?_) trivial
    exact CircularWait.of_setSubscription hs (.inl ⟨nofun, nofun⟩)

/-- In every state of a run no topic and subscription wait for each other exactly
if every step leaves room for the topics that publish. -/
theorem no_circular_wait_iff (delegate : TopicManager) (info : Topic → TopicInfo)
    (es : List ServerEvent) :
    (∀ n sv, (start delegate info).run (es.take n) = some sv → ∀ s, ¬ sv.CircularWait s) ↔
      Machine.Along step LeavesRoom (start delegate info) es := by
  apply Machine.forall_run_take_iff (J := fun sv : Server => sv.Addressed ∧ sv.Bounded)
    (I := fun sv : Server => ∀ s, ¬ sv.CircularWait s)
  · exact fun _ _ _ h hstep => ⟨h.1.step hstep, h.2.step hstep⟩
  · exact fun _ _ _ h hno hstep => circularWait_step_iff h.1 h.2 hno hstep
  · exact ⟨Addressed.start delegate info, Bounded.start delegate info⟩
  · exact fun s hs => hs.1

/-- A subscription deletes itself while a publish is ahead of its remove request,
and 128 requests of clients fill its mailbox before the topic takes up the
publish. -/
theorem topic_and_subscription_wait_for_each_other :
    let s := Sample.subscription 2
    let es : List ServerEvent := [.create Sample.name Sample.topic, .sendAttach s,
      .topicReceive Sample.topic 0 0, .request s .delete, .receive s,
      .topicRequest Sample.topic (.publishMessages []), .sendRemove s] ++
      List.replicate mailboxCapacity (.request s .getStats) ++ [.topicReceive Sample.topic 0 0]
    ∃ sv, Sample.start.run es = some sv ∧ sv.CircularWait s := by
  intro s es
  exact ⟨Sample.reached es, Sample.run_eq_reached (by decide +kernel), by decide +kernel⟩

end Deltio.Server
