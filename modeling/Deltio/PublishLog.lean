import Deltio.Managers

namespace Deltio

open Lib

/-- A publish that a topic has taken up: the messages as requested and as published, and
the subscriptions that were attached. -/
structure Publish where
  topic : Topic
  messages : List TopicMessage
  batch : List TopicMessage
  attached : List Subscription
deriving DecidableEq

/-- The managers, with what has been published, returned and received so far. -/
structure PublishLog where
  managers : Managers
  publishes : List Publish
  answers : List (Publish × List MessageId)
  received : Subscription → List (List TopicMessage)

namespace Managers

def publishOf (w : Managers) : ManagersEvent → List Publish
  | .server (.topicReceive t publishTime publishInstant) =>
    match (w.server.topics t).mailbox with
    | .publishMessages messages :: _ =>
      let published := (w.server.topics t).actor.publish publishTime publishInstant messages
      [⟨t, messages, published.1, published.2.subscriptions.values⟩]
    | _ => []
  | _ => []

def returnedBy (w : Managers) : ManagersEvent → Option (Topic × List MessageId)
  | .server (.posting t e) => do
    let p ← (w.server.topics t).posting
    let f ← p.fanOut.step p.attached w.server.isOpen p.batch e
    match f.returned with
    | some (.ok ids) => some (t, ids)
    | _ => none
  | _ => none

def deliveredBy (w : Managers) (s : Subscription) : ManagersEvent → List (List TopicMessage)
  | .server (.posting t (.post s')) =>
    if s' = s ∧ w.server.isOpen s = true then
      ((w.server.topics t).posting.map (·.batch)).toList
    else []
  | _ => []

end Managers

namespace PublishLog

def start : PublishLog := ⟨.start, [], [], fun _ => []⟩

def publishesOf (l : PublishLog) (t : Topic) : List Publish := l.publishes.filter (·.topic = t)

def step (l : PublishLog) (e : ManagersEvent) : Option PublishLog :=
  (l.managers.step e).map fun managers => {
    managers := managers
    publishes := l.publishes ++ l.managers.publishOf e
    -- a topic answers the publish that it took up last
    answers := l.answers ++ ((l.managers.returnedBy e).bind fun r =>
      (l.publishesOf r.1).getLast?.map fun q => (q, r.2)).toList
    received := fun s => l.received s ++ l.managers.deliveredBy s e }

def run (l : PublishLog) (es : List ManagersEvent) : Option PublishLog := Machine.run step l es

def assignedTo (l : PublishLog) (t : Topic) : List MessageId :=
  (l.publishesOf t).flatMap fun q => q.batch.map (·.id)

end PublishLog

/-- The messages of the batch are those of the request in their order, with the
post-publish values set. -/
def Publish.InOrder (q : Publish) : Prop :=
  List.Forall₂ (fun m m' => m' = m.publish m'.id m'.publishedAt m'.publishedAtInstant)
    q.messages q.batch

namespace TopicActor

section

variable (topicInternalId : ℕ) (publishTime : SystemTime) (publishInstant : Instant)

lemma markPublished_ids (nextMessageId : ℕ) (messages : List TopicMessage) :
    ((markPublished topicInternalId publishTime publishInstant nextMessageId messages).1.map (·.id))
      = (List.range messages.length).map
        fun i => MessageId.new topicInternalId (nextMessageId + i + 1) := by
  induction messages generalizing nextMessageId with
  | nil => rfl
  | cons m ms ih =>
    simp only [markPublished, List.map_cons, ih, List.length_cons, List.range_succ_eq_map,
      List.map_map]
    congr 1
    refine List.map_congr_left fun i _ => ?_
    simp only [Function.comp_apply]
    congr 1
    omega

lemma markPublished_next (nextMessageId : ℕ) (messages : List TopicMessage) :
    (markPublished topicInternalId publishTime publishInstant nextMessageId messages).2 =
      nextMessageId + messages.length := by
  induction messages generalizing nextMessageId with
  | nil => rfl
  | cons m ms ih =>
    simp only [markPublished, ih, List.length_cons]
    omega

lemma markPublished_inOrder (nextMessageId : ℕ) (messages : List TopicMessage) :
    List.Forall₂ (fun m m' => m' = m.publish m'.id m'.publishedAt m'.publishedAtInstant) messages
      (markPublished topicInternalId publishTime publishInstant nextMessageId messages).1 := by
  induction messages generalizing nextMessageId with
  | nil => exact .nil
  | cons m ms ih => exact .cons rfl (ih (nextMessageId + 1))

end

lemma nextMessageId_receive (t : TopicActor) (publishTime : SystemTime) (publishInstant : Instant)
    {r : TopicRequest} (h : ∀ messages, r ≠ .publishMessages messages) :
    (t.receive publishTime publishInstant r).nextMessageId = t.nextMessageId := by
  cases r with
  | publishMessages messages => exact absurd rfl (h messages)
  | attachSubscription subscription =>
    simp only [receive, attachSubscription]
    split <;> rfl
  | _ => rfl

lemma nextMessageId_delete (t : TopicActor) : t.delete.nextMessageId = t.nextMessageId := by
  unfold delete
  split_ifs <;> rfl

end TopicActor

namespace Managers

variable {w w' : Managers}

def nextMessageId (w : Managers) (t : Topic) : ℕ := (w.server.topics t).actor.nextMessageId

/-- Nothing is published, and a new topic starts to count from zero. -/
structure Silent (w w' : Managers) : Prop where
  kept : ∀ t ∈ w.createdTopics, t ∈ w'.createdTopics ∧ w'.nextMessageId t = w.nextMessageId t
  fresh : ∀ t ∈ w'.createdTopics, t ∉ w.createdTopics → w'.nextMessageId t = 0

lemma Silent.of_same (hcreated : w'.createdTopics = w.createdTopics)
    (hnext : ∀ t, w'.nextMessageId t = w.nextMessageId t) : Silent w w' where
  kept t ht := ⟨by rwa [hcreated], hnext t⟩
  fresh t ht hnew := by
    rw [hcreated] at ht
    exact absurd ht hnew

/-- Other requests publish nothing. -/
lemma publishOf_eq_nil {t : Topic} {publishTime : SystemTime} {publishInstant : Instant}
    {r : TopicRequest} {rest : List TopicRequest}
    (hmailbox : (w.server.topics t).mailbox = r :: rest)
    (h : ∀ messages, r ≠ .publishMessages messages) :
    w.publishOf (.server (.topicReceive t publishTime publishInstant)) = [] := by
  simp only [publishOf, hmailbox]
  cases r with
  | publishMessages messages => exact absurd rfl (h messages)
  | _ => rfl

lemma publish_of_step (h : w.LiveTopics) {e : ManagersEvent} (hstep : w.step e = some w') :
    (∃ t publishTime publishInstant messages rest,
      e = .server (.topicReceive t publishTime publishInstant) ∧ t ∈ w.createdTopics ∧
      (w.server.topics t).posting = none ∧
      (w.server.topics t).mailbox = .publishMessages messages :: rest ∧
      w'.createdTopics = w.createdTopics ∧ w'.server =
        w.server.topicHandle t publishTime publishInstant (.publishMessages messages) rest) ∨
    (w.publishOf e = [] ∧ Silent w w') := by
  cases transition_of_step hstep with
  | @createTopic info t topicManager hcreate =>
    obtain ⟨-, ht, rfl⟩ := TopicManager.createTopic_eq_ok hcreate
    have hnew := h.counted.not_mem (r := t) (by rw [ht])
    refine .inr ⟨rfl, fun t' ht' => ⟨List.mem_append_left _ ht', ?_⟩, fun t' ht' hnew' => ?_⟩
    · have hne : t' ≠ t := fun he => hnew (he ▸ ht')
      rw [nextMessageId, Server.topics_setTopic, if_neg hne]
      rfl
    · have he : t' = t := List.mem_singleton.mp ((List.mem_append.mp ht').resolve_left hnew')
      rw [nextMessageId, Server.topics_setTopic, if_pos he]
      rfl
  | @deleteTopic t actor _ _ hactor =>
    refine .inr ⟨rfl, .of_same rfl fun t' => ?_⟩
    rw [nextMessageId, Server.topics_setTopic]
    split_ifs with he
    · rw [hactor, TopicActor.nextMessageId_delete, he]
      rfl
    · rfl
  | topicGone => exact .inr ⟨rfl, .of_same rfl fun t => rfl⟩
  | @server e sv ht hserver =>
    have hother : (∀ t, (sv.topics t).actor.nextMessageId = (w.server.topics t).actor.nextMessageId)
        → Silent w { w with server := sv, createdSubscriptions :=
          w.createdSubscriptions ++ w.server.created e } := fun hnext => .of_same rfl hnext
    have hquiet : (∀ t publishTime publishInstant, e ≠ .topicReceive t publishTime publishInstant) →
        ∀ t, (sv.topics t).actor.nextMessageId = (w.server.topics t).actor.nextMessageId := by
      intro hne t
      rcases Server.actor_of_step hserver t with hactor | ⟨publishTime, publishInstant, r, _, he, -⟩
      · rw [hactor]
      · exact absurd he (hne t publishTime publishInstant)
    cases e with
    | topicReceive t publishTime publishInstant =>
      cases Server.transition_of_step hserver with
      | @topicReceive _ _ _ r rest hidle hmailbox =>
        by_cases hr : ∃ messages, r = .publishMessages messages
        · obtain ⟨messages, rfl⟩ := hr
          exact .inl ⟨t, publishTime, publishInstant, messages, rest, rfl, ht t rfl, hidle,
            hmailbox, rfl, rfl⟩
        · have hne : ∀ messages, r ≠ .publishMessages messages :=
            fun messages he => hr ⟨messages, he⟩
          refine .inr ⟨publishOf_eq_nil hmailbox hne, hother fun t' => ?_⟩
          rw [Server.topics_topicHandle]
          split_ifs with he
          · rw [he, TopicActor.nextMessageId_receive _ _ _ hne]
          · rfl
    | _ => exact .inr ⟨rfl, hother (hquiet (by simp))⟩

lemma publishOf_eq {t : Topic} {publishTime : SystemTime} {publishInstant : Instant}
    {messages : List TopicMessage} {rest : List TopicRequest}
    (hmailbox : (w.server.topics t).mailbox = .publishMessages messages :: rest) :
    w.publishOf (.server (.topicReceive t publishTime publishInstant)) =
      [⟨t, messages, ((w.server.topics t).actor.publish publishTime publishInstant messages).1,
        (w.server.topics t).actor.subscriptions.values⟩] := by
  simp only [publishOf, hmailbox]
  rfl

end Managers

namespace PublishLog

variable {l l' : PublishLog}

lemma step_eq_some {e : ManagersEvent} (h : l.step e = some l') :
    l.managers.step e = some l'.managers ∧ l'.publishes = l.publishes ++ l.managers.publishOf e ∧
      l'.answers = l.answers ++ ((l.managers.returnedBy e).bind fun r =>
        (l.publishesOf r.1).getLast?.map fun q => (q, r.2)).toList ∧
      ∀ s, l'.received s = l.received s ++ l.managers.deliveredBy s e := by
  obtain ⟨w, hw, rfl⟩ := Option.map_eq_some_iff.mp h
  exact ⟨hw, rfl, rfl, fun _ => rfl⟩

lemma publishesOf_step {e : ManagersEvent} (h : l.step e = some l') (t : Topic) :
    l'.publishesOf t = l.publishesOf t ++ (l.managers.publishOf e).filter (·.topic = t) := by
  rw [publishesOf, (step_eq_some h).2.1, List.filter_append]
  rfl

lemma publishesOf_publish {t : Topic} {publishTime : SystemTime} {publishInstant : Instant}
    {messages : List TopicMessage} {rest : List TopicRequest}
    (h : l.step (.server (.topicReceive t publishTime publishInstant)) = some l')
    (hmailbox : (l.managers.server.topics t).mailbox = .publishMessages messages :: rest)
    (t' : Topic) : l'.publishesOf t' = l.publishesOf t' ++ if t' = t then
      [⟨t, messages, ((l.managers.server.topics t).actor.publish publishTime publishInstant
        messages).1, (l.managers.server.topics t).actor.subscriptions.values⟩] else [] := by
  rw [publishesOf_step h, Managers.publishOf_eq hmailbox, List.filter_singleton]
  by_cases ht : t' = t
  · rw [if_pos ht, ht, decide_eq_true rfl]
    rfl
  · rw [if_neg ht, decide_eq_false (Ne.symm ht)]
    rfl

/-- The IDs of a topic are its numbers from one on, in order. -/
structure Assigns (l : PublishLog) : Prop where
  live : l.managers.Live
  created : ∀ q ∈ l.publishes, q.topic ∈ l.managers.createdTopics
  inOrder : ∀ q ∈ l.publishes, q.InOrder
  ids : ∀ t ∈ l.managers.createdTopics, l.assignedTo t =
    (List.range (l.managers.nextMessageId t)).map fun i => MessageId.new t.internalId (i + 1)

namespace Assigns

lemma start : PublishLog.start.Assigns where
  live := .start
  created _ hq := absurd hq List.not_mem_nil
  inOrder _ hq := absurd hq List.not_mem_nil
  ids _ ht := absurd ht List.not_mem_nil

lemma publishesOf_eq_nil (h : l.Assigns) {t : Topic} (ht : t ∉ l.managers.createdTopics) :
    l.publishesOf t = [] := by
  refine List.filter_eq_nil_iff.mpr fun q hq he => ht ?_
  rw [← decide_eq_true_iff.mp he]
  exact h.created q hq

lemma silent (h : l.Assigns) {e : ManagersEvent} (hstep : l.step e = some l')
    (hpublish : l.managers.publishOf e = []) (hsilent : l.managers.Silent l'.managers) :
    l'.Assigns := by
  obtain ⟨hmanagers, hpublishes, -⟩ := step_eq_some hstep
  rw [hpublish, List.append_nil] at hpublishes
  refine ⟨h.live.step hmanagers, fun q hq => ?_, fun q hq => ?_, fun t ht => ?_⟩
  · rw [hpublishes] at hq
    exact (hsilent.kept _ (h.created q hq)).1
  · rw [hpublishes] at hq
    exact h.inOrder q hq
  · have hsame : l'.assignedTo t = l.assignedTo t := by
      rw [assignedTo, publishesOf_step hstep, hpublish, List.filter_nil, List.append_nil]
      rfl
    rw [hsame]
    by_cases hold : t ∈ l.managers.createdTopics
    · rw [(hsilent.kept t hold).2]
      exact h.ids t hold
    · rw [hsilent.fresh t ht hold, assignedTo, h.publishesOf_eq_nil hold]
      rfl

lemma publish (h : l.Assigns) {t : Topic} {publishTime : SystemTime} {publishInstant : Instant}
    {messages : List TopicMessage} {rest : List TopicRequest}
    (hstep : l.step (.server (.topicReceive t publishTime publishInstant)) = some l')
    (ht : t ∈ l.managers.createdTopics)
    (hmailbox : (l.managers.server.topics t).mailbox = .publishMessages messages :: rest)
    (hcreated : l'.managers.createdTopics = l.managers.createdTopics)
    (hserver : l'.managers.server = l.managers.server.topicHandle t publishTime publishInstant
      (.publishMessages messages) rest) : l'.Assigns := by
  obtain ⟨hmanagers, hpublishes, -⟩ := step_eq_some hstep
  rw [Managers.publishOf_eq hmailbox] at hpublishes
  refine ⟨h.live.step hmanagers, fun q hq => ?_, fun q hq => ?_, fun t' ht' => ?_⟩
  · rw [hcreated]
    rw [hpublishes, List.mem_append, List.mem_singleton] at hq
    rcases hq with hq | rfl
    · exact h.created q hq
    · exact ht
  · rw [hpublishes, List.mem_append, List.mem_singleton] at hq
    rcases hq with hq | rfl
    · exact h.inOrder q hq
    · exact TopicActor.markPublished_inOrder ..
  · rw [hcreated] at ht'
    rw [assignedTo, publishesOf_publish hstep hmailbox, Managers.nextMessageId, hserver,
      Server.topics_topicHandle]
    by_cases he : t' = t
    · subst he
      have hnext : ((l.managers.server.topics t').actor.receive publishTime publishInstant
          (.publishMessages messages)).nextMessageId =
          l.managers.nextMessageId t' + messages.length := TopicActor.markPublished_next ..
      rw [if_pos rfl, if_pos rfl, List.flatMap_append, List.flatMap_singleton, hnext,
        List.range_add, List.map_append, List.map_map]
      refine congrArg₂ (· ++ ·) (h.ids t' ht') ?_
      refine (TopicActor.markPublished_ids ..).trans ?_
      rw [(h.live.topics.actor t' ht').topicInternalId]
      rfl
    · rw [if_neg he, if_neg he, List.append_nil]
      exact h.ids t' ht'

lemma step (h : l.Assigns) {e : ManagersEvent} (hstep : l.step e = some l') : l'.Assigns := by
  rcases Managers.publish_of_step h.live.topics (step_eq_some hstep).1 with
    ⟨t, publishTime, publishInstant, messages, rest, rfl, ht, -, hmailbox, hcreated, hserver⟩ |
    ⟨hpublish, hsilent⟩
  · exact h.publish hstep ht hmailbox hcreated hserver
  · exact h.silent hstep hpublish hsilent

end Assigns

end PublishLog

namespace Managers

variable {w w' : Managers}

lemma topic_of_publishOf {e : ManagersEvent} {q : Publish} (h : q ∈ w.publishOf e) :
    ∃ publishTime publishInstant,
      e = .server (.topicReceive q.topic publishTime publishInstant) := by
  unfold publishOf at h
  split at h
  · next t publishTime publishInstant =>
    split at h
    · rw [List.mem_singleton.mp h]
      exact ⟨publishTime, publishInstant, rfl⟩
    · cases h
  · cases h

/-- A topic takes up a request when it has nothing left to post. -/
lemma posting_receive {t : Topic} {publishTime : SystemTime} {publishInstant : Instant}
    (hstep : w.step (.server (.topicReceive t publishTime publishInstant)) = some w') :
    ∃ r rest, (w.server.topics t).posting = none ∧ (w.server.topics t).mailbox = r :: rest ∧
      (w'.server.topics t).posting =
        Server.postingOf (w.server.topics t).actor publishTime publishInstant r := by
  cases transition_of_step hstep with
  | server _ hserver =>
    cases Server.transition_of_step hserver with
    | @topicReceive _ _ _ r rest hidle hmailbox =>
      refine ⟨r, rest, hidle, hmailbox, ?_⟩
      rw [Server.topics_topicHandle, if_pos rfl]

/-- A topic goes on posting until `publish_messages` returns. -/
lemma posting_posting {t : Topic} {e : FanOutEvent}
    (hstep : w.step (.server (.posting t e)) = some w') :
    ∃ p f, (w.server.topics t).posting = some p ∧
      p.fanOut.step p.attached w.server.isOpen p.batch e = some f ∧
      (w'.server.topics t).posting =
        if f.returned.isSome then none else some { p with fanOut := f } := by
  cases transition_of_step hstep with
  | server _ hserver =>
    cases Server.transition_of_step hserver with
    | @posting _ _ p f hposting _ hfan =>
      refine ⟨p, f, hposting, hfan, ?_⟩
      rw [Server.topics_setTopic, if_pos rfl]

/-- Nothing else changes what a topic posts.  A new topic posts nothing. -/
lemma posting_unchanged {e : ManagersEvent} (hstep : w.step e = some w') {t : Topic}
    (hreceive : ∀ publishTime publishInstant,
      e ≠ .server (.topicReceive t publishTime publishInstant))
    (hposting : ∀ e', e ≠ .server (.posting t e')) :
    (w'.server.topics t).posting = (w.server.topics t).posting ∨
      (w'.server.topics t).posting = none ∧
        ∃ topicManager, w.topicManager.createTopic t.name = .ok (t, topicManager) := by
  cases transition_of_step hstep with
  | @createTopic info t₀ topicManager hcreate =>
    rw [Server.topics_setTopic]
    split_ifs with ht
    · have hname : t.name = info.name := by
        rw [ht, (TopicManager.createTopic_eq_ok hcreate).2.1]
      refine .inr ⟨rfl, topicManager, ?_⟩
      rw [hname, hcreate, ht]
    · exact .inl rfl
  | deleteTopic =>
    rw [Server.topics_setTopic]
    split_ifs with ht
    · rw [ht]
      exact .inl rfl
    · exact .inl rfl
  | topicGone => exact .inl rfl
  | server _ hserver =>
    refine .inl (Server.posting_of_step hserver (fun publishTime publishInstant he => ?_)
      fun e' he => ?_)
    · exact hreceive publishTime publishInstant (by rw [he])
    · exact hposting e' (by rw [he])

/-- What the topic posts after a step: what it posted before, or the batch of a publish
that it takes up, or the rest of a batch that it goes on posting. -/
lemma posting_cases {e : ManagersEvent} (hstep : w.step e = some w') {t : Topic} {p' : Posting}
    (hp' : (w'.server.topics t).posting = some p') :
    ((w.server.topics t).posting = some p' ∧
      (∀ publishTime publishInstant, e ≠ .server (.topicReceive t publishTime publishInstant)) ∧
      ∀ e', e ≠ .server (.posting t e')) ∨
    (∃ publishTime publishInstant messages rest,
      e = .server (.topicReceive t publishTime publishInstant) ∧
      (w.server.topics t).mailbox = .publishMessages messages :: rest ∧
      p' = ⟨(w.server.topics t).actor.subscriptions.values,
        ((w.server.topics t).actor.publish publishTime publishInstant messages).1, .start⟩) ∨
    ∃ e' p f, e = .server (.posting t e') ∧ (w.server.topics t).posting = some p ∧
      p.fanOut.step p.attached w.server.isOpen p.batch e' = some f ∧
      f.returned.isSome = false ∧ p' = { p with fanOut := f } := by
  by_cases hreceive : ∃ publishTime publishInstant,
      e = .server (.topicReceive t publishTime publishInstant)
  · obtain ⟨publishTime, publishInstant, rfl⟩ := hreceive
    obtain ⟨r, rest, -, hmailbox, hposting⟩ := posting_receive hstep
    rw [hposting] at hp'
    cases r with
    | publishMessages messages =>
      refine .inr (.inl ⟨publishTime, publishInstant, messages, rest, rfl, hmailbox, ?_⟩)
      exact (Option.some.inj hp').symm
    | _ => cases hp'
  by_cases hposting : ∃ e', e = .server (.posting t e')
  · obtain ⟨e', rfl⟩ := hposting
    obtain ⟨p, f, hp, hfan, hposting⟩ := posting_posting hstep
    rw [hposting] at hp'
    split_ifs at hp' with hret
    refine .inr (.inr ⟨e', p, f, rfl, hp, hfan, Bool.eq_false_iff.mpr hret, ?_⟩)
    exact (Option.some.inj hp').symm
  push Not at hreceive hposting
  rcases posting_unchanged hstep hreceive hposting with hsame | ⟨hnone, -⟩
  · rw [hsame] at hp'
    exact .inl ⟨hp', hreceive, hposting⟩
  · rw [hnone] at hp'
    cases hp'

end Managers

namespace PublishLog

variable {l l' : PublishLog}

/-- A topic posts the batch that it published last, and what was returned are the IDs of
a batch. -/
structure Returns (l : PublishLog) : Prop where
  posting : ∀ t p, (l.managers.server.topics t).posting = some p →
    ∃ q, (l.publishesOf t).getLast? = some q ∧ q.batch = p.batch
  answers : ∀ a ∈ l.answers, a.1 ∈ l.publishes ∧ a.2 = a.1.batch.map (·.id)

namespace Returns

lemma start : PublishLog.start.Returns where
  posting _ _ hp := by cases hp
  answers _ ha := absurd ha List.not_mem_nil

lemma posting_step (h : l.Returns) {e : ManagersEvent} (hstep : l.step e = some l') {t : Topic}
    {p : Posting} (hp : (l'.managers.server.topics t).posting = some p) :
    ∃ q, (l'.publishesOf t).getLast? = some q ∧ q.batch = p.batch := by
  have hsame : (∀ publishTime publishInstant,
      e ≠ .server (.topicReceive t publishTime publishInstant)) →
      l'.publishesOf t = l.publishesOf t := by
    intro hne
    rw [publishesOf_step hstep, List.append_right_eq_self, List.filter_eq_nil_iff]
    intro q hq he
    obtain ⟨publishTime, publishInstant, hevent⟩ := Managers.topic_of_publishOf hq
    rw [decide_eq_true_iff.mp he] at hevent
    exact hne publishTime publishInstant hevent
  rcases Managers.posting_cases (step_eq_some hstep).1 hp with ⟨hold, hne, -⟩ |
    ⟨publishTime, publishInstant, messages, rest, rfl, hmailbox, rfl⟩ |
    ⟨e', p₀, f, rfl, hold, -, -, rfl⟩
  · rw [hsame hne]
    exact h.posting t p hold
  · rw [publishesOf_publish hstep hmailbox, if_pos rfl, List.getLast?_concat]
    exact ⟨_, rfl, rfl⟩
  · rw [hsame (by simp)]
    exact h.posting t p₀ hold

/-- The IDs that are returned are those of the batch that is posted. -/
lemma returnedBy_eq {w : Managers} {e : ManagersEvent} {t : Topic} {ids : List MessageId}
    (h : w.returnedBy e = some (t, ids)) :
    ∃ p, (w.server.topics t).posting = some p ∧ ids = p.batch.map (·.id) := by
  unfold Managers.returnedBy at h
  split at h
  · next t' e' =>
    obtain ⟨p, hp, h⟩ := Option.bind_eq_some_iff.mp h
    obtain ⟨f, hf, h⟩ := Option.bind_eq_some_iff.mp h
    split at h
    · next ids' hids =>
      cases h
      exact ⟨p, hp, FanOut.returned_ok_of_step hf hids⟩
    · cases h
  · cases h

lemma step (h : l.Returns) {e : ManagersEvent} (hstep : l.step e = some l') : l'.Returns := by
  refine ⟨fun t p => h.posting_step hstep, fun a ha => ?_⟩
  obtain ⟨-, hpublishes, hanswers, -⟩ := step_eq_some hstep
  rw [hpublishes]
  rw [hanswers, List.mem_append, Option.mem_toList] at ha
  rcases ha with ha | ha
  · exact ⟨List.mem_append_left _ (h.answers a ha).1, (h.answers a ha).2⟩
  · obtain ⟨⟨t, ids⟩, hreturned, hlast⟩ := Option.bind_eq_some_iff.mp ha
    obtain ⟨q, hq, rfl⟩ := Option.map_eq_some_iff.mp hlast
    obtain ⟨p, hp, rfl⟩ := returnedBy_eq hreturned
    obtain ⟨q', hq', hbatch⟩ := h.posting t p hp
    rw [hq'] at hq
    cases hq
    refine ⟨List.mem_append_left _ ?_, by rw [hbatch]⟩
    exact List.mem_of_mem_filter (List.mem_of_getLast? hq')

end Returns

end PublishLog

end Deltio
