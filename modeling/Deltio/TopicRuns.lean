import Deltio.Server

namespace Deltio

open Lib

/-- What the actor does next: it takes a request or `Delete` out of its mailbox, or
the posting of the batch it has published goes on.  `isOpen` says whether the mailbox
that is posted to is open. -/
inductive TopicEvent where
  | receive (publishTime : SystemTime) (publishInstant : Instant) (r : TopicRequest)
  | delete
  | posting (e : FanOutEvent) (isOpen : Bool)
deriving DecidableEq

/-- The actor, and the posting of the request it took last if that is a publish. -/
structure TopicTask where
  actor : TopicActor
  posting : Option Posting

namespace TopicTask

def start (delegate : TopicManager) (info : TopicInfo) (topicInternalId : ℕ) : TopicTask :=
  ⟨.start delegate info topicInternalId, none⟩

def returned (s : TopicTask) : Option (Except PublishMessagesError (List MessageId)) :=
  s.posting.bind fun p => p.fanOut.returned

def busy (s : TopicTask) : Bool := s.posting.isSome && s.returned.isNone

def step (s : TopicTask) : TopicEvent → Option TopicTask
  | .receive publishTime publishInstant r =>
    if s.busy then none
    else some ⟨s.actor.receive publishTime publishInstant r,
      Server.postingOf s.actor publishTime publishInstant r⟩
  | .delete => if s.busy then none else some ⟨s.actor.delete, none⟩
  | .posting e isOpen =>
    match s.posting with
    | none => none
    | some p =>
      match p.fanOut.step p.attached (fun _ => isOpen) p.batch e with
      | none => none
      | some f => some { s with posting := some { p with fanOut := f } }

def run (s : TopicTask) (es : List TopicEvent) : Option TopicTask := Machine.run step s es

inductive Transition (s : TopicTask) : TopicEvent → TopicTask → Prop where
  | receive {publishTime : SystemTime} {publishInstant : Instant} {r : TopicRequest}
      (hidle : s.busy = false) :
      Transition s (.receive publishTime publishInstant r)
        ⟨s.actor.receive publishTime publishInstant r,
          Server.postingOf s.actor publishTime publishInstant r⟩
  | delete (hidle : s.busy = false) : Transition s .delete ⟨s.actor.delete, none⟩
  | posting {e : FanOutEvent} {isOpen : Bool} {p : Posting} {f : FanOut}
      (hposting : s.posting = some p)
      (hstep : p.fanOut.step p.attached (fun _ => isOpen) p.batch e = some f) :
      Transition s (.posting e isOpen) { s with posting := some { p with fanOut := f } }

lemma transition_of_step {s t : TopicTask} {e : TopicEvent} (h : s.step e = some t) :
    Transition s e t := by
  cases e with
  | receive publishTime publishInstant r =>
    simp only [step, Option.ite_none_left_eq_some, Bool.not_eq_true] at h
    obtain ⟨hidle, h⟩ := h
    cases h
    exact .receive hidle
  | delete =>
    simp only [step, Option.ite_none_left_eq_some, Bool.not_eq_true] at h
    obtain ⟨hidle, h⟩ := h
    cases h
    exact .delete hidle
  | posting e isOpen =>
    simp only [step] at h
    split at h
    · cases h
    · next p hposting =>
      split at h
      · cases h
      · next f hstep =>
        cases h
        exact .posting hposting hstep

end TopicTask

namespace TopicActor

structure Emptied (t : TopicActor) : Prop where
  messages : t.messages = []
  subscriptions : t.subscriptions = ∅

lemma emptied_start (delegate : TopicManager) (info : TopicInfo) (topicInternalId : ℕ) :
    (start delegate info topicInternalId).Emptied := ⟨rfl, rfl⟩

lemma markPublished_eq_nil_iff {topicInternalId : ℕ} {publishTime : SystemTime}
    {publishInstant : Instant} {nextMessageId : ℕ} {messages : List TopicMessage} :
    (markPublished topicInternalId publishTime publishInstant nextMessageId messages).1 = [] ↔
      messages = [] := by
  cases messages with
  | nil => exact iff_of_true rfl rfl
  | cons m ms => exact iff_of_false (List.cons_ne_nil _ _) (List.cons_ne_nil _ _)

lemma Emptied.publish_iff {t : TopicActor} (h : t.Emptied) (publishTime : SystemTime)
    (publishInstant : Instant) (messages : List TopicMessage) :
    (t.publish publishTime publishInstant messages).2.Emptied ↔ messages = [] := by
  have hmessages : (t.publish publishTime publishInstant messages).2.messages = [] ↔
      messages = [] := by
    simp only [publish, h.messages, List.nil_append]
    exact markPublished_eq_nil_iff
  exact ⟨fun he => hmessages.mp he.messages, fun he => ⟨hmessages.mpr he, h.subscriptions⟩⟩

lemma Emptied.not_emptied_attachSubscription {t : TopicActor} (h : t.Emptied)
    (subscription : Subscription) : ¬ (t.attachSubscription subscription).Emptied := by
  intro he
  have hget : (t.attachSubscription subscription).subscriptions.get subscription.name =
      some subscription := by
    simp [attachSubscription, h.subscriptions]
  rw [he.subscriptions] at hget
  cases hget

lemma Emptied.removeSubscription {t : TopicActor} (h : t.Emptied) (name : SubscriptionName) :
    (t.removeSubscription name).Emptied := by
  refine ⟨h.messages, ?_⟩
  change t.subscriptions.remove name = ∅
  rw [h.subscriptions]
  rfl

lemma Emptied.delete {t : TopicActor} (h : t.Emptied) : t.delete.Emptied := by
  unfold TopicActor.delete
  split_ifs
  · exact h
  · exact ⟨rfl, rfl⟩

end TopicActor

/-- The request puts nothing into an empty topic. -/
def TopicRequest.addsNothing : TopicRequest → Bool
  | publishMessages messages => messages.isEmpty
  | attachSubscription _ => false
  | _ => true

namespace TopicActor

lemma Emptied.receive_iff {t : TopicActor} (h : t.Emptied) (publishTime : SystemTime)
    (publishInstant : Instant) (r : TopicRequest) :
    (t.receive publishTime publishInstant r).Emptied ↔ r.addsNothing = true := by
  cases r with
  | publishMessages messages =>
    rw [TopicRequest.addsNothing, List.isEmpty_iff]
    exact h.publish_iff publishTime publishInstant messages
  | attachSubscription subscription =>
    exact iff_of_false (h.not_emptied_attachSubscription subscription) Bool.false_ne_true
  | removeSubscription name _ => exact iff_of_true (h.removeSubscription name) rfl
  | updateInfo update => exact iff_of_true ⟨h.messages, h.subscriptions⟩ rfl
  | listSubscriptions | getInfo | getStats => exact iff_of_true h rfl

lemma deleted_receive (t : TopicActor) (publishTime : SystemTime) (publishInstant : Instant)
    (r : TopicRequest) : (t.receive publishTime publishInstant r).deleted = t.deleted := by
  cases r with
  | attachSubscription subscription =>
    simp only [receive, attachSubscription]
    split <;> rfl
  | _ => rfl

lemma deleted_delete (t : TopicActor) : t.delete.deleted = true := by
  unfold delete
  split_ifs with h
  · exact h
  · rfl

end TopicActor

def TopicRequest.published : TopicRequest → List TopicMessage
  | publishMessages messages => messages
  | _ => []

def TopicEvent.published : TopicEvent → List TopicMessage
  | receive _ _ r => r.published
  | _ => []

namespace TopicActor

lemma map_data_markPublished (topicInternalId : ℕ) (publishTime : SystemTime)
    (publishInstant : Instant) (nextMessageId : ℕ) (messages : List TopicMessage) :
    (markPublished topicInternalId publishTime publishInstant nextMessageId messages).1.map
      (·.data) = messages.map (·.data) := by
  induction messages generalizing nextMessageId with
  | nil => rfl
  | cons m ms ih =>
    rw [markPublished, List.map_cons, ih, List.map_cons]
    rfl

/-- The topic is called `name`, its counters have counted the published messages, and it retains
as many of them unless it has been deleted. -/
structure Counted (name : TopicName) (published : List TopicMessage) (t : TopicActor) : Prop where
  name : t.info.name = name
  count : t.publishedCount = published.length
  bytes : t.publishedBytes = (published.map fun m => m.data.length).sum
  retained : t.deleted = false → t.messages.length = published.length

lemma counted_start (delegate : TopicManager) (info : TopicInfo) (topicInternalId : ℕ) :
    (start delegate info topicInternalId).Counted info.name [] := ⟨rfl, rfl, rfl, fun _ => rfl⟩

variable {t : TopicActor} {name : TopicName} {published : List TopicMessage}

lemma Counted.publish (h : t.Counted name published) (publishTime : SystemTime)
    (publishInstant : Instant) (messages : List TopicMessage) :
    (t.publish publishTime publishInstant messages).2.Counted name (published ++ messages) := by
  have hdata := map_data_markPublished t.topicInternalId publishTime publishInstant t.nextMessageId
    messages
  have hlength := congrArg List.length hdata
  rw [List.length_map, List.length_map] at hlength
  have hbytes := congrArg (List.map List.length) hdata
  rw [List.map_map, List.map_map] at hbytes
  refine ⟨h.name, ?_, ?_, fun hdeleted => ?_⟩
  · change t.publishedCount + _ = _
    rw [h.count, hlength, List.length_append]
  · change t.publishedBytes + (List.map (List.length ∘ TopicMessage.data) _).sum = _
    rw [h.bytes, hbytes, List.map_append, List.sum_append]
    rfl
  · change (t.messages ++ _).length = _
    rw [List.length_append, h.retained hdeleted, hlength, List.length_append]

lemma Counted.receive (h : t.Counted name published) (publishTime : SystemTime)
    (publishInstant : Instant) (r : TopicRequest) :
    (t.receive publishTime publishInstant r).Counted name
      (published ++ r.published) := by
  cases r with
  | publishMessages messages => exact h.publish publishTime publishInstant messages
  | attachSubscription subscription =>
    change Counted name (published ++ []) (t.attachSubscription subscription)
    rw [List.append_nil]
    unfold attachSubscription
    split
    · exact h
    · exact ⟨h.name, h.count, h.bytes, h.retained⟩
  | removeSubscription | updateInfo | listSubscriptions | getInfo | getStats =>
    change Counted name (published ++ []) _
    rw [List.append_nil]
    exact ⟨h.name, h.count, h.bytes, h.retained⟩

lemma Counted.delete (h : t.Counted name published) : t.delete.Counted name published := by
  have hdeleted := t.deleted_delete
  unfold TopicActor.delete at hdeleted ⊢
  split_ifs at hdeleted ⊢ with hd
  · exact h
  · exact ⟨h.name, h.count, h.bytes, fun hf => absurd hf (by simp)⟩

end TopicActor

namespace TopicTask

lemma deleted_step {s t : TopicTask} {e : TopicEvent} (h : s.step e = some t) :
    t.actor.deleted = true ↔ s.actor.deleted = true ∨ .delete = e := by
  cases transition_of_step h with
  | receive => simp [TopicActor.deleted_receive]
  | delete => simp [TopicActor.deleted_delete]
  | posting => simp

lemma deleted_run {s t : TopicTask} {es : List TopicEvent} (h : s.run es = some t) :
    t.actor.deleted = true ↔ s.actor.deleted = true ∨ .delete ∈ es :=
  Machine.run_iff_mem (J := fun _ => True) (D := fun s => s.actor.deleted = true)
    (fun _ _ _ _ _ => trivial) (fun _ _ _ _ hstep => deleted_step hstep) h trivial

def published (es : List TopicEvent) : List TopicMessage := es.flatMap TopicEvent.published

lemma counted_step {s t : TopicTask} {e : TopicEvent} {name : TopicName}
    {messages : List TopicMessage} (hs : s.actor.Counted name messages) (h : s.step e = some t) :
    t.actor.Counted name (messages ++ e.published) := by
  cases transition_of_step h with
  | receive => exact hs.receive _ _ _
  | delete =>
    change TopicActor.Counted name (messages ++ []) _
    rw [List.append_nil]
    exact hs.delete
  | posting =>
    change TopicActor.Counted name (messages ++ []) _
    rw [List.append_nil]
    exact hs

lemma counted_run {s t : TopicTask} {es : List TopicEvent} {name : TopicName}
    {messages : List TopicMessage} (hs : s.actor.Counted name messages) (h : s.run es = some t) :
    t.actor.Counted name (messages ++ published es) := by
  induction es generalizing s messages with
  | nil =>
    cases h
    rwa [published, List.flatMap_nil, List.append_nil]
  | cons e es ih =>
    obtain ⟨u, hstep, hrun⟩ := Machine.run_cons.mp h
    rw [published, List.flatMap_cons, ← List.append_assoc]
    exact ih (counted_step hs hstep) hrun

/-- The batch that is posted is at the end of the messages, and its IDs are the only
ones that the publish returns. -/
def Posted (s : TopicTask) : Prop :=
  ∀ p, s.posting = some p → p.batch <:+ s.actor.messages ∧
    ∀ ids, p.fanOut.returned = some (.ok ids) → ids = p.batch.map (·.id)

lemma posted_of_none {s : TopicTask} (h : s.posting = none) : s.Posted := by
  intro p hp
  rw [h] at hp
  cases hp

lemma Posted.step {s t : TopicTask} {e : TopicEvent} (hs : s.Posted) (h : s.step e = some t) :
    t.Posted := by
  cases transition_of_step h with
  | @receive publishTime publishInstant r hidle =>
    cases r with
    | publishMessages messages =>
      rintro p ⟨⟩
      refine ⟨List.suffix_append _ _, fun ids hids => ?_⟩
      cases hids
    | _ => exact posted_of_none rfl
  | delete => exact posted_of_none rfl
  | @posting e isOpen p f hposting hstep =>
    rintro q ⟨⟩
    exact ⟨(hs p hposting).1, fun _ => FanOut.returned_ok_of_step hstep⟩

/-- What is handled after `Delete` puts nothing into the topic. -/
def Quiet (s : TopicTask) : TopicEvent → Prop
  | .receive _ _ r => s.actor.deleted = true → r.addsNothing = true
  | _ => True

lemma emptied_step_iff {s t : TopicTask} {e : TopicEvent} (h : s.step e = some t)
    (hs : s.actor.deleted = true → s.actor.Emptied) :
    (t.actor.deleted = true → t.actor.Emptied) ↔ s.Quiet e := by
  cases transition_of_step h with
  | @receive publishTime publishInstant r hidle =>
    change ((s.actor.receive _ _ r).deleted = true → _) ↔ (s.actor.deleted = true → _)
    rw [TopicActor.deleted_receive]
    exact forall_congr' fun hd => (hs hd).receive_iff publishTime publishInstant r
  | delete =>
    refine iff_of_true (fun _ => ?_) trivial
    by_cases hd : s.actor.deleted = true
    · exact (hs hd).delete
    · change s.actor.delete.Emptied
      rw [TopicActor.delete, if_neg hd]
      exact ⟨rfl, rfl⟩
  | posting => exact iff_of_true hs trivial

/-- With no messages there is nothing whose ID a publish could return. -/
lemma Posted.returned_of_emptied {s : TopicTask} (hs : s.Posted) (he : s.actor.Emptied)
    {ids : List MessageId} (h : s.returned = some (.ok ids)) : ids = [] := by
  obtain ⟨p, hp, hret⟩ := Option.bind_eq_some_iff.mp h
  obtain ⟨hbatch, hids⟩ := hs p hp
  rw [he.messages, List.suffix_nil] at hbatch
  rw [hids ids hret, hbatch]
  rfl

/-- A topic stays empty after `Delete`, and no later publish returns message IDs, in
every state of a run exactly if no later request attaches a subscription or publishes a
message. -/
theorem deleted_topic_stays_empty_iff (delegate : TopicManager) (info : TopicInfo)
    (topicInternalId : ℕ) (es : List TopicEvent) :
    (∀ n s, (start delegate info topicInternalId).run (es.take n) = some s →
      .delete ∈ es.take n → s.actor.messages = [] ∧ s.actor.subscriptions = ∅ ∧
        ∀ ids, s.returned = some (.ok ids) → ids = []) ↔
      Machine.Along step Quiet (start delegate info topicInternalId) es := by
  have hstart : (start delegate info topicInternalId).Posted := posted_of_none rfl
  rw [← Machine.forall_run_take_iff (J := Posted)
    (I := fun s => s.actor.deleted = true → s.actor.Emptied) (fun _ _ _ => Posted.step)
    (fun _ _ _ _ hI hstep => emptied_step_iff hstep hI) hstart
    (fun _ => TopicActor.emptied_start delegate info topicInternalId) es]
  refine forall_congr' fun n => forall_congr' fun s => forall_congr' fun hrun => ?_
  have hdeleted : s.actor.deleted = true ↔ .delete ∈ es.take n := by
    rw [deleted_run hrun]
    exact or_iff_right Bool.false_ne_true
  have hposted : s.Posted := Machine.run_preserves hrun hstart fun _ _ _ => Posted.step
  rw [hdeleted]
  refine forall_congr' fun _ => ?_
  exact ⟨fun h => ⟨h.1, h.2.1⟩,
    fun h => ⟨h.messages, h.subscriptions, fun _ => hposted.returned_of_emptied h⟩⟩

/-- A publish and an attach that arrive after `Delete`: the message stays in the topic,
its ID is returned, and then the subscription is attached. -/
theorem deleted_topic_takes_requests :
    let topic : Topic := ⟨⟨"project", "topic"⟩, 1⟩
    let s : Subscription := ⟨⟨"project", "sub"⟩, 2, topic⟩
    let m : TopicMessage := ⟨⟨0⟩, 0, 0, [], none, none⟩
    let task := start ⟨∅, 1⟩ ⟨topic.name, ∅, none⟩ topic.internalId
    let es : List TopicEvent := [.delete, .receive 0 0 (.publishMessages [m]), .posting .finish true,
      .receive 0 0 (.attachSubscription s)]
    let id := MessageId.new 1 1
    (task.run (es.take 3)).map (fun t => (t.actor.messages.map (·.id), t.returned)) =
        some ([id], some (.ok [id])) ∧
      (task.run es).map (fun t => t.actor.subscriptions.values) = some [s] := by
  decide

end TopicTask

end Deltio
