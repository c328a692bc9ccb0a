import Deltio.Lib.Machine
import Deltio.Subscription

namespace Deltio

open Lib

structure TopicInfo where
  name : TopicName
  labels : HashMap String String
  messageRetentionDuration : Option Duration
deriving DecidableEq

/-- A partial update; fields that are `none` are left unchanged. -/
structure TopicUpdate where
  labels : Option (HashMap String String) := none
  messageRetentionDuration : Option (Option Duration) := none
deriving DecidableEq

def TopicInfo.applyUpdate (info : TopicInfo) (update : TopicUpdate) : TopicInfo :=
  { info with
    labels := update.labels.getD info.labels
    messageRetentionDuration := update.messageRetentionDuration.getD info.messageRetentionDuration }

inductive PostMessagesError where
  | closed
deriving DecidableEq

inductive PublishMessagesError where
  | topicDoesNotExist
  | closed
deriving DecidableEq

structure TopicActor where
  info : TopicInfo
  messages : List TopicMessage
  subscriptions : HashMap SubscriptionName Subscription
  delegate : TopicManager
  topicInternalId : ℕ
  nextMessageId : ℕ
  deleted : Bool
  publishedCount : ℕ
  publishedBytes : ℕ

namespace TopicActor

def start (delegate : TopicManager) (info : TopicInfo) (topicInternalId : ℕ) : TopicActor where
  info := info
  messages := []
  subscriptions := ∅
  delegate := delegate
  topicInternalId := topicInternalId
  nextMessageId := 0
  deleted := false
  publishedCount := 0
  publishedBytes := 0

def markPublished (topicInternalId : ℕ) (publishTime : SystemTime) (publishInstant : Instant) :
    ℕ → List TopicMessage → List TopicMessage × ℕ
  | nextMessageId, [] => ([], nextMessageId)
  | nextMessageId, m :: ms =>
    let messageId := MessageId.new topicInternalId (nextMessageId + 1)
    let r := markPublished topicInternalId publishTime publishInstant (nextMessageId + 1) ms
    (m.publish messageId publishTime publishInstant :: r.1, r.2)

/-- `publish_messages` up to the posting: the published batch and the state that
holds it. -/
def publish (t : TopicActor) (publishTime : SystemTime) (publishInstant : Instant)
    (messages : List TopicMessage) : List TopicMessage × TopicActor :=
  let r := markPublished t.topicInternalId publishTime publishInstant t.nextMessageId messages
  (r.1, { t with
    nextMessageId := r.2
    publishedCount := t.publishedCount + r.1.length
    publishedBytes := t.publishedBytes + (r.1.map fun m => m.data.length).sum
    messages := t.messages ++ r.1 })

/-- Attaches a subscription; an entry that is there already is left as it is. -/
def attachSubscription (t : TopicActor) (subscription : Subscription) : TopicActor :=
  match t.subscriptions.get subscription.name with
  | some _ => t
  | none => { t with subscriptions := t.subscriptions.insert subscription.name subscription }

def removeSubscription (t : TopicActor) (name : SubscriptionName) : TopicActor :=
  { t with subscriptions := t.subscriptions.remove name }

def delete (t : TopicActor) : TopicActor :=
  if t.deleted then t
  else { t with
    deleted := true
    subscriptions := ∅
    messages := []
    delegate := { t.delegate with topics := t.delegate.topics.remove t.info.name } }

end TopicActor

/-- A spawned task that posts the batch to one subscription: it waits for its
mailbox, has finished, or has been taken out of the join set. -/
inductive PostTask where
  | pending
  | finished (result : Except PostMessagesError Unit)
  | joined
deriving DecidableEq

/-- The posting of a batch.  `sent` is what the tasks have put into each mailbox,
and `returned` what `publish_messages` has returned. -/
structure FanOut where
  task : Subscription → PostTask
  sent : Subscription → List (List TopicMessage)
  returned : Option (Except PublishMessagesError (List MessageId))

/-- What can happen while `publish_messages` waits: the task of a subscription
gets its turn, `join_next` yields the task of a subscription, or the join set
is empty. -/
inductive FanOutEvent where
  | post (s : Subscription)
  | join (s : Subscription)
  | finish
deriving DecidableEq

namespace FanOut

def start : FanOut := ⟨fun _ => .pending, fun _ => [], none⟩

variable (attached : List Subscription) (isOpen : Subscription → Bool) (batch : List TopicMessage)

/-- One event, if it can happen.  A task of a closed mailbox fails; the first
failure that is joined is returned, and dropping the join set aborts the tasks
that have not finished. -/
def step (f : FanOut) (e : FanOutEvent) : Option FanOut :=
  if f.returned.isSome then none
  else
    match e with
    | .post s =>
      if s ∈ attached ∧ f.task s = .pending then
        if isOpen s then
          some { f with
            task := Function.update f.task s (.finished (.ok ()))
            sent := Function.update f.sent s (f.sent s ++ [batch]) }
        else some { f with task := Function.update f.task s (.finished (.error .closed)) }
      else none
    | .join s =>
      if s ∈ attached then
        match f.task s with
        | .finished (.ok _) => some { f with task := Function.update f.task s .joined }
        -- the other tasks are dropped with the join set
        | .finished (.error .closed) => some { f with returned := some (.error .closed) }
        | _ => none
      else none
    | .finish =>
      if ∀ s ∈ attached, f.task s = .joined then
        some { f with returned := some (.ok (batch.map (·.id))) }
      else none

def run (f : FanOut) (schedule : List FanOutEvent) : Option FanOut :=
  Machine.run (step attached isOpen batch) f schedule

/-- Whatever the schedule, when `publish_messages` returns, every open mailbox
has the batch exactly once. -/
def Complete : Prop :=
  ∀ schedule f, start.run attached isOpen batch schedule = some f → f.returned.isSome →
    ∀ s ∈ attached, isOpen s = true → f.sent s = [batch]

variable {attached isOpen batch}

inductive Transition (attached : List Subscription) (isOpen : Subscription → Bool)
    (batch : List TopicMessage) (f : FanOut) : FanOutEvent → FanOut → Prop where
  | post {s : Subscription} (hs : s ∈ attached) (ht : f.task s = .pending) (ho : isOpen s = true) :
      Transition attached isOpen batch f (.post s) { f with
        task := Function.update f.task s (.finished (.ok ()))
        sent := Function.update f.sent s (f.sent s ++ [batch]) }
  | fail {s : Subscription} (hs : s ∈ attached) (ht : f.task s = .pending) (ho : isOpen s = false) :
      Transition attached isOpen batch f (.post s) { f with
        task := Function.update f.task s (.finished (.error .closed)) }
  | join {s : Subscription} (hs : s ∈ attached) (ht : f.task s = .finished (.ok ())) :
      Transition attached isOpen batch f (.join s) { f with task := Function.update f.task s .joined }
  | abort {s : Subscription} (hs : s ∈ attached) (ht : f.task s = .finished (.error .closed)) :
      Transition attached isOpen batch f (.join s) { f with returned := some (.error .closed) }
  | finish (hall : ∀ s ∈ attached, f.task s = .joined) :
      Transition attached isOpen batch f .finish
        { f with returned := some (.ok (batch.map (·.id))) }

lemma transition_of_step {f g : FanOut} {e : FanOutEvent}
    (h : f.step attached isOpen batch e = some g) :
    f.returned.isSome = false ∧ Transition attached isOpen batch f e g := by
  unfold step at h
  by_cases hr : f.returned.isSome = true
  · rw [if_pos hr] at h
    cases h
  rw [if_neg hr] at h
  refine ⟨Bool.eq_false_iff.mpr hr, ?_⟩
  cases e with
  | post s =>
    simp only [Option.ite_none_right_eq_some] at h
    obtain ⟨⟨hs, ht⟩, h⟩ := h
    split_ifs at h with ho
    · cases h
      exact .post hs ht ho
    · cases h
      exact .fail hs ht (Bool.eq_false_iff.mpr ho)
  | join s =>
    simp only [Option.ite_none_right_eq_some] at h
    obtain ⟨hs, h⟩ := h
    split at h
    · next ht =>
      cases h
      exact .join hs ht
    · next ht =>
      cases h
      exact .abort hs ht
    · cases h
  | finish =>
    simp only [Option.ite_none_right_eq_some, Option.some.injEq] at h
    obtain ⟨hall, rfl⟩ := h
    exact .finish hall

structure Inv (attached : List Subscription) (isOpen : Subscription → Bool)
    (batch : List TopicMessage) (f : FanOut) : Prop where
  sent : ∀ s, f.sent s = if f.task s = .pending ∨ isOpen s = false then [] else [batch]
  failed : ∀ s, f.task s = .finished (.error .closed) → isOpen s = false
  returned : f.returned.isSome →
    (∀ s ∈ attached, f.task s = .joined) ∨ ∃ s ∈ attached, isOpen s = false

lemma inv_start : Inv attached isOpen batch start where
  sent := by simp [start]
  failed := by simp [start]
  returned := by simp [start]

/-- The task of `s` moves on and everything else is as it was. -/
lemma Inv.update {f : FanOut} (h : Inv attached isOpen batch f) {s : Subscription} {t : PostTask}
    {sent : List (List TopicMessage)} (hr : f.returned.isSome = false)
    (hsent : sent = if t = .pending ∨ isOpen s = false then [] else [batch])
    (hfailed : t = .finished (.error .closed) → isOpen s = false) :
    Inv attached isOpen batch { f with
      task := Function.update f.task s t
      sent := Function.update f.sent s sent } where
  sent := by
    intro s'
    by_cases hs : s' = s
    · subst hs
      simp [hsent]
    · simp only [Function.update_of_ne hs]
      exact h.sent s'
  failed := by
    intro s'
    by_cases hs : s' = s
    · subst hs
      simpa using hfailed
    · simp only [Function.update_of_ne hs]
      exact h.failed s'
  returned := by simp [hr]

lemma Inv.step {f g : FanOut} {e : FanOutEvent} (h : Inv attached isOpen batch f)
    (hstep : f.step attached isOpen batch e = some g) : Inv attached isOpen batch g := by
  obtain ⟨hr, htrans⟩ := transition_of_step hstep
  cases htrans with
  | @post s hs ht ho =>
    refine h.update hr ?_ (by simp)
    simp [h.sent s, ht, ho]
  | @fail s hs ht ho =>
    have hupdate := h.update (s := s) (t := .finished (.error .closed)) hr rfl fun _ => ho
    simp only [ho, or_true, if_true] at hupdate
    rwa [show ([] : List (List TopicMessage)) = f.sent s by simp [h.sent s, ho],
      Function.update_eq_self] at hupdate
  | @join s hs ht =>
    have hupdate := h.update (s := s) (t := .joined) hr rfl (by simp)
    have hsent : (if PostTask.joined = .pending ∨ isOpen s = false then [] else [batch]) =
        f.sent s := by
      rw [h.sent s, ht]
      simp
    rwa [hsent, Function.update_eq_self] at hupdate
  | @abort s hs ht => exact ⟨h.sent, h.failed, fun _ => .inr ⟨s, hs, h.failed s ht⟩⟩
  | finish hall => exact ⟨h.sent, h.failed, fun _ => .inl hall⟩

lemma Inv.run {f g : FanOut} {schedule : List FanOutEvent} (h : Inv attached isOpen batch f)
    (hrun : f.run attached isOpen batch schedule = some g) : Inv attached isOpen batch g :=
  Machine.run_preserves hrun h fun _ _ _ => Inv.step

/-- Only an attached subscription is posted to. -/
lemma mem_of_post {f g : FanOut} {s : Subscription}
    (hstep : f.step attached isOpen batch (.post s) = some g) : s ∈ attached := by
  cases (transition_of_step hstep).2 with
  | post hs => exact hs
  | fail hs => exact hs

/-- A task that is still pending has not had its turn. -/
lemma pending_of_step {f g : FanOut} {e : FanOutEvent} {s : Subscription}
    (hstep : f.step attached isOpen batch e = some g) (hs : g.task s = .pending) :
    f.task s = .pending ∧ e ≠ .post s := by
  -- a task that moves does not move to `pending`
  have hmoved : ∀ {s' t}, Function.update f.task s' t s = .pending → t ≠ .pending →
      s ≠ s' ∧ f.task s = .pending := by
    intro s' t h ht
    rw [Function.update_apply] at h
    split_ifs at h with he
    · exact absurd h ht
    · exact ⟨he, h⟩
  cases (transition_of_step hstep).2 with
  | post =>
    obtain ⟨hne, hs⟩ := hmoved hs nofun
    exact ⟨hs, fun h => hne (FanOutEvent.post.inj h).symm⟩
  | fail =>
    obtain ⟨hne, hs⟩ := hmoved hs nofun
    exact ⟨hs, fun h => hne (FanOutEvent.post.inj h).symm⟩
  | join => exact ⟨(hmoved hs nofun).2, nofun⟩
  | abort => exact ⟨hs, nofun⟩
  | finish => exact ⟨hs, nofun⟩

/-- The IDs that are returned are those of the batch. -/
lemma returned_ok_of_step {f g : FanOut} {e : FanOutEvent} {ids : List MessageId}
    (hstep : f.step attached isOpen batch e = some g) (hids : g.returned = some (.ok ids)) :
    ids = batch.map (·.id) := by
  obtain ⟨hr, htrans⟩ := transition_of_step hstep
  have hnone : f.returned = none := by
    rwa [Option.isSome_eq_false_iff, Option.isNone_iff_eq_none] at hr
  cases htrans with
  | post | fail | join =>
    rw [show f.returned = some (.ok ids) from hids] at hnone
    cases hnone
  | abort => cases hids
  | finish =>
    cases hids
    rfl

/-- A closed mailbox that gets its turn first ends the call before anybody else
is served. -/
lemma run_closed_first (isOpen : Subscription → Bool) (batch : List TopicMessage)
    {closed : Subscription} (hc : closed ∈ attached) (hclosed : isOpen closed = false) :
    ∃ f, start.run attached isOpen batch [.post closed, .join closed] = some f ∧
      f.returned = some (.error .closed) ∧ ∀ s, f.sent s = [] := by
  refine ⟨{ start with
    task := Function.update start.task closed (.finished (.error .closed))
    returned := some (.error .closed) }, ?_, rfl, fun _ => rfl⟩
  simp [FanOut.run, Machine.run, FanOut.step, start, hc, hclosed]

/-- Posting is complete under every schedule exactly if the attached mailboxes
are all open or all closed. -/
lemma complete_iff : Complete attached isOpen batch ↔
    (∀ s ∈ attached, isOpen s = true) ∨ ∀ s ∈ attached, isOpen s = false := by
  constructor
  · intro h
    by_contra hno
    rw [not_or] at hno
    obtain ⟨hsome, hnone⟩ := hno
    push Not at hsome hnone
    obtain ⟨closed, hc, hclosed⟩ := hsome
    obtain ⟨opened, ho, hopen⟩ := hnone
    -- the schedule in which the closed mailbox comes first
    obtain ⟨f, hrun, hret, hsent⟩ :=
      run_closed_first isOpen batch hc (Bool.eq_false_iff.mpr hclosed)
    have hbatch := h _ f hrun (by rw [hret]; rfl) opened ho (Bool.not_eq_false _ ▸ hopen)
    rw [hsent opened] at hbatch
    cases hbatch
  · rintro h schedule f hrun hret s hs hopen
    have hinv := inv_start.run hrun
    rcases h with hall | hnone
    · rcases hinv.returned hret with hjoined | ⟨closed, hc, hclosed⟩
      · simp [hinv.sent s, hjoined s hs, hopen]
      · rw [hall closed hc] at hclosed
        cases hclosed
    · rw [hnone s hs] at hopen
      cases hopen

end FanOut

/-- `publish_messages` posts its batch to every open mailbox, whatever the order
in which the tasks complete, exactly if the mailboxes of the attached
subscriptions are all open or all closed. -/
theorem publish_complete_iff (t : TopicActor) (publishTime : SystemTime) (publishInstant : Instant)
    (messages : List TopicMessage) (isOpen : Subscription → Bool) :
    let published := t.publish publishTime publishInstant messages
    FanOut.Complete published.2.subscriptions.values isOpen published.1 ↔
      (∀ s ∈ t.subscriptions.values, isOpen s = true) ∨
        ∀ s ∈ t.subscriptions.values, isOpen s = false :=
  FanOut.complete_iff

/-- The mailbox of subscription `b` is closed; its task fails before that of `a`
gets its turn, and `a` misses the batch. -/
theorem publish_misses_open_mailbox :
    let topic : Topic := ⟨⟨"project", "topic"⟩, 1⟩
    let a : Subscription := ⟨⟨"project", "a"⟩, 2, topic⟩
    let b : Subscription := ⟨⟨"project", "b"⟩, 3, topic⟩
    let started := TopicActor.start ⟨∅, 1⟩ ⟨topic.name, ∅, none⟩ topic.internalId
    let t := (started.attachSubscription a).attachSubscription b
    let published := t.publish 0 0 [⟨⟨0⟩, 0, 0, [], none, none⟩]
    ¬ FanOut.Complete published.2.subscriptions.values (fun s => s = a) published.1 := by
  intro topic a b started t published hcomplete
  have ha : a ∈ published.2.subscriptions.values := by decide
  have hb : b ∈ published.2.subscriptions.values := by decide
  obtain ⟨f, hrun, hret, hsent⟩ :=
    FanOut.run_closed_first (fun s => s = a) published.1 hb (by decide)
  have hbatch := hcomplete _ f hrun (by rw [hret]; rfl) a ha (by decide)
  rw [hsent a] at hbatch
  cases hbatch

end Deltio
