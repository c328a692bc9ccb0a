import Deltio.KeyOrder
import Deltio.MessageIds

namespace Deltio

open Lib SubscriptionActor

structure Birth where
  info : SubscriptionInfo
  pushRegistry : PushSubscriptionsRegistry
  delegate : SubscriptionManagerState
  topicManager : Option TopicManagerRef

/-- The log of the topics, and what the actor of each subscription has handled so far. -/
structure World where
  log : PublishLog
  history : Subscription → List (Env × ActorEvent)

/-- Something happens to the managers, the topics or the mailboxes, or a timer of an actor
fires.  The time and the order of drained maps are those of the actor that is involved. -/
inductive WorldEvent where
  | managers (e : ManagersEvent) (now : Instant) (order : DrainOrder)
  | expired (s : Subscription) (now polledAt : Instant) (order : DrainOrder)
  | retryReady (s : Subscription) (now polledAt : Instant) (order : DrainOrder)

namespace World

def start : World := ⟨.start, fun _ => []⟩

abbrev server (w : World) : Server := w.log.managers.server

def actor (births : Subscription → Birth) (w : World) (s : Subscription) : SubscriptionActor :=
  (SubscriptionActor.start (births s).info s.topic (births s).pushRegistry (births s).delegate
    (births s).topicManager).run (w.history s)

def env (w : World) (now : Instant) (order : DrainOrder) : Env where
  now := now
  topics := w.log.managers.topicManager
  order := order
  topicAnswer := .removed

/-- What the actor of the subscription handles in the event.  A deletion is handled when the
topic has answered; until then the actor handles nothing else. -/
def handledBy (w : World) (s : Subscription) (e : Env) : ManagersEvent → List (Env × ActorEvent)
  | .server (.receive s') =>
    if s' = s then
      match w.server.phase s, w.server.mailbox s with
      | .serving, .delete :: _ => []
      | _, r :: _ => [(e, .request r)]
      | _, [] => []
    else []
  | .server (.finishDelete s') => if s' = s then [(e, .request .delete)] else []
  | _ => []

/-- A timer is looked at by an actor that is not inside `delete`. -/
def fire (w : World) (s : Subscription) (e : Env × ActorEvent) : Option World :=
  if w.server.phase s = .serving ∨ w.server.phase s = .deleted then
    some { w with history := Function.update w.history s (w.history s ++ [e]) }
  else none

def step (w : World) : WorldEvent → Option World
  | .managers e now order =>
    (w.log.step e).map fun log =>
      ⟨log, fun s => w.history s ++ w.handledBy s (w.env now order) e⟩
  | .expired s now polledAt order => w.fire s (w.env now order, .expired polledAt)
  | .retryReady s now polledAt order => w.fire s (w.env now order, .retryReady polledAt)

def run (w : World) (es : List WorldEvent) : Option World := Machine.run step w es

def posts (requests : List SubscriptionRequest) : List TopicMessage :=
  requests.flatMap fun r => (ActorEvent.request r).posted

lemma posts_append_of_fromClient {requests : List SubscriptionRequest} {r : SubscriptionRequest}
    (h : r.fromClient = true) : posts (requests ++ [r]) = posts requests := by
  cases r with
  | postMessages => cases h
  | _ => simp [posts, ActorEvent.posted]

lemma posts_append_postMessages (requests : List SubscriptionRequest) (batch : List TopicMessage) :
    posts (requests ++ [.postMessages batch]) = posts requests ++ batch := by
  simp [posts, ActorEvent.posted]

end World

def Phase.deleting : Phase → Bool
  | .removing | .awaiting | .answered => true
  | _ => false

/-- The actor stays where it is, or gets on inside `delete`. -/
def Phase.Continues (p p' : Phase) : Prop := p' = p ∨ p.deleting = true ∧ p'.deleting = true

lemma Phase.Continues.eq_of_not_deleting {p p' : Phase} (h : Continues p p')
    (hp : p'.deleting = false ∨ p.deleting = false) : p' = p := by
  rcases h with h | ⟨h, h'⟩
  · exact h
  · rw [h, h'] at hp
    rcases hp with hp | hp <;> cases hp

namespace Server

inductive SideStep (sv sv' : Server) (s : Subscription) : ServerEvent → Prop where
  | untouched {e : ServerEvent} (hmailbox : sv'.mailbox s = sv.mailbox s)
      (hphase : (sv.phase s).Continues (sv'.phase s)) (hreceive : e ≠ .receive s)
      (hfinish : e ≠ .finishDelete s)
      (hpost : ∀ t, e = .posting t (.post s) → sv.isOpen s = false) : SideStep sv sv' s e
  | created {e : ServerEvent} (hphase : sv.phase s = .absent) (hphase' : sv'.phase s = .serving)
      (hmailbox' : sv'.mailbox s = []) (hcreate : ∃ name topic, e = .create name topic) :
      SideStep sv sv' s e
  | requested {r : SubscriptionRequest} (hclient : r.fromClient = true)
      (hmailbox : sv'.mailbox s = sv.mailbox s ++ [r]) (hopen : sv.isOpen s = true)
      (hphase : sv'.phase s = sv.phase s) : SideStep sv sv' s (.request s r)
  | posted {t : Topic} {p : Posting} (hposting : (sv.topics t).posting = some p)
      (hmailbox : sv'.mailbox s = sv.mailbox s ++ [.postMessages p.batch])
      (hopen : sv.isOpen s = true) (hphase : sv'.phase s = sv.phase s) :
      SideStep sv sv' s (.posting t (.post s))
  | received {r : SubscriptionRequest} {rest : List SubscriptionRequest}
      (hphase : sv.phase s = .serving ∨ sv.phase s = .deleted)
      (hmailbox : sv.mailbox s = r :: rest) (hmailbox' : sv'.mailbox s = rest)
      (hphase' : sv'.phase s = phaseAfter (sv.phase s) r) : SideStep sv sv' s (.receive s)
  | finished (hmailbox : sv'.mailbox s = sv.mailbox s) (hphase : sv.phase s = .answered)
      (hphase' : sv'.phase s = .deleted) : SideStep sv sv' s (.finishDelete s)
  | stopped (hphase : sv.phase s = .deleted) (hphase' : sv'.phase s = .stopped) :
      SideStep sv sv' s (.stop s)

section

variable {sv sv' : Server} {s : Subscription} {e : ServerEvent}

lemma SideStep.of_setSubscription {sv₀ : Server} {s₀ : Subscription} {side : SubscriptionSide}
    (hne : s ≠ s₀) (hsv : sv₀.subscriptions = sv.subscriptions) (hreceive : e ≠ .receive s)
    (hfinish : e ≠ .finishDelete s) (hpost : ∀ t, e ≠ .posting t (.post s)) :
    SideStep sv (sv₀.setSubscription s₀ side) s e := by
  refine .untouched ?_ (.inl ?_) hreceive hfinish fun t ht => absurd ht (hpost t)
  · rw [mailbox_setSubscription, if_neg hne, mailbox, hsv]
    rfl
  · rw [phase_setSubscription, if_neg hne, phase, hsv]
    rfl

lemma sideStep_of_step (hnew : ∀ s, sv.phase s ≠ .absent → s.internalId ≠ sv.manager.nextId + 1)
    (hstep : sv.step e = some sv') (s : Subscription) : SideStep sv sv' s e := by
  cases transition_of_step hstep with
  | @create name topic hfree =>
    by_cases hs : s = ⟨name, sv.manager.nextId + 1, topic⟩
    · refine .created ?_ ?_ ?_ ⟨name, topic, rfl⟩
      · by_contra hold
        exact hnew s hold (by rw [hs])
      · rw [phase_setSubscription, if_pos hs]
      · rw [mailbox_setSubscription, if_pos hs]
    · exact .of_setSubscription hs rfl (by simp) (by simp) (by simp)
  | sendAttach =>
    exact .untouched (mailbox_setSubscription_of_eq sv s rfl)
      (.inl (phase_setSubscription_of_eq sv s rfl)) (by simp) (by simp) (by simp)
  | @request s₀ r hopen hroom =>
    have hclient : r.fromClient = true := by
      simp only [step, Option.ite_none_right_eq_some] at hstep
      exact hstep.1.1
    by_cases hs : s = s₀
    · subst hs
      exact .requested hclient (by rw [mailbox_send, if_pos rfl]) hopen (phase_send ..)
    · exact .of_setSubscription hs rfl (by simp) (by simp) (by simp)
  | topicRequest => exact .untouched rfl (.inl rfl) (by simp) (by simp) (by simp)
  | @topicReceive t publishTime publishInstant r rest hidle hmailbox =>
    refine .untouched (mailbox_answer sv s r) ?_ (by simp) (by simp) (by simp)
    change (sv.phase s).Continues ((sv.answer r).phase s)
    rcases phase_answer sv s r with hsame | ⟨hawaiting, hanswered⟩
    · exact .inl hsame
    · rw [hawaiting, hanswered]
      exact .inr ⟨rfl, rfl⟩
  | @posting t e p f hposting hroom hfan =>
    rcases deliver_cases sv p.batch e with hsame | ⟨s₀, rfl, hopen, hsent⟩
    · have hmailbox : (sv.deliver p.batch e).mailbox s = sv.mailbox s := by rw [hsame]
      refine .untouched hmailbox (.inl (phase_deliver ..)) (by simp) (by simp) ?_
      rintro t' ⟨⟩
      -- a batch that was posted to an open mailbox would be in it
      by_contra hopen
      rw [deliver, if_pos (Bool.not_eq_false _ ▸ hopen)] at hsame
      have hlength := congrArg (fun sv => (mailbox sv s).length) hsame
      simp [mailbox_send] at hlength
    · by_cases hs : s = s₀
      · subst hs
        refine .posted hposting ?_ hopen ?_
        · change (sv.deliver p.batch (.post s)).mailbox s = _
          rw [hsent, mailbox_send, if_pos rfl]
        · exact phase_deliver ..
      · refine .untouched ?_ (.inl (phase_deliver ..)) (by simp) (by simp) ?_
        · change (sv.deliver p.batch (.post s₀)).mailbox s = _
          rw [hsent, mailbox_send, if_neg hs]
        · rintro t' ⟨⟩
          exact absurd rfl hs
  | @receive s₀ r rest hphase hmailbox =>
    by_cases hs : s = s₀
    · subst hs
      exact .received hphase hmailbox (by rw [mailbox_setSubscription, if_pos rfl])
        (by rw [phase_setSubscription, if_pos rfl])
    · exact .of_setSubscription hs rfl (by simpa using Ne.symm hs) (by simp) (by simp)
  | @sendRemove s₀ hphase =>
    refine .untouched (mailbox_setPhase ..) ?_ (by simp) (by simp) (by simp)
    change (sv.phase s).Continues ((sv.setPhase s₀ .awaiting).phase s)
    rw [phase_setPhase]
    split_ifs with hs
    · rw [hs, hphase]
      exact .inr ⟨rfl, rfl⟩
    · exact .inl rfl
  | @finishDelete s₀ hphase =>
    by_cases hs : s = s₀
    · subst hs
      exact .finished (mailbox_setPhase ..) hphase (by rw [phase_setPhase, if_pos rfl])
    · exact .of_setSubscription hs rfl (by simp) (by simpa using Ne.symm hs) (by simp)
  | @stop s₀ hphase =>
    by_cases hs : s = s₀
    · subst hs
      exact .stopped hphase (by rw [phase_setSubscription, if_pos rfl])
    · exact .of_setSubscription hs rfl (by simp) (by simp) (by simp)

end

end Server

lemma Managers.server_of_step {w w' : Managers} {e : ManagersEvent} (hstep : w.step e = some w') :
    (∃ e', e = .server e' ∧ w.server.step e' = some w'.server) ∨
      ((∀ e', e ≠ .server e') ∧ ∀ s, w'.server.mailbox s = w.server.mailbox s ∧
        (w.server.phase s).Continues (w'.server.phase s)) := by
  cases transition_of_step hstep with
  | createTopic => exact .inr ⟨(by simp), fun s => ⟨rfl, .inl rfl⟩⟩
  | deleteTopic => exact .inr ⟨(by simp), fun s => ⟨rfl, .inl rfl⟩⟩
  | @topicGone s₀ hphase =>
    refine .inr ⟨(by simp), fun s => ⟨Server.mailbox_setPhase .., ?_⟩⟩
    rw [Server.phase_setPhase]
    split_ifs with hs
    · rw [hs, hphase]
      exact .inr ⟨rfl, rfl⟩
    · exact .inl rfl
  | @server e sv _ hserver => exact .inl ⟨e, rfl, hserver⟩

/-- A task that posts the batch, or finds the mailbox closed, is not pending after it. -/
lemma Posting.left_step_sublist {p : Posting} {isOpen : Subscription → Bool} {e : FanOutEvent}
    {f : FanOut} (hstep : p.fanOut.step p.attached isOpen p.batch e = some f) (s : Subscription) :
    ((if e = .post s ∧ isOpen s = true then [p.batch] else []) ++
      (if f.returned.isSome then [] else left { p with fanOut := f } s)).Sublist (p.left s) := by
  obtain ⟨hrunning, htrans⟩ := FanOut.transition_of_step hstep
  -- the task of one subscription moves on
  have hmove : ∀ (s₀ : Subscription) (t : PostTask)
      {sent : Subscription → List (List TopicMessage)}, t ≠ .pending →
      f = { p.fanOut with task := Function.update p.fanOut.task s₀ t, sent := sent } →
      f.returned.isSome = false ∧ left { p with fanOut := f } s = if s = s₀ then [] else p.left s := by
    rintro s₀ t sent hpending rfl
    refine ⟨hrunning, ?_⟩
    simp only [left, Function.update_apply]
    by_cases hs : s = s₀
    · simp only [hs, if_true, hpending, and_false, if_false]
    · simp only [hs, if_false]
  cases htrans with
  | @post s₀ hs₀ htask hopen =>
    obtain ⟨hret, hleft⟩ := hmove s₀ (.finished (.ok ())) (by simp) rfl
    rw [hret, if_neg Bool.false_ne_true, hleft]
    by_cases hs : s = s₀
    · rw [if_pos hs, hs, if_pos ⟨rfl, hopen⟩, left, if_pos ⟨hs₀, htask⟩, List.append_nil]
    · rw [if_neg hs, if_neg fun he => hs (FanOutEvent.post.inj he.1).symm, List.nil_append]
  | @fail s₀ _ _ hclosed =>
    obtain ⟨hret, hleft⟩ := hmove s₀ (.finished (.error .closed)) (by simp) rfl
    rw [hret, if_neg Bool.false_ne_true, hleft]
    have hnone : ¬ (FanOutEvent.post s₀ = .post s ∧ isOpen s = true) := by
      rintro ⟨⟨⟩, hopen⟩
      rw [hclosed] at hopen
      cases hopen
    rw [if_neg hnone, List.nil_append]
    split_ifs
    · exact List.nil_sublist _
    · exact List.Sublist.refl _
  | @join s₀ _ _ =>
    obtain ⟨hret, hleft⟩ := hmove s₀ .joined (by simp) rfl
    rw [hret, if_neg Bool.false_ne_true, hleft, if_neg (fun h => by cases h.1), List.nil_append]
    split_ifs
    · exact List.nil_sublist _
    · exact List.Sublist.refl _
  | abort =>
    rw [if_neg (fun h => by cases h.1)]
    exact List.nil_sublist _
  | finish =>
    rw [if_neg (fun h => by cases h.1)]
    exact List.nil_sublist _

namespace PublishLog

variable {l l' : PublishLog}

/-- What a subscription has received and what its topic has still to post to it are some of the
batches that were published while it was attached, in their order. -/
structure Underway (l : PublishLog) : Prop where
  assigns : l.Assigns
  returns : l.Returns
  addressed : l.managers.server.Addressed
  attached : ∀ q ∈ l.publishes, ∀ s ∈ q.attached, s.topic = q.topic
  received : ∀ s, (l.received s ++ l.managers.pending s).Sublist (l.due s)

namespace Underway

lemma start : PublishLog.start.Underway where
  assigns := .start
  returns := .start
  addressed := .start _ _
  attached _ hq := absurd hq List.not_mem_nil
  received _ := List.Sublist.refl _

lemma posting_eq_none (h : l.Underway) {t : Topic} (ht : t ∉ l.managers.createdTopics) :
    (l.managers.server.topics t).posting = none := by
  rw [Option.eq_none_iff_forall_ne_some]
  intro p hp
  obtain ⟨q, hq, -⟩ := h.returns.posting t p hp
  rw [h.assigns.publishesOf_eq_nil ht] at hq
  cases hq

lemma received_receive (h : l.Underway) {s : Subscription} {publishTime : SystemTime}
    {publishInstant : Instant}
    (hstep : l.step (.server (.topicReceive s.topic publishTime publishInstant)) = some l') :
    (l'.received s ++ l'.managers.pending s).Sublist (l'.due s) := by
  obtain ⟨hmanagers, -, -, hreceived⟩ := step_eq_some hstep
  obtain ⟨r, rest, hidle, hmailbox, hposting⟩ := Managers.posting_receive hmanagers
  have hold : (l.received s).Sublist (l.due s) :=
    (List.sublist_append_left _ _).trans (h.received s)
  have hdelivered : l.managers.deliveredBy s
      (.server (.topicReceive s.topic publishTime publishInstant)) = [] := rfl
  rw [hreceived, hdelivered, List.append_nil, due_step hstep, Managers.pending, hposting]
  refine hold.append ?_
  by_cases hr : ∃ messages, r = .publishMessages messages
  · obtain ⟨messages, rfl⟩ := hr
    set t := (l.managers.server.topics s.topic).actor
    have hleft : ((Server.postingOf t publishTime publishInstant (.publishMessages messages)).map
        (·.left s)).getD [] = if s ∈ t.subscriptions.values ∧ PostTask.pending = .pending then
          [(t.publish publishTime publishInstant messages).1] else [] := rfl
    rw [Managers.publishOf_eq hmailbox, List.filter_singleton, hleft]
    by_cases hs : s ∈ t.subscriptions.values
    · rw [if_pos ⟨hs, rfl⟩, decide_eq_true (by exact hs)]
      exact List.Sublist.refl _
    · rw [if_neg fun h => hs h.1]
      exact List.nil_sublist _
  · have hne : ∀ messages, r ≠ .publishMessages messages := fun messages he => hr ⟨messages, he⟩
    have hnone : Server.postingOf (l.managers.server.topics s.topic).actor publishTime
        publishInstant r = none := by
      cases r with
      | publishMessages messages => exact absurd rfl (hne messages)
      | _ => rfl
    rw [hnone]
    exact List.nil_sublist _

lemma received_posting (h : l.Underway) {s : Subscription} {e : FanOutEvent}
    (hstep : l.step (.server (.posting s.topic e)) = some l') :
    (l'.received s ++ l'.managers.pending s).Sublist (l'.due s) := by
  obtain ⟨hmanagers, -, -, hreceived⟩ := step_eq_some hstep
  obtain ⟨p, f, hp, hfan, hposting⟩ := Managers.posting_posting hmanagers
  have hleft := Posting.left_step_sublist hfan s
  have hdelivered : l.managers.deliveredBy s (.server (.posting s.topic e)) =
      if e = .post s ∧ l.managers.server.isOpen s = true then [p.batch] else [] := by
    cases e with
    | post s' =>
      simp only [Managers.deliveredBy, hp, FanOutEvent.post.injEq]
      rfl
    | join | finish => simp [Managers.deliveredBy]
  have hpending : l'.managers.pending s =
      if f.returned.isSome then [] else Posting.left { p with fanOut := f } s := by
    rw [Managers.pending, hposting]
    split_ifs <;> rfl
  have hpublish : l.managers.publishOf (.server (.posting s.topic e)) = [] := rfl
  have hold := h.received s
  rw [Managers.pending, hp] at hold
  rw [hreceived, hdelivered, hpending, List.append_assoc, due_step hstep, hpublish,
    List.filter_nil, List.map_nil, List.append_nil]
  exact (hleft.append_left _).trans hold

lemma received_step (h : l.Underway) {e : ManagersEvent} (hstep : l.step e = some l')
    (s : Subscription) : (l'.received s ++ l'.managers.pending s).Sublist (l'.due s) := by
  by_cases hreceive : ∃ publishTime publishInstant,
      e = .server (.topicReceive s.topic publishTime publishInstant)
  · obtain ⟨publishTime, publishInstant, rfl⟩ := hreceive
    exact h.received_receive hstep
  by_cases hposting : ∃ e', e = .server (.posting s.topic e')
  · obtain ⟨e', rfl⟩ := hposting
    exact h.received_posting hstep
  push Not at hreceive hposting
  obtain ⟨hmanagers, -, -, hreceived⟩ := step_eq_some hstep
  have hsame := Managers.posting_eq_of_step hmanagers h.assigns.live.topics
    (fun ht => h.posting_eq_none ht) hreceive hposting
  have hold := h.received s
  rw [Managers.pending] at hold
  rw [hreceived, Managers.deliveredBy_eq_nil h.addressed hmanagers hposting, List.append_nil,
    due_step hstep, Managers.pending, hsame]
  exact hold.trans (List.sublist_append_left _ _)

lemma step (h : l.Underway) {e : ManagersEvent} (hstep : l.step e = some l') : l'.Underway where
  assigns := h.assigns.step hstep
  returns := h.returns.step hstep
  addressed := Managers.addressed_step h.addressed (step_eq_some hstep).1
  attached q hq s hs := by
    rw [(step_eq_some hstep).2.1] at hq
    rcases List.mem_append.mp hq with hq | hq
    · exact h.attached q hq s hs
    · exact Managers.topic_of_attached h.addressed hq hs
  received := h.received_step hstep

lemma run (h : l.Underway) {es : List ManagersEvent} (hrun : l.run es = some l') : l'.Underway :=
  Machine.run_preserves hrun h fun _ _ _ hl hstep => hl.step hstep

/-- The messages that were published to a subscription have growing IDs. -/
lemma pairwise_due (h : l.Underway) {s : Subscription}
    (hfew : (l.assignedTo s.topic).length < 2 ^ 32) :
    (l.due s).flatten.Pairwise fun m m' => m.id.value < m'.id.value := by
  have hfilter : l.publishes.filter (s ∈ ·.attached) =
      (l.publishesOf s.topic).filter (s ∈ ·.attached) := by
    rw [publishesOf, List.filter_filter]
    refine List.filter_congr fun q hq => ?_
    by_cases hs : s ∈ q.attached
    · simp [hs, h.attached q hq s hs]
    · simp [hs]
  have hdue : ((l.due s).flatten.map (·.id)).Sublist (l.assignedTo s.topic) := by
    rw [due, ← List.flatMap_def, List.map_flatMap, hfilter]
    exact List.filter_sublist.flatMap _
  have hassigned : (l.assignedTo s.topic).Pairwise fun id id' => id.value < id'.value := by
    by_cases ht : s.topic ∈ l.managers.createdTopics
    · rw [h.assigns.length_assignedTo ht] at hfew
      rw [h.assigns.ids _ ht, List.pairwise_map]
      refine List.pairwise_lt_range.imp_of_mem fun {i j} hi hj hlt => ?_
      rw [List.mem_range] at hi hj
      simp only [MessageId.new]
      rw [← Nat.shiftLeft_add_eq_or_of_lt (by omega), ← Nat.shiftLeft_add_eq_or_of_lt (by omega)]
      omega
    · rw [assignedTo, h.assigns.publishesOf_eq_nil ht]
      exact .nil
  have hids := hassigned.sublist hdue
  rw [List.pairwise_map] at hids
  exact hids

end Underway

end PublishLog

namespace World

variable {w w' : World}

/-- What the actor of a subscription has handled and what waits in its mailbox are what it has
received. -/
structure Handed (w : World) : Prop where
  underway : w.log.Underway
  absent : ∀ s, w.server.phase s = .absent → w.server.mailbox s = []
  gone : ∀ s, w.server.phase s = .deleted ∨ w.server.phase s = .stopped →
    ∃ e ∈ w.history s, e.2.discards
  begun : ∀ s, posted (w.history s) <+: (w.log.received s).flatten
  handed : ∀ s, w.server.phase s ≠ .stopped →
    posted (w.history s) ++ posts (w.server.mailbox s) = (w.log.received s).flatten

lemma Handed.start : World.start.Handed where
  underway := .start
  absent _ _ := rfl
  gone _ h := by rcases h with h | h <;> cases h
  begun _ := List.prefix_rfl
  handed _ _ := rfl

lemma Handed.fire (h : w.Handed) {s : Subscription} {e : Env × ActorEvent}
    (he : e.2.posted = []) (hstep : w.fire s e = some w') : w'.Handed := by
  unfold World.fire at hstep
  split_ifs at hstep with hphase
  cases hstep
  have hposted : ∀ s', posted (Function.update w.history s (w.history s ++ [e]) s') =
      posted (w.history s') := by
    intro s'
    by_cases hs : s' = s
    · rw [hs, Function.update_self, posted_append, posted, posted, List.flatMap_singleton, he,
        List.append_nil]
    · rw [Function.update_of_ne hs]
  refine ⟨h.underway, h.absent, fun s' hs' => ?_, fun s' => ?_, fun s' hs' => ?_⟩
  · obtain ⟨e', he', hdiscards⟩ := h.gone s' hs'
    refine ⟨e', ?_, hdiscards⟩
    by_cases hs : s' = s
    · subst hs
      dsimp only
      rw [Function.update_self]
      exact List.mem_append_left _ he'
    · dsimp only
      rwa [Function.update_of_ne hs]
  · dsimp only
    rw [hposted]
    exact h.begun s'
  · dsimp only
    rw [hposted]
    exact h.handed s' hs'

lemma step_managers {e : ManagersEvent} {now : Instant} {order : DrainOrder}
    (hstep : w.step (.managers e now order) = some w') :
    w.log.step e = some w'.log ∧
      ∀ s, w'.history s = w.history s ++ w.handledBy s (w.env now order) e := by
  obtain ⟨log, hlog, rfl⟩ := Option.map_eq_some_iff.mp hstep
  exact ⟨hlog, fun _ => rfl⟩

/-- What a step has to do for one subscription to keep it in order. -/
structure HandsOn (w w' : World) (s : Subscription) : Prop where
  absent : w'.server.phase s = .absent → w'.server.mailbox s = []
  gone : w'.server.phase s = .deleted ∨ w'.server.phase s = .stopped →
    ∃ e ∈ w'.history s, e.2.discards
  begun : posted (w'.history s) <+: (w'.log.received s).flatten
  handed : w'.server.phase s ≠ .stopped →
    posted (w'.history s) ++ posts (w'.server.mailbox s) = (w'.log.received s).flatten

section

variable {s : Subscription}

lemma Handed.handsOn_of_unhandled (h : w.Handed) (batches : List (List TopicMessage))
    (hhistory : w'.history s = w.history s)
    (hphase : (w.server.phase s).Continues (w'.server.phase s))
    (habsent : w.server.phase s = .absent → w'.server.mailbox s = w.server.mailbox s)
    (hreceived : w'.log.received s = w.log.received s ++ batches)
    (hmailbox : posts (w'.server.mailbox s) = posts (w.server.mailbox s) ++ batches.flatten) :
    HandsOn w w' s where
  absent hs := by
    have hsame := hphase.eq_of_not_deleting (.inl (by rw [hs]; rfl))
    rw [hs] at hsame
    rw [habsent hsame.symm]
    exact h.absent s hsame.symm
  gone hs := by
    have hsame := hphase.eq_of_not_deleting (.inl (by rcases hs with hs | hs <;> rw [hs] <;> rfl))
    rw [hhistory]
    exact h.gone s (hsame ▸ hs)
  begun := by
    rw [hhistory, hreceived, List.flatten_append]
    exact (h.begun s).trans (List.prefix_append _ _)
  handed hs := by
    have hold : w.server.phase s ≠ .stopped := by
      intro hstopped
      have hsame := hphase.eq_of_not_deleting (.inr (by rw [hstopped]; rfl))
      exact hs (hsame.trans hstopped)
    rw [hhistory, hreceived, hmailbox, List.flatten_append, ← h.handed s hold, List.append_assoc]

lemma Handed.handsOn_received (h : w.Handed) {env : Env} {r : SubscriptionRequest}
    {rest : List SubscriptionRequest}
    (hhistory : w'.history s = w.history s ++ w.handledBy s env (.server (.receive s)))
    (hreceived : w'.log.received s = w.log.received s)
    (hphase : w.server.phase s = .serving ∨ w.server.phase s = .deleted)
    (hmailbox : w.server.mailbox s = r :: rest) (hmailbox' : w'.server.mailbox s = rest)
    (hphase' : w'.server.phase s = Server.phaseAfter (w.server.phase s) r) :
    HandsOn w w' s := by
  have hposted : posted (w'.history s) = posted (w.history s) ++ (ActorEvent.request r).posted := by
    rw [hhistory, posted_append]
    congr 1
    rcases hphase with hphase | hphase
    · cases r <;> simp [handledBy, hphase, hmailbox, posted, ActorEvent.posted]
    · simp [handledBy, hphase, hmailbox, posted]
  have hold := h.handed s (by rcases hphase with hphase | hphase <;> simp [hphase])
  have hposts : posts (w.server.mailbox s) =
      (ActorEvent.request r).posted ++ posts (w'.server.mailbox s) := by
    rw [hmailbox, hmailbox']
    exact List.flatMap_cons
  rw [hposts, ← List.append_assoc, ← hposted, ← hreceived] at hold
  refine ⟨fun habsent => ?_, fun hgone => ?_, ⟨_, hold⟩, fun _ => hold⟩
  · rw [habsent] at hphase'
    exact absurd hphase'.symm (Server.phaseAfter_ne_absent hphase r)
  · -- an actor that is deleted after it took a request was so before
    have hdeleted : w.server.phase s = .deleted := by
      rcases hphase with hserving | hdeleted
      · rw [hphase', hserving] at hgone
        cases r <;> rcases hgone with hgone | hgone <;> cases hgone
      · exact hdeleted
    obtain ⟨e, he, hdiscards⟩ := h.gone s (.inl hdeleted)
    refine ⟨e, ?_, hdiscards⟩
    rw [hhistory]
    exact List.mem_append_left _ he

lemma Handed.handsOn (h : w.Handed) {e : ManagersEvent} {now : Instant} {order : DrainOrder}
    (hstep : w.step (.managers e now order) = some w') (s : Subscription) : HandsOn w w' s := by
  obtain ⟨hlog, hhistory⟩ := step_managers hstep
  obtain ⟨hmanagers, -, -, hreceived⟩ := PublishLog.step_eq_some hlog
  rcases Managers.server_of_step hmanagers with ⟨e, rfl, hserver⟩ | ⟨hne, hsame⟩
  · have hlive := h.underway.assigns.live.subscriptions
    have hnew : ∀ s, w.server.phase s ≠ .absent → s.internalId ≠ w.server.manager.nextId + 1 :=
      fun s hs he => hlive.counted.not_mem he ((hlive.created s).mpr hs)
    cases Server.sideStep_of_step hnew hserver s with
    | untouched hmailbox hphase hreceive hfinish hpost =>
      have hdelivered : w.log.managers.deliveredBy s (.server e) = [] := by
        unfold Managers.deliveredBy
        split
        · next t s' heq =>
          refine if_neg ?_
          rintro ⟨rfl, hopen⟩
          have hclosed := hpost t (ManagersEvent.server.inj heq)
          exact Bool.false_ne_true (hclosed.symm.trans hopen)
        · rfl
      have hhandled : w.handledBy s (w.env now order) (.server e) = [] := by
        cases e with
        | receive s' => exact if_neg fun hs => hreceive (by rw [hs])
        | finishDelete s' => exact if_neg fun hs => hfinish (by rw [hs])
        | _ => rfl
      refine h.handsOn_of_unhandled [] ?_ hphase (fun _ => hmailbox) ?_ ?_
      · rw [hhistory, hhandled, List.append_nil]
      · rw [hreceived, hdelivered]
      · rw [hmailbox, List.flatten_nil, List.append_nil]
    | created hphase hphase' hmailbox' hcreate =>
      obtain ⟨name, topic, rfl⟩ := hcreate
      have hold := h.handed s (by simp [hphase])
      rw [h.absent s hphase] at hold
      have hempty : posted (w'.history s) ++ posts (w'.server.mailbox s) =
          (w'.log.received s).flatten := by
        rw [hhistory, hmailbox', hreceived]
        simpa [handledBy, Managers.deliveredBy] using hold
      refine ⟨fun hs => ?_, fun hs => ?_, ⟨_, hempty⟩, fun _ => hempty⟩
      · exact hmailbox'
      · rw [hphase'] at hs
        rcases hs with hs | hs <;> cases hs
    | @requested r hclient hmailbox hopen hphase =>
      refine h.handsOn_of_unhandled [] ?_ (.inl hphase) (fun hs => ?_) (hreceived s) ?_
      · exact (hhistory s).trans (List.append_nil _)
      · exact absurd hs (Server.phase_ne_absent hopen)
      · rw [hmailbox, posts_append_of_fromClient hclient, List.flatten_nil, List.append_nil]
    | @posted t p hposting hmailbox hopen hphase =>
      have hdelivered : w.log.managers.deliveredBy s (.server (.posting t (.post s))) =
          [p.batch] := by
        dsimp only [Managers.deliveredBy]
        rw [if_pos ⟨rfl, hopen⟩, hposting]
        rfl
      refine h.handsOn_of_unhandled [p.batch] ?_ (.inl hphase) (fun hs => ?_) ?_ ?_
      · exact (hhistory s).trans (List.append_nil _)
      · exact absurd hs (Server.phase_ne_absent hopen)
      · rw [hreceived, hdelivered]
      · rw [hmailbox, posts_append_postMessages, List.flatten_singleton]
    | received hphase hmailbox hmailbox' hphase' =>
      exact h.handsOn_received (hhistory s) ((hreceived s).trans (List.append_nil _)) hphase hmailbox
        hmailbox' hphase'
    | finished hmailbox hphase hphase' =>
      have hhandled : w'.history s = w.history s ++ [(w.env now order, .request .delete)] := by
        rw [hhistory]
        exact congrArg (w.history s ++ ·) (if_pos rfl)
      have hempty : posted (w'.history s) ++ posts (w'.server.mailbox s) =
          (w'.log.received s).flatten := by
        have hold := h.handed s (by simp [hphase])
        rw [hhandled, hmailbox, hreceived, posted_append]
        simpa [posted, ActorEvent.posted, Managers.deliveredBy] using hold
      refine ⟨fun hs => ?_, fun _ => ?_, ⟨_, hempty⟩, fun _ => hempty⟩
      · rw [hphase'] at hs
        cases hs
      · refine ⟨(w.env now order, .request .delete), ?_, trivial⟩
        rw [hhandled]
        exact List.mem_append_right _ List.mem_cons_self
    | stopped hphase hphase' =>
      -- what is left in the mailbox is dropped
      have hhandled : w'.history s = w.history s := (hhistory s).trans (List.append_nil _)
      have hsame : w'.log.received s = w.log.received s := (hreceived s).trans (List.append_nil _)
      refine ⟨fun hs => ?_, fun _ => ?_, ?_, fun hs => absurd hphase' hs⟩
      · rw [hphase'] at hs
        cases hs
      · rw [hhandled]
        exact h.gone s (.inl hphase)
      · rw [hhandled, hsame]
        exact h.begun s
  · obtain ⟨hmailbox, hphase⟩ := hsame s
    have hdelivered : w.log.managers.deliveredBy s e = [] := by
      cases e with
      | server e => exact absurd rfl (hne e)
      | _ => rfl
    have hhandled : w.handledBy s (w.env now order) e = [] := by
      cases e with
      | server e => exact absurd rfl (hne e)
      | _ => rfl
    refine h.handsOn_of_unhandled [] ?_ hphase (fun _ => hmailbox) ?_ ?_
    · rw [hhistory, hhandled, List.append_nil]
    · rw [hreceived, hdelivered]
    · rw [hmailbox, List.flatten_nil, List.append_nil]

end

lemma Handed.step (h : w.Handed) {e : WorldEvent} (hstep : w.step e = some w') : w'.Handed := by
  cases e with
  | managers e now order =>
    have hon := h.handsOn hstep
    exact ⟨h.underway.step (step_managers hstep).1, fun s => (hon s).absent, fun s => (hon s).gone,
      fun s => (hon s).begun, fun s => (hon s).handed⟩
  | expired s now polledAt order => exact h.fire rfl hstep
  | retryReady s now polledAt order => exact h.fire rfl hstep

lemma Handed.run (h : w.Handed) {es : List WorldEvent} (hrun : w.run es = some w') : w'.Handed :=
  Machine.run_preserves hrun h fun _ _ _ hw hstep => hw.step hstep

/-- What the actor was posted has growing IDs. -/
lemma Handed.pairwise_received (h : w.Handed) {s : Subscription}
    (hfew : (w.log.assignedTo s.topic).length < 2 ^ 32) :
    (w.log.received s).flatten.Pairwise fun m m' => m.id.value < m'.id.value := by
  have hsublist : (w.log.received s).Sublist (w.log.due s) :=
    (List.sublist_append_left _ _).trans (h.underway.received s)
  exact (h.underway.pairwise_due hfew).sublist hsublist.flatten

/-- An actor that has dropped nothing is not stopped. -/
lemma Handed.handed_of_kept (h : w.Handed) {s : Subscription}
    (hkept : ∀ e ∈ w.history s, ¬ e.2.discards) :
    posted (w.history s) ++ posts (w.server.mailbox s) = (w.log.received s).flatten := by
  apply h.handed s
  intro hstopped
  obtain ⟨e, he, hdiscards⟩ := h.gone s (.inr hstopped)
  exact hkept e he hdiscards

def PostSucceeds (w : World) : WorldEvent → Prop
  | .managers e _ _ => w.log.PostSucceeds e
  | _ => True

instance (w : World) : DecidablePred w.PostSucceeds
  | .managers e _ _ => inferInstanceAs (Decidable (w.log.PostSucceeds e))
  | .expired .. | .retryReady .. => inferInstanceAs (Decidable True)

lemma served_run {es : List WorldEvent} (hserved : w.log.Served)
    (hopen : Machine.Along step PostSucceeds w es) (hrun : w.run es = some w') :
    w'.log.Served := by
  refine hopen.preserves (I := fun w => w.log.Served) hrun hserved fun u e v hu hc hstep => ?_
  cases e with
  | managers e now order => exact hu.step hc (step_managers hstep).1
  | expired s now polledAt order | retryReady s now polledAt order =>
    simp only [World.step, World.fire] at hstep
    split_ifs at hstep
    cases hstep
    exact hu

/-- Where a published message is, seen from one subscription: its topic has still to post it,
it waits in the mailbox, the filter has dropped it, or the actor has it or is done with it. -/
inductive Stage where
  | toPost
  | inMailbox
  | filtered
  | held (place : Whereabouts)
deriving DecidableEq

def occurrences (births : Subscription → Birth) (w : World) (s : Subscription) (m : TopicMessage) :
    Stage → ℕ
  | .toPost => (w.log.managers.pending s).flatten.count m
  | .inMailbox => (posts (w.server.mailbox s)).count m
  | .filtered => ((posted (w.history s)).filter fun m => !(w.actor births s).accepts m).count m
  | .held place => (w.actor births s).occurrences place m

/-- The stages of a message add up to how often it was published. -/
lemma occurrences_spec (births : Subscription → Birth) (h : w.Handed) (hserved : w.log.Served)
    {s : Subscription} (hkept : ∀ e ∈ w.history s, ¬ e.2.discards) (m : TopicMessage) :
    w.occurrences births s m .toPost + w.occurrences births s m .inMailbox +
      w.occurrences births s m .filtered +
      (w.actor births s).places.occ (w.actor births s).route m = (w.log.due s).flatten.count m := by
  have hocc := occ_run (births s).info s.topic (births s).pushRegistry (births s).delegate
    (births s).topicManager hkept m
  have hdue := congrArg List.flatten (hserved.received s)
  rw [List.flatten_append, ← h.handed_of_kept hkept] at hdue
  have hcount := congrArg (List.count m) hdue
  rw [List.count_append, List.count_append] at hcount
  have hsplit : (posted (w.history s)).count m =
      ((posted (w.history s)).filter (w.actor births s).accepts).count m +
        ((posted (w.history s)).filter fun m => !(w.actor births s).accepts m).count m := by
    rw [← List.count_append]
    exact (List.filter_append_perm _ _).count_eq m |>.symm
  unfold actor at hsplit ⊢
  simp only [occurrences, actor]
  omega

/-- Every message that was published while the subscription was attached is in exactly one
stage, and no other message is in any: nothing is lost, doubled or made up between the topic
and the subscriber. -/
theorem published_message_in_one_stage (births : Subscription → Birth) (es : List WorldEvent)
    (w : World) (hrun : start.run es = some w) (hopen : Machine.Along step PostSucceeds start es)
    (s : Subscription) (hkept : ∀ e ∈ w.history s, ¬ e.2.discards)
    (hfew : (w.log.assignedTo s.topic).length < 2 ^ 32) :
    (∀ m ∈ (w.log.due s).flatten, ∃ stage, w.occurrences births s m stage = 1 ∧
      ∀ stage', stage' ≠ stage → w.occurrences births s m stage' = 0) ∧
    ∀ m ∉ (w.log.due s).flatten, ∀ stage, w.occurrences births s m stage = 0 := by
  have h : w.Handed := Handed.start.run hrun
  have hserved : w.log.Served := served_run .start hopen hrun
  have hsound : (w.actor births s).Sound := (sound_start ..).run (w.history s)
  have hnodup : (w.log.due s).flatten.Nodup :=
    (h.underway.pairwise_due hfew).imp fun hlt => by
      rintro rfl
      exact lt_irrefl _ hlt
  have hheld : ∀ m, (w.actor births s).places.occ (w.actor births s).route m = 0 →
      ∀ place, w.occurrences births s m (.held place) = 0 :=
    fun m hocc place => occurrences_eq_zero_of_occ hsound.keyed hocc place
  refine ⟨fun m hm => ?_, fun m hm stage => ?_⟩
  · have htotal := occurrences_spec births h hserved hkept m
    rw [List.count_eq_one_of_mem hnodup hm] at htotal
    by_cases hocc : (w.actor births s).places.occ (w.actor births s).route m = 0
    · -- it has not come to the actor, or the filter has dropped it
      have hone : ∃ stage, (∀ place, stage ≠ .held place) ∧
          w.occurrences births s m stage = 1 := by
        rcases Nat.eq_zero_or_pos (w.occurrences births s m .toPost) with h0 | hpos
        · rcases Nat.eq_zero_or_pos (w.occurrences births s m .inMailbox) with h0' | hpos'
          · exact ⟨.filtered, (by simp), by omega⟩
          · exact ⟨.inMailbox, (by simp), by omega⟩
        · exact ⟨.toPost, (by simp), by omega⟩
      obtain ⟨stage, hstage, hone⟩ := hone
      refine ⟨stage, hone, fun stage' hne => ?_⟩
      cases stage' with
      | held place => exact hheld m hocc place
      | toPost | inMailbox | filtered =>
        cases stage with
        | held place => exact absurd rfl (hstage place)
        | toPost | inMailbox | filtered => first | exact absurd rfl hne | omega
    · obtain ⟨place, hplace⟩ := exists_exactlyAt hsound.keyed
        (show (w.actor births s).places.occ (w.actor births s).route m = 1 by omega)
      refine ⟨.held place, hplace.once, fun stage' hne => ?_⟩
      cases stage' with
      | held place' => exact hplace.nowhereElse place' fun he => hne (by rw [he])
      | toPost | inMailbox | filtered => omega
  · have htotal := occurrences_spec births h hserved hkept m
    rw [List.count_eq_zero.mpr hm] at htotal
    cases stage with
    | held place => exact hheld m (by omega) place
    | toPost | inMailbox | filtered => omega

namespace Sample

open Managers.Sample

def births (_ : Subscription) : Birth := ⟨Deltio.Sample.info, ∅, .new, none⟩

def message (id : ℕ) : TopicMessage :=
  { TopicMessage.new [] none 0 with id := MessageId.new 2 id, orderingKey := some "k" }

/-- Two messages of a key are published, posted, pulled and acked one after the other. -/
def events : List WorldEvent :=
  ([.createTopic info, .server (.create name (topic 2)), .server (.sendAttach (subscription 2)),
    .server (.topicReceive (topic 2) 0 0),
    .server (.topicRequest (topic 2) (.publishMessages
      [{ TopicMessage.new [] none 0 with orderingKey := some "k" },
        { TopicMessage.new [] none 0 with orderingKey := some "k" }])),
    .server (.topicReceive (topic 2) 0 0), .server (.posting (topic 2) (.post (subscription 2))),
    .server (.request (subscription 2) (.pullMessages 1 0)),
    .server (.request (subscription 2) (.acknowledgeMessages [⟨1⟩])),
    .server (.receive (subscription 2)), .server (.receive (subscription 2)),
    .server (.receive (subscription 2))] : List ManagersEvent).map
    fun e => .managers e 0 .identity

end Sample

/-- The first message is acked, and in no other stage. -/
theorem published_message_acked : ∃ w, start.run Sample.events = some w ∧
    ∃ stage, w.occurrences Sample.births (Managers.Sample.subscription 2) (Sample.message 1) stage =
      1 ∧ ∀ stage', stage' ≠ stage → w.occurrences Sample.births (Managers.Sample.subscription 2)
        (Sample.message 1) stage' = 0 := by
  have hreached : (start.run Sample.events).map (fun w =>
      ((w.log.assignedTo (Managers.Sample.topic 2)).length,
        (w.log.due (Managers.Sample.subscription 2)).flatten,
        (w.history (Managers.Sample.subscription 2)).all fun e => !e.2.isDiscard)) =
      some (2, [Sample.message 1, Sample.message 2], true) := by
    decide +kernel
  have hopen : Machine.Along step PostSucceeds start Sample.events := by
    decide +kernel
  obtain ⟨w, hrun, hw⟩ := Option.map_eq_some_iff.mp hreached
  simp only [Prod.mk.injEq] at hw
  obtain ⟨hassigned, hdue, hkept⟩ := hw
  refine ⟨w, hrun, (published_message_in_one_stage Sample.births Sample.events w hrun hopen
    (Managers.Sample.subscription 2) ?_ ?_).1 _ ?_⟩
  · exact ActorEvent.not_discards_of_all hkept
  · exact lt_of_eq_of_lt hassigned (by decide)
  · rw [hdue]
    exact List.mem_cons_self

/-- What an actor hands out was posted to it. -/
lemma mem_posted_of_pulled (births : Subscription → Birth) {s : Subscription}
    {pull : Env × ActorEvent} {p : PulledMessage} (hp : p ∈ (w.actor births s).pulled pull) :
    p.message ∈ posted (w.history s) := by
  have hsound : (w.actor births s).Sound := (sound_start ..).run (w.history s)
  have hnone : posted [pull] = [] := by simp [posted, (not_discards_of_mem_pulled hp).2]
  have hle := occ_le_posted (births s).info s.topic (births s).pushRegistry (births s).delegate
    (births s).topicManager (w.history s ++ [pull]) p.message
  rw [posted_append, hnone, List.append_nil, run_append] at hle
  have hleased : 0 < ((w.actor births s).step pull).places.leased.count p.message :=
    Multiset.count_pos.mpr (mem_held_of_pulled hsound.fresh hp)
  refine List.count_pos_iff.mp (lt_of_lt_of_le hleased (le_trans ?_ hle))
  change _ ≤ ((w.actor births s).step pull).places.occ _ p.message
  unfold Places.occ
  omega

/-- With message ordering, an actor has at most one message of a key in flight, and hands out a
message only when all earlier messages of its key that the subscription has received are
settled.  Received are the batches that were published while it was attached, or the part of
them that was posted, in the order of their publication. -/
theorem published_order_kept_per_key (births : Subscription → Birth) (es : List WorldEvent)
    (w : World) (hrun : start.run es = some w) (s : Subscription)
    (hordering : (births s).info.enableMessageOrdering = true)
    (hkept : ∀ e ∈ w.history s, ¬ e.2.discards)
    (hfew : (w.log.assignedTo s.topic).length < 2 ^ 32) :
    let a := w.actor births s
    (w.log.received s).Sublist (w.log.due s) ∧
    (∀ key, (a.inFlight key).length ≤ 1 ∧
      (a.inFlight key ++ a.queueOf key).Pairwise fun m m' => m.id.value < m'.id.value) ∧
    ∀ (pull : Env × ActorEvent), ∀ p ∈ a.pulled pull, ∀ key, p.message.orderingKey = some key →
      ∀ before m after, (w.log.received s).flatten = before ++ p.message :: after → m ∈ before →
        a.accepts m = true → m.orderingKey = some key →
        (a.step pull).Settled m ∧ ¬ SubscriptionActor.Live (a.step pull) m := by
  intro a
  have h : w.Handed := Handed.start.run hrun
  have hgrows := h.pairwise_received hfew
  have hposted : (posted (w.history s)).Pairwise fun m m' => m.id.value < m'.id.value :=
    hgrows.sublist (h.begun s).sublist
  refine ⟨(List.sublist_append_left _ _).trans (h.underway.received s), fun key => ?_, ?_⟩
  · exact inFlight_append_pairwise
      (ordering_run (births s).info s.topic _ _ _ (w.history s) hordering)
      (ordered_run (births s).info s.topic _ _ _ hposted) key
  · intro pull p hp key hkey before m after hsplit hm hacc hmkey
    rw [hsplit] at hgrows
    obtain ⟨-, -, hacross⟩ := List.pairwise_append.mp hgrows
    have hlt : m.id.value < p.message.id.value := hacross m hm p.message List.mem_cons_self
    -- what the actor was posted ends behind the message that it hands out
    have hmem : m ∈ posted (w.history s) := by
      have hpmem := mem_posted_of_pulled births hp
      have hbefore : before <+: (w.log.received s).flatten := ⟨_, hsplit.symm⟩
      rcases List.prefix_or_prefix_of_prefix (h.begun s) hbefore with hshort | hlong
      · exact absurd (hacross _ (hshort.subset hpmem) p.message List.mem_cons_self) (lt_irrefl _)
      · exact hlong.subset hm
    exact settled_of_pulled (births s).info s.topic _ _ _ hordering hkept hposted pull hp hkey hmem
      hacc hmkey hlt

/-- The second message of the key is pulled once the first is acked. -/
theorem published_order_kept_after_ack : ∃ w, start.run Sample.events = some w ∧
    ((w.actor Sample.births (Managers.Sample.subscription 2)).step
      (w.env 0 .identity, .request (.pullMessages 1 0))).Settled (Sample.message 1) := by
  have hreached : (start.run Sample.events).map (fun w =>
      ((w.log.assignedTo (Managers.Sample.topic 2)).length,
        (w.log.received (Managers.Sample.subscription 2)).flatten,
        ((w.actor Sample.births (Managers.Sample.subscription 2)).pulled
          (w.env 0 .identity, .request (.pullMessages 1 0))).map (·.message),
        (w.history (Managers.Sample.subscription 2)).all fun e => !e.2.isDiscard,
        (w.actor Sample.births (Managers.Sample.subscription 2)).accepts (Sample.message 1))) =
      some (2, [Sample.message 1, Sample.message 2], [Sample.message 2], true, true) := by
    decide +kernel
  obtain ⟨w, hrun, hw⟩ := Option.map_eq_some_iff.mp hreached
  simp only [Prod.mk.injEq] at hw
  obtain ⟨hassigned, hreceived, hpulled, hkept, haccepts⟩ := hw
  obtain ⟨p, hp, hmessage⟩ := List.mem_map.mp
    (show Sample.message 2 ∈ _ from hpulled ▸ List.mem_cons_self)
  refine ⟨w, hrun, ((published_order_kept_per_key Sample.births Sample.events w hrun
    (Managers.Sample.subscription 2) rfl (ActorEvent.not_discards_of_all hkept) ?_).2.2
    (w.env 0 .identity, .request (.pullMessages 1 0)) p hp "k" (by rw [hmessage]; rfl)
    [Sample.message 1] (Sample.message 1) [] ?_ List.mem_cons_self haccepts rfl).1⟩
  · exact lt_of_eq_of_lt hassigned (by decide)
  · rw [hreceived, hmessage]
    rfl

end World

end Deltio
