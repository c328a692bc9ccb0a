import Deltio.SubscriptionActor
import Deltio.TopicActor

namespace Deltio

open Lib

def mailboxCapacity : ℕ := 128

/-- The requests of a topic actor.  `responder` is the actor that waits for the
answer; an attach is answered to the call that created the subscription. -/
inductive TopicRequest where
  | publishMessages (messages : List TopicMessage)
  | attachSubscription (subscription : Subscription)
  | removeSubscription (name : SubscriptionName) (responder : Subscription)
  | listSubscriptions
  | getInfo
  | updateInfo (update : TopicUpdate)
  | getStats
deriving DecidableEq

namespace TopicRequest

/-- Whether a client may send the request at any time. -/
def fromClient : TopicRequest → Bool
  | attachSubscription _ | removeSubscription _ _ => false
  | _ => true

def apply (subscriptions : HashMap SubscriptionName Subscription) :
    TopicRequest → HashMap SubscriptionName Subscription
  | attachSubscription s =>
    match subscriptions.get s.name with
    | some _ => subscriptions
    | none => subscriptions.insert s.name s
  | removeSubscription name _ => subscriptions.remove name
  | _ => subscriptions

lemma apply_of_fromClient {r : TopicRequest} (h : r.fromClient = true)
    (subscriptions : HashMap SubscriptionName Subscription) :
    r.apply subscriptions = subscriptions := by
  cases r with
  | attachSubscription | removeSubscription => cases h
  | _ => rfl

end TopicRequest

/-- Handles a request, up to the posting of a published batch. -/
def TopicActor.receive (t : TopicActor) (publishTime : SystemTime) (publishInstant : Instant) :
    TopicRequest → TopicActor
  | .publishMessages messages => (t.publish publishTime publishInstant messages).2
  | .attachSubscription s => t.attachSubscription s
  | .removeSubscription name _ => t.removeSubscription name
  | .updateInfo update => { t with info := t.info.applyUpdate update }
  | .listSubscriptions | .getInfo | .getStats => t

lemma TopicActor.subscriptions_receive (t : TopicActor) (publishTime : SystemTime)
    (publishInstant : Instant) (r : TopicRequest) :
    (t.receive publishTime publishInstant r).subscriptions = r.apply t.subscriptions := by
  cases r with
  | attachSubscription s =>
    simp only [receive, attachSubscription, TopicRequest.apply]
    cases t.subscriptions.get s.name <;> rfl
  | _ => rfl

/-- Posting goes through the topic; everything else comes from clients. -/
def SubscriptionRequest.fromClient : SubscriptionRequest → Bool
  | .postMessages _ => false
  | _ => true

/-- How far a subscription is.  Inside `delete` it is `removing` until the topic
accepts its request, `awaiting` until the topic answers and then `answered`.  An
actor that is `deleted` serves requests until it is `stopped`. -/
inductive Phase where
  | absent
  | serving
  | removing
  | awaiting
  | answered
  | deleted
  | stopped
deriving DecidableEq

/-- A subscription: its actor's phase and mailbox, and whether the call that
created it has sent `AttachSubscription`. -/
structure SubscriptionSide where
  phase : Phase
  attachSent : Bool
  mailbox : List SubscriptionRequest

structure Posting where
  attached : List Subscription
  batch : List TopicMessage
  fanOut : FanOut

structure TopicSide where
  actor : TopicActor
  mailbox : List TopicRequest
  posting : Option Posting

structure Server where
  manager : SubscriptionManagerState
  topics : Topic → TopicSide
  subscriptions : Subscription → SubscriptionSide

/-- The atomic steps: the map write of `create_subscription` and its send, a send
of a client, what the topic and subscription actors take out of their mailboxes,
the posting tasks of a topic, and the parts of `delete`.  A call that is refused
changes nothing and is not an event. -/
inductive ServerEvent where
  | create (name : SubscriptionName) (topic : Topic)
  | sendAttach (s : Subscription)
  | request (s : Subscription) (r : SubscriptionRequest)
  | topicRequest (t : Topic) (r : TopicRequest)
  | topicReceive (t : Topic) (publishTime : SystemTime) (publishInstant : Instant)
  | posting (t : Topic) (e : FanOutEvent)
  | receive (s : Subscription)
  | sendRemove (s : Subscription)
  | finishDelete (s : Subscription)
  | stop (s : Subscription)
deriving DecidableEq

namespace Server

def start (delegate : TopicManager) (info : Topic → TopicInfo) : Server where
  manager := .new
  topics t := ⟨TopicActor.start delegate (info t) t.internalId, [], none⟩
  subscriptions _ := ⟨.absent, false, []⟩

def setTopic (sv : Server) (t : Topic) (side : TopicSide) : Server :=
  { sv with topics := Function.update sv.topics t side }

def setSubscription (sv : Server) (s : Subscription) (side : SubscriptionSide) : Server :=
  { sv with subscriptions := Function.update sv.subscriptions s side }

def phase (sv : Server) (s : Subscription) : Phase := (sv.subscriptions s).phase

def attachSent (sv : Server) (s : Subscription) : Bool := (sv.subscriptions s).attachSent

def mailbox (sv : Server) (s : Subscription) : List SubscriptionRequest :=
  (sv.subscriptions s).mailbox

def setPhase (sv : Server) (s : Subscription) (phase : Phase) : Server :=
  sv.setSubscription s { sv.subscriptions s with phase := phase }

def sendTopic (sv : Server) (t : Topic) (r : TopicRequest) : Server :=
  sv.setTopic t { sv.topics t with mailbox := (sv.topics t).mailbox ++ [r] }

def send (sv : Server) (s : Subscription) (r : SubscriptionRequest) : Server :=
  sv.setSubscription s { sv.subscriptions s with mailbox := sv.mailbox s ++ [r] }

/-- The mailbox of an actor that has stopped is closed. -/
def isOpen (sv : Server) (s : Subscription) : Bool :=
  match sv.phase s with
  | .absent | .stopped => false
  | _ => true

lemma phase_ne_absent {sv : Server} {s : Subscription} (h : sv.isOpen s = true) :
    sv.phase s ≠ .absent := by
  intro ha
  rw [isOpen, ha] at h
  cases h

def topicHasRoom (sv : Server) (t : Topic) : Prop := (sv.topics t).mailbox.length < mailboxCapacity

def hasRoom (sv : Server) (s : Subscription) : Prop := (sv.mailbox s).length < mailboxCapacity

instance (sv : Server) (t : Topic) : Decidable (sv.topicHasRoom t) :=
  inferInstanceAs (Decidable (_ < _))

instance (sv : Server) (s : Subscription) : Decidable (sv.hasRoom s) :=
  inferInstanceAs (Decidable (_ < _))

/-- The answer of the topic reaches an actor that waits for it. -/
def answer (sv : Server) : TopicRequest → Server
  | .removeSubscription _ s => if sv.phase s = .awaiting then sv.setPhase s .answered else sv
  | _ => sv

def postingOf (t : TopicActor) (publishTime : SystemTime) (publishInstant : Instant) :
    TopicRequest → Option Posting
  | .publishMessages messages =>
    let published := t.publish publishTime publishInstant messages
    some ⟨published.2.subscriptions.values, published.1, .start⟩
  | _ => none

def topicHandle (sv : Server) (t : Topic) (publishTime : SystemTime) (publishInstant : Instant)
    (r : TopicRequest) (rest : List TopicRequest) : Server :=
  let actor := (sv.topics t).actor
  (sv.answer r).setTopic t
    ⟨actor.receive publishTime publishInstant r, rest, postingOf actor publishTime publishInstant r⟩

/-- A posting task that gets its turn puts the batch into an open mailbox. -/
def deliver (sv : Server) (batch : List TopicMessage) : FanOutEvent → Server
  | .post s => if sv.isOpen s then sv.send s (.postMessages batch) else sv
  | _ => sv

def mayPost (sv : Server) : FanOutEvent → Prop
  | .post s => sv.isOpen s = true → sv.hasRoom s
  | _ => True

instance (sv : Server) : DecidablePred sv.mayPost
  | .post s => inferInstanceAs (Decidable (sv.isOpen s = true → sv.hasRoom s))
  | .join _ | .finish => inferInstanceAs (Decidable True)

def phaseAfter : Phase → SubscriptionRequest → Phase
  | .serving, .delete => .removing
  | phase, _ => phase

lemma phaseAfter_ne_absent {p : Phase} (h : p = .serving ∨ p = .deleted)
    (r : SubscriptionRequest) : phaseAfter p r ≠ .absent := by
  rcases h with rfl | rfl
  · cases r <;> exact nofun
  · exact nofun

/-- One event, if it can happen. -/
def step (sv : Server) : ServerEvent → Option Server
  | .create name topic =>
    if topic.name.isInProject name.projectId then
      match sv.manager.createSubscription name topic with
      | .ok (s, manager) =>
        some ({ sv with manager := manager }.setSubscription s ⟨.serving, false, []⟩)
      | .error _ => none
    else none
  | .sendAttach s =>
    -- the subscription can be found, and deleted, since the write of the map
    if sv.phase s ≠ .absent ∧ sv.attachSent s = false ∧ sv.topicHasRoom s.topic then
      some ((sv.setSubscription s { sv.subscriptions s with attachSent := true }).sendTopic s.topic
        (.attachSubscription s))
    else none
  | .request s r =>
    if r.fromClient = true ∧ sv.isOpen s = true ∧ sv.hasRoom s then some (sv.send s r) else none
  | .topicRequest t r =>
    if r.fromClient = true ∧ sv.topicHasRoom t then some (sv.sendTopic t r) else none
  | .topicReceive t publishTime publishInstant =>
    -- an actor that is publishing does not look at its mailbox
    match (sv.topics t).posting, (sv.topics t).mailbox with
    | none, r :: rest => some (sv.topicHandle t publishTime publishInstant r rest)
    | _, _ => none
  | .posting t e =>
    match (sv.topics t).posting with
    | none => none
    | some p =>
      if sv.mayPost e then
        (p.fanOut.step p.attached sv.isOpen p.batch e).map fun f =>
          (sv.deliver p.batch e).setTopic t { sv.topics t with
            posting := if f.returned.isSome then none else some { p with fanOut := f } }
      else none
  | .receive s =>
    -- nor does one that is inside `delete`
    if sv.phase s = .serving ∨ sv.phase s = .deleted then
      match sv.mailbox s with
      | r :: rest => some (sv.setSubscription s { sv.subscriptions s with
          phase := phaseAfter (sv.phase s) r
          mailbox := rest })
      | [] => none
    else none
  | .sendRemove s =>
    if sv.phase s = .removing ∧ sv.topicHasRoom s.topic then
      some ((sv.setPhase s .awaiting).sendTopic s.topic (.removeSubscription s.name s))
    else none
  | .finishDelete s =>
    if sv.phase s = .answered then
      some ({ sv with manager := sv.manager.delete s.name }.setPhase s .deleted)
    else none
  | .stop s =>
    -- what is still in the mailbox is dropped with it
    if sv.phase s = .deleted then
      some (sv.setSubscription s { sv.subscriptions s with phase := .stopped, mailbox := [] })
    else none

def run (sv : Server) (es : List ServerEvent) : Option Server := Machine.run step sv es

section Updates

variable (sv : Server) (s s' : Subscription) (t t' : Topic)

lemma subscriptions_setSubscription (side : SubscriptionSide) :
    (sv.setSubscription s side).subscriptions s' = if s' = s then side else sv.subscriptions s' :=
  Function.update_apply ..

lemma topics_setTopic (side : TopicSide) :
    (sv.setTopic t side).topics t' = if t' = t then side else sv.topics t' :=
  Function.update_apply ..

@[simp] lemma manager_setSubscription (side : SubscriptionSide) :
    (sv.setSubscription s side).manager = sv.manager := rfl

lemma phase_setSubscription (side : SubscriptionSide) :
    (sv.setSubscription s side).phase s' = if s' = s then side.phase else sv.phase s' := by
  rw [phase, subscriptions_setSubscription]
  split_ifs <;> rfl

lemma attachSent_setSubscription (side : SubscriptionSide) :
    (sv.setSubscription s side).attachSent s' =
      if s' = s then side.attachSent else sv.attachSent s' := by
  rw [attachSent, subscriptions_setSubscription]
  split_ifs <;> rfl

lemma mailbox_setSubscription (side : SubscriptionSide) :
    (sv.setSubscription s side).mailbox s' = if s' = s then side.mailbox else sv.mailbox s' := by
  rw [mailbox, subscriptions_setSubscription]
  split_ifs <;> rfl

variable {s} in
lemma phase_setSubscription_of_eq {side : SubscriptionSide} (h : side.phase = sv.phase s) :
    (sv.setSubscription s side).phase s' = sv.phase s' := by
  rw [phase_setSubscription, ite_eq_right_iff]
  rintro rfl
  exact h

variable {s} in
lemma attachSent_setSubscription_of_eq {side : SubscriptionSide}
    (h : side.attachSent = sv.attachSent s) :
    (sv.setSubscription s side).attachSent s' = sv.attachSent s' := by
  rw [attachSent_setSubscription, ite_eq_right_iff]
  rintro rfl
  exact h

variable {s} in
lemma mailbox_setSubscription_of_eq {side : SubscriptionSide} (h : side.mailbox = sv.mailbox s) :
    (sv.setSubscription s side).mailbox s' = sv.mailbox s' := by
  rw [mailbox_setSubscription, ite_eq_right_iff]
  rintro rfl
  exact h

lemma phase_setPhase (p : Phase) :
    (sv.setPhase s p).phase s' = if s' = s then p else sv.phase s' :=
  phase_setSubscription ..

@[simp] lemma attachSent_setPhase (p : Phase) :
    (sv.setPhase s p).attachSent s' = sv.attachSent s' :=
  attachSent_setSubscription_of_eq sv s' rfl

@[simp] lemma mailbox_setPhase (p : Phase) : (sv.setPhase s p).mailbox s' = sv.mailbox s' :=
  mailbox_setSubscription_of_eq sv s' rfl

@[simp] lemma phase_send (r : SubscriptionRequest) : (sv.send s r).phase s' = sv.phase s' :=
  phase_setSubscription_of_eq sv s' rfl

@[simp] lemma attachSent_send (r : SubscriptionRequest) :
    (sv.send s r).attachSent s' = sv.attachSent s' :=
  attachSent_setSubscription_of_eq sv s' rfl

lemma mailbox_send (r : SubscriptionRequest) :
    (sv.send s r).mailbox s' = if s' = s then sv.mailbox s ++ [r] else sv.mailbox s' :=
  mailbox_setSubscription ..

@[simp] lemma phase_sendTopic (r : TopicRequest) : (sv.sendTopic t r).phase s = sv.phase s := rfl

@[simp] lemma attachSent_sendTopic (r : TopicRequest) :
    (sv.sendTopic t r).attachSent s = sv.attachSent s := rfl

/-- An answer moves an actor that waits for it, and nothing else. -/
lemma answer_cases (r : TopicRequest) :
    sv.answer r = sv ∨ ∃ s, sv.phase s = .awaiting ∧ sv.answer r = sv.setPhase s .answered := by
  cases r with
  | removeSubscription name s =>
    by_cases h : sv.phase s = .awaiting
    · exact .inr ⟨s, h, if_pos h⟩
    · exact .inl (if_neg h)
  | _ => exact .inl rfl

@[simp] lemma topics_answer (r : TopicRequest) : (sv.answer r).topics = sv.topics := by
  rcases answer_cases sv r with h | ⟨s, -, h⟩ <;> rw [h]
  rfl

@[simp] lemma manager_answer (r : TopicRequest) : (sv.answer r).manager = sv.manager := by
  rcases answer_cases sv r with h | ⟨s, -, h⟩ <;> rw [h]
  rfl

@[simp] lemma attachSent_answer (r : TopicRequest) :
    (sv.answer r).attachSent s = sv.attachSent s := by
  rcases answer_cases sv r with h | ⟨s', -, h⟩ <;> rw [h]
  exact attachSent_setPhase ..

@[simp] lemma mailbox_answer (r : TopicRequest) : (sv.answer r).mailbox s = sv.mailbox s := by
  rcases answer_cases sv r with h | ⟨s', -, h⟩ <;> rw [h]
  exact mailbox_setPhase ..

lemma phase_answer (r : TopicRequest) :
    (sv.answer r).phase s = sv.phase s ∨
      sv.phase s = .awaiting ∧ (sv.answer r).phase s = .answered := by
  rcases answer_cases sv r with h | ⟨s', hs', h⟩
  · rw [h]
    exact .inl rfl
  · rw [h, phase_setPhase]
    split_ifs with hs
    · exact .inr ⟨hs ▸ hs', rfl⟩
    · exact .inl rfl

/-- A delivery puts the batch into one mailbox or changes nothing. -/
lemma deliver_cases (batch : List TopicMessage) (e : FanOutEvent) :
    sv.deliver batch e = sv ∨ ∃ s, e = .post s ∧ sv.isOpen s = true ∧
      sv.deliver batch e = sv.send s (.postMessages batch) := by
  cases e with
  | post s =>
    by_cases h : sv.isOpen s = true
    · exact .inr ⟨s, rfl, h, if_pos h⟩
    · exact .inl (if_neg h)
  | join s => exact .inl rfl
  | finish => exact .inl rfl

@[simp] lemma topics_deliver (batch : List TopicMessage) (e : FanOutEvent) :
    (sv.deliver batch e).topics = sv.topics := by
  rcases deliver_cases sv batch e with h | ⟨s, -, -, h⟩ <;> rw [h]
  rfl

@[simp] lemma manager_deliver (batch : List TopicMessage) (e : FanOutEvent) :
    (sv.deliver batch e).manager = sv.manager := by
  rcases deliver_cases sv batch e with h | ⟨s, -, -, h⟩ <;> rw [h]
  rfl

@[simp] lemma phase_deliver (batch : List TopicMessage) (e : FanOutEvent) :
    (sv.deliver batch e).phase s = sv.phase s := by
  rcases deliver_cases sv batch e with h | ⟨s', -, -, h⟩ <;> rw [h]
  exact phase_send ..

@[simp] lemma attachSent_deliver (batch : List TopicMessage) (e : FanOutEvent) :
    (sv.deliver batch e).attachSent s = sv.attachSent s := by
  rcases deliver_cases sv batch e with h | ⟨s', -, -, h⟩ <;> rw [h]
  exact attachSent_send ..

end Updates

inductive Transition (sv : Server) : ServerEvent → Server → Prop where
  | create {name : SubscriptionName} {topic : Topic}
      (hfree : sv.manager.subscriptions.get name = none) :
      Transition sv (.create name topic)
        ({ sv with manager :=
            ⟨sv.manager.subscriptions.insert name ⟨name, sv.manager.nextId + 1, topic⟩,
              sv.manager.nextId + 1⟩ }.setSubscription ⟨name, sv.manager.nextId + 1, topic⟩
          ⟨.serving, false, []⟩)
  | sendAttach {s : Subscription} (hphase : sv.phase s ≠ .absent) (hsent : sv.attachSent s = false) :
      Transition sv (.sendAttach s)
        ((sv.setSubscription s { sv.subscriptions s with attachSent := true }).sendTopic s.topic
          (.attachSubscription s))
  | request {s : Subscription} {r : SubscriptionRequest} (hopen : sv.isOpen s = true)
      (hroom : sv.hasRoom s) : Transition sv (.request s r) (sv.send s r)
  | topicRequest {t : Topic} {r : TopicRequest} (hclient : r.fromClient = true) :
      Transition sv (.topicRequest t r) (sv.sendTopic t r)
  | topicReceive {t : Topic} {publishTime : SystemTime} {publishInstant : Instant}
      {r : TopicRequest} {rest : List TopicRequest} (hidle : (sv.topics t).posting = none)
      (hmailbox : (sv.topics t).mailbox = r :: rest) :
      Transition sv (.topicReceive t publishTime publishInstant)
        (sv.topicHandle t publishTime publishInstant r rest)
  | posting {t : Topic} {e : FanOutEvent} {p : Posting} {f : FanOut}
      (hposting : (sv.topics t).posting = some p) (hroom : sv.mayPost e)
      (hstep : p.fanOut.step p.attached sv.isOpen p.batch e = some f) :
      Transition sv (.posting t e) ((sv.deliver p.batch e).setTopic t { sv.topics t with
        posting := if f.returned.isSome then none else some { p with fanOut := f } })
  | receive {s : Subscription} {r : SubscriptionRequest} {rest : List SubscriptionRequest}
      (hphase : sv.phase s = .serving ∨ sv.phase s = .deleted) (hmailbox : sv.mailbox s = r :: rest) :
      Transition sv (.receive s) (sv.setSubscription s { sv.subscriptions s with
        phase := phaseAfter (sv.phase s) r
        mailbox := rest })
  | sendRemove {s : Subscription} (hphase : sv.phase s = .removing) :
      Transition sv (.sendRemove s)
        ((sv.setPhase s .awaiting).sendTopic s.topic (.removeSubscription s.name s))
  | finishDelete {s : Subscription} (hphase : sv.phase s = .answered) :
      Transition sv (.finishDelete s)
        ({ sv with manager := sv.manager.delete s.name }.setPhase s .deleted)
  | stop {s : Subscription} (hphase : sv.phase s = .deleted) :
      Transition sv (.stop s)
        (sv.setSubscription s { sv.subscriptions s with phase := .stopped, mailbox := [] })

lemma transition_of_step {sv sv' : Server} {e : ServerEvent} (h : sv.step e = some sv') :
    Transition sv e sv' := by
  cases e with
  | create name topic =>
    simp only [step, SubscriptionManagerState.createSubscription] at h
    split_ifs at h
    cases hget : sv.manager.subscriptions.get name with
    | none =>
      rw [hget] at h
      cases h
      exact .create hget
    | some s =>
      rw [hget] at h
      cases h
  | sendAttach s =>
    simp only [step, Option.ite_none_right_eq_some, Option.some.injEq] at h
    obtain ⟨⟨hphase, hsent, -⟩, rfl⟩ := h
    exact .sendAttach hphase hsent
  | request s r =>
    simp only [step, Option.ite_none_right_eq_some, Option.some.injEq] at h
    obtain ⟨⟨-, hopen, hroom⟩, rfl⟩ := h
    exact .request hopen hroom
  | topicRequest t r =>
    simp only [step, Option.ite_none_right_eq_some, Option.some.injEq] at h
    obtain ⟨⟨hclient, -⟩, rfl⟩ := h
    exact .topicRequest hclient
  | topicReceive t publishTime publishInstant =>
    simp only [step] at h
    split at h
    · next r rest hidle hmailbox =>
      cases h
      exact .topicReceive hidle hmailbox
    · cases h
  | posting t e =>
    simp only [step] at h
    split at h
    · cases h
    · next p hposting =>
      simp only [Option.ite_none_right_eq_some, Option.map_eq_some_iff] at h
      obtain ⟨hroom, f, hstep, rfl⟩ := h
      exact .posting hposting hroom hstep
  | receive s =>
    simp only [step, Option.ite_none_right_eq_some] at h
    obtain ⟨hphase, h⟩ := h
    split at h
    · next r rest hmailbox =>
      cases h
      exact .receive hphase hmailbox
    · cases h
  | sendRemove s =>
    simp only [step, Option.ite_none_right_eq_some, Option.some.injEq] at h
    obtain ⟨⟨hphase, -⟩, rfl⟩ := h
    exact .sendRemove hphase
  | finishDelete s =>
    simp only [step, Option.ite_none_right_eq_some, Option.some.injEq] at h
    obtain ⟨hphase, rfl⟩ := h
    exact .finishDelete hphase
  | stop s =>
    simp only [step, Option.ite_none_right_eq_some, Option.some.injEq] at h
    obtain ⟨hphase, rfl⟩ := h
    exact .stop hphase

end Server

end Deltio
