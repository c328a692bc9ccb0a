import Deltio.Lib.Registry
import Deltio.ServerRuns

namespace Deltio

open Lib

def Phase.isRegistered : Phase → Bool
  | serving | removing | awaiting | answered => true
  | _ => false

def Phase.isAttached : Phase → Bool
  | serving | removing => true
  | _ => false

/-- Phases the two maps do not tell apart. -/
structure Phase.Alike (p q : Phase) : Prop where
  absent : p = .absent ↔ q = .absent
  isRegistered : p.isRegistered = q.isRegistered
  isAttached : p.isAttached = q.isAttached

lemma Phase.Alike.refl (p : Phase) : Phase.Alike p p := ⟨Iff.rfl, rfl, rfl⟩

lemma Phase.isRegistered_of_isAttached {p : Phase} (h : p.isAttached = true) :
    p.isRegistered = true := by
  cases p with
  | serving | removing => rfl
  | _ => cases h

namespace Server

/-- Taking up a `Delete` is not seen by the maps. -/
lemma alike_phaseAfter {p : Phase} (h : p = .serving ∨ p = .deleted) (r : SubscriptionRequest) :
    Phase.Alike (phaseAfter p r) p := by
  rcases h with rfl | rfl
  · cases r with
    | delete => exact ⟨by decide, rfl, rfl⟩
    | _ => exact .refl _
  · exact .refl _

/-- The map of a topic once it has handled the requests in its mailbox: a request counts from the
moment it is sent. -/
def settled (sv : Server) (t : Topic) : HashMap SubscriptionName Subscription :=
  (sv.topics t).mailbox.foldl TopicRequest.apply (sv.topics t).actor.subscriptions

/-- A subscription asks its topic to remove it only after its own attach request
was sent. -/
def AttachesFirst (sv : Server) : ServerEvent → Prop
  | .sendRemove s => sv.attachSent s = true
  | _ => True

instance (sv : Server) : DecidablePred sv.AttachesFirst
  | .sendRemove s => inferInstanceAs (Decidable (sv.attachSent s = true))
  | .create .. | .sendAttach _ | .request .. | .topicRequest .. | .topicReceive .. | .posting ..
  | .receive _ | .finishDelete _ | .stop _ => inferInstanceAs (Decidable True)

/-- Nobody is creating or deleting the subscription: its attach request was sent
and handled, no `Delete` waits in its mailbox, and it is not inside `delete`. -/
structure IdleAt (sv : Server) (s : Subscription) : Prop where
  attachSent : sv.attachSent s = true
  attached : .attachSubscription s ∉ (sv.topics s.topic).mailbox
  noDelete : .delete ∉ sv.mailbox s
  notRemoving : sv.phase s ≠ .removing
  notAwaiting : sv.phase s ≠ .awaiting
  notAnswered : sv.phase s ≠ .answered
  removed : .removeSubscription s.name s ∉ (sv.topics s.topic).mailbox

def Idle (sv : Server) : Prop := ∀ s, sv.phase s ≠ .absent → sv.IdleAt s

/-- The topic's map has exactly the manager's entries of this topic. -/
def Agrees (sv : Server) (t : Topic) : Prop :=
  ∀ name s, (sv.topics t).actor.subscriptions.get name = some s ↔
    sv.manager.subscriptions.get name = some s ∧ s.topic = t

section Updates

variable (sv : Server) (t t' : Topic)

@[simp] lemma settled_setSubscription (s : Subscription) (side : SubscriptionSide) :
    (sv.setSubscription s side).settled t = sv.settled t := rfl

lemma settled_sendTopic (r : TopicRequest) :
    (sv.sendTopic t r).settled t' = if t' = t then r.apply (sv.settled t) else sv.settled t' := by
  unfold settled sendTopic
  rw [topics_setTopic]
  split_ifs
  · rw [List.foldl_append]
    rfl
  · rfl

/-- An attach request to a free name adds the subscription. -/
lemma get_settled_attach {s : Subscription} (h : (sv.settled s.topic).get s.name = none)
    (name : SubscriptionName) (s' : Subscription) :
    ((sv.sendTopic s.topic (.attachSubscription s)).settled t).get name = some s' ↔
      (t = s.topic ∧ name = s.name ∧ s' = s) ∨ (sv.settled t).get name = some s' := by
  rw [settled_sendTopic]
  by_cases ht : t = s.topic
  · subst ht
    simp only [if_true, TopicRequest.apply, h, HashMap.get_insert]
    by_cases hn : name = s.name
    · subst hn
      simp [h, eq_comm]
    · simp [hn]
  · simp [ht]

/-- A remove request takes the name out. -/
lemma get_settled_remove (s : Subscription) (name : SubscriptionName) (s' : Subscription) :
    ((sv.sendTopic s.topic (.removeSubscription s.name s)).settled t).get name = some s' ↔
      ¬ (t = s.topic ∧ name = s.name) ∧ (sv.settled t).get name = some s' := by
  rw [settled_sendTopic]
  by_cases ht : t = s.topic
  · subst ht
    simp only [if_true, TopicRequest.apply, HashMap.get_remove]
    by_cases hn : name = s.name
    · simp [hn]
    · simp [hn]
  · simp [ht]

lemma settled_topicHandle {r : TopicRequest} {rest : List TopicRequest} (publishTime : SystemTime)
    (publishInstant : Instant) (h : (sv.topics t).mailbox = r :: rest) :
    (sv.topicHandle t publishTime publishInstant r rest).settled t' = sv.settled t' := by
  unfold settled topicHandle
  rw [topics_setTopic]
  split_ifs with ht
  · rw [ht, h, TopicActor.subscriptions_receive]
    rfl
  · rw [topics_answer]

end Updates

def Registers (sv : Server) : Prop :=
  Names Subscription.name (fun s => (sv.phase s).isRegistered = true) sv.manager.subscriptions

namespace Registers

variable {sv : Server}

lemma create (h : sv.Registers) {name : SubscriptionName} {topic : Topic}
    (hfree : sv.manager.subscriptions.get name = none) :
    Registers ({ sv with manager :=
        ⟨sv.manager.subscriptions.insert name ⟨name, sv.manager.nextId + 1, topic⟩,
          sv.manager.nextId + 1⟩ }.setSubscription ⟨name, sv.manager.nextId + 1, topic⟩
      ⟨.serving, false, []⟩) := by
  refine (Names.insert (r := (⟨name, sv.manager.nextId + 1, topic⟩ : Subscription)) h hfree).congr
    fun s => ?_
  rw [phase_setSubscription]
  split_ifs with hs
  · exact iff_of_true rfl (.inl hs)
  · exact (or_iff_right hs).symm

/-- The entry that is taken out is the subscription's own. -/
lemma finishDelete (h : sv.Registers) {s : Subscription} (hphase : sv.phase s = .answered) :
    Registers ({ sv with manager := sv.manager.delete s.name }.setPhase s .deleted) := by
  have hreg : (sv.phase s).isRegistered = true := by
    rw [hphase]
    rfl
  refine (Names.remove h hreg).congr fun s' => ?_
  rw [phase_setPhase]
  split_ifs with hs
  · exact iff_of_false nofun fun hlive => hlive.1 hs
  · exact (and_iff_right hs).symm

end Registers

/-- What holds in every state of a run that attaches first.  The manager's map
has the registered subscriptions, and the map a topic will have has those of its
subscriptions whose attach was sent and whose remove was not. -/
structure Consistent (sv : Server) : Prop where
  registered : ∀ name s, sv.manager.subscriptions.get name = some s ↔
    s.name = name ∧ (sv.phase s).isRegistered = true
  known : ∀ s, sv.phase s ≠ .absent → s.internalId ≤ sv.manager.nextId
  attached : ∀ t name s, (sv.settled t).get name = some s ↔
    s.name = name ∧ s.topic = t ∧ sv.attachSent s = true ∧ (sv.phase s).isAttached = true
  unsent : ∀ s, sv.attachSent s = false → sv.phase s = .absent ∨ (sv.phase s).isAttached = true

namespace Consistent

variable {sv sv' : Server}

lemma start (delegate : TopicManager) (info : Topic → TopicInfo) :
    Consistent (Server.start delegate info) where
  registered _ _ := iff_of_false nofun nofun
  known _ h := absurd rfl h
  attached _ _ _ := iff_of_false nofun nofun
  unsent _ _ := .inl rfl

/-- A step that neither map sees. -/
lemma of_alike (h : Consistent sv) (hmanager : sv'.manager = sv.manager)
    (hphase : ∀ s, Phase.Alike (sv'.phase s) (sv.phase s))
    (hsent : ∀ s, sv'.attachSent s = sv.attachSent s) (hsettled : ∀ t, sv'.settled t = sv.settled t) :
    Consistent sv' where
  registered name s := by
    rw [hmanager, (hphase s).isRegistered]
    exact h.registered name s
  known s hs := by
    rw [hmanager]
    exact h.known s fun ha => hs ((hphase s).absent.mpr ha)
  attached t name s := by
    rw [hsettled, hsent, (hphase s).isAttached]
    exact h.attached t name s
  unsent s hs := by
    rw [(hphase s).absent, (hphase s).isAttached]
    exact h.unsent s (hsent s ▸ hs)

/-- Two registered subscriptions have different names. -/
lemma eq_of_name (h : Consistent sv) {s s' : Subscription} (hs : (sv.phase s).isRegistered = true)
    (hs' : (sv.phase s').isRegistered = true) (hname : s'.name = s.name) : s' = s :=
  Names.eq_of_name h.registered hs hs' hname

/-- The new subscription has a new ID and a free name, and no request of its own
is on the way. -/
lemma create (h : Consistent sv) {name : SubscriptionName} {topic : Topic}
    (hfree : sv.manager.subscriptions.get name = none) :
    Consistent ({ sv with manager :=
        ⟨sv.manager.subscriptions.insert name ⟨name, sv.manager.nextId + 1, topic⟩,
          sv.manager.nextId + 1⟩ }.setSubscription ⟨name, sv.manager.nextId + 1, topic⟩
      ⟨.serving, false, []⟩) where
  registered := Registers.create h.registered hfree
  known s hs := by
    rw [phase_setSubscription] at hs
    split_ifs at hs with he
    · rw [he]
      exact le_rfl
    · exact (h.known s hs).trans (Nat.le_succ _)
  attached t n s := by
    rw [phase_setSubscription, attachSent_setSubscription]
    split_ifs with hs
    · refine iff_of_false (fun he => ?_) fun ha => ha.2.2.1
      -- the ID of the new subscription is in no map
      have hatt := ((h.attached t n s).mp he).2.2.2
      have hle := h.known s (by rintro ha; rw [ha] at hatt; cases hatt)
      rw [hs] at hle
      exact absurd hle (Nat.not_succ_le_self _)
    · exact h.attached t n s
  unsent s hs := by
    rw [phase_setSubscription]
    rw [attachSent_setSubscription] at hs
    split_ifs at hs ⊢ with he
    · exact .inr rfl
    · exact h.unsent s hs

/-- The name is free in the map of the topic, since whoever has it there is
registered under it. -/
lemma sendAttach (h : Consistent sv) {s : Subscription} (hphase : sv.phase s ≠ .absent)
    (hsent : sv.attachSent s = false) :
    Consistent ((sv.setSubscription s { sv.subscriptions s with attachSent := true }).sendTopic
      s.topic (.attachSubscription s)) := by
  have hatt := (h.unsent s hsent).resolve_left hphase
  have hvacant : (sv.settled s.topic).get s.name = none := by
    rw [Option.eq_none_iff_forall_ne_some]
    intro s' hget
    obtain ⟨hname, -, hsent', hatt'⟩ := (h.attached _ _ s').mp hget
    have hs : s' = s := h.eq_of_name (Phase.isRegistered_of_isAttached hatt)
      (Phase.isRegistered_of_isAttached hatt') hname
    rw [hs, hsent] at hsent'
    cases hsent'
  have hphase' : ∀ s', (sv.setSubscription s { sv.subscriptions s with attachSent := true }).phase s'
      = sv.phase s' := by
    intro s'
    rw [phase_setSubscription]
    split_ifs with hs
    · rw [hs]
      rfl
    · rfl
  refine ⟨fun n s' => ?_, fun s' hs' => ?_, fun t n s' => ?_, fun s' hs' => ?_⟩
  · rw [phase_sendTopic, hphase']
    exact h.registered n s'
  · rw [phase_sendTopic, hphase'] at hs'
    exact h.known s' hs'
  · rw [phase_sendTopic, hphase', attachSent_sendTopic, attachSent_setSubscription,
      get_settled_attach _ _ (by exact hvacant), settled_setSubscription]
    have hold := h.attached t n s'
    by_cases hs : s' = s
    · subst hs
      rw [if_pos rfl]
      constructor
      · rintro (⟨ht, hn, -⟩ | hget)
        · exact ⟨hn.symm, ht.symm, rfl, hatt⟩
        · exact ⟨(hold.mp hget).1, (hold.mp hget).2.1, rfl, hatt⟩
      · rintro ⟨hn, ht, -⟩
        exact .inl ⟨ht.symm, hn.symm, rfl⟩
    · simpa [hs] using hold
  · rw [phase_sendTopic, hphase']
    rw [attachSent_sendTopic, attachSent_setSubscription] at hs'
    split_ifs at hs'
    exact h.unsent s' hs'

/-- The entry that is taken out is the subscription's own. -/
lemma sendRemove (h : Consistent sv) {s : Subscription} (hphase : sv.phase s = .removing)
    (hsent : sv.attachSent s = true) :
    Consistent ((sv.setPhase s .awaiting).sendTopic s.topic (.removeSubscription s.name s)) := by
  have hreg : (sv.phase s).isRegistered = true := by rw [hphase]; rfl
  refine ⟨fun n s' => ?_, fun s' hs' => ?_, fun t n s' => ?_, fun s' hs' => ?_⟩
  · rw [phase_sendTopic, phase_setPhase]
    refine (h.registered n s').trans ?_
    split_ifs with hs
    · rw [hs, hphase]
      rfl
    · rfl
  · refine h.known s' fun ha => hs' ?_
    rw [phase_sendTopic, phase_setPhase, if_neg (by rintro rfl; rw [hphase] at ha; cases ha)]
    exact ha
  · rw [phase_sendTopic, phase_setPhase, attachSent_sendTopic, attachSent_setPhase,
      get_settled_remove]
    have hold := h.attached t n s'
    by_cases hs : s' = s
    · subst hs
      simp only [if_true]
      refine iff_of_false (fun hget => hget.1 ?_) (fun ha => by cases ha.2.2.2)
      exact ⟨(hold.mp hget.2).2.1.symm, (hold.mp hget.2).1.symm⟩
    · -- another subscription in the topic's map has another name
      rw [if_neg hs]
      refine Iff.trans (and_iff_right_of_imp fun hget => ?_) hold
      rintro ⟨-, hn⟩
      obtain ⟨hname, -, -, hatt⟩ := hold.mp hget
      exact hs (h.eq_of_name hreg (Phase.isRegistered_of_isAttached hatt) (hname.trans hn))
  · rw [attachSent_sendTopic, attachSent_setPhase] at hs'
    rw [phase_sendTopic, phase_setPhase, if_neg (by rintro rfl; rw [hsent] at hs'; cases hs')]
    exact h.unsent s' hs'

/-- The entry that is taken out is the subscription's own, and its topic has
forgotten it already. -/
lemma finishDelete (h : Consistent sv) {s : Subscription} (hphase : sv.phase s = .answered) :
    Consistent ({ sv with manager := sv.manager.delete s.name }.setPhase s .deleted) := by
  refine ⟨Registers.finishDelete h.registered hphase, fun s' hs' => ?_, fun t n s' => ?_,
    fun s' hs' => ?_⟩
  · refine h.known s' fun ha => hs' ?_
    rw [phase_setPhase, if_neg (by rintro rfl; rw [hphase] at ha; cases ha)]
    exact ha
  · rw [phase_setPhase, attachSent_setPhase]
    refine (h.attached t n s').trans ?_
    split_ifs with hs
    · rw [hs, hphase]
      rfl
    · rfl
  · rw [attachSent_setPhase] at hs'
    rw [phase_setPhase]
    split_ifs with hs
    · -- the remove request was sent, so the attach request was
      have hun := h.unsent s (hs ▸ hs')
      rw [hphase] at hun
      rcases hun with hun | hun <;> cases hun
    · exact h.unsent s' hs'

lemma step (h : Consistent sv) {e : ServerEvent} (hfirst : sv.AttachesFirst e)
    (hstep : sv.step e = some sv') : Consistent sv' := by
  cases transition_of_step hstep with
  | create hfree => exact h.create hfree
  | sendAttach hphase hsent => exact h.sendAttach hphase hsent
  | @request s r _ _ =>
    apply h.of_alike
    · rfl
    · intro s'
      rw [phase_send]
      exact .refl _
    · exact (attachSent_send sv s · r)
    · exact fun _ => rfl
  | @topicRequest t r hclient =>
    apply h.of_alike
    · rfl
    · exact fun _ => .refl _
    · exact fun _ => rfl
    · intro t'
      rw [settled_sendTopic, TopicRequest.apply_of_fromClient hclient]
      split_ifs with ht
      · rw [ht]
      · rfl
  | @topicReceive t publishTime publishInstant r rest _ hmailbox =>
    apply h.of_alike
    · exact manager_answer sv r
    · intro s
      change Phase.Alike ((sv.answer r).phase s) _
      rcases phase_answer sv s r with hs | ⟨hs, hs'⟩
      · rw [hs]
        exact .refl _
      · rw [hs, hs']
        exact ⟨by decide, rfl, rfl⟩
    · exact (attachSent_answer sv · r)
    · exact fun t' => settled_topicHandle sv t t' publishTime publishInstant hmailbox
  | @posting t e p f _ _ _ =>
    apply h.of_alike
    · exact manager_deliver sv p.batch e
    · intro s
      change Phase.Alike ((sv.deliver p.batch e).phase s) _
      rw [phase_deliver]
      exact .refl _
    · exact (attachSent_deliver sv · p.batch e)
    · intro t'
      rw [settled, topics_setTopic, topics_deliver, settled]
      by_cases ht : t' = t
      · rw [if_pos ht, ht]
      · rw [if_neg ht]
  | @receive s r rest hphase _ =>
    apply h.of_alike
    · rfl
    · intro s'
      rw [phase_setSubscription]
      split_ifs with hs
      · rw [hs]
        exact alike_phaseAfter hphase r
      · exact .refl _
    · exact (attachSent_setSubscription_of_eq sv · rfl)
    · exact fun _ => rfl
  | sendRemove hphase => exact h.sendRemove hphase hfirst
  | finishDelete hphase => exact h.finishDelete hphase
  | @stop s hphase =>
    apply h.of_alike
    · rfl
    · intro s'
      rw [phase_setSubscription]
      split_ifs with hs
      · rw [hs, hphase]
        exact ⟨iff_of_false nofun nofun, rfl, rfl⟩
      · exact .refl _
    · exact (attachSent_setSubscription_of_eq sv · rfl)
    · exact fun _ => rfl

lemma run (h : Consistent sv) {es : List ServerEvent}
    (hfirst : Machine.Along Server.step AttachesFirst sv es) (hrun : sv.run es = some sv') :
    Consistent sv' :=
  hfirst.preserves hrun h fun _ _ _ hsv hfirst hstep => hsv.step hfirst hstep

end Consistent

def Untouched (sv : Server) (s : Subscription) : Prop :=
  (sv.phase s = .absent ∨ sv.phase s = .serving) ∧ .delete ∉ sv.mailbox s

lemma Untouched.of_eq {sv sv' : Server} {s : Subscription} (h : sv.Untouched s)
    (hphase : sv'.phase s = sv.phase s) (hmailbox : sv'.mailbox s = sv.mailbox s) :
    sv'.Untouched s := by
  unfold Untouched
  rw [hphase, hmailbox]
  exact h

/-- In the phases of a delete the subscription is not untouched. -/
lemma Untouched.ne_of_phase {sv : Server} {s s' : Subscription} (h : sv.Untouched s) {p : Phase}
    (hp : sv.phase s' = p) (habsent : p ≠ .absent) (hserving : p ≠ .serving) : s ≠ s' := by
  rintro rfl
  rcases h.1 with hs | hs
  · exact habsent (hp.symm.trans hs)
  · exact hserving (hp.symm.trans hs)

lemma Untouched.send {sv : Server} {s s' : Subscription} (h : sv.Untouched s)
    {r : SubscriptionRequest} (hr : s' = s → r ≠ .delete) : (sv.send s' r).Untouched s := by
  refine ⟨by rw [phase_send]; exact h.1, ?_⟩
  rw [mailbox_send]
  split_ifs with hs
  · rw [List.mem_append, List.mem_singleton, ← hs]
    rintro (hmem | hr')
    · exact h.2 hmem
    · exact hr hs.symm hr'.symm
  · exact h.2

lemma Untouched.step {sv sv' : Server} {s : Subscription} {e : ServerEvent} (h : sv.Untouched s)
    (he : e ≠ .request s .delete) (hstep : sv.step e = some sv') : sv'.Untouched s := by
  cases transition_of_step hstep with
  | create hfree =>
    unfold Untouched
    rw [phase_setSubscription, mailbox_setSubscription]
    split_ifs
    · exact ⟨.inr rfl, List.not_mem_nil⟩
    · exact h
  | sendAttach =>
    exact h.of_eq (phase_setSubscription_of_eq sv s rfl) (mailbox_setSubscription_of_eq sv s rfl)
  | request => exact h.send fun hs hr => he (by rw [hs, hr])
  | topicRequest => exact h
  | @topicReceive t publishTime publishInstant r rest =>
    refine h.of_eq ((phase_answer sv s r).resolve_right ?_) (mailbox_answer sv s r)
    rintro ⟨hs, -⟩
    exact h.ne_of_phase hs (by decide) (by decide) rfl
  | @posting t e p =>
    rcases deliver_cases sv p.batch e with hd | ⟨s', -, -, hd⟩ <;> rw [hd]
    · exact h
    · exact h.send fun _ => by simp
  | @receive s' r rest hphase hmailbox =>
    unfold Untouched
    rw [phase_setSubscription, mailbox_setSubscription]
    split_ifs with hs
    · -- the request that is taken up is not a `Delete`
      have hmem := h.2
      rw [hs, hmailbox, List.mem_cons, not_or] at hmem
      refine ⟨?_, hmem.2⟩
      have hserving := h.1
      rw [hs] at hserving
      rcases hserving with hp | hp
      · rcases hphase with hp' | hp' <;> rw [hp'] at hp <;> cases hp
      · rw [hp]
        cases r with
        | delete => exact absurd rfl hmem.1
        | _ => exact .inr rfl
    · exact h
  | @sendRemove s' hphase =>
    refine h.of_eq ?_ (mailbox_setPhase ..)
    rw [phase_sendTopic, phase_setPhase, if_neg (h.ne_of_phase hphase (by decide) (by decide))]
  | @finishDelete s' hphase =>
    refine h.of_eq ?_ (mailbox_setPhase ..)
    rw [phase_setPhase, if_neg (h.ne_of_phase hphase (by decide) (by decide))]
    rfl
  | @stop s' hphase =>
    have hs := h.ne_of_phase hphase (by decide) (by decide)
    refine h.of_eq ?_ ?_
    · rw [phase_setSubscription, if_neg hs]
    · rw [mailbox_setSubscription, if_neg hs]

lemma Untouched.run {sv sv' : Server} {s : Subscription} {es : List ServerEvent}
    (h : sv.Untouched s) (hes : .request s .delete ∉ es) (hrun : sv.run es = some sv') :
    sv'.Untouched s := by
  have halong : Machine.Along Server.step (fun _ e => e ≠ .request s .delete) sv es := by
    apply Machine.along_of_forall
    rintro _ _ he rfl
    exact hes he
  exact halong.preserves (I := fun sv => sv.Untouched s) hrun h
    fun _ _ _ hsv he hstep => hsv.step he hstep

/-- The requests that wait at a topic are the clients'. -/
lemma fromClient_of_idle {sv : Server} (h : sv.Idle) (haddr : sv.Addressed) {t : Topic}
    {r : TopicRequest} (hr : r ∈ (sv.topics t).mailbox) : r.fromClient = true := by
  have hto := haddr.requests t r hr
  cases r with
  | attachSubscription s =>
    obtain ⟨rfl, hs⟩ := hto
    exact absurd hr (h s hs).attached
  | removeSubscription name s =>
    obtain ⟨rfl, rfl, hs⟩ := hto
    exact absurd hr (h s hs).removed
  | _ => rfl

lemma settled_of_idle {sv : Server} (h : sv.Idle) (haddr : sv.Addressed) (t : Topic) :
    sv.settled t = (sv.topics t).actor.subscriptions := by
  have hclient : ∀ r ∈ (sv.topics t).mailbox, r.fromClient = true :=
    fun r hr => fromClient_of_idle h haddr hr
  unfold settled
  generalize (sv.topics t).actor.subscriptions = subscriptions
  generalize (sv.topics t).mailbox = mailbox at hclient
  induction mailbox with
  | nil => rfl
  | cons r rest ih =>
    rw [List.foldl_cons, TopicRequest.apply_of_fromClient (hclient r List.mem_cons_self)]
    exact ih fun r' hr' => hclient r' (List.mem_cons_of_mem _ hr')

lemma Consistent.agrees {sv : Server} (h : Consistent sv) (haddr : sv.Addressed)
    (hidle : sv.Idle) (t : Topic) : sv.Agrees t := by
  intro name s
  rw [← settled_of_idle hidle haddr, h.attached, h.registered]
  constructor
  · rintro ⟨hname, htopic, -, hatt⟩
    exact ⟨⟨hname, Phase.isRegistered_of_isAttached hatt⟩, htopic⟩
  · rintro ⟨⟨hname, hreg⟩, htopic⟩
    have hs : sv.IdleAt s := hidle s (by intro ha; rw [ha] at hreg; cases hreg)
    refine ⟨hname, htopic, hs.attachSent, ?_⟩
    cases hp : sv.phase s with
    | serving | removing => rfl
    | awaiting => exact absurd hp hs.notAwaiting
    | answered => exact absurd hp hs.notAnswered
    | absent | deleted | stopped =>
      rw [hp] at hreg
      cases hreg

/-- Whatever creates and deletes run side by side: once none is in progress, the
map of a topic has exactly the manager's entries of this topic.  None of them has
stopped, so a batch reaches all of them, and a subscription that was created and
never deleted is among them. -/
theorem maps_agree_when_idle (delegate : TopicManager) (info : Topic → TopicInfo)
    {es : List ServerEvent} {sv : Server} (hrun : (start delegate info).run es = some sv)
    (hfirst : Machine.Along step AttachesFirst (start delegate info) es) (hidle : sv.Idle)
    (t : Topic) :
    sv.Agrees t ∧
      (∀ s ∈ (sv.topics t).actor.subscriptions.values, sv.phase s ≠ .stopped) ∧
      (∀ s, s.topic = t → sv.phase s ≠ .absent → .request s .delete ∉ es →
        s ∈ (sv.topics t).actor.subscriptions.values) ∧
      ∀ batch, FanOut.Complete (sv.topics t).actor.subscriptions.values sv.isOpen batch := by
  have hcons := (Consistent.start delegate info).run hfirst hrun
  have hagrees := hcons.agrees ((Addressed.start delegate info).run hrun) hidle t
  -- what is attached is registered, and so has not stopped
  have hopen : ∀ s ∈ (sv.topics t).actor.subscriptions.values, sv.isOpen s = true := by
    intro s hs
    obtain ⟨name, hget⟩ := (HashMap.mem_values _ s).mp hs
    have hreg := ((hcons.registered name s).mp ((hagrees name s).mp hget).1).2
    unfold isOpen
    cases hp : sv.phase s with
    | absent | stopped =>
      rw [hp] at hreg
      cases hreg
    | _ => rfl
  refine ⟨hagrees, fun s hs hstopped => ?_, fun s htopic hcreated hkept => ?_, fun batch => ?_⟩
  · have ho := hopen s hs
    rw [isOpen, hstopped] at ho
    cases ho
  · have huntouched : sv.Untouched s := by
      apply Untouched.run _ hkept hrun
      exact ⟨.inl rfl, List.not_mem_nil⟩
    have hserving := huntouched.1.resolve_left hcreated
    refine (HashMap.mem_values _ s).mpr ⟨s.name, (hagrees s.name s).mpr ⟨?_, htopic⟩⟩
    exact (hcons.registered s.name s).mpr ⟨rfl, by rw [hserving]; rfl⟩
  · exact FanOut.complete_iff.mpr (.inl hopen)

/-- Idleness of the small server needs to be looked at only for the subscriptions
that were created. -/
lemma idle_of_created {es : List ServerEvent} {sv : Server} (hrun : Sample.start.run es = some sv)
    (hid : sv.manager.nextId = 3) (htwo : sv.IdleAt (Sample.subscription 2))
    (hthree : sv.IdleAt (Sample.subscription 3))
    (hcreated : sv.phase (Sample.subscription 2) ≠ .absent ∧
      sv.phase (Sample.subscription 3) ≠ .absent) : sv.Idle := by
  have hident : Identified sv := (Identified.start _ _).run hrun
  intro s hs
  obtain ⟨hgt, hle⟩ := hident.bounds s hs
  rw [hid] at hle
  have hcases : s.internalId = 2 ∨ s.internalId = 3 := by omega
  rcases hcases with hs' | hs'
  · rw [hident.unique s (Sample.subscription 2) hs hcreated.1 hs']
    exact htwo
  · rw [hident.unique s (Sample.subscription 3) hs hcreated.2 hs']
    exact hthree

/-- A subscription is deleted while it is being created, with the attach request
sent first, and then created again. -/
theorem maps_agree_after_recreation :
    let es : List ServerEvent := [.create Sample.name Sample.topic,
      .request (Sample.subscription 2) .delete, .receive (Sample.subscription 2),
      .sendAttach (Sample.subscription 2), .sendRemove (Sample.subscription 2),
      .topicReceive Sample.topic 0 0, .topicReceive Sample.topic 0 0,
      .finishDelete (Sample.subscription 2), .stop (Sample.subscription 2),
      .create Sample.name Sample.topic, .sendAttach (Sample.subscription 3),
      .topicReceive Sample.topic 0 0]
    (Sample.reached es).Agrees Sample.topic ∧
      Sample.subscription 3 ∈
        ((Sample.reached es).topics Sample.topic).actor.subscriptions.values := by
  intro es
  have hrun : Sample.start.run es = some (Sample.reached es) :=
    Sample.run_eq_reached (by decide +kernel)
  have hidle : (Sample.reached es).Idle := by
    apply idle_of_created hrun
    · decide +kernel
    · constructor <;> decide +kernel
    · constructor <;> decide +kernel
    · decide +kernel
  obtain ⟨hagrees, -, hkept, -⟩ := maps_agree_when_idle _ _ hrun
    (show Machine.Along step AttachesFirst Sample.start es by decide +kernel) hidle Sample.topic
  exact ⟨hagrees, hkept _ rfl (by decide +kernel) (by decide +kernel)⟩

/-- A subscription is deleted while it is being created, its remove request
overtaking its attach request, and then created again.  Its topic keeps the
stopped one and never attaches the new one. -/
theorem stopped_subscription_stays_attached :
    let es : List ServerEvent := [.create Sample.name Sample.topic,
      .request (Sample.subscription 2) .delete, .receive (Sample.subscription 2),
      .sendRemove (Sample.subscription 2), .topicReceive Sample.topic 0 0,
      .finishDelete (Sample.subscription 2), .stop (Sample.subscription 2),
      .sendAttach (Sample.subscription 2), .topicReceive Sample.topic 0 0,
      .create Sample.name Sample.topic, .sendAttach (Sample.subscription 3),
      .topicReceive Sample.topic 0 0]
    ∃ sv, Sample.start.run es = some sv ∧ sv.Idle ∧ ¬ sv.Agrees Sample.topic ∧
      (sv.topics Sample.topic).actor.subscriptions.values = [Sample.subscription 2] ∧
      sv.phase (Sample.subscription 2) = .stopped ∧
      sv.manager.subscriptions.values = [Sample.subscription 3] := by
  intro es
  have hrun : Sample.start.run es = some (Sample.reached es) :=
    Sample.run_eq_reached (by decide +kernel)
  refine ⟨_, hrun, ?_, fun hagrees => ?_, by decide +kernel, by decide +kernel, by decide +kernel⟩
  · apply idle_of_created hrun
    · decide +kernel
    · constructor <;> decide +kernel
    · constructor <;> decide +kernel
    · decide +kernel
  · have hget := (hagrees Sample.name (Sample.subscription 3)).mpr (by decide +kernel)
    revert hget
    decide +kernel

end Server

end Deltio
