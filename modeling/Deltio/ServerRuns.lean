import Deltio.Server

namespace Deltio.Server

open Lib

variable {sv sv' : Server}

structure Identified (sv : Server) : Prop where
  bounds : ∀ s, sv.phase s ≠ .absent → 1 < s.internalId ∧ s.internalId ≤ sv.manager.nextId
  unique : ∀ s s', sv.phase s ≠ .absent → sv.phase s' ≠ .absent →
    s.internalId = s'.internalId → s = s'
  counting : 1 ≤ sv.manager.nextId

namespace Identified

lemma start (delegate : TopicManager) (info : Topic → TopicInfo) :
    Identified (Server.start delegate info) where
  bounds _ h := absurd rfl h
  unique _ _ h := absurd rfl h
  counting := le_rfl

lemma of_same (h : Identified sv) (hid : sv'.manager.nextId = sv.manager.nextId)
    (hphase : ∀ s, sv'.phase s ≠ .absent → sv.phase s ≠ .absent) : Identified sv' where
  bounds s hs := by
    rw [hid]
    exact h.bounds s (hphase s hs)
  unique s s' hs hs' := h.unique s s' (hphase s hs) (hphase s' hs')
  counting := by
    rw [hid]
    exact h.counting

lemma setSubscription (h : Identified sv) {s : Subscription} (hs : sv.phase s ≠ .absent)
    (side : SubscriptionSide) : Identified (sv.setSubscription s side) := by
  refine h.of_same rfl fun s' hs' => ?_
  rw [phase_setSubscription] at hs'
  split_ifs at hs' with he
  · rw [he]
    exact hs
  · exact hs'

lemma step (h : Identified sv) {e : ServerEvent} (hstep : sv.step e = some sv') :
    Identified sv' := by
  cases transition_of_step hstep with
  | @create name topic hfree =>
    have hcreated : ∀ s, (({ sv with manager :=
        ⟨sv.manager.subscriptions.insert name ⟨name, sv.manager.nextId + 1, topic⟩,
          sv.manager.nextId + 1⟩ } : Server).setSubscription ⟨name, sv.manager.nextId + 1, topic⟩
        ⟨.serving, false, []⟩).phase s ≠ .absent →
        s = ⟨name, sv.manager.nextId + 1, topic⟩ ∨ sv.phase s ≠ .absent := by
      intro s hs
      rw [phase_setSubscription] at hs
      split_ifs at hs with he
      · exact .inl he
      · exact .inr hs
    refine ⟨fun s hs => ?_, fun s s' hs hs' hid => ?_, Nat.le_add_left 1 _⟩
    · rcases hcreated s hs with rfl | hs
      · exact ⟨Nat.lt_succ_of_le h.counting, le_rfl⟩
      · exact ⟨(h.bounds s hs).1, (h.bounds s hs).2.trans (Nat.le_succ _)⟩
    · -- the ID of the new subscription is above all others
      rcases hcreated s hs with rfl | hs <;> rcases hcreated s' hs' with rfl | hs'
      · rfl
      · exact absurd (hid ▸ (h.bounds s' hs').2) (Nat.not_succ_le_self _)
      · exact absurd (hid ▸ (h.bounds s hs).2) (Nat.not_succ_le_self _)
      · exact h.unique s s' hs hs' hid
  | @sendAttach s hphase =>
    have hset := h.setSubscription hphase { sv.subscriptions s with attachSent := true }
    exact hset.of_same rfl fun _ => id
  | request hopen => exact h.setSubscription (phase_ne_absent hopen) _
  | topicRequest => exact h.of_same rfl fun _ => id
  | @topicReceive t publishTime publishInstant r rest =>
    apply h.of_same
    · exact congrArg SubscriptionManagerState.nextId (manager_answer sv r)
    · intro s (hs : (sv.answer r).phase s ≠ .absent)
      rcases phase_answer sv s r with he | ⟨he, -⟩
      · rwa [he] at hs
      · rw [he]
        decide
  | @posting t e p =>
    apply h.of_same
    · exact congrArg SubscriptionManagerState.nextId (manager_deliver sv p.batch e)
    · intro s (hs : (sv.deliver p.batch e).phase s ≠ .absent)
      rwa [phase_deliver] at hs
  | receive hphase =>
    apply h.setSubscription
    rcases hphase with hp | hp <;> rw [hp] <;> decide
  | @sendRemove s hphase =>
    have hset := h.setSubscription (s := s) (by rw [hphase]; decide)
      { sv.subscriptions s with phase := .awaiting }
    exact hset.of_same rfl fun _ => id
  | @finishDelete s hphase =>
    have hset := h.setSubscription (s := s) (by rw [hphase]; decide)
      { sv.subscriptions s with phase := .deleted }
    exact hset.of_same rfl fun _ => id
  | stop hphase =>
    apply h.setSubscription
    rw [hphase]
    decide

lemma run (h : Identified sv) {es : List ServerEvent} (hrun : sv.run es = some sv') :
    Identified sv' :=
  Machine.run_preserves hrun h fun _ _ _ hsv hstep => hsv.step hstep

end Identified

lemma topics_topicHandle (sv : Server) (t t' : Topic) (publishTime : SystemTime)
    (publishInstant : Instant) (r : TopicRequest) (rest : List TopicRequest) :
    (sv.topicHandle t publishTime publishInstant r rest).topics t' =
      if t' = t then ⟨(sv.topics t).actor.receive publishTime publishInstant r, rest,
        postingOf (sv.topics t).actor publishTime publishInstant r⟩
      else sv.topics t' := by
  unfold topicHandle
  rw [topics_setTopic, topics_answer]

/-- A topic actor changes by the requests that it takes out of its mailbox. -/
lemma actor_of_step {e : ServerEvent} (hstep : sv.step e = some sv') (t : Topic) :
    (sv'.topics t).actor = (sv.topics t).actor ∨ ∃ publishTime publishInstant r rest,
      e = .topicReceive t publishTime publishInstant ∧ (sv.topics t).mailbox = r :: rest ∧
      (sv'.topics t).actor = (sv.topics t).actor.receive publishTime publishInstant r := by
  -- sending to a mailbox or posting a batch leaves the actor alone
  have hset : ∀ {sv₀ : Server} {t₀ : Topic} {side : TopicSide}, sv₀.topics = sv.topics →
      side.actor = (sv.topics t₀).actor →
      ((sv₀.setTopic t₀ side).topics t).actor = (sv.topics t).actor := by
    intro sv₀ t₀ side htopics hactor
    rw [topics_setTopic]
    split_ifs with ht
    · rw [ht, hactor]
    · rw [htopics]
  cases transition_of_step hstep with
  | create | request | receive | finishDelete | stop => exact .inl rfl
  | sendAttach | topicRequest | sendRemove => exact .inl (hset rfl rfl)
  | @topicReceive t₀ publishTime publishInstant r rest _ hmailbox =>
    rw [topics_topicHandle]
    by_cases ht : t = t₀
    · subst ht
      rw [if_pos rfl]
      exact .inr ⟨publishTime, publishInstant, r, rest, rfl, hmailbox, rfl⟩
    · rw [if_neg ht]
      exact .inl rfl
  | @posting t₀ e p => exact .inl (hset (topics_deliver sv p.batch e) rfl)

/-- A topic starts to post with a request, and goes on by its own events. -/
lemma posting_of_step {e : ServerEvent} (hstep : sv.step e = some sv') {t : Topic}
    (hreceive : ∀ publishTime publishInstant, e ≠ .topicReceive t publishTime publishInstant)
    (hposting : ∀ e', e ≠ .posting t e') : (sv'.topics t).posting = (sv.topics t).posting := by
  have hset : ∀ {sv₀ : Server} {t₀ : Topic} {side : TopicSide}, sv₀.topics = sv.topics →
      (t = t₀ → side.posting = (sv.topics t₀).posting) →
      ((sv₀.setTopic t₀ side).topics t).posting = (sv.topics t).posting := by
    intro sv₀ t₀ side htopics hside
    rw [topics_setTopic]
    split_ifs with ht
    · rw [ht]
      exact hside ht
    · rw [htopics]
  cases transition_of_step hstep with
  | create | request | receive | finishDelete | stop => rfl
  | sendAttach | topicRequest | sendRemove => exact hset rfl fun _ => rfl
  | @topicReceive t₀ publishTime publishInstant r rest =>
    refine hset (topics_answer sv r) fun ht => ?_
    exact absurd (by rw [ht]) (hreceive publishTime publishInstant)
  | @posting t₀ e p =>
    refine hset (topics_deliver sv p.batch e) fun ht => ?_
    exact absurd (by rw [ht]) (hposting e)

/-- The request is about a subscription of the topic that was created. -/
def AddressedTo (sv : Server) (t : Topic) : TopicRequest → Prop
  | .attachSubscription s => s.topic = t ∧ sv.phase s ≠ .absent
  | .removeSubscription name s => name = s.name ∧ s.topic = t ∧ sv.phase s ≠ .absent
  | _ => True

/-- A topic only hears of, attaches and posts to its own subscriptions. -/
structure Addressed (sv : Server) : Prop where
  requests : ∀ t, ∀ r ∈ (sv.topics t).mailbox, sv.AddressedTo t r
  attached : ∀ t, ∀ s ∈ (sv.topics t).actor.subscriptions.values, s.topic = t
  posting : ∀ t p, (sv.topics t).posting = some p → ∀ s ∈ p.attached, s.topic = t

lemma AddressedTo.mono {t : Topic} {r : TopicRequest} (h : sv.AddressedTo t r)
    (hphase : ∀ s, sv.phase s ≠ .absent → sv'.phase s ≠ .absent) : sv'.AddressedTo t r := by
  cases r with
  | attachSubscription s => exact ⟨h.1, hphase s h.2⟩
  | removeSubscription name s => exact ⟨h.1, h.2.1, hphase s h.2.2⟩
  | _ => trivial

lemma addressedTo_of_fromClient {t : Topic} {r : TopicRequest} (h : r.fromClient = true) :
    sv.AddressedTo t r := by
  cases r with
  | attachSubscription | removeSubscription => cases h
  | _ => trivial

/-- Handling a request attaches at most the subscription it is about. -/
lemma AddressedTo.apply {t : Topic} {r : TopicRequest} (h : sv.AddressedTo t r)
    {subscriptions : HashMap SubscriptionName Subscription}
    (hs : ∀ s ∈ subscriptions.values, s.topic = t) :
    ∀ s ∈ (r.apply subscriptions).values, s.topic = t := by
  intro s hmem
  obtain ⟨name, hget⟩ := (HashMap.mem_values _ s).mp hmem
  cases r with
  | attachSubscription s' =>
    simp only [TopicRequest.apply] at hget
    split at hget
    · exact hs s ((HashMap.mem_values _ s).mpr ⟨name, hget⟩)
    · rw [HashMap.get_insert] at hget
      split_ifs at hget
      · rw [← Option.some.inj hget]
        exact h.1
      · exact hs s ((HashMap.mem_values _ s).mpr ⟨name, hget⟩)
  | removeSubscription name' s' =>
    simp only [TopicRequest.apply, HashMap.get_remove] at hget
    split_ifs at hget
    exact hs s ((HashMap.mem_values _ s).mpr ⟨name, hget⟩)
  | _ => exact hs s hmem

namespace Addressed

lemma start (delegate : TopicManager) (info : Topic → TopicInfo) :
    Addressed (Server.start delegate info) where
  requests _ _ h := absurd h List.not_mem_nil
  attached _ _ h := absurd h List.not_mem_nil
  posting _ _ h := nomatch h

lemma of_topics (h : Addressed sv) (htopics : sv'.topics = sv.topics)
    (hphase : ∀ s, sv.phase s ≠ .absent → sv'.phase s ≠ .absent) : Addressed sv' where
  requests t r hr := by
    rw [htopics] at hr
    exact (h.requests t r hr).mono hphase
  attached t := by
    rw [htopics]
    exact h.attached t
  posting t := by
    rw [htopics]
    exact h.posting t

lemma setTopic (h : Addressed sv) {t : Topic} {side : TopicSide}
    (hrequests : ∀ r ∈ side.mailbox, sv.AddressedTo t r)
    (hattached : ∀ s ∈ side.actor.subscriptions.values, s.topic = t)
    (hposting : ∀ p, side.posting = some p → ∀ s ∈ p.attached, s.topic = t) :
    Addressed (sv.setTopic t side) := by
  refine ⟨fun t' => ?_, fun t' => ?_, fun t' => ?_⟩
  all_goals rw [topics_setTopic]; split_ifs with ht
  · rw [ht]
    exact hrequests
  · exact h.requests t'
  · rw [ht]
    exact hattached
  · exact h.attached t'
  · rw [ht]
    exact hposting
  · exact h.posting t'

lemma setManager (h : Addressed sv) (manager : SubscriptionManagerState) :
    Addressed { sv with manager := manager } :=
  ⟨h.requests, h.attached, h.posting⟩

lemma setSubscription (h : Addressed sv) (s : Subscription) {side : SubscriptionSide}
    (hside : side.phase ≠ .absent) : Addressed (sv.setSubscription s side) := by
  refine h.of_topics rfl fun s' hs' => ?_
  rw [phase_setSubscription]
  split_ifs
  · exact hside
  · exact hs'

lemma sendTopic (h : Addressed sv) {t : Topic} {r : TopicRequest} (hr : sv.AddressedTo t r) :
    Addressed (sv.sendTopic t r) := by
  refine h.setTopic (fun r' hr' => ?_) (h.attached t) (h.posting t)
  rcases List.mem_append.mp hr' with hr' | hr'
  · exact h.requests t r' hr'
  · rw [List.mem_singleton.mp hr']
    exact hr

lemma step (h : Addressed sv) {e : ServerEvent} (hstep : sv.step e = some sv') :
    Addressed sv' := by
  cases transition_of_step hstep with
  | create hfree => exact (h.setManager _).setSubscription _ nofun
  | @sendAttach s hphase =>
    apply sendTopic
    · exact h.setSubscription s hphase
    · refine ⟨rfl, ?_⟩
      rw [phase_setSubscription, if_pos rfl]
      exact hphase
  | @request s r hopen => exact h.setSubscription s (phase_ne_absent hopen)
  | topicRequest hclient => exact h.sendTopic (addressedTo_of_fromClient hclient)
  | @topicReceive t publishTime publishInstant r rest hidle hmailbox =>
    have hanswer : Addressed (sv.answer r) := by
      apply h.of_topics (topics_answer sv r)
      intro s hs
      rcases phase_answer sv s r with he | ⟨-, he⟩
      · rwa [he]
      · rw [he]
        decide
    have hrequests := h.requests t
    rw [hmailbox] at hrequests
    have happly := (hrequests r List.mem_cons_self).apply (h.attached t)
    apply hanswer.setTopic
    · intro r' hr'
      apply hanswer.requests t
      rw [topics_answer, hmailbox]
      exact List.mem_cons_of_mem _ hr'
    · rw [TopicActor.subscriptions_receive]
      exact happly
    · -- a publish posts to whoever is attached when it is taken up
      intro p hp
      cases r with
      | publishMessages messages =>
        cases hp
        exact h.attached t
      | _ => cases hp
  | @posting t e p f hposting =>
    have hdeliver : Addressed (sv.deliver p.batch e) := by
      apply h.of_topics (topics_deliver sv p.batch e)
      intro s hs
      rwa [phase_deliver]
    apply hdeliver.setTopic
    · intro r hr
      apply hdeliver.requests t
      rwa [topics_deliver]
    · exact h.attached t
    · intro p' hp'
      dsimp only at hp'
      split_ifs at hp'
      cases hp'
      exact h.posting t p hposting
  | @receive s r rest hphase =>
    apply h.setSubscription s
    exact phaseAfter_ne_absent hphase r
  | @sendRemove s hphase =>
    have hset : Addressed (sv.setPhase s .awaiting) := h.setSubscription s nofun
    apply hset.sendTopic
    refine ⟨rfl, rfl, ?_⟩
    rw [phase_setPhase, if_pos rfl]
    decide
  | finishDelete => exact (h.setManager _).setSubscription _ nofun
  | @stop s hphase => exact h.setSubscription s nofun

lemma run (h : Addressed sv) {es : List ServerEvent} (hrun : sv.run es = some sv') :
    Addressed sv' :=
  Machine.run_preserves hrun h fun _ _ _ hsv hstep => hsv.step hstep

end Addressed

def Bounded (sv : Server) : Prop := ∀ s, (sv.mailbox s).length ≤ mailboxCapacity

namespace Bounded

lemma start (delegate : TopicManager) (info : Topic → TopicInfo) :
    Bounded (Server.start delegate info) :=
  fun _ => Nat.zero_le _

lemma setSubscription (h : Bounded sv) {s : Subscription} {side : SubscriptionSide}
    (hside : side.mailbox.length ≤ mailboxCapacity) : Bounded (sv.setSubscription s side) := by
  intro s'
  rw [mailbox_setSubscription]
  split_ifs
  · exact hside
  · exact h s'

lemma send (h : Bounded sv) {s : Subscription} (hroom : sv.hasRoom s) (r : SubscriptionRequest) :
    Bounded (sv.send s r) := by
  apply h.setSubscription
  rw [List.length_append]
  exact hroom

lemma step (h : Bounded sv) {e : ServerEvent} (hstep : sv.step e = some sv') : Bounded sv' := by
  cases transition_of_step hstep with
  | create =>
    have hmanager : Bounded { sv with manager := _ } := h
    exact hmanager.setSubscription (Nat.zero_le _)
  | @sendAttach s =>
    have hset : Bounded (sv.setSubscription s { sv.subscriptions s with attachSent := true }) :=
      h.setSubscription (h s)
    exact hset
  | request _ hroom => exact h.send hroom _
  | topicRequest => exact h
  | @topicReceive t publishTime publishInstant r rest =>
    intro s
    change ((sv.answer r).mailbox s).length ≤ _
    rw [mailbox_answer]
    exact h s
  | @posting t e p f _ hroom =>
    have hdeliver : Bounded (sv.deliver p.batch e) := by
      rcases deliver_cases sv p.batch e with hd | ⟨s, rfl, hopen, hd⟩ <;> rw [hd]
      · exact h
      · exact h.send (hroom hopen) _
    exact hdeliver
  | @receive s r rest _ hmailbox =>
    apply h.setSubscription
    have hle := h s
    rw [hmailbox, List.length_cons] at hle
    exact Nat.le_of_succ_le hle
  | @sendRemove s =>
    have hset : Bounded (sv.setPhase s .awaiting) := h.setSubscription (h s)
    exact hset
  | @finishDelete s =>
    have hmanager : Bounded { sv with manager := sv.manager.delete s.name } := h
    exact hmanager.setSubscription (h s)
  | stop => exact h.setSubscription (Nat.zero_le _)

end Bounded

namespace Sample

def topic : Topic := ⟨⟨"project", "topic"⟩, 1⟩

def name : SubscriptionName := ⟨"project", "subscription"⟩

def subscription (id : ℕ) : Subscription := ⟨name, id, topic⟩

def start : Server := Server.start ⟨∅, 1⟩ fun t => ⟨t.name, ∅, none⟩

def reached (es : List ServerEvent) : Server := (start.run es).getD start

lemma run_eq_reached {es : List ServerEvent} (h : (start.run es).isSome) :
    start.run es = some (reached es) := by
  obtain ⟨sv, hsv⟩ := Option.isSome_iff_exists.mp h
  rw [reached, hsv]
  rfl

end Sample

end Deltio.Server
