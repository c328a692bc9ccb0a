import Deltio.Counters
import Deltio.Exclusivity

namespace Deltio

open Lib Places

def Ledger.count (ledger : Ledger) (m : TopicMessage) : ℕ :=
  ledger.acked.count m + ledger.deadLettered.count m + ledger.retentionDropped.count m +
    ledger.seekDropped.count m

namespace SubscriptionActor

lemma settled_places (a : SubscriptionActor) (m : TopicMessage) :
    a.places.settled m = a.ledger.count m := by
  simp only [settled, placesWith, Multiset.coe_count, Ledger.count]

/-- The message is in the backlog, in a queue, outstanding, or waiting for its retry. -/
def Holds (a : SubscriptionActor) (m : TopicMessage) : Prop :=
  m ∈ a.backlog ∨ (∃ key, m ∈ a.queueOf key) ∨ m ∈ a.outstanding.held ∨ m ∈ a.retryQueue.held

lemma holds_iff_places (a : SubscriptionActor) (m : TopicMessage) :
    a.Holds m ↔ a.places.Holds m := Iff.rfl

/-- Between the states the messages `gone` were settled and their attempts erased. -/
structure Forgets (a : SubscriptionActor) (gone : List TopicMessage) (b : SubscriptionActor) :
    Prop where
  attempts : ∀ id, b.deliveryAttempts.get id =
    if id ∈ gone.map (·.id) then none else a.deliveryAttempts.get id
  settled : ∀ m, b.ledger.count m = a.ledger.count m + gone.count m

section

variable {a b c : SubscriptionActor}

lemma Forgets.nil (hattempts : b.deliveryAttempts = a.deliveryAttempts)
    (hledger : b.ledger = a.ledger) : Forgets a [] b where
  attempts := fun id => by rw [hattempts, List.map_nil, if_neg List.not_mem_nil]
  settled := fun m => by rw [hledger, List.count_nil, Nat.add_zero]

lemma Forgets.trans {gone gone' : List TopicMessage} (h : Forgets a gone b)
    (h' : Forgets b gone' c) : Forgets a (gone ++ gone') c where
  attempts := by
    intro id
    rw [h'.attempts, h.attempts]
    simp only [List.map_append, List.mem_append]
    split_ifs <;> tauto
  settled := by
    intro m
    rw [h'.settled, h.settled, List.count_append, Nat.add_assoc]

/-- What touches neither the attempts nor the ledger can follow. -/
lemma Forgets.followed {gone : List TopicMessage} (h : Forgets a gone b)
    (hattempts : c.deliveryAttempts = b.deliveryAttempts) (hledger : c.ledger = b.ledger) :
    Forgets a gone c := by
  have hall := h.trans (.nil hattempts hledger)
  rwa [List.append_nil] at hall

end

lemma forgets_dropExpired (a : SubscriptionActor) (m : TopicMessage) :
    Forgets a [m] (a.dropExpired m) where
  attempts := fun id => by
    simp only [dropExpired, HashMap.get_remove, List.map_singleton, List.mem_singleton]
  settled := fun m' => by
    simp only [dropExpired, Ledger.count, List.count_cons, List.count_nil]
    omega

lemma forgets_settleAcked (a : SubscriptionActor) (m : TopicMessage) :
    Forgets a [m] (a.settleAcked m).2 := by
  have hsame : (a.settleAcked m).2.deliveryAttempts = a.deliveryAttempts.remove m.id ∧
      (a.settleAcked m).2.ledger = { a.ledger with acked := m :: a.ledger.acked } := by
    unfold settleAcked
    dsimp only
    split <;> exact ⟨rfl, rfl⟩
  constructor
  · intro id
    rw [hsame.1]
    simp only [HashMap.get_remove, List.map_singleton, List.mem_singleton]
  · intro m'
    rw [hsame.2]
    simp only [Ledger.count, List.count_cons, List.count_nil]
    omega

lemma forgets_releaseAcked (acked : List PulledMessage) (freedKeys : List String)
    (a : SubscriptionActor) :
    Forgets a (acked.map (·.message)) (releaseAcked acked freedKeys a).2 := by
  induction acked generalizing freedKeys a with
  | nil => exact .nil rfl rfl
  | cons pulled rest ih => exact (a.forgets_settleAcked pulled.message).trans (ih _ _)

lemma requeueOne_keeps (a : SubscriptionActor) (m : TopicMessage) :
    (a.requeueOne m).deliveryAttempts = a.deliveryAttempts ∧ (a.requeueOne m).ledger = a.ledger := by
  unfold requeueOne
  split <;> exact ⟨rfl, rfl⟩

lemma forgets_retryReadyLoop (now : Instant) (ready : List TopicMessage) (deliveredAny : Bool)
    (a : SubscriptionActor) :
    ∃ gone, Forgets a gone (retryReadyLoop now ready deliveredAny a).2 := by
  induction ready generalizing deliveredAny a with
  | nil => exact ⟨[], .nil rfl rfl⟩
  | cons m ready ih =>
    unfold retryReadyLoop
    split_ifs
    · obtain ⟨gone, hgone⟩ := ih deliveredAny (a.dropExpired m)
      exact ⟨_, (a.forgets_dropExpired m).trans hgone⟩
    · obtain ⟨gone, hgone⟩ := ih true (a.requeueOne m)
      obtain ⟨hattempts, hledger⟩ := a.requeueOne_keeps m
      exact ⟨_, (Forgets.nil hattempts hledger).trans hgone⟩

/-- The messages `ps` are delivered with the attempts that are recorded in `a`, unless
their record is erased on the way. -/
structure Numbers (a : SubscriptionActor) (ps : List PulledMessage) (gone : List TopicMessage)
    (b : SubscriptionActor) : Prop extends Forgets a gone b where
  attempt : ∀ p ∈ ps, p.deliveryAttempt = (a.deliveryAttempts.get p.message.id).getD 1 ∨
    p.message.id ∈ gone.map (·.id)

section

variable {a b c : SubscriptionActor}

lemma Forgets.numbers {gone : List TopicMessage} (h : Forgets a gone b) : Numbers a [] gone b :=
  ⟨h, by simp⟩

lemma Numbers.trans {ps ps' : List PulledMessage} {gone gone' : List TopicMessage}
    (h : Numbers a ps gone b) (h' : Numbers b ps' gone' c) :
    Numbers a (ps ++ ps') (gone ++ gone') c := by
  refine ⟨h.toForgets.trans h'.toForgets, fun p hp => ?_⟩
  rw [List.map_append, List.mem_append]
  rcases List.mem_append.mp hp with hp | hp
  · rcases h.attempt p hp with heq | hgone
    · exact .inl heq
    · exact .inr (.inl hgone)
  · rcases h'.attempt p hp with heq | hgone
    · rw [h.attempts] at heq
      split_ifs at heq with hmem
      · exact .inr (.inl hmem)
      · exact .inl heq
    · exact .inr (.inr hgone)

lemma numbers_deliver (a : SubscriptionActor) (deadline : Instant) (m : TopicMessage) :
    Numbers a [(a.deliver deadline m).1] [] (a.deliver deadline m).2 := by
  refine ⟨.nil rfl rfl, fun p hp => .inl ?_⟩
  rw [List.mem_singleton.mp hp]
  rfl

lemma Numbers.followed {ps : List PulledMessage} {gone : List TopicMessage}
    (h : Numbers a ps gone b) (hattempts : c.deliveryAttempts = b.deliveryAttempts)
    (hledger : c.ledger = b.ledger) : Numbers a ps gone c :=
  ⟨h.toForgets.followed hattempts hledger, h.attempt⟩

lemma numbers_pullHead (now deadline : Instant) (key : String) (queue : List TopicMessage)
    (a : SubscriptionActor) :
    ∃ gone, Numbers a (pullHead now deadline key queue a).1.toList gone
      (pullHead now deadline key queue a).2 := by
  induction queue generalizing a with
  | nil => exact ⟨[], Forgets.numbers (.nil rfl rfl)⟩
  | cons head queue ih =>
    unfold pullHead
    split_ifs
    · obtain ⟨gone, hgone⟩ := ih (a.dropExpired head)
      exact ⟨_, (a.forgets_dropExpired head).numbers.trans hgone⟩
    · exact ⟨[], (a.numbers_deliver deadline head).followed rfl rfl⟩

lemma numbers_pullOrdered (now deadline : Instant) (capacity : ℕ) (keys : List String)
    (result : List PulledMessage) (a : SubscriptionActor) :
    ∃ ps gone, (pullOrdered now deadline capacity keys result a).1 = result ++ ps ∧
      Numbers a ps gone (pullOrdered now deadline capacity keys result a).2 := by
  induction keys generalizing result a with
  | nil => exact ⟨[], [], (List.append_nil _).symm, Forgets.numbers (.nil rfl rfl)⟩
  | cons key keys ih =>
    unfold pullOrdered
    split_ifs
    · exact ⟨[], [], (List.append_nil _).symm, Forgets.numbers (.nil rfl rfl)⟩
    · split
      · exact ih result a
      · next queue hqueue =>
        obtain ⟨gone, hhead⟩ := numbers_pullHead now deadline key queue a
        obtain ⟨ps, gone', hps, hrest⟩ := ih (result ++ (pullHead now deadline key queue a).1.toList)
          (pullHead now deadline key queue a).2
        exact ⟨_, _, hps.trans (List.append_assoc _ _ _), hhead.trans hrest⟩

lemma numbers_pullBacklog (now deadline : Instant) (capacity : ℕ) (backlog : List TopicMessage)
    (result : List PulledMessage) (a : SubscriptionActor) :
    ∃ ps gone, (pullBacklog now deadline capacity backlog result a).1 = result ++ ps ∧
      Numbers a ps gone (pullBacklog now deadline capacity backlog result a).2 := by
  induction backlog generalizing result a with
  | nil => exact ⟨[], [], (List.append_nil _).symm, Forgets.numbers (.nil rfl rfl)⟩
  | cons message backlog ih =>
    unfold pullBacklog
    split_ifs
    · exact ⟨[], [], (List.append_nil _).symm, Forgets.numbers (.nil rfl rfl)⟩
    · obtain ⟨ps, gone, hps, hrest⟩ := ih result (a.dropExpired message)
      exact ⟨ps, _, hps, (a.forgets_dropExpired message).numbers.trans hrest⟩
    · obtain ⟨ps, gone, hps, hrest⟩ := ih (result ++ [(a.deliver deadline message).1])
        (a.deliver deadline message).2
      exact ⟨_, _, hps.trans (List.append_assoc _ _ _),
        (a.numbers_deliver deadline message).trans hrest⟩

lemma numbers_pullUpTo (a : SubscriptionActor) (now : Instant) (capacity : ℕ) :
    ∃ gone, Numbers a (a.pullUpTo now capacity).1 gone (a.pullUpTo now capacity).2 := by
  set heads := pullOrdered now (now + a.info.ackDeadline) capacity
    (a.idleKeys.insertionSort (· ≤ ·)) [] a with hheads
  obtain ⟨ps, gone, hps, hfirst⟩ := numbers_pullOrdered now (now + a.info.ackDeadline) capacity
    (a.idleKeys.insertionSort (· ≤ ·)) [] a
  obtain ⟨qs, gone', hqs, hsecond⟩ := numbers_pullBacklog now (now + a.info.ackDeadline) capacity
    heads.2.backlog heads.1 heads.2
  have hres : (a.pullUpTo now capacity).1 = ps ++ qs := by
    rw [List.nil_append] at hps
    exact hqs.trans (congrArg (· ++ qs) hps)
  rw [hres]
  exact ⟨_, hfirst.trans hsecond⟩

lemma signalMore_keeps (a : SubscriptionActor) :
    a.signalMore.deliveryAttempts = a.deliveryAttempts ∧ a.signalMore.ledger = a.ledger := by
  unfold signalMore
  split_ifs <;> exact ⟨rfl, rfl⟩

lemma numbers_pullMessages (a : SubscriptionActor) (now : Instant)
    (maxCount maxOutstanding : UInt16) :
    ∃ gone, Numbers a ((a.pullMessages now maxCount maxOutstanding).1.toOption.getD []) gone
      (a.pullMessages now maxCount maxOutstanding).2 := by
  unfold pullMessages
  split_ifs
  · exact ⟨[], Forgets.numbers (.nil rfl rfl)⟩
  · exact ⟨[], Forgets.numbers (.nil rfl rfl)⟩
  · exact ⟨[], Forgets.numbers (.nil rfl rfl)⟩
  · obtain ⟨gone, hgone⟩ := a.numbers_pullUpTo now (a.effectiveMax maxCount maxOutstanding)
    obtain ⟨hattempts, hledger⟩ :=
      (a.pullUpTo now (a.effectiveMax maxCount maxOutstanding)).2.signalMore_keeps
    exact ⟨gone, hgone.followed hattempts hledger⟩

end

/-- Counting the attempt of one message leaves those of the others. -/
lemma nextAttempt_insert {attempts : HashMap MessageId ℕ} {id id' : MessageId} (h : id ≠ id')
    (n : ℕ) : nextAttempt (attempts.insert id' n) id = nextAttempt attempts id := by
  simp only [nextAttempt, HashMap.get_insert, if_neg h]

/-- In a batch with distinct IDs, each message is given up by its own attempts. -/
lemma mem_buried_failActs {info : SubscriptionInfo} {attempts : HashMap MessageId ℕ}
    {msgs : List TopicMessage} (hids : (msgs.map (·.id)).Nodup) {m : TopicMessage} :
    m ∈ buried (failActs info attempts msgs) ↔
      m ∈ msgs ∧ exceedsMaxDeliveryAttempts info (nextAttempt attempts m.id) = true := by
  induction msgs generalizing attempts with
  | nil => simp [failActs, buried]
  | cons head msgs ih =>
    obtain ⟨hhead, hids⟩ := List.nodup_cons.mp hids
    have hother : ∀ m' ∈ msgs, m'.id ≠ head.id := by
      intro m' hm' heq
      exact hhead (List.mem_map.mpr ⟨m', hm', heq⟩)
    rw [buried_failActs_cons, List.mem_append, ih hids, List.mem_cons]
    constructor
    · rintro (hm | ⟨hm, hx⟩)
      · split_ifs at hm with hx
        · rw [List.mem_singleton.mp hm]
          exact ⟨.inl rfl, hx⟩
        · cases hm
      · rw [nextAttempt_insert (hother m hm)] at hx
        exact ⟨.inr hm, hx⟩
    · rintro ⟨rfl | hm, hx⟩
      · rw [if_pos hx]
        exact .inl (List.mem_singleton_self m)
      · rw [← nextAttempt_insert (hother m hm) (nextAttempt attempts head.id)] at hx
        exact .inr ⟨hm, hx⟩

lemma ledger_retryLater (a : SubscriptionActor) (now : Instant) (m : TopicMessage) (attempt : ℕ) :
    (a.retryLater now m attempt).ledger = a.ledger := by
  unfold retryLater
  split
  · rfl
  · exact (a.requeueOne_keeps m).2

/-- The loop counts one attempt for each message of the batch. -/
lemma attempts_requeueLoop (now : Instant) {msgs : List PulledMessage}
    (hids : (msgs.map (·.message.id)).Nodup) (dead : List TopicMessage) (ids : List MessageId)
    (a : SubscriptionActor) (id : MessageId) :
    (requeueLoop now msgs dead ids a).2.2.deliveryAttempts.get id =
      if id ∈ msgs.map (·.message.id) then some (nextAttempt a.deliveryAttempts id)
      else a.deliveryAttempts.get id := by
  induction msgs generalizing dead ids a with
  | nil => simp [requeueLoop]
  | cons pulled rest ih =>
    obtain ⟨hhead, hids⟩ := List.nodup_cons.mp hids
    have hcounted : ∀ b : SubscriptionActor, b.deliveryAttempts =
        a.deliveryAttempts.insert pulled.message.id
          (nextAttempt a.deliveryAttempts pulled.message.id) →
        (if id ∈ rest.map (·.message.id) then some (nextAttempt b.deliveryAttempts id)
          else b.deliveryAttempts.get id) =
        if id ∈ (pulled :: rest).map (·.message.id) then
          some (nextAttempt a.deliveryAttempts id) else a.deliveryAttempts.get id := by
      intro b hb
      rw [hb]
      simp only [List.map_cons, List.mem_cons]
      by_cases heq : id = pulled.message.id
      · subst heq
        rw [if_neg hhead, if_pos (.inl rfl), HashMap.get_insert_self]
      · rw [nextAttempt_insert heq, HashMap.get_insert, if_neg heq]
        simp only [heq, false_or]
    unfold requeueLoop
    dsimp only
    by_cases hx : exceedsMaxDeliveryAttempts a.info
        (nextAttempt a.deliveryAttempts pulled.message.id) = true
    · rw [if_pos hx, ih hids]
      exact hcounted ((a.countAttempt pulled.message.id).giveUp pulled.message) rfl
    · rw [if_neg hx, ih hids]
      refine hcounted ((a.countAttempt pulled.message.id).retryLater now pulled.message _) ?_
      exact deliveryAttempts_retryLater _ _ _ _

/-- The loop moves what it gives up to the ledger. -/
lemma givenUp_requeueLoop (now : Instant) (msgs : List PulledMessage) (dead : List TopicMessage)
    (ids : List MessageId) (a : SubscriptionActor) :
    let given := buried (failActs a.info a.deliveryAttempts (msgs.map (·.message)))
    (requeueLoop now msgs dead ids a).2.1 = ids ++ given.map (·.id) ∧
    (requeueLoop now msgs dead ids a).2.2.ledger =
      { a.ledger with deadLettered := given.reverse ++ a.ledger.deadLettered } := by
  induction msgs generalizing dead ids a with
  | nil => exact ⟨(List.append_nil _).symm, rfl⟩
  | cons pulled rest ih =>
    unfold requeueLoop
    dsimp only
    rw [List.map_cons, buried_failActs_cons]
    split_ifs with hx
    · obtain ⟨hidsRest, hledger⟩ := ih (dead ++ [_]) (ids ++ [pulled.message.id])
        ((a.countAttempt pulled.message.id).giveUp pulled.message)
      constructor
      · rw [hidsRest, List.append_assoc]
        rfl
      · rw [hledger, List.reverse_append, List.append_assoc]
        rfl
    · obtain ⟨hidsRest, hledger⟩ := ih dead ids ((a.countAttempt pulled.message.id).retryLater now
        pulled.message (nextAttempt a.deliveryAttempts pulled.message.id))
      rw [info_retryLater, deliveryAttempts_retryLater] at hidsRest hledger
      rw [ledger_retryLater] at hledger
      exact ⟨hidsRest, hledger⟩

lemma publishDeadLetters_keeps (a : SubscriptionActor) (topics : TopicManager)
    {letters : List TopicMessage} {ids : List MessageId} (hlen : letters.length = ids.length) :
    (a.publishDeadLetters topics letters ids).deliveryAttempts =
        ids.foldl HashMap.remove a.deliveryAttempts ∧
      (a.publishDeadLetters topics letters ids).ledger = a.ledger := by
  unfold publishDeadLetters tryPublishDeadLetteredMessages
  split_ifs with hempty
  · rw [List.isEmpty_iff.mp hempty, List.length_nil] at hlen
    rw [List.length_eq_zero_iff.mp hlen.symm]
    exact ⟨rfl, rfl⟩
  · dsimp only
    split
    · split <;> exact ⟨rfl, rfl⟩
    · exact ⟨rfl, rfl⟩

/-- What a batch of failed deliveries does to the attempts and to the ledger. -/
lemma attempts_requeueMessages (a : SubscriptionActor) (env : Env) {msgs : List PulledMessage}
    (hids : (msgs.map (·.message.id)).Nodup) :
    let given := buried (failActs a.info a.deliveryAttempts (msgs.map (·.message)))
    (∀ id, (a.requeueMessages env msgs).deliveryAttempts.get id =
      if id ∈ given.map (·.id) then none
      else if id ∈ msgs.map (·.message.id) then some (nextAttempt a.deliveryAttempts id)
      else a.deliveryAttempts.get id) ∧
    (a.requeueMessages env msgs).ledger =
      { a.ledger with deadLettered := given.reverse ++ a.ledger.deadLettered } := by
  intro given
  obtain ⟨hgiven, hledger⟩ := givenUp_requeueLoop env.now msgs [] [] a
  obtain ⟨⟨letters, hletters, hall⟩, -⟩ := requeueLoop_letters env.now msgs [] [] a
  rw [List.nil_append] at hgiven hletters
  set r := requeueLoop env.now msgs [] [] a with hr
  have hlen : r.1.length = r.2.1.length := by
    rw [hletters, hgiven, List.length_map, hall.length_eq]
  obtain ⟨hattempts, hkeeps⟩ := r.2.2.publishDeadLetters_keeps env.topics hlen
  set b := r.2.2.publishDeadLetters env.topics r.1 r.2.1
  have hsignal : (a.requeueMessages env msgs).deliveryAttempts = b.deliveryAttempts ∧
      (a.requeueMessages env msgs).ledger = b.ledger := by
    change (if b.backlog.isEmpty then b else b.notifyNewMessagesAvailable).deliveryAttempts = _ ∧
      (if b.backlog.isEmpty then b else b.notifyNewMessagesAvailable).ledger = _
    split_ifs <;> exact ⟨rfl, rfl⟩
  constructor
  · intro id
    rw [hsignal.1, hattempts, HashMap.get_foldl_remove, hgiven, hr,
      attempts_requeueLoop env.now hids]
  · rw [hsignal.2, hkeeps, hledger]

def arriving (a : SubscriptionActor) (e : ActorEvent) : List TopicMessage :=
  if a.deleted then [] else e.posted.filter a.accepts

structure Moves (a : SubscriptionActor) (e : Env × ActorEvent) : Prop where
  occ : ∀ m, (a.step e).places.occ (a.step e).route m =
    a.places.occ a.route m + (a.arriving e.2).count m
  held : ∀ m, ((a.failing e.2).map (·.message)).count m + (((a.acked e.2).map (·.message)).count m +
    (a.step e).outstanding.held.count m) =
      ((a.pulled e).map (·.message)).count m + a.outstanding.held.count m

/-- The event settles the messages `gone`, erases their attempts, and counts the
attempts of the failing ones. -/
structure Accounts (a : SubscriptionActor) (e : Env × ActorEvent) (gone : List TopicMessage) :
    Prop extends Moves a e where
  attempts : ∀ id, (a.step e).deliveryAttempts.get id =
    if id ∈ gone.map (·.id) then none
    else if id ∈ (a.failing e.2).map (·.message.id) then some (nextAttempt a.deliveryAttempts id)
    else a.deliveryAttempts.get id
  settled : ∀ m, (a.step e).ledger.count m = a.ledger.count m + gone.count m
  causes : ∀ m, ((a.acked e.2).map (·.message)).count m + (a.givenUp e).count m ≤ gone.count m
  pulled : ∀ p ∈ a.pulled e, p.deliveryAttempt = (a.deliveryAttempts.get p.message.id).getD 1 ∨
    p.message.id ∈ gone.map (·.id)

section

variable {a : SubscriptionActor} {e : Env × ActorEvent}

/-- Unless a request drops messages, only arrivals change their number. -/
lemma moves_step (hs : a.Sound) (hdiscards : ¬ e.2.discards) (hseeks : ¬ e.2.seeks) :
    a.Moves e where
  occ := by
    intro m
    obtain ⟨acts, hsim⟩ := exists_simulated hs.fresh hs.keyed e
    rw [hsim.route_eq, hsim.steps.occ_eq hs.keyed (fun hc => hdiscards (hsim.clears hc)),
      hsim.arrivals_eq]
    rfl
  held := by
    intro m
    have hcount := (held_step hs.fresh hdiscards hseeks).count_eq m
    rwa [List.count_append, List.count_append, List.count_append] at hcount

lemma Numbers.accounts {gone : List TopicMessage} (h : Numbers a (a.pulled e) gone (a.step e))
    (hfailing : a.failing e.2 = [])
    (hacked : ∀ m, ((a.acked e.2).map (·.message)).count m ≤ gone.count m)
    (hmoves : a.Moves e) : Accounts a e gone where
  toMoves := hmoves
  attempts := by
    intro id
    rw [h.attempts, hfailing, List.map_nil]
    simp only [List.not_mem_nil, if_false]
  settled := h.settled
  causes := by
    intro m
    have hnone : a.givenUp e = [] := by
      unfold givenUp
      rw [hfailing]
      rfl
    rw [hnone]
    exact hacked m
  pulled := h.attempt

/-- An event that touches neither attempts nor ledger. -/
lemma accounts_of_kept (hattempts : (a.step e).deliveryAttempts = a.deliveryAttempts)
    (hledger : (a.step e).ledger = a.ledger) (hpulled : a.pulled e = [])
    (hfailing : a.failing e.2 = []) (hacked : a.acked e.2 = []) (hmoves : a.Moves e) :
    Accounts a e [] := by
  have hnumbers : Numbers a (a.pulled e) [] (a.step e) := by
    rw [hpulled]
    exact Forgets.numbers (.nil hattempts hledger)
  exact hnumbers.accounts hfailing (fun m => by rw [hacked]; rfl) hmoves

lemma accounts_of_self (hstep : a.step e = a) (hpulled : a.pulled e = [])
    (hfailing : a.failing e.2 = []) (hacked : a.acked e.2 = []) (harriving : a.arriving e.2 = []) :
    Accounts a e [] := by
  refine accounts_of_kept (by rw [hstep]) (by rw [hstep]) hpulled hfailing hacked ⟨fun m => ?_, ?_⟩
  · rw [hstep, harriving, List.count_nil, Nat.add_zero]
  · intro m
    rw [hstep, hpulled, hfailing, hacked]
    simp only [List.map_nil, List.count_nil, Nat.zero_add]

lemma accounts_failing (hmoves : a.Moves e) (hpulled : a.pulled e = [])
    (hacked : a.acked e.2 = [])
    (hids : ((a.failing e.2).map (·.message.id)).Nodup)
    (hstep : ∃ outstanding counters, a.step e =
      requeueMessages { a with outstanding := outstanding, counters := counters } e.1
        (a.failing e.2)) : Accounts a e (a.givenUp e) := by
  obtain ⟨outstanding, counters, hstep⟩ := hstep
  obtain ⟨hattempts, hledger⟩ := attempts_requeueMessages
    { a with outstanding := outstanding, counters := counters } e.1 hids
  rw [← hstep] at hattempts hledger
  refine ⟨hmoves, hattempts, fun m => ?_, fun m => ?_, by simp [hpulled]⟩
  · rw [hledger]
    simp only [Ledger.count, List.count_append, List.count_reverse]
    unfold givenUp
    omega
  · rw [hacked]
    exact (Nat.zero_add _).le

end

lemma postMessages_keeps (a : SubscriptionActor) (messages : List TopicMessage) :
    (a.postMessages messages).deliveryAttempts = a.deliveryAttempts ∧
      (a.postMessages messages).ledger = a.ledger := by
  have hloop : ∀ (msgs : List TopicMessage) (hadAny : Bool) (b : SubscriptionActor),
      (postLoop msgs hadAny b).2.deliveryAttempts = b.deliveryAttempts ∧
        (postLoop msgs hadAny b).2.ledger = b.ledger := by
    intro msgs
    induction msgs with
    | nil => exact fun _ _ => ⟨rfl, rfl⟩
    | cons msg msgs ih =>
      intro hadAny b
      have hone : (b.enqueue msg).deliveryAttempts = b.deliveryAttempts ∧
          (b.enqueue msg).ledger = b.ledger := by
        unfold enqueue
        split <;> exact ⟨rfl, rfl⟩
      unfold postLoop
      split_ifs
      · exact ⟨(ih _ _).1.trans hone.1, (ih _ _).2.trans hone.2⟩
      · exact ih hadAny b
  unfold postMessages
  dsimp only
  split_ifs
  · exact ⟨rfl, rfl⟩
  · exact hloop messages false a
  · exact hloop messages false a

lemma forgets_acknowledge (a : SubscriptionActor) (ackIds : List AckId) :
    Forgets a ((a.acked (.request (.acknowledgeMessages ackIds))).map (·.message))
      (a.acknowledgeMessages ackIds).2 := by
  unfold acknowledgeMessages acked
  split_ifs
  · exact .nil rfl rfl
  · dsimp only
    set removed := a.outstanding.remove (ackIds.filter a.outstanding.contains)
    have hloop := forgets_releaseAcked removed.1 [] { a with outstanding := removed.2 }
    have hbefore : Forgets a [] { a with outstanding := removed.2 } := .nil rfl rfl
    refine (hbefore.trans hloop).followed ?_ ?_ <;> split_ifs <;> rfl

lemma forgets_retryReady (a : SubscriptionActor) (env : Env) (polledAt : Instant) :
    ∃ gone, Forgets a gone (a.pollReady env polledAt) := by
  set taken := a.retryQueue.takeReady polledAt with htaken
  obtain ⟨gone, hloop⟩ := forgets_retryReadyLoop env.now taken.1 false
    { a with retryQueue := taken.2 }
  have hbefore : Forgets a [] { a with retryQueue := taken.2 } := .nil rfl rfl
  unfold pollReady handleRetryReady
  dsimp only
  split_ifs
  · exact ⟨_, hbefore⟩
  · exact ⟨_, (hbefore.trans hloop).followed rfl rfl⟩
  · exact ⟨_, hbefore.trans hloop⟩

/-- A seek, a detach or a delete that has an effect resets the attempts. -/
structure Resets (a : SubscriptionActor) (e : Env × ActorEvent) : Prop where
  attempts : (a.step e).deliveryAttempts = ∅
  outstanding : (a.step e).outstanding.held = []
  seeks : e.2.seeks ∨ ∀ m, ¬ (a.step e).Holds m

lemma attempts_foldl_seekOne (seekTime : SystemTime) (msgs : List TopicMessage)
    (a : SubscriptionActor) :
    (msgs.foldl (seekOne seekTime) a).deliveryAttempts = a.deliveryAttempts := by
  induction msgs generalizing a with
  | nil => rfl
  | cons m msgs ih =>
    rw [List.foldl_cons, ih]
    unfold seekOne
    split_ifs
    · exact (a.requeueOne_keeps m).1
    · rfl

lemma not_holds_clearMessages (a : SubscriptionActor) (m : TopicMessage) :
    ¬ a.clearMessages.Holds m := by
  rintro (h | ⟨key, h⟩ | h | h) <;> cases h

section

variable {a : SubscriptionActor}

lemma arriving_of_posted {e : ActorEvent} (h : e.posted = []) : a.arriving e = [] := by
  unfold arriving
  rw [h]
  split_ifs <;> rfl

lemma posted_of_arriving {e : ActorEvent} {m : TopicMessage} (h : m ∈ a.arriving e) :
    m ∈ e.posted := by
  unfold arriving at h
  split_ifs at h
  · cases h
  · exact (List.mem_filter.mp h).1

/-- An event with failing messages settles those it gives up. -/
lemma accounts_of_failing (hs : a.Sound) {e : Env × ActorEvent} (hne : a.failing e.2 ≠ [])
    (hids : ((a.failing e.2).map (·.message.id)).Nodup) : Accounts a e (a.givenUp e) := by
  have hstep := step_of_failing hne
  obtain ⟨env, event⟩ := e
  cases event with
  | expired polledAt => exact accounts_failing (moves_step hs id id) rfl rfl hids hstep
  | retryReady polledAt => exact absurd rfl hne
  | request r =>
    cases r with
    | modifyDeadline modifications =>
      exact accounts_failing (moves_step hs id id) rfl rfl hids hstep
    | _ => exact absurd rfl hne

lemma accounts_expired (hs : a.Sound) (env : Env) (polledAt : Instant)
    (hids : ((a.failing (.expired polledAt)).map (·.message.id)).Nodup) :
    ∃ gone, Accounts a (env, .expired polledAt) gone := by
  by_cases hnone : a.failing (.expired polledAt) = []
  · have hempty : (a.outstanding.takeExpired polledAt).1.isEmpty = true :=
      List.isEmpty_iff.mpr hnone
    have hstep : a.step (env, .expired polledAt) =
        { a with outstanding := (a.outstanding.takeExpired polledAt).2 } := if_pos hempty
    exact ⟨[], accounts_of_kept (by rw [hstep]) (by rw [hstep]) rfl hnone rfl (moves_step hs id id)⟩
  · exact ⟨_, accounts_of_failing hs hnone hids⟩

lemma accounts_modifyDeadline (hs : a.Sound) (env : Env)
    (modifications : List DeadlineModification)
    (hids : ((a.failing (.request (.modifyDeadline modifications))).map (·.message.id)).Nodup) :
    ∃ gone, Accounts a (env, .request (.modifyDeadline modifications)) gone := by
  by_cases hdeleted : a.deleted = true
  · have hstep : a.step (env, .request (.modifyDeadline modifications)) = a := by
      simp [step, receive, modifyDeadline, hdeleted]
    exact ⟨[], accounts_of_self hstep rfl (if_pos hdeleted) rfl (if_pos hdeleted)⟩
  · have hfailing : a.failing (.request (.modifyDeadline modifications)) =
        (a.outstanding.modify modifications).1 := if_neg hdeleted
    refine ⟨_, accounts_failing (moves_step hs id id) rfl rfl hids
      ⟨(a.outstanding.modify modifications).2, { a.counters with
        nacked := a.counters.nacked + (a.outstanding.modify modifications).1.length }, ?_⟩⟩
    change (a.modifyDeadline env modifications).2 = _
    dsimp only
    rw [hfailing]
    unfold modifyDeadline
    rw [if_neg hdeleted]

lemma seek_cases (a : SubscriptionActor) (env : Env) (seekTime : SystemTime) :
    a.Resets (env, .request (.seek seekTime)) ∨
      (Accounts a (env, .request (.seek seekTime)) [] ∧ a.deleted = true) := by
  by_cases hdeleted : a.deleted = true
  · have hstep : a.step (env, .request (.seek seekTime)) = a := by
      simp [step, receive, seekToTime, hdeleted]
    exact .inr ⟨accounts_of_self hstep rfl rfl rfl (if_pos hdeleted), hdeleted⟩
  · refine .inl ⟨?_, ?_, .inl trivial⟩
    · change (a.seekToTime env.order seekTime).deliveryAttempts = ∅
      unfold seekToTime
      rw [if_neg hdeleted]
      exact attempts_foldl_seekOne seekTime _ (a.resetTo seekTime)
    · have hcustody := congrArg Custody.outstanding
        ((a.custody_step (env, .request (.seek seekTime))).trans (if_neg hdeleted))
      exact congrArg OutstandingMessageTracker.held hcustody

lemma delete_cases (a : SubscriptionActor) (env : Env) :
    a.Resets (env, .request .delete) ∨ Accounts a (env, .request .delete) [] := by
  have harriving : a.arriving (.request .delete) = [] := arriving_of_posted rfl
  by_cases hdeleted : a.deleted = true
  · have hstep : a.step (env, .request .delete) = a := by simp [step, receive, delete, hdeleted]
    exact .inr (accounts_of_self hstep rfl rfl rfl harriving)
  · cases hanswer : env.topicAnswer with
    | closed =>
      have hstep : a.step (env, .request .delete) = { a with deleted := true } := by
        simp [step, receive, delete, hdeleted, hanswer]
      refine .inr (accounts_of_kept (by rw [hstep]) (by rw [hstep]) rfl rfl rfl ⟨fun m => ?_, ?_⟩)
      · rw [hstep, harriving]
        rfl
      · intro m
        rw [hstep]
        exact Nat.zero_add _
    | gone | removed =>
      have hstep : a.step (env, .request .delete) = { clearMessages { a with
          deleted := true
          delegate := a.delegate.delete a.info.name
          observer := a.observer.notifyDeleted } with
          pushRegistry := a.pushRegistry.set a.info.name none } := by
        simp only [step, receive, delete, hdeleted, hanswer]
        rfl
      refine .inl ⟨by rw [hstep]; rfl, by rw [hstep]; rfl, .inr fun m => ?_⟩
      rw [hstep]
      exact not_holds_clearMessages _ m

lemma detach_cases (a : SubscriptionActor) (env : Env) :
    a.Resets (env, .request .detach) ∨ Accounts a (env, .request .detach) [] := by
  by_cases hdetached : a.info.detached = true
  · have hstep : a.step (env, .request .detach) = a := by simp [step, receive, detach, hdetached]
    exact .inr (accounts_of_self hstep rfl rfl rfl (arriving_of_posted rfl))
  · have hstep : a.step (env, .request .detach) =
        clearMessages { a with info := { a.info with detached := true } } := by
      simp [step, receive, detach, hdetached]
    refine .inl ⟨by rw [hstep]; rfl, by rw [hstep]; rfl, .inr fun m => ?_⟩
    rw [hstep]
    exact not_holds_clearMessages _ m

/-- Every event resets the attempts, or accounts for them. -/
theorem accounts_step_cases (hs : a.Sound) (e : Env × ActorEvent)
    (hids : ((a.failing e.2).map (·.message.id)).Nodup) :
    a.Resets e ∨ (∃ gone, Accounts a e gone) ∧ (e.2.seeks → a.deleted = true) := by
  obtain ⟨env, event⟩ := e
  cases event with
  | expired polledAt => exact .inr ⟨accounts_expired hs env polledAt hids, False.elim⟩
  | retryReady polledAt =>
    obtain ⟨gone, hgone⟩ := a.forgets_retryReady env polledAt
    exact .inr ⟨⟨gone, hgone.numbers.accounts rfl (fun _ => Nat.zero_le _) (moves_step hs id id)⟩,
      False.elim⟩
  | request r =>
    cases r with
    | postMessages messages =>
      obtain ⟨hattempts, hledger⟩ := a.postMessages_keeps messages
      exact .inr ⟨⟨[], accounts_of_kept hattempts hledger rfl rfl rfl (moves_step hs id id)⟩, False.elim⟩
    | pullMessages maxCount maxOutstanding =>
      obtain ⟨gone, hgone⟩ := a.numbers_pullMessages env.now maxCount maxOutstanding
      exact .inr ⟨⟨gone, hgone.accounts rfl (fun _ => Nat.zero_le _) (moves_step hs id id)⟩, False.elim⟩
    | acknowledgeMessages ackIds =>
      have hgone := (a.forgets_acknowledge ackIds).numbers
      exact .inr ⟨⟨_, hgone.accounts rfl (fun _ => le_rfl) (moves_step hs id id)⟩, False.elim⟩
    | modifyDeadline modifications =>
      exact .inr ⟨accounts_modifyDeadline hs env modifications hids, False.elim⟩
    | seek seekTime =>
      rcases a.seek_cases env seekTime with hreset | ⟨haccounts, hdeleted⟩
      · exact .inl hreset
      · exact .inr ⟨⟨[], haccounts⟩, fun _ => hdeleted⟩
    | delete =>
      rcases a.delete_cases env with hreset | haccounts
      · exact .inl hreset
      · exact .inr ⟨⟨[], haccounts⟩, False.elim⟩
    | detach =>
      rcases a.detach_cases env with hreset | haccounts
      · exact .inl hreset
      · exact .inr ⟨⟨[], haccounts⟩, False.elim⟩
    | getInfo | getStats | updateInfo | modifyPushConfig =>
      exact .inr ⟨⟨[], accounts_of_kept rfl rfl rfl rfl rfl (moves_step hs id id)⟩, False.elim⟩

end

end SubscriptionActor

end Deltio
