import Deltio.DeadLetter
import Deltio.Exclusivity

namespace Deltio

open Lib

namespace OutstandingMessageTracker

lemma remove_append (xs ys : List AckId) (t : OutstandingMessageTracker) :
    remove (xs ++ ys) t =
      ((remove xs t).1 ++ (remove ys (remove xs t).2).1, (remove ys (remove xs t).2).2) := by
  induction xs generalizing t with
  | nil => rfl
  | cons x xs ih =>
    rw [List.cons_append]
    cases hget : t.messages.get x with
    | none =>
      have hskip : ∀ ids, remove (x :: ids) t = remove ids t := fun ids => by
        simp only [remove, hget]
      rw [hskip, hskip, ih]
    | some message =>
      simp only [remove, hget, ih]
      rfl

/-- IDs that are not outstanding can be left out. -/
lemma remove_filter {p : AckId → Bool} (ids : List AckId) {t : OutstandingMessageTracker}
    (hp : ∀ id, t.contains id = true → p id = true) : remove (ids.filter p) t = remove ids t := by
  induction ids generalizing t with
  | nil => rfl
  | cons id ids ih =>
    cases hget : t.messages.get id with
    | none =>
      have hskip : remove (id :: ids) t = remove ids t := by simp only [remove, hget]
      rw [hskip, List.filter_cons]
      split_ifs
      · simp only [remove, hget]
        exact ih hp
      · exact ih hp
    | some message =>
      have hid : p id = true := by
        apply hp
        rw [contains, HashMap.containsKey, hget]
        rfl
      rw [List.filter_cons_of_pos hid]
      simp only [remove, hget]
      rw [ih]
      intro id' hid'
      apply hp
      rw [contains, HashMap.containsKey, HashMap.get_remove] at hid'
      split_ifs at hid'
      · cases hid'
      · exact hid'

lemma modify_append (xs ys : List DeadlineModification) (t : OutstandingMessageTracker) :
    modify (xs ++ ys) t =
      ((modify xs t).1 ++ (modify ys (modify xs t).2).1, (modify ys (modify xs t).2).2) := by
  induction xs generalizing t with
  | nil => rfl
  | cons x xs ih =>
    rw [List.cons_append]
    cases hget : t.messages.get x.ackId with
    | none =>
      have hskip : ∀ ms, modify (x :: ms) t = modify ms t := fun ms => by
        simp only [modify, hget]
      rw [hskip, hskip, ih]
    | some message =>
      cases hnew : x.newDeadline with
      | some newDeadline => simp only [modify, hget, hnew, ih]
      | none =>
        simp only [modify, hget, hnew, ih]
        rfl

end OutstandingMessageTracker

namespace SubscriptionActor

/-- The parts of the state that the loops over a batch neither read nor write. -/
structure Aside where
  outstanding : OutstandingMessageTracker
  counters : SubscriptionCounters
  observer : SubscriptionObserver
  spawned : List (Topic × List TopicMessage)

def withAside (a : SubscriptionActor) (x : Aside) (ids : List MessageId) : SubscriptionActor :=
  { a with
    outstanding := x.outstanding
    counters := x.counters
    observer := x.observer
    spawned := x.spawned
    deliveryAttempts := ids.foldl HashMap.remove a.deliveryAttempts }

@[simp] lemma outstanding_withAside (a : SubscriptionActor) (x : Aside) (ids : List MessageId) :
    (a.withAside x ids).outstanding = x.outstanding := rfl

@[simp] lemma counters_withAside (a : SubscriptionActor) (x : Aside) (ids : List MessageId) :
    (a.withAside x ids).counters = x.counters := rfl

lemma withAside_withAside (a : SubscriptionActor) (x y : Aside) (ids ids' : List MessageId) :
    (a.withAside x ids).withAside y ids' = a.withAside y (ids ++ ids') := by
  unfold withAside
  rw [List.foldl_append]

lemma settleAcked_withAside (a : SubscriptionActor) (x : Aside) (message : TopicMessage) :
    (a.withAside x []).settleAcked message =
      ((a.settleAcked message).1, (a.settleAcked message).2.withAside x []) := by
  unfold settleAcked withAside
  dsimp only [List.foldl_nil]
  split <;> rfl

lemma releaseAcked_withAside (acked : List PulledMessage) (freedKeys : List String)
    (a : SubscriptionActor) (x : Aside) :
    releaseAcked acked freedKeys (a.withAside x []) =
      ((releaseAcked acked freedKeys a).1, (releaseAcked acked freedKeys a).2.withAside x []) := by
  induction acked generalizing freedKeys a with
  | nil => rfl
  | cons pulled acked ih =>
    unfold releaseAcked
    rw [settleAcked_withAside]
    exact ih _ _

lemma releaseAcked_append (xs ys : List PulledMessage) (freedKeys : List String)
    (a : SubscriptionActor) :
    releaseAcked (xs ++ ys) freedKeys a =
      releaseAcked ys (releaseAcked xs freedKeys a).1 (releaseAcked xs freedKeys a).2 := by
  induction xs generalizing freedKeys a with
  | nil => rfl
  | cons pulled xs ih => exact ih _ _

/-- The keys freed so far do not change what follows. -/
lemma releaseAcked_freedKeys (acked : List PulledMessage) (freedKeys freedKeys' : List String)
    (a : SubscriptionActor) :
    (releaseAcked acked freedKeys a).2 = (releaseAcked acked freedKeys' a).2 := by
  induction acked generalizing freedKeys freedKeys' a with
  | nil => rfl
  | cons pulled acked ih => exact ih _ _ _

lemma requeueOne_withAside (a : SubscriptionActor) (x : Aside) (ids : List MessageId)
    (message : TopicMessage) :
    (a.withAside x ids).requeueOne message = (a.requeueOne message).withAside x ids := by
  unfold requeueOne withAside
  dsimp only
  split <;> rfl

lemma retryLater_withAside (a : SubscriptionActor) (x : Aside) (ids : List MessageId)
    (now : Instant) (message : TopicMessage) (attempt : ℕ) :
    (a.withAside x ids).retryLater now message attempt =
      (a.retryLater now message attempt).withAside x ids := by
  unfold retryLater
  rw [requeueOne_withAside, show (a.withAside x ids).info = a.info from rfl]
  split <;> rfl

lemma nextAttempt_foldl_remove {attempts : HashMap MessageId ℕ} {ids : List MessageId}
    {id : MessageId} (hid : id ∉ ids) :
    nextAttempt (ids.foldl HashMap.remove attempts) id = nextAttempt attempts id := by
  unfold nextAttempt
  rw [HashMap.get_foldl_remove, if_neg hid]

lemma countAttempt_withAside (a : SubscriptionActor) (x : Aside) {ids : List MessageId}
    {id : MessageId} (hid : id ∉ ids) :
    (a.withAside x ids).countAttempt id = (a.countAttempt id).withAside x ids := by
  unfold countAttempt withAside
  dsimp only
  rw [nextAttempt_foldl_remove hid, HashMap.foldl_remove_insert hid]

lemma requeueLoop_withAside (now : Instant) {msgs : List PulledMessage} {ids : List MessageId}
    (hids : ∀ p ∈ msgs, p.message.id ∉ ids) (letters : List TopicMessage)
    (letterIds : List MessageId) (a : SubscriptionActor) (x : Aside) :
    requeueLoop now msgs letters letterIds (a.withAside x ids) =
      ((requeueLoop now msgs letters letterIds a).1, (requeueLoop now msgs letters letterIds a).2.1,
        (requeueLoop now msgs letters letterIds a).2.2.withAside x ids) := by
  induction msgs generalizing letters letterIds a with
  | nil => rfl
  | cons pulled msgs ih =>
    rw [List.forall_mem_cons] at hids
    have hattempt : nextAttempt (a.withAside x ids).deliveryAttempts pulled.message.id =
        nextAttempt a.deliveryAttempts pulled.message.id := nextAttempt_foldl_remove hids.1
    unfold requeueLoop
    dsimp only
    rw [hattempt, countAttempt_withAside a x hids.1, retryLater_withAside,
      show (a.withAside x ids).info = a.info from rfl]
    split_ifs
    · exact ih hids.2 _ _ ((a.countAttempt pulled.message.id).giveUp pulled.message)
    · exact ih hids.2 _ _ _

lemma requeueLoop_append (now : Instant) (xs ys : List PulledMessage)
    (letters : List TopicMessage) (letterIds : List MessageId) (a : SubscriptionActor) :
    requeueLoop now (xs ++ ys) letters letterIds a =
      requeueLoop now ys (requeueLoop now xs letters letterIds a).1
        (requeueLoop now xs letters letterIds a).2.1
        (requeueLoop now xs letters letterIds a).2.2 := by
  induction xs generalizing letters letterIds a with
  | nil => rfl
  | cons pulled xs ih =>
    simp only [List.cons_append, requeueLoop]
    split_ifs <;> exact ih _ _ _

/-- What was collected before comes first. -/
lemma requeueLoop_collected (now : Instant) (msgs : List PulledMessage)
    (letters : List TopicMessage) (letterIds : List MessageId) (a : SubscriptionActor) :
    requeueLoop now msgs letters letterIds a =
      (letters ++ (requeueLoop now msgs [] [] a).1, letterIds ++ (requeueLoop now msgs [] [] a).2.1,
        (requeueLoop now msgs [] [] a).2.2) := by
  induction msgs generalizing letters letterIds a with
  | nil => simp [requeueLoop]
  | cons pulled msgs ih =>
    unfold requeueLoop
    dsimp only
    split_ifs
    · rw [ih, ih ([] ++ [_])]
      simp only [List.append_assoc, List.nil_append]
    · exact ih _ _ _

/-- The dead letters are as many as their originals, which are among the messages. -/
lemma requeueLoop_letterIds (now : Instant) (msgs : List PulledMessage) (a : SubscriptionActor) :
    (requeueLoop now msgs [] [] a).1.length = (requeueLoop now msgs [] [] a).2.1.length ∧
      ∀ id ∈ (requeueLoop now msgs [] [] a).2.1, id ∈ msgs.map (·.message.id) := by
  induction msgs generalizing a with
  | nil => exact ⟨rfl, fun _ hid => hid⟩
  | cons pulled msgs ih =>
    unfold requeueLoop
    dsimp only
    split_ifs
    · rw [requeueLoop_collected]
      obtain ⟨hlength, hmem⟩ := ih ((a.countAttempt pulled.message.id).giveUp pulled.message)
      refine ⟨?_, ?_⟩
      · simp only [List.nil_append, List.length_append, List.length_singleton, hlength]
      · intro id hid
        rcases List.mem_cons.mp hid with rfl | hid
        · exact List.mem_cons_self
        · exact List.mem_cons_of_mem _ (hmem id hid)
    · obtain ⟨hlength, hmem⟩ := ih ((a.countAttempt pulled.message.id).retryLater now
        pulled.message (nextAttempt a.deliveryAttempts pulled.message.id))
      exact ⟨hlength, fun id hid => List.mem_cons_of_mem _ (hmem id hid)⟩

def letterTopic (a : SubscriptionActor) (topics : TopicManager) : Option Topic :=
  match a.topicManager, a.info.deadLetterPolicy with
  | some _, some dlp => topics.getTopic dlp.deadLetterTopic
  | _, _ => none

lemma letterTopic_of_config {a b : SubscriptionActor} (h : b.config = a.config)
    (topics : TopicManager) : b.letterTopic topics = a.letterTopic topics := by
  have hmanager : b.topicManager = a.topicManager := congrArg Config.topicManager h
  unfold letterTopic
  rw [hmanager, info_of_config h]

def forwarded (a : SubscriptionActor) : List (Topic × TopicMessage) :=
  a.spawned.flatMap fun task => task.2.map fun m => (task.1, m)

/-- The states differ at most in the signals sent, and in which tasks carry the dead
letters. -/
structure SameState (a b : SubscriptionActor) : Prop where
  state : { a with observer := b.observer, spawned := b.spawned } = b
  forwarded : a.forwarded = b.forwarded

lemma tryPublishDeadLetteredMessages_eq (a : SubscriptionActor) (topics : TopicManager)
    (letters : List TopicMessage) :
    a.tryPublishDeadLetteredMessages topics letters = { a with
      spawned := a.spawned ++ (a.letterTopic topics).toList.map fun topic => (topic, letters) } := by
  unfold tryPublishDeadLetteredMessages
  split
  · next dlp htopics hpolicy =>
    have htopic : a.letterTopic topics = topics.getTopic dlp.deadLetterTopic := by
      rw [letterTopic, htopics, hpolicy]
    rw [htopic]
    cases topics.getTopic dlp.deadLetterTopic with
    | none => rw [Option.toList_none, List.map_nil, List.append_nil]
    | some topic => rfl
  · next hnone =>
    have htopic : a.letterTopic topics = none := by
      unfold letterTopic
      split
      · next dlp htopics hpolicy => exact (hnone _ dlp htopics hpolicy).elim
      · rfl
    rw [htopic, Option.toList_none, List.map_nil, List.append_nil]

/-- The dead letters are counted and handed on, and their attempts are erased. -/
lemma publishDeadLetters_withAside (a : SubscriptionActor) (topics : TopicManager)
    {letters : List TopicMessage} {ids : List MessageId} (hlength : letters.length = ids.length) :
    ∃ spawned, a.publishDeadLetters topics letters ids = a.withAside ⟨a.outstanding,
        { a.counters with deadLettered := a.counters.deadLettered + letters.length }, a.observer,
        spawned⟩ ids ∧
      (a.publishDeadLetters topics letters ids).forwarded = a.forwarded ++
        (a.letterTopic topics).toList.flatMap fun topic => letters.map fun m => (topic, m) := by
  unfold publishDeadLetters
  split_ifs with hempty
  · rw [List.isEmpty_iff] at hempty
    subst hempty
    rw [List.length_eq_zero_iff.mp hlength.symm]
    refine ⟨a.spawned, rfl, ?_⟩
    simp
  · dsimp only
    rw [tryPublishDeadLetteredMessages_eq]
    refine ⟨_, rfl, ?_⟩
    unfold forwarded
    rw [List.flatMap_append, List.flatMap_map]
    rfl

lemma acknowledgeMessages_eq {a : SubscriptionActor} (hdeleted : a.deleted = false)
    (ids : List AckId) :
    ∃ observer, (a.acknowledgeMessages ids).2 =
      (releaseAcked (a.outstanding.remove ids).1 [] a).2.withAside ⟨(a.outstanding.remove ids).2,
        { a.counters with acked := a.counters.acked + (a.outstanding.remove ids).1.length },
        observer, a.spawned⟩ [] := by
  have hremove : a.outstanding.remove (ids.filter a.outstanding.contains) =
      a.outstanding.remove ids := OutstandingMessageTracker.remove_filter ids fun _ hid => hid
  set removed := a.outstanding.remove ids with hremoved
  set released := releaseAcked removed.1 [] a with hreleased
  have hloop : releaseAcked removed.1 [] { a with outstanding := removed.2 } =
      (released.1, released.2.withAside ⟨removed.2, a.counters, a.observer, a.spawned⟩ []) :=
    releaseAcked_withAside removed.1 [] a ⟨removed.2, a.counters, a.observer, a.spawned⟩
  unfold acknowledgeMessages
  rw [if_neg (ne_true_of_eq_false hdeleted)]
  dsimp only
  rw [hremove, hloop]
  split_ifs <;> exact ⟨_, rfl⟩

lemma modifyDeadline_eq {a : SubscriptionActor} (h : a.Fresh) (hdeleted : a.deleted = false)
    (env : Env) (modifications : List DeadlineModification) :
    let modified := a.outstanding.modify modifications
    let r := requeueLoop env.now modified.1 [] [] a
    ∃ observer spawned, (a.modifyDeadline env modifications).2 =
        r.2.2.withAside ⟨modified.2, { a.counters with
          nacked := a.counters.nacked + modified.1.length
          deadLettered := a.counters.deadLettered + r.1.length }, observer, spawned⟩ r.2.1 ∧
      (a.modifyDeadline env modifications).2.forwarded = a.forwarded ++
        (a.letterTopic env.topics).toList.flatMap fun topic => r.1.map fun m => (topic, m) := by
  intro modified r
  set x : Aside := ⟨modified.2, { a.counters with
    nacked := a.counters.nacked + modified.1.length }, a.observer, a.spawned⟩ with hx
  have hloop : requeueLoop env.now modified.1 [] [] (a.withAside x []) =
      (r.1, r.2.1, r.2.2.withAside x []) :=
    requeueLoop_withAside env.now (fun _ _ => List.not_mem_nil) [] [] a x
  have htopic : (r.2.2.withAside x []).letterTopic env.topics = a.letterTopic env.topics :=
    letterTopic_of_config (simulates_requeueLoop env.now modified.1 [] [] h).config env.topics
  obtain ⟨spawned, hpublished, hforwarded⟩ := (r.2.2.withAside x []).publishDeadLetters_withAside
    env.topics (requeueLoop_letterIds env.now modified.1 a).1
  rw [withAside_withAside, List.nil_append] at hpublished
  rw [htopic] at hforwarded
  have hcall : (a.modifyDeadline env modifications).2 =
      let b := (r.2.2.withAside x []).publishDeadLetters env.topics r.1 r.2.1
      if b.backlog.isEmpty then b else b.notifyNewMessagesAvailable := by
    unfold modifyDeadline requeueMessages
    rw [if_neg (ne_true_of_eq_false hdeleted)]
    change (let s := requeueLoop env.now modified.1 [] [] (a.withAside x [])
      let b := s.2.2.publishDeadLetters env.topics s.1 s.2.1
      if b.backlog.isEmpty then b else b.notifyNewMessagesAvailable) = _
    rw [hloop]
  rw [hcall]
  dsimp only
  split_ifs
  · exact ⟨_, spawned, hpublished, hforwarded⟩
  · refine ⟨a.observer.notifyNewMessagesAvailable, spawned, ?_, hforwarded⟩
    rw [hpublished]
    rfl

lemma sameState_withAside (a : SubscriptionActor) {t : OutstandingMessageTracker}
    {counters : SubscriptionCounters} {observer observer' : SubscriptionObserver}
    {spawned spawned' : List (Topic × List TopicMessage)} {ids : List MessageId}
    (h : (a.withAside ⟨t, counters, observer, spawned⟩ ids).forwarded =
      (a.withAside ⟨t, counters, observer', spawned'⟩ ids).forwarded) :
    SameState (a.withAside ⟨t, counters, observer, spawned⟩ ids)
      (a.withAside ⟨t, counters, observer', spawned'⟩ ids) := ⟨rfl, h⟩

/-- An acknowledgement can be split. -/
lemma sameState_acknowledge {a : SubscriptionActor} (h : a.Fresh) (xs ys : List AckId) :
    SameState (a.acknowledgeMessages (xs ++ ys)).2
      ((a.acknowledgeMessages xs).2.acknowledgeMessages ys).2 := by
  by_cases hdeleted : a.deleted = true
  · have hsame : ∀ ids, (a.acknowledgeMessages ids).2 = a := fun ids => by
      rw [acknowledgeMessages, if_pos hdeleted]
    rw [hsame, hsame, hsame]
    exact ⟨rfl, rfl⟩
  · rw [Bool.not_eq_true] at hdeleted
    set b := (a.acknowledgeMessages xs).2 with hb
    have hdeleted' : b.deleted = false := by
      obtain ⟨acts, hs, -⟩ := simulates_acknowledgeMessages xs h
      exact (congrArg Config.deleted hs.config).trans hdeleted
    set n₁ := (a.outstanding.remove xs).1
    set t₁ := (a.outstanding.remove xs).2
    obtain ⟨o₁, hfirst⟩ := acknowledgeMessages_eq hdeleted xs
    obtain ⟨o₂, hsecond⟩ := acknowledgeMessages_eq hdeleted' ys
    obtain ⟨o, hwhole⟩ := acknowledgeMessages_eq hdeleted (xs ++ ys)
    rw [OutstandingMessageTracker.remove_append, releaseAcked_append,
      releaseAcked_freedKeys _ _ [], List.length_append, ← Nat.add_assoc] at hwhole
    rw [hb, hfirst, releaseAcked_withAside, withAside_withAside] at hsecond
    rw [hwhole, hb, hfirst, hsecond]
    exact sameState_withAside _ rfl

/-- A change of deadlines can be split if the messages it takes out have distinct IDs. -/
lemma sameState_modifyDeadline {a : SubscriptionActor} (h : a.Fresh) (hdeleted : a.deleted = false)
    (env : Env) (xs ys : List DeadlineModification)
    (hids : ((a.outstanding.modify (xs ++ ys)).1.map (·.message.id)).Nodup) :
    SameState (a.modifyDeadline env (xs ++ ys)).2
      ((a.modifyDeadline env xs).2.modifyDeadline env ys).2 := by
  set b := (a.modifyDeadline env xs).2 with hb
  have hs := simulates_modifyDeadline env xs h hdeleted
  have hdeleted' : b.deleted = false := (congrArg Config.deleted hs.config).trans hdeleted
  have htopic := letterTopic_of_config hs.config env.topics
  set n₁ := (a.outstanding.modify xs).1 with hn₁
  set t₁ := (a.outstanding.modify xs).2 with ht₁
  set r₁ := requeueLoop env.now n₁ [] [] a with hr₁
  obtain ⟨o₁, spawned₁, hfirst, hforwarded₁⟩ := modifyDeadline_eq h hdeleted env xs
  obtain ⟨o₂, spawned₂, hsecond, hforwarded₂⟩ := modifyDeadline_eq hs.fresh hdeleted' env ys
  obtain ⟨o, spawned, hwhole, hforwarded⟩ := modifyDeadline_eq h hdeleted env (xs ++ ys)
  -- the dead letters of the first part are none of the messages of the second
  have hother : ∀ p ∈ (t₁.modify ys).1, p.message.id ∉ r₁.2.1 := by
    intro p hp hmem
    rw [OutstandingMessageTracker.modify_append, List.map_append, List.nodup_append] at hids
    exact hids.2.2 _ ((requeueLoop_letterIds env.now n₁ a).2 _ hmem) _
      (List.mem_map.mpr ⟨p, hp, rfl⟩) rfl
  set r₂ := requeueLoop env.now (t₁.modify ys).1 [] [] r₁.2.2 with hr₂
  have hloop : ∃ x, requeueLoop env.now (b.outstanding.modify ys).1 [] [] b =
      (r₂.1, r₂.2.1, r₂.2.2.withAside x r₁.2.1) := by
    rw [hb, hfirst, outstanding_withAside]
    exact ⟨_, requeueLoop_withAside env.now hother [] [] r₁.2.2 _⟩
  have hall : requeueLoop env.now (a.outstanding.modify (xs ++ ys)).1 [] [] a =
      (r₁.1 ++ r₂.1, r₁.2.1 ++ r₂.2.1, r₂.2.2) := by
    rw [OutstandingMessageTracker.modify_append, requeueLoop_append, requeueLoop_collected]
  obtain ⟨x, hloop⟩ := hloop
  have hout : b.outstanding = t₁ := by rw [hb, hfirst, outstanding_withAside]
  have hcounters : b.counters = { a.counters with
      nacked := a.counters.nacked + n₁.length
      deadLettered := a.counters.deadLettered + r₁.1.length } := by
    rw [hb, hfirst, counters_withAside]
  rw [hloop, withAside_withAside, hout, hcounters] at hsecond
  rw [hall, OutstandingMessageTracker.modify_append, List.length_append, List.length_append,
    ← Nat.add_assoc, ← Nat.add_assoc] at hwhole
  have hsame : (a.modifyDeadline env (xs ++ ys)).2.forwarded =
      (b.modifyDeadline env ys).2.forwarded := by
    rw [hforwarded, hforwarded₂, hforwarded₁, hall, hloop, htopic, List.append_assoc]
    congr 1
    cases a.letterTopic env.topics with
    | none => rfl
    | some topic =>
      simp only [Option.toList_some, List.flatMap_singleton, List.map_append]
      rfl
  rw [hwhole, hsecond] at hsame ⊢
  exact sameState_withAside _ hsame

section

variable (info : SubscriptionInfo) (topic : Topic) (pushRegistry : PushSubscriptionsRegistry)
  (delegate : SubscriptionManagerState) (topicManager : Option TopicManagerRef)

/-- Acknowledging or modifying two lists at once is the same as one after the other.  The
second needs the messages to have distinct IDs, as the topic gives them. -/
theorem batches_can_be_split (es : List (Env × ActorEvent)) :
    let a := (start info topic pushRegistry delegate topicManager).run es
    (∀ xs ys, SameState (a.acknowledgeMessages (xs ++ ys)).2
      ((a.acknowledgeMessages xs).2.acknowledgeMessages ys).2) ∧
    (((posted es).map (·.id)).Nodup → ∀ env xs ys, SameState (a.modifyDeadline env (xs ++ ys)).2
      ((a.modifyDeadline env xs).2.modifyDeadline env ys).2) := by
  intro a
  have hsound : a.Sound := (sound_start info topic pushRegistry delegate topicManager).run es
  refine ⟨sameState_acknowledge hsound.fresh, fun hids env xs ys => ?_⟩
  by_cases hdeleted : a.deleted = true
  · have hsame : ∀ ms, (a.modifyDeadline env ms).2 = a := fun ms => by
      rw [modifyDeadline, if_pos hdeleted]
    rw [hsame, hsame, hsame]
    exact ⟨rfl, rfl⟩
  · have hsingle : a.Single (posted es) :=
      single_run info topic pushRegistry delegate topicManager hids
    have hnodup := hsingle.nodup_ids_failing (.request (.modifyDeadline (xs ++ ys)))
    rw [failing, if_neg hdeleted] at hnodup
    rw [Bool.not_eq_true] at hdeleted
    exact sameState_modifyDeadline hsound.fresh hdeleted env xs ys hnodup

end

/-- Two messages are nacked for the fifth time, together or one after the other: both are
forwarded. -/
theorem fifth_nacks_can_be_split :
    let es := Sample.events (.postMessages [Sample.message 1 none, Sample.message 2 none] ::
      ([0, 1, 2, 3].flatMap fun i =>
        [.pullMessages 10 0, .modifyDeadline [.nack ⟨2 * i + 1⟩, .nack ⟨2 * i + 2⟩]]) ++
      [.pullMessages 10 0])
    let a := (start { Sample.info with deadLetterPolicy := some Sample.deadLetterPolicy }
      Sample.topic ∅ .new (some ⟨⟩)).run es
    (a.modifyDeadline (Sample.env 0) [.nack ⟨9⟩, .nack ⟨10⟩]).2.forwarded.length = 2 ∧
    SameState (a.modifyDeadline (Sample.env 0) ([.nack ⟨9⟩] ++ [.nack ⟨10⟩])).2
      ((a.modifyDeadline (Sample.env 0) [.nack ⟨9⟩]).2.modifyDeadline (Sample.env 0)
        [.nack ⟨10⟩]).2 := by
  intro es a
  refine ⟨by decide +kernel, ?_⟩
  exact (batches_can_be_split _ Sample.topic ∅ .new (some ⟨⟩) es).2 (by decide +kernel)
    (Sample.env 0) [.nack ⟨9⟩] [.nack ⟨10⟩]

end SubscriptionActor

end Deltio
