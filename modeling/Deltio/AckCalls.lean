import Deltio.PushExclusivity
import Deltio.Wire

namespace Deltio

open Lib SubscriptionActor

structure AcknowledgeRequest where
  subscription : String
  ackIds : List String

structure ModifyAckDeadlineRequest where
  subscription : String
  ackIds : List String
  ackDeadlineSeconds : ℤ

namespace Subscriber

def subscriptionNotFound (name : SubscriptionName) : CallFailure :=
  .notFound ("Resource not found (resource=" ++ name.subscriptionId ++ ").")

def getSubscription (subscriptions : SubscriptionManagerState) (name : SubscriptionName) :
    Except CallFailure Subscription :=
  match subscriptions.subscriptions.get name with
  | some subscription => .ok subscription
  | none => .error (subscriptionNotFound name)

lemma getSubscription_of_get {subscriptions : SubscriptionManagerState} {name : SubscriptionName}
    {subscription : Subscription} (h : subscriptions.subscriptions.get name = some subscription) :
    getSubscription subscriptions name = .ok subscription := by
  unfold getSubscription
  rw [h]

/-- What the Acknowledge handler sends, and to which subscription.  All ack IDs are parsed
first. -/
def acknowledge (subscriptions : SubscriptionManagerState) (request : AcknowledgeRequest) :
    Except CallFailure (Subscription × SubscriptionRequest) := do
  let ackIds ← (request.ackIds.mapM parseAckId).mapError fun s => .failure (.status s)
  let name ← (Parser.parseSubscriptionName request.subscription).mapError .failure
  let subscription ← getSubscription subscriptions name
  return (subscription, .acknowledgeMessages ackIds)

/-- What the ModifyAckDeadline handler sends: the same number of seconds for every ID. -/
def modifyAckDeadline (subscriptions : SubscriptionManagerState)
    (request : ModifyAckDeadlineRequest) (now : Instant) :
    Except CallFailure (Subscription × SubscriptionRequest) := do
  let modifications ← (parseDeadlineModifications now request.ackIds
    (request.ackIds.map fun _ => request.ackDeadlineSeconds)).mapError fun s => .failure (.status s)
  let name ← (Parser.parseSubscriptionName request.subscription).mapError .failure
  let subscription ← getSubscription subscriptions name
  return (subscription, .modifyDeadline modifications)

end Subscriber

lemma parseU64_toString {n : ℕ} (h : n < 2 ^ 64) : parseU64 (toString n) = some n := by
  have hchars : (toString n).toList = Nat.toDigits 10 n := by
    rw [Nat.toString_eq_ofList_toDigits, String.toList_ofList]
  have hdigits : ∀ c ∈ Nat.toDigits 10 n, c.isDigit = true :=
    fun c hc => Nat.isDigit_of_mem_toDigits (by decide) (by decide) hc
  unfold parseU64
  rw [hchars]
  extract_lets digits value
  -- no digit is a sign, so none is dropped
  have hall : digits = Nat.toDigits 10 n := by
    unfold digits
    split
    · next rest heq =>
      have hdigit := hdigits '+' (heq ▸ List.mem_cons_self)
      exact absurd hdigit (by decide)
    · rfl
  have hvalue : value = n := by
    unfold value
    rw [hall]
    exact Nat.ofDigitChars_ten_toDigits
  rw [hvalue, if_pos h, hall, if_neg]
  rw [Bool.not_eq_true, Bool.or_eq_false_iff, List.isEmpty_eq_false_iff, Bool.not_eq_false',
    List.all_eq_true]
  exact ⟨Nat.toDigits_ne_nil, hdigits⟩

/-- The text that came with a message is read back as its ack ID. -/
lemma parseAckId_received {p : PulledMessage} (h : p.ackId.value < 2 ^ 64) :
    parseAckId (Subscriber.mapToReceivedMessage p).ackId = .ok p.ackId := by
  have hparse : parseU64 (Subscriber.mapToReceivedMessage p).ackId = some p.ackId.value :=
    parseU64_toString h
  unfold parseAckId AckId.parse
  rw [hparse]
  rfl

lemma mapM_map_ok {α β γ ε : Type*} {f : α → β} {g : β → Except ε γ} {h : α → γ} {l : List α}
    (hl : ∀ x ∈ l, g (f x) = .ok (h x)) : (l.map f).mapM g = .ok (l.map h) := by
  induction l with
  | nil => rfl
  | cons x l ih =>
    rw [List.map_cons, List.mapM_cons, hl x List.mem_cons_self,
      ih fun y hy => hl y (List.mem_cons_of_mem _ hy)]
    rfl

namespace SubscriptionActor

lemma mem_or_get_of_foldl_add {ps : List PulledMessage} {t : OutstandingMessageTracker} {id : AckId}
    {q : PulledMessage} (h : (ps.foldl .add t).messages.get id = some q) :
    (q ∈ ps ∧ q.ackId = id) ∨ t.messages.get id = some q := by
  induction ps generalizing t with
  | nil => exact .inr h
  | cons p ps ih =>
    rcases ih h with ⟨hq, hid⟩ | hadded
    · exact .inl ⟨List.mem_cons_of_mem _ hq, hid⟩
    · change (t.messages.insert p.ackId p).get id = some q at hadded
      rw [HashMap.get_insert] at hadded
      split_ifs at hadded with hid
      · cases hadded
        exact .inl ⟨List.mem_cons_self, hid.symm⟩
      · exact .inr hadded

/-- Modifications keep the message of a lease. -/
lemma exists_of_modified {id : AckId} {modifications : List DeadlineModification}
    {found : Option PulledMessage} {q : PulledMessage}
    (h : OutstandingMessageTracker.modified id modifications found = some q) :
    ∃ p, found = some p ∧ p.message = q.message := by
  induction modifications generalizing found with
  | nil => exact ⟨q, h, rfl⟩
  | cons modification modifications ih =>
    unfold OutstandingMessageTracker.modified at h
    split_ifs at h
    · obtain ⟨p, hp, hmessage⟩ := ih h
      obtain ⟨p', hp', hdeadline⟩ := Option.bind_eq_some_iff.mp hp
      obtain ⟨deadline, -, rfl⟩ := Option.map_eq_some_iff.mp hdeadline
      exact ⟨p', hp', hmessage⟩
    · exact ih h

/-- Every lease stems from one of the deliveries. -/
def Stems (a : SubscriptionActor) (ps : List PulledMessage) : Prop :=
  ∀ id q, a.outstanding.messages.get id = some q → ∃ p ∈ ps, p.ackId = id ∧ p.message = q.message

lemma Stems.step {a : SubscriptionActor} (ht : a.Tracked) {ps : List PulledMessage}
    (h : a.Stems ps) (e : Env × ActorEvent) : (a.step e).Stems (ps ++ a.pulled e) := by
  have hstep : (a.step e).outstanding = (a.custodyAfter e).outstanding :=
    congrArg Custody.outstanding (a.custody_step e)
  have hold : ∀ {id q}, a.outstanding.messages.get id = some q →
      ∃ p ∈ ps ++ a.pulled e, p.ackId = id ∧ p.message = q.message := by
    intro id q hq
    obtain ⟨p, hp, hsame⟩ := h id q hq
    exact ⟨p, List.mem_append_left _ hp, hsame⟩
  intro id q hq
  rw [hstep] at hq
  unfold custodyAfter at hq
  split at hq
  · rcases mem_or_get_of_foldl_add hq with ⟨hpulled, hid⟩ | hkept
    · exact ⟨q, List.mem_append_right _ hpulled, hid, rfl⟩
    · exact hold hkept
  · split_ifs at hq
    · exact hold hq
    · rw [OutstandingMessageTracker.get_remove] at hq
      split_ifs at hq
      exact hold hq
  · split_ifs at hq
    · exact hold hq
    · rw [OutstandingMessageTracker.get_modify] at hq
      obtain ⟨p, hp, hmessage⟩ := exists_of_modified hq
      rw [← hmessage]
      exact hold hp
  · rw [(ht.sideBySide.takeExpired _).get] at hq
    exact hold (Option.filter_eq_some_iff.mp hq).1
  · exact hold hq
  · split_ifs at hq
    · exact hold hq
    · simp [Custody.clear, OutstandingMessageTracker.clear] at hq
  · split_ifs at hq
    · exact hold hq
    · simp [Custody.clear, OutstandingMessageTracker.clear] at hq
  · split_ifs at hq
    · exact hold hq
    · simp [Custody.clear, OutstandingMessageTracker.clear] at hq
  · exact hold hq

lemma Stems.run {a : SubscriptionActor} (ht : a.Tracked) {ps : List PulledMessage}
    (h : a.Stems ps) (es : List (Env × ActorEvent)) : (a.run es).Stems (ps ++ deliveries a es) := by
  induction es generalizing a ps with
  | nil =>
    rw [deliveries, List.append_nil]
    exact h
  | cons e es ih =>
    rw [deliveries, ← List.append_assoc]
    exact ih (ht.step e) (h.step ht e)

section

variable (info : SubscriptionInfo) (topic : Topic) (pushRegistry : PushSubscriptionsRegistry)
  (delegate : SubscriptionManagerState) (topicManager : Option TopicManagerRef)

/-- What is leased under the ack ID of a delivery is its message: ack IDs are not used again. -/
lemma message_of_delivered {es : List (Env × ActorEvent)} {p q : PulledMessage}
    (hp : p ∈ deliveries (start info topic pushRegistry delegate topicManager) es)
    (hq : ((start info topic pushRegistry delegate topicManager).run es).outstanding.messages.get
      p.ackId = some q) : q.message = p.message := by
  have hstart : (start info topic pushRegistry delegate topicManager).Stems [] := by
    intro id q hq
    cases hq
  have ht := tracked_start info topic pushRegistry delegate topicManager
  obtain ⟨p', hp', hid, hmessage⟩ := hstart.run ht es p.ackId q hq
  rw [List.nil_append] at hp'
  have hinj := List.inj_on_of_nodup_map
    ((pairwise_ackIds_deliveries _ es).imp (fun h => h.ne)) hp' hp hid
  rw [← hmessage, hinj]

lemma ackId_lt_of_delivered {es : List (Env × ActorEvent)} {p : PulledMessage}
    (hp : p ∈ deliveries (start info topic pushRegistry delegate topicManager) es)
    (hfew : (deliveries (start info topic pushRegistry delegate topicManager) es).length <
      2 ^ 64 - 1) : p.ackId.value < 2 ^ 64 := by
  have hmem : p.ackId.value ∈
      (deliveries (start info topic pushRegistry delegate topicManager) es).map
        (fun p => p.ackId.value) := List.mem_map_of_mem hp
  rw [ackIds_deliveries, List.mem_range'_1] at hmem
  have hfirst : (start info topic pushRegistry delegate topicManager).nextAckId.value = 1 := rfl
  omega

end

lemma contains_iff {t : OutstandingMessageTracker} {id : AckId} :
    t.contains id = true ↔ ∃ q, t.messages.get id = some q := by
  rw [OutstandingMessageTracker.contains, HashMap.containsKey, Option.isSome_iff_exists]

lemma get_acknowledged (a : SubscriptionActor) (env : Env) (ackIds : List AckId) (id : AckId) :
    (a.step (env, .request (.acknowledgeMessages ackIds))).outstanding.messages.get id =
      if a.deleted = false ∧ id ∈ ackIds then none else a.outstanding.messages.get id := by
  have hstep : (a.step (env, .request (.acknowledgeMessages ackIds))).outstanding =
      (a.custodyAfter (env, .request (.acknowledgeMessages ackIds))).outstanding :=
    congrArg Custody.outstanding (a.custody_step _)
  rw [hstep]
  unfold custodyAfter
  dsimp only
  cases hdeleted : a.deleted with
  | true => rfl
  | false =>
    rw [if_neg (by decide), OutstandingMessageTracker.get_remove]
    by_cases hid : id ∈ ackIds
    · rw [if_pos (c := false = false ∧ id ∈ ackIds) ⟨rfl, hid⟩]
      split_ifs with hfound
      · rfl
      · -- it was not outstanding before
        cases hget : a.outstanding.messages.get id with
        | none => rfl
        | some q =>
          have hcontained := contains_iff.mpr ⟨q, hget⟩
          exact absurd (List.mem_filter.mpr ⟨hid, hcontained⟩) hfound
    · rw [if_neg fun h => hid (List.mem_of_mem_filter h), if_neg fun h => hid h.2]

/-- Acknowledging a lease is the end of its message. -/
lemma over_of_acknowledge {a : SubscriptionActor} (hs : a.Sound) {ackIds : List AckId} {id : AckId}
    (hid : id ∈ ackIds) {q : PulledMessage} (hq : a.outstanding.messages.get id = some q)
    (env : Env) : (a.step (env, .request (.acknowledgeMessages ackIds))).Over q.message := by
  by_cases hdeleted : a.deleted = true
  · exact .inr ((show a.Ended from .inl hdeleted).step hs _)
  · have hfound : id ∈ ackIds.filter a.outstanding.contains :=
      List.mem_filter.mpr ⟨hid, contains_iff.mpr ⟨q, hq⟩⟩
    exact .inl (settled_of_acknowledge hq hdeleted hfound)

lemma Over.run {a : SubscriptionActor} (hs : a.Sound) {m : TopicMessage} (h : a.Over m)
    (es : List (Env × ActorEvent)) : (a.run es).Over m := by
  induction es generalizing a with
  | nil => exact h
  | cons e es ih => exact ih (hs.step e) (h.step hs e)

/-- The same modification for a list of ack IDs, repetitions included, is that modification of
each. -/
lemma modified_map (granted : Option AckDeadline) (ackIds : List AckId) (id : AckId)
    (found : Option PulledMessage) :
    OutstandingMessageTracker.modified id (ackIds.map fun ackId => ⟨ackId, granted⟩) found =
      if id ∈ ackIds then found.bind fun q => granted.map q.modifyDeadline else found := by
  induction ackIds generalizing found with
  | nil => rfl
  | cons ackId ackIds ih =>
    rw [List.map_cons]
    unfold OutstandingMessageTracker.modified
    rw [ih, ih]
    by_cases hid : ackId = id
    · rw [if_pos hid, if_pos (c := id ∈ ackId :: ackIds) (hid ▸ List.mem_cons_self)]
      cases granted <;> cases found <;> simp [PulledMessage.modifyDeadline]
    · have hmem : id ∈ ackId :: ackIds ↔ id ∈ ackIds := by simp [Ne.symm hid]
      simp only [hid, if_false, hmem]

lemma get_modified (a : SubscriptionActor) (env : Env) (granted : Option AckDeadline)
    (ackIds : List AckId) (id : AckId) :
    (a.step (env, .request (.modifyDeadline (ackIds.map fun ackId => ⟨ackId, granted⟩)))
      ).outstanding.messages.get id =
      if a.deleted = false ∧ id ∈ ackIds
        then (a.outstanding.messages.get id).bind fun q => granted.map q.modifyDeadline
        else a.outstanding.messages.get id := by
  set modifications := ackIds.map fun ackId => (⟨ackId, granted⟩ : DeadlineModification)
  have hstep : (a.step (env, .request (.modifyDeadline modifications))).outstanding =
      (a.custodyAfter (env, .request (.modifyDeadline modifications))).outstanding :=
    congrArg Custody.outstanding (a.custody_step _)
  rw [hstep]
  unfold custodyAfter
  dsimp only
  cases hdeleted : a.deleted with
  | true => rfl
  | false =>
    rw [if_neg (by decide), OutstandingMessageTracker.get_modify, modified_map]
    simp only [true_and]

/-- A lease that is extended keeps its message out of reach. -/
lemma kept_of_extended {a : SubscriptionActor} (hs : a.Sound) {ackIds : List AckId} {id : AckId}
    (hid : id ∈ ackIds) {q : PulledMessage} (hq : a.outstanding.messages.get id = some q)
    (env : Env) (deadline : AckDeadline) :
    (a.step (env, .request (.modifyDeadline (ackIds.map fun ackId => ⟨ackId, some deadline⟩)))).Kept
      id q.message deadline := by
  by_cases hdeleted : a.deleted = true
  · exact .ended ((show a.Ended from .inl hdeleted).step hs _)
  · refine .leased ⟨q.modifyDeadline deadline, ?_, rfl, rfl⟩
    rw [get_modified, if_pos ⟨Bool.eq_false_iff.mpr hdeleted, hid⟩, hq]
    rfl

/-- Between two histories an event that posts nothing makes no message occur twice. -/
lemma Empty.after {a₀ : SubscriptionActor} (h : a₀.Empty) {es later : List (Env × ActorEvent)}
    (e : Env × ActorEvent) (he : e.2.posted = [])
    (hids : ((posted (es ++ later)).map (·.id)).Nodup) :
    (((a₀.run es).step e).run later).Tracked ∧
    ∀ m, (((a₀.run es).step e).run later).places.occ (((a₀.run es).step e).run later).route m ≤ 1 := by
  have hposted : posted (es ++ e :: later) = posted (es ++ later) := by
    rw [posted_append, posted_append]
    change _ ++ (e.2.posted ++ posted later) = _
    rw [he, List.nil_append]
  have hrun : ((a₀.run es).step e).run later = a₀.run (es ++ e :: later) := by
    rw [run_append]
    rfl
  rw [hrun]
  exact ⟨h.tracked.run _, fun m => h.occ_le_one (hposted ▸ hids) m⟩

end SubscriptionActor

namespace Subscriber

section

variable (info : SubscriptionInfo) (topic : Topic) (pushRegistry : PushSubscriptionsRegistry)
  (delegate : SubscriptionManagerState) (topicManager : Option TopicManagerRef)

/-- The texts that came with any deliveries of a subscription, however long ago, are sent back
as they were.  The call ends the leases of these deliveries and of no others, and a message
whose lease was still there does not come again, whatever happens. -/
theorem acknowledged_never_redelivered (es : List (Env × ActorEvent))
    (hfew : (deliveries (start info topic pushRegistry delegate topicManager) es).length <
      2 ^ 64 - 1)
    (ps : List PulledMessage)
    (hps : ∀ p ∈ ps, p ∈ deliveries (start info topic pushRegistry delegate topicManager) es)
    (subscriptions : SubscriptionManagerState) (request : AcknowledgeRequest)
    (name : SubscriptionName) (subscription : Subscription)
    (hname : Parser.parseSubscriptionName request.subscription = .ok name)
    (hsubscription : subscriptions.subscriptions.get name = some subscription)
    (htexts : request.ackIds = ps.map fun p => (mapToReceivedMessage p).ackId) :
    let a := (start info topic pushRegistry delegate topicManager).run es
    let ackIds := ps.map fun p => p.ackId
    acknowledge subscriptions request = .ok (subscription, .acknowledgeMessages ackIds) ∧
    ∀ env, let b := a.step (env, .request (.acknowledgeMessages ackIds))
      (∀ id, b.outstanding.messages.get id =
        if a.deleted = false ∧ id ∈ ackIds then none else a.outstanding.messages.get id) ∧
      ∀ p ∈ ps, a.outstanding.contains p.ackId = true →
        ∀ (later : List (Env × ActorEvent)) (pull : Env × ActorEvent),
          ((posted (es ++ later)).map (·.id)).Nodup →
          p.message ∉ ((b.run later).pulled pull).map (·.message) := by
  intro a ackIds
  have hempty := empty_start info topic pushRegistry delegate topicManager
  have hsound : a.Sound := (hempty.tracked.run es).sound
  refine ⟨?_, fun env => ⟨fun id => a.get_acknowledged env ackIds id, ?_⟩⟩
  · have hparsed : (ps.map fun p => (mapToReceivedMessage p).ackId).mapM parseAckId = .ok ackIds :=
      mapM_map_ok fun p hp => parseAckId_received
        (ackId_lt_of_delivered info topic pushRegistry delegate topicManager (hps p hp) hfew)
    unfold acknowledge
    rw [htexts, hparsed, hname]
    change getSubscription subscriptions name >>= _ = _
    rw [getSubscription_of_get hsubscription]
    rfl
  · intro p hp hleased later pull hids
    obtain ⟨q, hq⟩ := contains_iff.mp hleased
    have hmessage : q.message = p.message :=
      message_of_delivered info topic pushRegistry delegate topicManager (hps p hp) hq
    have hover := over_of_acknowledge hsound (List.mem_map_of_mem hp) hq env
    have hlater := hover.run (hsound.step _) later
    rw [hmessage] at hlater
    obtain ⟨htracked, hocc⟩ := hempty.after (env, .request (.acknowledgeMessages ackIds)) rfl hids
    exact hlater.guarded.not_mem_pulled htracked.sound (hocc _) pull

/-- The deadline that a number of seconds asks for at an instant; zero asks for none. -/
def grantedDeadline (now : Instant) (seconds : ℕ) : Option AckDeadline :=
  if seconds = 0 then none else some (AckDeadline.new (now + Duration.fromSecs (min seconds 600)))

lemma parseDeadlineModification_received {p : PulledMessage} (h : p.ackId.value < 2 ^ 64)
    (now : Instant) (seconds : ℕ) :
    parseDeadlineModification now (mapToReceivedMessage p).ackId seconds =
      .ok ⟨p.ackId, grantedDeadline now seconds⟩ := by
  unfold parseDeadlineModification parseDeadlineExtensionDuration grantedDeadline
  rw [parseAckId_received h, if_neg (by omega)]
  by_cases hmax : 600 ≤ seconds
  · rw [if_pos (by omega), if_neg (by omega), Nat.min_eq_right hmax]
    rfl
  · rw [if_neg (by omega), Nat.min_eq_left (by omega), Int.toNat_natCast]
    by_cases hzero : seconds = 0
    · rw [if_pos (by omega), if_pos hzero]
      rfl
    · rw [if_neg (by omega), if_neg hzero]
      rfl

/-- The texts that came with any deliveries are sent back to move their deadlines.  The call
moves the leases of these deliveries to the new deadline, or ends them when it asks for none,
and touches no others; and an extended message does not come again before its lease is ended by
a nack, by its expiry at the new deadline or by a seek. -/
theorem extended_until_deadline (es : List (Env × ActorEvent))
    (hfew : (deliveries (start info topic pushRegistry delegate topicManager) es).length <
      2 ^ 64 - 1)
    (ps : List PulledMessage)
    (hps : ∀ p ∈ ps, p ∈ deliveries (start info topic pushRegistry delegate topicManager) es)
    (subscriptions : SubscriptionManagerState) (request : ModifyAckDeadlineRequest)
    (seconds : ℕ) (now : Instant) (name : SubscriptionName) (subscription : Subscription)
    (hname : Parser.parseSubscriptionName request.subscription = .ok name)
    (hsubscription : subscriptions.subscriptions.get name = some subscription)
    (htexts : request.ackIds = ps.map fun p => (mapToReceivedMessage p).ackId)
    (hseconds : request.ackDeadlineSeconds = seconds) :
    let a := (start info topic pushRegistry delegate topicManager).run es
    let ackIds := ps.map fun p => p.ackId
    let granted := grantedDeadline now seconds
    let modifications := ackIds.map fun ackId => (⟨ackId, granted⟩ : DeadlineModification)
    modifyAckDeadline subscriptions request now =
      .ok (subscription, .modifyDeadline modifications) ∧
    ∀ env, let b := a.step (env, .request (.modifyDeadline modifications))
      (∀ id, b.outstanding.messages.get id =
        if a.deleted = false ∧ id ∈ ackIds
          then (a.outstanding.messages.get id).bind fun q => granted.map q.modifyDeadline
          else a.outstanding.messages.get id) ∧
      ∀ p ∈ ps, a.outstanding.contains p.ackId = true → ∀ deadline, granted = some deadline →
        ∀ (later : List (Env × ActorEvent)) (pull : Env × ActorEvent),
          ((posted (es ++ later)).map (·.id)).Nodup →
          p.message ∈ ((b.run later).pulled pull).map (·.message) →
          ∃ later₁ e later₂, later = later₁ ++ e :: later₂ ∧
            e.2.EndsLease p.ackId (deadlineAfter p.ackId deadline later₁) := by
  intro a ackIds granted modifications
  have hempty := empty_start info topic pushRegistry delegate topicManager
  have htracked : a.Tracked := hempty.tracked.run es
  refine ⟨?_, fun env => ⟨fun id => a.get_modified env granted ackIds id, ?_⟩⟩
  · have hparsed : parseDeadlineModifications now request.ackIds
        (request.ackIds.map fun _ => request.ackDeadlineSeconds) = .ok modifications := by
      unfold parseDeadlineModifications modifications ackIds
      rw [htexts, hseconds, List.map_map, List.map_map, List.zip_map']
      exact mapM_map_ok fun p hp => parseDeadlineModification_received
        (ackId_lt_of_delivered info topic pushRegistry delegate topicManager (hps p hp) hfew)
        now seconds
    unfold modifyAckDeadline
    rw [hparsed, hname]
    change getSubscription subscriptions name >>= _ = _
    rw [getSubscription_of_get hsubscription]
    rfl
  · intro p hp hleased deadline hgranted later pull hids hpulled
    obtain ⟨q, hq⟩ := contains_iff.mp hleased
    have hmessage : q.message = p.message :=
      message_of_delivered info topic pushRegistry delegate topicManager (hps p hp) hq
    have hkept := kept_of_extended htracked.sound (List.mem_map_of_mem hp) hq env deadline
    rw [← hgranted, hmessage] at hkept
    rcases hkept.run (htracked.step _) later with hended | hout
    · exact hended
    · obtain ⟨hlater, hocc⟩ := hempty.after (env, .request (.modifyDeadline modifications)) rfl hids
      exact absurd hpulled (hout.not_mem_pulled hlater.sound (hocc _) pull)

end

namespace Sample

def subscriptions : SubscriptionManagerState :=
  { SubscriptionManagerState.new with
    subscriptions := HashMap.insert ∅ Managers.Sample.name (Managers.Sample.subscription 2) }

def history : List (Env × ActorEvent) :=
  Deltio.Sample.events [.postMessages [Deltio.Sample.message 1 none, Deltio.Sample.message 2 none],
    .pullMessages 10 0]

def delivered : PulledMessage := ⟨Deltio.Sample.message 1 none, ⟨1⟩, ⟨10000000000⟩, 1⟩

def later : List (Env × ActorEvent) := [(Deltio.Sample.env 0, .expired 20000000000)]

def subscriptionText : String := "projects/project/subscriptions/subscription"

end Sample

/-- The first message is acked by its text, and only the second expires. -/
theorem first_acked_by_text :
    acknowledge Sample.subscriptions ⟨Sample.subscriptionText, ["1"]⟩ =
      .ok (Managers.Sample.subscription 2, .acknowledgeMessages [⟨1⟩]) ∧
    Sample.delivered.message ∉ (((((Deltio.Sample.start Deltio.Sample.info).run Sample.history).step
      (Deltio.Sample.env 0, .request (.acknowledgeMessages [⟨1⟩]))).run Sample.later).pulled
        Sample.pull).map (·.message) := by
  have hmem : ∀ p ∈ [Sample.delivered], p ∈ deliveries (start Deltio.Sample.info Deltio.Sample.topic
      ∅ .new none) Sample.history := by decide +kernel
  obtain ⟨hsent, hacked⟩ := acknowledged_never_redelivered Deltio.Sample.info Deltio.Sample.topic ∅
    .new none Sample.history (by decide +kernel) [Sample.delivered] hmem Sample.subscriptions
    ⟨Sample.subscriptionText, ["1"]⟩ Managers.Sample.name (Managers.Sample.subscription 2)
    (by decide +kernel) (by decide +kernel) (by decide +kernel)
  exact ⟨hsent, (hacked (Deltio.Sample.env 0)).2 Sample.delivered List.mem_cons_self
    (by decide +kernel) Sample.later Sample.pull (by decide +kernel)⟩

/-- The first message is extended by its text, and stays out when the second expires. -/
theorem first_extended_by_text :
    modifyAckDeadline Sample.subscriptions ⟨Sample.subscriptionText, ["1"], 1000⟩ 5000000000 =
      .ok (Managers.Sample.subscription 2,
        .modifyDeadline [⟨⟨1⟩, some ⟨605000000000⟩⟩]) ∧
    Sample.delivered.message ∉ (((((Deltio.Sample.start Deltio.Sample.info).run Sample.history).step
      (Deltio.Sample.env 0, .request (.modifyDeadline [⟨⟨1⟩, some ⟨605000000000⟩⟩]))).run
        Sample.later).pulled Sample.pull).map (·.message) := by
  have hmem : ∀ p ∈ [Sample.delivered], p ∈ deliveries (start Deltio.Sample.info Deltio.Sample.topic
      ∅ .new none) Sample.history := by decide +kernel
  have hgranted : grantedDeadline 5000000000 1000 = some ⟨605000000000⟩ := by decide +kernel
  obtain ⟨hsent, hextended⟩ := extended_until_deadline Deltio.Sample.info Deltio.Sample.topic ∅
    .new none Sample.history (by decide +kernel) [Sample.delivered] hmem Sample.subscriptions
    ⟨Sample.subscriptionText, ["1"], 1000⟩ 1000 5000000000 Managers.Sample.name
    (Managers.Sample.subscription 2) (by decide +kernel) (by decide +kernel) (by decide +kernel) rfl
  rw [hgranted] at hsent hextended
  refine ⟨hsent, fun hpulled => ?_⟩
  obtain ⟨later₁, e, later₂, hsplit, hends⟩ := (hextended (Deltio.Sample.env 0)).2 Sample.delivered
    List.mem_cons_self (by decide +kernel) _ rfl Sample.later Sample.pull (by decide +kernel) hpulled
  -- the only event is an expiry before the new deadline
  cases later₁ with
  | nil =>
    cases hsplit
    change (605000000000 : ℤ) ≤ 20000000000 at hends
    omega
  | cons e' later₁ => simp [Sample.later] at hsplit

end Subscriber

end Deltio
