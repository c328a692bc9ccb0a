import Deltio.PullReference

namespace Deltio

open Lib

namespace SubscriptionActor

/-- A pull returns all that can be pulled, up to its capacity. -/
lemma length_pulled {a : SubscriptionActor} (hdeleted : a.deleted = false)
    (hdetached : a.info.detached = false) (env : Env) (maxCount maxOutstanding : UInt16) :
    (a.pulled (env, .request (.pullMessages maxCount maxOutstanding))).length =
      min (a.effectiveMax maxCount maxOutstanding) (a.pullable env.now).length := by
  obtain ⟨ps, hps, htakes⟩ :=
    takesFront_pullMessages hdeleted hdetached env.now maxCount maxOutstanding
  have hlength := congrArg List.length htakes.messages
  rw [List.length_map, List.length_take] at hlength
  unfold pulled
  dsimp only
  rw [hps]
  exact hlength

/-- There is something to keep the pull within `MAX_PULL_COUNT`: the caller, the lengths as
the clamp sees them, the cap on outstanding messages, or that no more can be pulled. -/
def KeepsPullBound (a : SubscriptionActor) (now : Instant) (maxCount maxOutstanding : UInt16) :
    Prop :=
  a.deleted = true ∨ a.info.detached = true ∨ maxCount.toNat ≤ maxPullCount ∨
    a.backlog.length % 2 ^ 16 + a.idleKeys.length % 2 ^ 16 ≤ maxPullCount ∨
    (0 < maxOutstanding.toNat ∧
      maxOutstanding.toNat ≤ maxPullCount + a.outstanding.len % 2 ^ 16) ∨
    (a.pullable now).length ≤ maxPullCount

/-- A pull returns at most `MAX_PULL_COUNT` messages exactly if something other than the
clamp sees to it. -/
theorem pull_within_bound_iff (a : SubscriptionActor) (env : Env)
    (maxCount maxOutstanding : UInt16) :
    (a.pulled (env, .request (.pullMessages maxCount maxOutstanding))).length ≤
        min maxCount.toNat maxPullCount ↔
      a.KeepsPullBound env.now maxCount maxOutstanding := by
  by_cases hdeleted : a.deleted = true
  · refine iff_of_true ?_ (.inl hdeleted)
    unfold pulled pullMessages
    dsimp only
    rw [if_pos hdeleted]
    exact Nat.zero_le _
  by_cases hdetached : a.info.detached = true
  · refine iff_of_true ?_ (.inr (.inl hdetached))
    unfold pulled pullMessages
    dsimp only
    rw [if_neg hdeleted, if_pos hdetached]
    exact Nat.zero_le _
  have hwidth := maxCount.toNat_lt
  rw [length_pulled (Bool.not_eq_true _ ▸ hdeleted) (Bool.not_eq_true _ ▸ hdetached)]
  unfold KeepsPullBound
  rw [or_iff_right hdeleted, or_iff_right hdetached]
  unfold effectiveMax maxPullCount
  dsimp only
  split_ifs <;> omega

/-- Messages without a key that pass the filter go to the backlog. -/
lemma postLoop_unkeyed {msgs : List TopicMessage} (hmsgs : ∀ m ∈ msgs, m.orderingKey = none)
    (hadAny : Bool) {a : SubscriptionActor} (hfilter : a.compiledFilter = none) :
    (postLoop msgs hadAny a).2 = { a with backlog := a.backlog ++ msgs } := by
  induction msgs generalizing hadAny a with
  | nil => rw [List.append_nil]; rfl
  | cons m msgs ih =>
    rw [List.forall_mem_cons] at hmsgs
    have haccepts : a.accepts m = true := by
      unfold accepts
      rw [hfilter]
    have henqueue : a.enqueue m = { a with backlog := a.backlog ++ [m] } := by
      unfold enqueue
      rw [hmsgs.1]
    unfold postLoop
    rw [if_pos haccepts, henqueue, ih hmsgs.2 true (by exact hfilter)]
    dsimp only
    rw [List.append_assoc]
    rfl

end SubscriptionActor

namespace Sample

def unkeyed (n : ℕ) : List TopicMessage := (List.range n).map fun i => message (i + 1) none

end Sample

namespace SubscriptionActor

lemma post_unkeyed (n : ℕ) : ∃ observer,
    (Sample.start Sample.info).postMessages (Sample.unkeyed n) =
      { Sample.start Sample.info with backlog := Sample.unkeyed n, observer := observer } := by
  have hkeys : ∀ m ∈ Sample.unkeyed n, m.orderingKey = none := by
    intro m hm
    obtain ⟨i, -, rfl⟩ := List.mem_map.mp hm
    rfl
  have hloop := postLoop_unkeyed hkeys false (a := Sample.start Sample.info) rfl
  unfold postMessages
  rw [if_neg (by decide)]
  dsimp only
  rw [hloop]
  split_ifs
  · exact ⟨_, rfl⟩
  · exact ⟨(Sample.start Sample.info).observer, rfl⟩

/-- A pull for 2^16 - 1 messages is bounded by the length of the backlog only. -/
lemma length_pulled_unkeyed {n : ℕ} (hfits : n < 2 ^ 16) :
    (((Sample.start Sample.info).run (Sample.events [.postMessages (Sample.unkeyed n)])).pulled
      (Sample.env 0, .request (.pullMessages 65535 0))).length = n := by
  have hcount : (Sample.unkeyed n).length = n := by
    rw [Sample.unkeyed, List.length_map, List.length_range]
  obtain ⟨observer, hpost⟩ := post_unkeyed n
  change (pulled ((Sample.start Sample.info).postMessages (Sample.unkeyed n)) _).length = n
  rw [hpost]
  set b : SubscriptionActor :=
    { Sample.start Sample.info with backlog := Sample.unkeyed n, observer := observer } with hb
  have hpullable : b.pullable 0 = Sample.unkeyed n := List.filter_eq_self.mpr fun _ _ => rfl
  have hmax : b.effectiveMax 65535 0 = min 65535
      (max (min ((Sample.unkeyed n).length % 2 ^ 16 + 0) (2 ^ 16 - 1)) maxPullCount) := rfl
  rw [length_pulled rfl rfl, hmax]
  change min _ (b.pullable 0).length = n
  rw [hpullable, hcount]
  omega

/-- With one message more than the bound in the backlog, a pull returns all of them. -/
theorem pull_exceeds_bound :
    let a := (Sample.start Sample.info).run (Sample.events [.postMessages (Sample.unkeyed 1001)])
    ¬ (a.pulled (Sample.env 0, .request (.pullMessages 65535 0))).length ≤
      min (65535 : UInt16).toNat maxPullCount := by
  intro a
  rw [length_pulled_unkeyed (by decide)]
  decide

end SubscriptionActor

structure Timestamp where
  seconds : ℤ
  nanos : ℤ
deriving DecidableEq

/-- The nanoseconds count forward, also before the epoch. -/
def Timestamp.ofSystemTime (t : SystemTime) : Timestamp := ⟨t / 1000000000, t % 1000000000⟩

structure PubsubMessage where
  data : List UInt8
  attributes : Attributes
  messageId : String
  publishTime : Option Timestamp
  orderingKey : String

structure ReceivedMessage where
  ackId : String
  message : Option PubsubMessage
  deliveryAttempt : ℤ

structure PullRequest where
  maxMessages : Int32
  returnImmediately : Bool

structure PullResponse where
  receivedMessages : List ReceivedMessage

namespace Subscriber

def mapToReceivedMessage (m : PulledMessage) : ReceivedMessage where
  ackId := toString m.ackId.value
  deliveryAttempt := m.deliveryAttempt
  message := some {
    publishTime := some (.ofSystemTime m.message.publishedAt)
    orderingKey := m.message.orderingKey.getD ""
    messageId := toString m.message.id.value
    data := m.message.data
    attributes := m.message.attributes.getD ∅ }

def detachedStatus : Status := ⟨.failedPrecondition, "Subscription is detached."⟩

def pullMessages (a : SubscriptionActor) (now : Instant) (maxMessages : UInt16) :
    Except Status (List ReceivedMessage) × SubscriptionActor :=
  let r := a.pullMessages now maxMessages 0
  (match r.1 with
    | .error .closed => .error conflict
    | .error .detached => .error detachedStatus
    | .ok pulled => .ok (pulled.map mapToReceivedMessage), r.2)

def asU16 (maxMessages : Int32) : UInt16 := UInt16.ofInt maxMessages.toInt

inductive PullRound where
  | respond (response : Except Status PullResponse)
  -- until messages are available, or five minutes have passed since the request
  | wait

def pullRound (request : PullRequest) (a : SubscriptionActor) (now : Instant) :
    PullRound × SubscriptionActor :=
  let r := pullMessages a now (asU16 request.maxMessages)
  (match r.1 with
    | .error status => .respond (.error status)
    | .ok receivedMessages =>
      if !receivedMessages.isEmpty then .respond (.ok ⟨receivedMessages⟩)
      else if request.returnImmediately then .respond (.ok ⟨receivedMessages⟩)
      else .wait, r.2)

/-- With a positive count the handler's pull returns at least one and at most that many
messages if some can be delivered, and with another count none. -/
def HonoursMaxMessages (a : SubscriptionActor) (now : Instant) (maxMessages : Int32) : Prop :=
  ∃ received, (pullMessages a now (asU16 maxMessages)).1 = .ok received ∧
    (1 ≤ maxMessages.toInt → (∃ m, a.Deliverable m ∧ a.isMessageExpired m now = false) →
      1 ≤ received.length ∧ (received.length : ℤ) ≤ maxMessages.toInt) ∧
    (maxMessages.toInt ≤ 0 → received = [])

lemma toNat_asU16 (maxMessages : Int32) :
    ((asU16 maxMessages).toNat : ℤ) = maxMessages.toInt % 2 ^ 16 := by
  have hnonneg : 0 ≤ maxMessages.toInt % 2 ^ 16 := Int.emod_nonneg _ (by decide)
  have hlt : maxMessages.toInt % 2 ^ 16 < 2 ^ 16 := Int.emod_lt_of_pos _ (by decide)
  unfold asU16 UInt16.ofInt
  rw [UInt16.toNat_ofNat_of_lt' (by unfold UInt16.size; omega), Int.toNat_of_nonneg hnonneg]

/-- The handler's pull comes back empty if its count is cut to zero, or if all that is
deliverable is past the retention. -/
lemma pullMessages_spec {a : SubscriptionActor} (hdeleted : a.deleted = false)
    (hdetached : a.info.detached = false) (now : Instant) (maxCount : UInt16) :
    ∃ received, (pullMessages a now maxCount).1 = .ok received ∧
      received.length ≤ maxCount.toNat ∧
      (received = [] ↔ maxCount.toNat = 0 ∨
        ∀ m, a.Deliverable m → a.isMessageExpired m now = true) := by
  have hcap := a.effectiveMax_eq_zero_iff maxCount 0
  rw [← UInt16.toNat_inj] at hcap
  have hle : a.effectiveMax maxCount 0 ≤ maxCount.toNat := by
    unfold SubscriptionActor.effectiveMax
    dsimp only
    rw [if_neg (by decide)]
    exact Nat.min_le_left _ _
  unfold pullMessages SubscriptionActor.pullMessages
  rw [if_neg (ne_true_of_eq_false hdeleted), if_neg (ne_true_of_eq_false hdetached)]
  split_ifs with hzero
  · refine ⟨[], rfl, Nat.zero_le _, iff_of_true rfl (.inl ?_)⟩
    simpa using hcap.mp hzero
  · have hnil := a.pullUpTo_eq_nil_iff now (Nat.pos_of_ne_zero hzero)
    have hlength := a.length_pullUpTo_le now (a.effectiveMax maxCount 0)
    refine ⟨_, rfl, ?_, ?_⟩
    · rw [List.length_map]
      exact hlength.trans hle
    · rw [List.map_eq_nil_iff, hnil]
      refine (or_iff_right ?_).symm
      omega

/-- The handler honours the count of a request exactly if cutting it to 16 bits does not
turn a positive count into zero or another count into a positive one, or if nothing can be
delivered. -/
theorem honours_max_messages_iff (a : SubscriptionActor) (hdeleted : a.deleted = false)
    (hdetached : a.info.detached = false) (now : Instant) (maxMessages : Int32) :
    HonoursMaxMessages a now maxMessages ↔
      (1 ≤ maxMessages.toInt ∧ ¬ 2 ^ 16 ∣ maxMessages.toInt) ∨
      (maxMessages.toInt ≤ 0 ∧ 2 ^ 16 ∣ maxMessages.toInt) ∨
      ∀ m, a.Deliverable m → a.isMessageExpired m now = true := by
  have hcut := toNat_asU16 maxMessages
  obtain ⟨received, hreceived, hle, hnil⟩ :=
    pullMessages_spec hdeleted hdetached now (asU16 maxMessages)
  have hempty : received.length = 0 ↔ (asU16 maxMessages).toNat = 0 ∨
      ∀ m, a.Deliverable m → a.isMessageExpired m now = true := by
    rw [List.length_eq_zero_iff, hnil]
  have hsome : (∃ m, a.Deliverable m ∧ a.isMessageExpired m now = false) ↔
      ¬ ∀ m, a.Deliverable m → a.isMessageExpired m now = true := by
    simp only [not_forall, Bool.not_eq_true, exists_prop]
  have hhonours : HonoursMaxMessages a now maxMessages ↔
      (1 ≤ maxMessages.toInt → (∃ m, a.Deliverable m ∧ a.isMessageExpired m now = false) →
        1 ≤ received.length ∧ (received.length : ℤ) ≤ maxMessages.toInt) ∧
      (maxMessages.toInt ≤ 0 → received.length = 0) := by
    unfold HonoursMaxMessages
    simp only [hreceived, Except.ok.injEq, exists_eq_left', List.length_eq_zero_iff]
  rw [hhonours, hsome, hempty]
  by_cases hnone : ∀ m, a.Deliverable m → a.isMessageExpired m now = true
  · exact iff_of_true ⟨fun _ hnot => absurd hnone hnot, fun _ => .inr hnone⟩ (.inr (.inr hnone))
  · rw [or_iff_left hnone] at hempty
    simp only [hnone, or_false, not_false_eq_true, true_implies]
    omega

/-- One message is ready, and a request for ten returns it. -/
theorem honours_ten_messages :
    HonoursMaxMessages
      ((Sample.start Sample.info).run (Sample.events [.postMessages [Sample.message 1 none]])) 0 10 :=
  (honours_max_messages_iff _ (by decide +kernel) (by decide +kernel) 0 10).mpr
    (.inl ⟨by decide, by decide⟩)

/-- One message is ready, and a request for 2^16 messages waits. -/
theorem request_for_65536_waits :
    let a := (Sample.start Sample.info).run (Sample.events [.postMessages [Sample.message 1 none]])
    ¬ HonoursMaxMessages a 0 65536 ∧ (pullRound ⟨65536, false⟩ a 0).1 = .wait := by
  refine ⟨?_, rfl⟩
  rintro ⟨received, hreceived, hpositive, -⟩
  have hempty : received = [] := by
    have hnone : Except.ok [] = Except.ok (ε := Status) received := hreceived
    exact (Except.ok.inj hnone).symm
  obtain ⟨hone, -⟩ := hpositive (by decide) ⟨Sample.message 1 none, .inl (by decide +kernel), rfl⟩
  rw [hempty] at hone
  exact absurd hone (by decide)

end Subscriber

end Deltio
