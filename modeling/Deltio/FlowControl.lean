import Deltio.Counters
import Deltio.StreamingPull
import Deltio.Wakeups

namespace Deltio

open Lib

namespace SubscriptionActor

lemma length_pullOrdered_le (now deadline : Instant) (capacity : ℕ) (keys : List String)
    (result : List PulledMessage) (a : SubscriptionActor) (h : result.length ≤ capacity) :
    (pullOrdered now deadline capacity keys result a).1.length ≤ capacity := by
  induction keys generalizing result a with
  | nil => exact h
  | cons key keys ih =>
    unfold pullOrdered
    split_ifs with hfull
    · exact h
    · split
      · exact ih result a h
      · next queue hqueue =>
        have hone := Option.length_toList_le (o := (pullHead now deadline key queue a).1)
        apply ih
        rw [List.length_append]
        omega

lemma length_pullBacklog_le (now deadline : Instant) (capacity : ℕ) (backlog : List TopicMessage)
    (result : List PulledMessage) (a : SubscriptionActor) (h : result.length ≤ capacity) :
    (pullBacklog now deadline capacity backlog result a).1.length ≤ capacity := by
  induction backlog generalizing result a with
  | nil => exact h
  | cons message backlog ih =>
    unfold pullBacklog
    split_ifs with hfull
    · exact h
    · exact ih result _ h
    · apply ih
      rw [List.length_append, List.length_singleton]
      omega

lemma length_pullUpTo_le (a : SubscriptionActor) (now : Instant) (capacity : ℕ) :
    (a.pullUpTo now capacity).1.length ≤ capacity := by
  apply length_pullBacklog_le
  apply length_pullOrdered_le
  exact Nat.zero_le capacity

/-- A pull returns no more than its capacity. -/
lemma length_pulled_le (a : SubscriptionActor) (env : Env) (maxCount maxOutstanding : UInt16) :
    (a.pulled (env, .request (.pullMessages maxCount maxOutstanding))).length ≤
      a.effectiveMax maxCount maxOutstanding := by
  unfold pulled pullMessages
  dsimp only
  split_ifs
  · exact Nat.zero_le _
  · exact Nat.zero_le _
  · exact Nat.zero_le _
  · exact a.length_pullUpTo_le env.now _

lemma pullHead_eq_none_iff (now deadline : Instant) (key : String) (queue : List TopicMessage)
    (a : SubscriptionActor) :
    (pullHead now deadline key queue a).1 = none ↔
      ∀ m ∈ queue, a.isMessageExpired m now = true := by
  induction queue generalizing a with
  | nil => exact iff_of_true rfl (by simp)
  | cons head queue ih =>
    unfold pullHead
    rw [List.forall_mem_cons]
    split_ifs with hexpired
    · rw [ih (a.dropExpired head)]
      exact (and_iff_right hexpired).symm
    · exact iff_of_false id fun hall => hexpired hall.1

lemma info_pullHead (now deadline : Instant) (key : String) (queue : List TopicMessage)
    (a : SubscriptionActor) : (pullHead now deadline key queue a).2.info = a.info := by
  induction queue generalizing a with
  | nil => rfl
  | cons head queue ih =>
    unfold pullHead
    split_ifs
    · exact ih (a.dropExpired head)
    · rfl

/-- Only the queue of the key changes. -/
lemma queueOf_pullHead (now deadline : Instant) {key key' : String} (hne : key' ≠ key)
    (queue : List TopicMessage) (a : SubscriptionActor) :
    (pullHead now deadline key queue a).2.queueOf key' = a.queueOf key' := by
  induction queue generalizing a with
  | nil => simp only [pullHead, queueOf, HashMap.get_insert, hne, if_false]
  | cons head queue ih =>
    unfold pullHead
    split_ifs
    · exact ih (a.dropExpired head)
    · simp only [deliver, queueOf, HashMap.get_insert, hne, if_false]

lemma backlog_pullHead (now deadline : Instant) (key : String) (queue : List TopicMessage)
    (a : SubscriptionActor) : (pullHead now deadline key queue a).2.backlog = a.backlog := by
  induction queue generalizing a with
  | nil => rfl
  | cons head queue ih =>
    unfold pullHead
    split_ifs
    · exact ih (a.dropExpired head)
    · rfl

lemma pullOrdered_frame (now deadline : Instant) (capacity : ℕ) (keys : List String)
    (result : List PulledMessage) (a : SubscriptionActor) :
    (pullOrdered now deadline capacity keys result a).2.info = a.info ∧
      (pullOrdered now deadline capacity keys result a).2.backlog = a.backlog := by
  induction keys generalizing result a with
  | nil => exact ⟨rfl, rfl⟩
  | cons key keys ih =>
    unfold pullOrdered
    split_ifs
    · exact ⟨rfl, rfl⟩
    · split
      · exact ih result a
      · next queue hqueue =>
        obtain ⟨hinfo, hbacklog⟩ := ih (result ++ (pullHead now deadline key queue a).1.toList)
          (pullHead now deadline key queue a).2
        exact ⟨hinfo.trans (info_pullHead now deadline key queue a),
          hbacklog.trans (backlog_pullHead now deadline key queue a)⟩

lemma isMessageExpired_of_info {a b : SubscriptionActor} (h : b.info = a.info) (m : TopicMessage)
    (now : Instant) : b.isMessageExpired m now = a.isMessageExpired m now := by
  unfold isMessageExpired
  rw [h]

lemma pullOrdered_eq_nil_iff (now deadline : Instant) {capacity : ℕ} (hcap : 0 < capacity)
    {keys : List String} (hkeys : keys.Nodup) (a : SubscriptionActor) :
    (pullOrdered now deadline capacity keys [] a).1 = [] ↔
      ∀ key ∈ keys, ∀ m ∈ a.queueOf key, a.isMessageExpired m now = true := by
  induction keys generalizing a with
  | nil => exact iff_of_true rfl (by simp)
  | cons key keys ih =>
    obtain ⟨hkey, hrest⟩ := List.nodup_cons.mp hkeys
    unfold pullOrdered
    rw [if_neg (by rw [List.length_nil]; omega), List.forall_mem_cons]
    cases hqueue : a.orderedQueues.get key with
    | none =>
      have hnone : ∀ m ∈ a.queueOf key, a.isMessageExpired m now = true := by
        simp [queueOf, hqueue]
      dsimp only
      rw [ih hrest]
      exact (and_iff_right hnone).symm
    | some queue =>
      have hsome : a.queueOf key = queue := by simp [queueOf, hqueue]
      have hhead := pullHead_eq_none_iff now deadline key queue a
      dsimp only
      rw [hsome, ← hhead]
      cases hpulled : (pullHead now deadline key queue a).1 with
      | some p =>
        obtain ⟨ps, hps, -⟩ := delivers_pullOrdered now deadline capacity keys
          ([] ++ (some p).toList) (pullHead now deadline key queue a).2
        refine iff_of_false ?_ fun hall => Option.some_ne_none p hall.1
        rw [hps]
        simp
      | none =>
        rw [Option.toList_none, List.append_nil, ih hrest, and_iff_right rfl]
        refine forall₂_congr fun key' hmem => ?_
        have hne : key' ≠ key := ne_of_mem_of_not_mem hmem hkey
        rw [queueOf_pullHead now deadline hne]
        refine forall₂_congr fun m _ => ?_
        rw [isMessageExpired_of_info (info_pullHead now deadline key queue a)]

lemma pullBacklog_eq_nil_iff (now deadline : Instant) {capacity : ℕ} (hcap : 0 < capacity)
    (backlog : List TopicMessage) (result : List PulledMessage) (a : SubscriptionActor) :
    (pullBacklog now deadline capacity backlog result a).1 = [] ↔
      result = [] ∧ ∀ m ∈ backlog, a.isMessageExpired m now = true := by
  induction backlog generalizing result a with
  | nil => exact (and_iff_left (by simp)).symm
  | cons message backlog ih =>
    unfold pullBacklog
    rw [List.forall_mem_cons]
    split_ifs with hfull hexpired
    · have hne : result ≠ [] := by
        rintro rfl
        rw [List.length_nil] at hfull
        omega
      exact iff_of_false hne fun hall => hne hall.1
    · rw [ih result (a.dropExpired message), and_iff_right hexpired]
      rfl
    · rw [ih]
      refine iff_of_false (fun hall => ?_) fun hall => hexpired hall.2.1
      exact List.append_ne_nil_of_right_ne_nil result (List.cons_ne_nil _ _) hall.1

/-- A pull with capacity comes back empty exactly if all that is deliverable is past
the retention. -/
lemma pullUpTo_eq_nil_iff (a : SubscriptionActor) (now : Instant) {capacity : ℕ}
    (hcap : 0 < capacity) :
    (a.pullUpTo now capacity).1 = [] ↔
      ∀ m, a.Deliverable m → a.isMessageExpired m now = true := by
  obtain ⟨hinfo, hbacklog⟩ := pullOrdered_frame now (now + a.info.ackDeadline) capacity
    (a.idleKeys.insertionSort (· ≤ ·)) [] a
  unfold pullUpTo
  dsimp only
  rw [pullBacklog_eq_nil_iff _ _ hcap, pullOrdered_eq_nil_iff _ _ hcap a.idleKeys_spec.1, hbacklog]
  simp only [isMessageExpired_of_info hinfo, List.mem_insertionSort, mem_idleKeys]
  constructor
  · rintro ⟨hkeyed, hplain⟩ m (hm | ⟨key, hidle, hm⟩)
    · exact hplain m hm
    · exact hkeyed key ⟨hidle, List.ne_nil_of_mem hm⟩ m hm
  · intro hall
    exact ⟨fun key hkey m hm => hall m (.inr ⟨key, hkey.1, hm⟩), fun m hm => hall m (.inl hm)⟩

def NothingToPull (a : SubscriptionActor) (now : Instant) (maxCount maxOutstanding : UInt16) :
    Prop :=
  a.deleted = true ∨ a.info.detached = true ∨ maxCount = 0 ∨
    maxOutstanding.toNat ≤ a.outstanding.len % 2 ^ 16 ∨
    ∀ m, a.Deliverable m → a.isMessageExpired m now = true

/-- The number of outstanding messages fits 16 bits, or the pull returns nothing. -/
def CapCounts (a : SubscriptionActor) (now : Instant) (maxCount maxOutstanding : UInt16) : Prop :=
  a.outstanding.len < 2 ^ 16 ∨ a.NothingToPull now maxCount maxOutstanding

lemma pulled_eq_nil_iff (a : SubscriptionActor) (env : Env) (maxCount : UInt16)
    {maxOutstanding : UInt16} (hout : maxOutstanding ≠ 0) :
    a.pulled (env, .request (.pullMessages maxCount maxOutstanding)) = [] ↔
      a.NothingToPull env.now maxCount maxOutstanding := by
  have hzero := a.effectiveMax_eq_zero_iff maxCount maxOutstanding
  rw [and_iff_right hout] at hzero
  unfold pulled pullMessages NothingToPull
  dsimp only
  split_ifs with hdeleted hdetached hcap
  · exact iff_of_true rfl (.inl hdeleted)
  · exact iff_of_true rfl (.inr (.inl hdetached))
  · refine iff_of_true rfl ?_
    rcases hzero.mp hcap with hcount | hfull
    · exact .inr (.inr (.inl hcount))
    · exact .inr (.inr (.inr (.inl hfull)))
  · have hnothing := a.pullUpTo_eq_nil_iff env.now (Nat.pos_of_ne_zero hcap)
    rw [hzero, not_or] at hcap
    simp only [hdeleted, hdetached, hcap.1, hcap.2, Bool.false_eq_true, false_or]
    exact hnothing

lemma len_pull {a : SubscriptionActor} (h : a.Fresh) (env : Env) (maxCount maxOutstanding : UInt16) :
    (a.step (env, .request (.pullMessages maxCount maxOutstanding))).outstanding.len =
      a.outstanding.len +
        (a.pulled (env, .request (.pullMessages maxCount maxOutstanding))).length :=
  len_step h (e := (env, .request (.pullMessages maxCount maxOutstanding))) id id

/-- A capped pull keeps to its cap exactly if the count fits 16 bits or nothing is
returned. -/
lemma len_pull_le_iff {a : SubscriptionActor} (h : a.Fresh) (env : Env) (maxCount : UInt16)
    {maxOutstanding : UInt16} (hout : maxOutstanding ≠ 0) :
    (a.step (env, .request (.pullMessages maxCount maxOutstanding))).outstanding.len ≤
        max maxOutstanding.toNat a.outstanding.len ↔
      a.CapCounts env.now maxCount maxOutstanding := by
  unfold CapCounts
  rw [len_pull h, ← a.pulled_eq_nil_iff env maxCount hout, ← List.length_eq_zero_iff]
  by_cases hfits : a.outstanding.len < 2 ^ 16
  · have hcapacity := a.length_pulled_le env maxCount maxOutstanding
    have hpos : 0 < maxOutstanding.toNat := by
      rw [Nat.pos_iff_ne_zero]
      exact fun hzero => hout (UInt16.toNat_inj.mp hzero)
    unfold effectiveMax at hcapacity
    dsimp only at hcapacity
    rw [if_pos hpos, Nat.mod_eq_of_lt hfits] at hcapacity
    refine iff_of_true ?_ (.inl hfits)
    omega
  · have hwidth := maxOutstanding.toNat_lt
    constructor
    · intro hle
      omega
    · rintro (hlt | hzero)
      · exact absurd hlt hfits
      · omega

/-- No event brings an ack ID back that was handed out and is not outstanding. -/
lemma contains_of_step {a : SubscriptionActor} (h : a.Fresh) (e : Env × ActorEvent) {id : AckId}
    (hid : id.value < a.nextAckId.value) (hafter : (a.step e).outstanding.contains id = true) :
    a.outstanding.contains id = true := by
  have hstep : (a.step e).outstanding = (a.custodyAfter e).outstanding :=
    congrArg Custody.outstanding (a.custody_step e)
  have hshrinks : ∀ t, OutstandingMessageTracker.Shrinks a.outstanding t →
      t.contains id = true → a.outstanding.contains id = true := by
    intro t ht hcontains
    by_contra hno
    have hnone := ht id (Option.not_isSome_iff_eq_none.mp hno)
    rw [OutstandingMessageTracker.contains, HashMap.containsKey, hnone] at hcontains
    cases hcontains
  rw [hstep] at hafter
  unfold custodyAfter at hafter
  split at hafter
  · rw [OutstandingMessageTracker.contains, HashMap.containsKey,
      (above_pulled h e).get_foldl_add hid] at hafter
    exact hafter
  · split_ifs at hafter
    · exact hafter
    · exact hshrinks _ (OutstandingMessageTracker.shrinks_remove _ _) hafter
  · split_ifs at hafter
    · exact hafter
    · exact hshrinks _ (OutstandingMessageTracker.shrinks_modify _ _) hafter
  · exact hshrinks _ (OutstandingMessageTracker.shrinks_takeExpired _ _) hafter
  · exact hafter
  · split_ifs at hafter
    · exact hafter
    · cases hafter
  · split_ifs at hafter
    · exact hafter
    · cases hafter
  · split_ifs at hafter
    · exact hafter
    · cases hafter
  · exact hafter

/-- Different outstanding ack IDs are at most as many as there are messages. -/
lemma length_filter_contains_le (t : OutstandingMessageTracker) {ids : List AckId}
    (hids : ids.Nodup) : (ids.filter t.contains).length ≤ t.len := by
  have hsubset : ids.filter t.contains ⊆ t.messages.keys := by
    intro id hid
    rw [HashMap.mem_keys]
    exact Option.isSome_iff_exists.mp (List.mem_filter.mp hid).2
  have hle := (List.subperm_of_subset (hids.filter _) hsubset).length_le
  rwa [show t.messages.keys.length = t.len from List.length_map _] at hle

end SubscriptionActor

/-- The flow-control cap of a stream, from its initial request. -/
def StreamingPullRequest.maxOutstanding (request : StreamingPullRequest) : Except Status UInt16 :=
  if request.maxOutstandingMessages < 0 then
    .error (.invalidArgument "max_outstanding_messages must be non-negative")
  else if 2 ^ 16 - 1 < request.maxOutstandingMessages then .ok (UInt16.ofNat (2 ^ 16 - 1))
  else .ok (UInt16.ofNat request.maxOutstandingMessages.toNat)

/-- The pull of a stream.  Without a cap it asks for as much as a pull can ask for. -/
def streamPull (maxOutstanding : UInt16) : SubscriptionRequest :=
  let maxPerPull := if maxOutstanding = 0 then UInt16.ofNat (2 ^ 16 - 1) else maxOutstanding
  .pullMessages maxPerPull maxOutstanding

structure Streams (ι : Type*) where
  actor : SubscriptionActor
  delivered : ι → List AckId

inductive StreamEvent (ι : Type*) where
  | pull (stream : ι) (env : Env)
  | other (e : Env × ActorEvent)

namespace Streams

variable {ι : Type*} (requests : ι → StreamingPullRequest)

def start (actor : SubscriptionActor) : Streams ι := ⟨actor, fun _ => []⟩

def pulledBy [DecidableEq ι] (s : Streams ι) (stream : ι) (env : Env) (cap : UInt16) :
    Streams ι :=
  let e := (env, ActorEvent.request (streamPull cap))
  { actor := s.actor.step e
    delivered := Function.update s.delivered stream
      (s.delivered stream ++ (s.actor.pulled e).map (·.ackId)) }

/-- A stream whose initial request was refused does not pull. -/
def step [DecidableEq ι] (s : Streams ι) : StreamEvent ι → Option (Streams ι)
  | .pull stream env =>
    match (requests stream).maxOutstanding with
    | .error _ => none
    | .ok cap => some (s.pulledBy stream env cap)
  | .other e => some { s with actor := s.actor.step e }

def outstanding (s : Streams ι) (stream : ι) : List AckId :=
  (s.delivered stream).filter s.actor.outstanding.contains

def CapCounts (s : Streams ι) : StreamEvent ι → Prop
  | .pull stream env => ∀ cap, (requests stream).maxOutstanding = .ok cap → cap ≠ 0 →
      s.actor.CapCounts env.now cap cap
  | .other _ => True

/-- Every stream was handed different ack IDs, and no more of them are outstanding than
its cap allows. -/
structure Within (s : Streams ι) : Prop where
  sound : s.actor.Sound
  issued : ∀ stream, ∀ id ∈ s.delivered stream, id.value < s.actor.nextAckId.value
  nodup : ∀ stream, (s.delivered stream).Nodup
  cap : ∀ stream cap, (requests stream).maxOutstanding = .ok cap → cap ≠ 0 →
    (s.outstanding stream).length ≤ cap.toNat

variable {requests} {s : Streams ι}

/-- What a stream was handed before does not become outstanding again. -/
lemma Within.length_filter_le (h : s.Within requests) (e : Env × ActorEvent) (stream : ι) :
    ((s.delivered stream).filter (s.actor.step e).outstanding.contains).length ≤
      (s.outstanding stream).length := by
  unfold outstanding
  simp only [← List.countP_eq_length_filter]
  refine List.countP_mono_left fun id hid hafter => ?_
  exact SubscriptionActor.contains_of_step h.sound.fresh e (h.issued stream id hid) hafter

lemma nextAckId_le_step (a : SubscriptionActor) (e : Env × ActorEvent) :
    a.nextAckId.value ≤ (a.step e).nextAckId.value := by
  rw [a.nextAckId_step e]
  exact Nat.le_add_right _ _

lemma Within.other (h : s.Within requests) (e : Env × ActorEvent) :
    Within requests { s with actor := s.actor.step e } where
  sound := h.sound.step e
  issued := fun stream id hid =>
    (h.issued stream id hid).trans_le (nextAckId_le_step s.actor e)
  nodup := h.nodup
  cap := fun stream cap hcap hne => (h.length_filter_le e stream).trans (h.cap stream cap hcap hne)

/-- The ack IDs of a pull are new, and different. -/
lemma Within.append_pulled (h : s.Within requests) (e : Env × ActorEvent) (stream : ι) :
    (s.delivered stream ++ (s.actor.pulled e).map (·.ackId)).Nodup ∧
      ∀ id ∈ s.delivered stream ++ (s.actor.pulled e).map (·.ackId),
        id.value < (s.actor.step e).nextAckId.value := by
  have hvalues := s.actor.ackIds_pulled e
  have hnew : ∀ id ∈ (s.actor.pulled e).map (·.ackId), s.actor.nextAckId.value ≤ id.value ∧
      id.value < (s.actor.step e).nextAckId.value := by
    intro id hid
    have hmem : id.value ∈ (s.actor.pulled e).map fun p => p.ackId.value := by
      obtain ⟨p, hp, rfl⟩ := List.mem_map.mp hid
      exact List.mem_map_of_mem (f := fun p : PulledMessage => p.ackId.value) hp
    rw [hvalues, List.mem_range'_1] at hmem
    rw [s.actor.nextAckId_step e]
    exact hmem
  refine ⟨List.nodup_append.mpr ⟨h.nodup stream, ?_, ?_⟩, fun id hid => ?_⟩
  · refine List.Nodup.of_map AckId.value ?_
    rw [List.map_map]
    exact hvalues ▸ List.nodup_range'
  · rintro id hid _ hid' rfl
    have hlt := h.issued stream id hid
    have hge := (hnew id hid').1
    omega
  · rcases List.mem_append.mp hid with hid | hid
    · exact (h.issued stream id hid).trans_le (nextAckId_le_step s.actor e)
    · exact (hnew id hid).2

/-- A stream that is handed something leaves at most its cap outstanding in the whole
subscription. -/
lemma Within.pull [DecidableEq ι] (h : s.Within requests) {stream : ι} {env : Env} {cap : UInt16}
    (hcap : (requests stream).maxOutstanding = .ok cap)
    (hcounts : CapCounts requests s (.pull stream env)) :
    Within requests (s.pulledBy stream env cap) := by
  set e : Env × ActorEvent := (env, .request (streamPull cap)) with he
  obtain ⟨hnodup, hissued⟩ := h.append_pulled e stream
  have hself : (s.pulledBy stream env cap).delivered stream =
      s.delivered stream ++ (s.actor.pulled e).map (·.ackId) := Function.update_self _ _ _
  have hother : ∀ stream', stream' ≠ stream →
      (s.pulledBy stream env cap).delivered stream' = s.delivered stream' :=
    fun stream' hne => Function.update_of_ne hne _ _
  refine ⟨h.sound.step e, fun stream' => ?_, fun stream' => ?_, fun stream' cap' hcap' hne' => ?_⟩
  · by_cases hstream : stream' = stream
    · subst hstream
      rw [hself]
      exact hissued
    · rw [hother stream' hstream]
      exact fun id hid => (h.issued stream' id hid).trans_le (nextAckId_le_step s.actor e)
  · by_cases hstream : stream' = stream
    · subst hstream
      rw [hself]
      exact hnodup
    · rw [hother stream' hstream]
      exact h.nodup stream'
  · by_cases hstream : stream' = stream
    · subst hstream
      rw [hcap] at hcap'
      cases hcap'
      unfold outstanding
      rw [hself]
      cases hpulled : s.actor.pulled e with
      | nil =>
        rw [List.map_nil, List.append_nil]
        exact (h.length_filter_le e stream').trans (h.cap stream' cap hcap hne')
      | cons p ps =>
        -- something was handed out, so the bound on the subscription is the cap
        have hmax := (SubscriptionActor.len_pull_le_iff h.sound.fresh env cap hne').mpr
          (hcounts cap hcap hne')
        have hgrows := SubscriptionActor.len_pull h.sound.fresh env cap cap
        have hpull : e = (env, .request (.pullMessages cap cap)) := by
          rw [he, streamPull, if_neg hne']
        have hle := SubscriptionActor.length_filter_contains_le (s.actor.step e).outstanding hnodup
        rw [← hpull, hpulled, List.length_cons] at hgrows
        rw [← hpull] at hmax
        rw [hpulled] at hle
        refine hle.trans ?_
        omega
    · unfold outstanding
      rw [hother stream' hstream]
      exact (h.length_filter_le e stream').trans (h.cap stream' cap' hcap' hne')

lemma Within.step [DecidableEq ι] {s' : Streams ι} {event : StreamEvent ι}
    (h : s.Within requests) (hcounts : s.CapCounts requests event) (hstep : s.step requests event = some s') :
    s'.Within requests := by
  cases event with
  | other e =>
    cases hstep
    exact h.other e
  | pull stream env =>
    unfold Streams.step at hstep
    dsimp only at hstep
    split at hstep
    · cases hstep
    · next cap hcap =>
      cases hstep
      exact h.pull hcap hcounts

lemma within_start {actor : SubscriptionActor} (h : actor.Sound) :
    (start actor : Streams ι).Within requests where
  sound := h
  issued := by simp [start]
  nodup := by simp [start]
  cap := by simp [start, outstanding]

end Streams

/-- A positive number of messages is a cap, cut at the largest 16-bit number. -/
lemma StreamingPullRequest.maxOutstanding_of_pos {request : StreamingPullRequest}
    (h : 0 < request.maxOutstandingMessages) :
    ∃ cap, request.maxOutstanding = .ok cap ∧ cap ≠ 0 ∧
      (cap.toNat : ℤ) = min request.maxOutstandingMessages (2 ^ 16 - 1) := by
  have hne : ∀ n : ℕ, 0 < n → n < 2 ^ 16 → UInt16.ofNat n ≠ 0 := by
    intro n hpos hlt hzero
    have hvalue := congrArg UInt16.toNat hzero
    rw [UInt16.toNat_ofNat_of_lt' hlt] at hvalue
    exact hpos.ne' hvalue
  unfold maxOutstanding
  rw [if_neg (not_lt.mpr h.le)]
  split_ifs with hlarge
  · exact ⟨_, rfl, hne _ (by decide) (by decide), by rw [min_eq_right hlarge.le]; rfl⟩
  · have hlt : request.maxOutstandingMessages.toNat < 2 ^ 16 := by omega
    refine ⟨_, rfl, hne _ (by omega) hlt, ?_⟩
    rw [UInt16.toNat_ofNat_of_lt' hlt, min_eq_left (by omega)]
    omega

namespace SubscriptionActor

/-- A capped pull keeps to its cap exactly if the number of outstanding messages fits 16
bits, or there is nothing to return.  If all capped pulls of streams are such, no stream
has more of its deliveries outstanding than it asked for. -/
theorem flow_control_cap_iff {ι : Type*} [DecidableEq ι] (requests : ι → StreamingPullRequest)
    (info : SubscriptionInfo) (topic : Topic) (pushRegistry : PushSubscriptionsRegistry)
    (delegate : SubscriptionManagerState) (topicManager : Option TopicManagerRef) :
    (∀ es env maxCount maxOutstanding, maxOutstanding ≠ 0 →
      let a := (start info topic pushRegistry delegate topicManager).run es
      ((a.step (env, .request (.pullMessages maxCount maxOutstanding))).outstanding.len ≤
          max maxOutstanding.toNat a.outstanding.len ↔
        a.CapCounts env.now maxCount maxOutstanding)) ∧
    ∀ es s,
      Machine.Along (Streams.step requests) (Streams.CapCounts requests)
        (.start (start info topic pushRegistry delegate topicManager)) es →
      Machine.run (Streams.step requests)
        (.start (start info topic pushRegistry delegate topicManager)) es = some s →
      ∀ stream, 0 < (requests stream).maxOutstandingMessages →
        ((s.outstanding stream).length : ℤ) ≤
          min (requests stream).maxOutstandingMessages (2 ^ 16 - 1) := by
  have hsound := sound_start info topic pushRegistry delegate topicManager
  constructor
  · intro es env maxCount maxOutstanding hout
    exact len_pull_le_iff (hsound.run es).fresh env maxCount hout
  · intro es s halong hrun stream hpos
    have hwithin : s.Within requests := halong.preserves hrun (Streams.within_start hsound)
      fun u e v hu hcounts hstep => hu.step hcounts hstep
    obtain ⟨cap, hcap, hne, hvalue⟩ := StreamingPullRequest.maxOutstanding_of_pos hpos
    rw [← hvalue]
    exact Nat.cast_le.mpr (hwithin.cap stream cap hcap hne)

end SubscriptionActor

namespace Sample

def streamRequest (maxOutstandingMessages : ℤ) : StreamingPullRequest where
  subscription := "projects/project/subscriptions/subscription"
  ackIds := []
  modifyDeadlineSeconds := []
  modifyDeadlineAckIds := []
  maxOutstandingMessages := maxOutstandingMessages
  maxOutstandingBytes := 0
  protocolVersion := 0

def rounds : ℕ → List (Env × ActorEvent)
  | 0 => []
  | n + 1 => rounds n ++ events [.postMessages [message (n + 1) none], .pullMessages 1 0]

end Sample

namespace SubscriptionActor

/-- Of two streams the one with cap 1 gets one of three messages, and the uncapped one
the rest. -/
theorem flow_control_two_streams :
    let requests := fun capped : Bool => Sample.streamRequest (if capped then 1 else 0)
    let post : Env × ActorEvent := (Sample.env 0, .request (.postMessages
      [Sample.message 1 none, Sample.message 2 none, Sample.message 3 none]))
    ∃ s, Machine.run (Streams.step requests) (.start (Sample.start Sample.info))
        [.other post, .pull true (Sample.env 0), .pull false (Sample.env 0)] = some s ∧
      (s.outstanding false).length = 2 ∧ ((s.outstanding true).length : ℤ) ≤ 1 := by
  intro requests post
  let s₀ : Streams Bool := .start (Sample.start Sample.info)
  let s₁ : Streams Bool := { s₀ with actor := s₀.actor.step post }
  let s₂ := s₁.pulledBy true (Sample.env 0) 1
  let s₃ := s₂.pulledBy false (Sample.env 0) 0
  have h₁ : Streams.step requests s₀ (.other post) = some s₁ := rfl
  have h₂ : Streams.step requests s₁ (.pull true (Sample.env 0)) = some s₂ := rfl
  have h₃ : Streams.step requests s₂ (.pull false (Sample.env 0)) = some s₃ := rfl
  have hrun : Machine.run (Streams.step requests) s₀
      [.other post, .pull true (Sample.env 0), .pull false (Sample.env 0)] = some s₃ :=
    Machine.run_cons.mpr ⟨s₁, h₁, Machine.run_cons.mpr ⟨s₂, h₂,
      Machine.run_cons.mpr ⟨s₃, h₃, rfl⟩⟩⟩
  have hcounts₂ : s₁.CapCounts requests (.pull true (Sample.env 0)) :=
    fun _ _ _ => .inl (by decide +kernel)
  have hcounts₃ : s₂.CapCounts requests (.pull false (Sample.env 0)) :=
    fun _ _ _ => .inl (by decide +kernel)
  have halong : Machine.Along (Streams.step requests) (Streams.CapCounts requests) s₀
      [.other post, .pull true (Sample.env 0), .pull false (Sample.env 0)] :=
    (Machine.along_cons_of_some _ h₁).mp ⟨trivial, (Machine.along_cons_of_some _ h₂).mp
      ⟨hcounts₂, (Machine.along_cons_of_some _ h₃).mp ⟨hcounts₃, trivial⟩⟩⟩
  refine ⟨s₃, hrun, by decide +kernel, ?_⟩
  exact (flow_control_cap_iff requests Sample.info Sample.topic ∅ .new none).2 _ s₃ halong hrun
    true (by decide)

/-- Nothing is queued, and every message that is posted can be pulled. -/
structure Plain (a : SubscriptionActor) : Prop where
  sound : a.Sound
  backlog : a.backlog = []
  orderedQueues : a.orderedQueues = ∅
  deleted : a.deleted = false
  detached : a.info.detached = false
  retention : a.info.messageRetentionDuration = none
  filter : a.compiledFilter = none

lemma Plain.post {a : SubscriptionActor} (h : a.Plain) (m : TopicMessage)
    (hm : m.orderingKey = none) :
    a.postMessages [m] = { a with backlog := [m] }.notifyNewMessagesAvailable := by
  have haccepts : a.accepts m = true := by
    unfold accepts
    rw [h.filter]
  have henqueue : a.enqueue m = { a with backlog := [m] } := by
    unfold enqueue
    rw [hm, h.backlog]
    rfl
  unfold postMessages
  rw [if_neg (ne_true_of_eq_false h.deleted)]
  simp only [postLoop, haccepts, henqueue, if_true]

lemma pullMessages_single {a : SubscriptionActor} {m : TopicMessage} (hbacklog : a.backlog = [m])
    (hqueues : a.orderedQueues = ∅) (hdeleted : a.deleted = false)
    (hdetached : a.info.detached = false) (hretention : a.info.messageRetentionDuration = none)
    (now : Instant) :
    (a.pullMessages now 1 0).2 = { (a.deliver (now + a.info.ackDeadline) m).2 with
      backlog := []
      counters := { a.counters with pulled := a.counters.pulled + 1 } } := by
  have hidle : ∀ b : SubscriptionActor, b.orderedQueues = a.orderedQueues → b.idleKeys = [] := by
    intro b hb
    unfold idleKeys
    rw [hb, hqueues]
    rfl
  have hcap : a.effectiveMax 1 0 = 1 := by
    unfold effectiveMax
    rw [hidle a rfl, hbacklog]
    rfl
  have hkept : a.isMessageExpired m now = false := by
    unfold isMessageExpired
    rw [hretention]
  have hall : a.pullUpTo now 1 = ([(a.deliver (now + a.info.ackDeadline) m).1],
      { (a.deliver (now + a.info.ackDeadline) m).2 with backlog := [] }) := by
    unfold pullUpTo
    simp only [hidle a rfl, List.insertionSort_nil, pullOrdered, hbacklog, pullBacklog,
      List.length_nil, Nat.le_zero_eq, Nat.one_ne_zero, if_false, hkept, Bool.false_eq_true,
      List.nil_append]
  unfold pullMessages
  rw [if_neg (ne_true_of_eq_false hdeleted), if_neg (ne_true_of_eq_false hdetached), hcap,
    if_neg Nat.one_ne_zero, hall]
  have hnone : morePending { (a.deliver (now + a.info.ackDeadline) m).2 with backlog := [] } =
      false := by
    unfold morePending
    rw [hidle]
    · rfl
    · rfl
  dsimp only
  unfold signalMore
  rw [hnone]
  rfl

/-- A message that is posted and pulled is one more outstanding. -/
lemma Plain.round {a : SubscriptionActor} (h : a.Plain) (m : TopicMessage)
    (hm : m.orderingKey = none) :
    let b := a.run (Sample.events [.postMessages [m], .pullMessages 1 0])
    b.Plain ∧ b.outstanding.len = a.outstanding.len + 1 := by
  intro b
  have hsound : b.Sound := h.sound.run _
  set posted : SubscriptionActor := { a with backlog := [m] }.notifyNewMessagesAvailable with hposted
  have hpulled : b = { (posted.deliver (0 + a.info.ackDeadline) m).2 with
      backlog := []
      counters := { a.counters with pulled := a.counters.pulled + 1 } } := by
    change ((a.postMessages [m]).pullMessages 0 1 0).2 = _
    rw [h.post m hm]
    exact pullMessages_single (a := posted) rfl h.orderedQueues h.deleted h.detached h.retention 0
  have hlen : b.outstanding.len = a.outstanding.len + 1 := by
    have hheld := held_deliver (a := posted) ⟨h.sound.fresh.ackId, h.sound.fresh.retry⟩
      (0 + a.info.ackDeadline) m
    rw [hpulled, OutstandingMessageTracker.len_eq_length_held,
      OutstandingMessageTracker.len_eq_length_held]
    exact congrArg List.length hheld
  refine ⟨⟨hsound, ?_, ?_, ?_, ?_, ?_, ?_⟩, hlen⟩ <;> rw [hpulled]
  · exact h.orderedQueues
  · exact h.deleted
  · exact h.detached
  · exact h.retention
  · exact h.filter

lemma plain_rounds (n : ℕ) :
    ((Sample.start Sample.info).run (Sample.rounds n)).Plain ∧
      ((Sample.start Sample.info).run (Sample.rounds n)).outstanding.len = n := by
  induction n with
  | zero => exact ⟨⟨sound_start _ _ _ _ _, rfl, rfl, rfl, rfl, rfl, rfl⟩, rfl⟩
  | succ n ih =>
    obtain ⟨hplain, hlen⟩ := ih
    obtain ⟨hplain', hlen'⟩ := hplain.round (Sample.message (n + 1) none) rfl
    rw [Sample.rounds, run_append]
    exact ⟨hplain', hlen'.trans (congrArg (· + 1) hlen)⟩

/-- When the count has just wrapped, a posted message passes the cap. -/
lemma Plain.pull_past_cap {a : SubscriptionActor} (h : a.Plain) (hlen : a.outstanding.len = 2 ^ 16)
    {m : TopicMessage} (hm : m.orderingKey = none) (env : Env) :
    let b := a.step (env, .request (.postMessages [m]))
    ¬ (b.step (env, .request (.pullMessages 1 1))).outstanding.len ≤
      max (1 : UInt16).toNat b.outstanding.len := by
  intro b
  have hb : b = { a with backlog := [m] }.notifyNewMessagesAvailable := h.post m hm
  have hsound : b.Sound := h.sound.step _
  rw [len_pull_le_iff hsound.fresh env 1 (by decide), hb]
  unfold CapCounts NothingToPull
  rintro (hlt | hdeleted | hdetached | hcount | hfull | hexpired)
  · exact hlt.ne hlen
  · exact ne_true_of_eq_false h.deleted hdeleted
  · exact ne_true_of_eq_false h.detached hdetached
  · cases hcount
  · have hwrapped : (1 : UInt16).toNat ≤ a.outstanding.len % 2 ^ 16 := hfull
    rw [hlen] at hwrapped
    cases hwrapped
  · have hgone : a.isMessageExpired m env.now = true := hexpired m (.inl (List.mem_singleton_self m))
    unfold isMessageExpired at hgone
    rw [h.retention] at hgone
    cases hgone

/-- With 2^16 messages outstanding, a pull capped at one message gets one more. -/
theorem capped_pull_exceeds_cap :
    let a := ((Sample.start Sample.info).run (Sample.rounds (2 ^ 16))).step
      (Sample.env 0, .request (.postMessages [Sample.message 0 none]))
    ¬ (a.step (Sample.env 0, .request (.pullMessages 1 1))).outstanding.len ≤
        max (1 : UInt16).toNat a.outstanding.len := by
  obtain ⟨hplain, hlen⟩ := plain_rounds (2 ^ 16)
  exact hplain.pull_past_cap hlen rfl (Sample.env 0)

end SubscriptionActor

end Deltio
