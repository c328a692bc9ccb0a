import Deltio.FlowControl
import Mathlib.Data.Finset.Lattice.Lemmas

namespace Deltio.SubscriptionActor

open Lib

def retained (a : SubscriptionActor) (now : Instant) (m : TopicMessage) : Bool :=
  !a.isMessageExpired m now

def freeKeys (a : SubscriptionActor) : List String :=
  (a.orderedQueues.keys.filter fun key => decide (key ∉ a.keysInFlight)).insertionSort (· ≤ ·)

/-- The first message of each queue that is within the retention, with its key. -/
def headsOf (a : SubscriptionActor) (now : Instant) (keys : List String) :
    List (String × TopicMessage) :=
  keys.filterMap fun key => ((a.queueOf key).find? (a.retained now)).map fun m => (key, m)

def pullableHeads (a : SubscriptionActor) (now : Instant) : List (String × TopicMessage) :=
  a.headsOf now a.freeKeys

def pullableBacklog (a : SubscriptionActor) (now : Instant) : List TopicMessage :=
  a.backlog.filter (a.retained now)

/-- All that a pull can return, in order. -/
def pullable (a : SubscriptionActor) (now : Instant) : List TopicMessage :=
  (a.pullableHeads now).map Prod.snd ++ a.pullableBacklog now

/-- A pull of at most `c` messages gets to the queue of the key: the keys before it leave room. -/
def Visits (a : SubscriptionActor) (now : Instant) (c : ℕ) (key : String) : Prop :=
  key ∈ a.freeKeys ∧
    (a.headsOf now (a.freeKeys.filter fun key' => decide (key' < key))).length < c

instance (a : SubscriptionActor) (now : Instant) (c : ℕ) (key : String) :
    Decidable (a.Visits now c key) := by
  unfold Visits
  infer_instance

/-- What is left of a queue once the front is gone up to the `n`-th element to keep. -/
def afterFront {α : Type*} (keep : α → Bool) : ℕ → List α → List α
  | 0, queue => queue
  | _ + 1, [] => []
  | n + 1, m :: queue => afterFront keep (if keep m then n else n + 1) queue

lemma exists_afterFront {α : Type*} (keep : α → Bool) (n : ℕ) (queue : List α) :
    ∃ visited, queue = visited ++ afterFront keep n queue ∧
      visited.filter keep = (queue.filter keep).take n := by
  induction queue generalizing n with
  | nil => cases n <;> exact ⟨[], rfl, rfl⟩
  | cons m queue ih =>
    cases n with
    | zero => exact ⟨[], rfl, rfl⟩
    | succ n =>
      obtain ⟨visited, hqueue, hvisited⟩ := ih (if keep m then n else n + 1)
      refine ⟨m :: visited, ?_, ?_⟩
      · rw [afterFront, List.cons_append, ← hqueue]
      · by_cases hkeep : keep m = true
        · rw [if_pos hkeep] at hvisited
          rw [List.filter_cons_of_pos hkeep, List.filter_cons_of_pos hkeep, List.take_succ_cons,
            hvisited]
        · rw [if_neg hkeep] at hvisited
          rw [List.filter_cons_of_neg hkeep, List.filter_cons_of_neg hkeep, hvisited]

section

variable {a b c : SubscriptionActor} {now : Instant}

lemma retained_of_info (h : b.info = a.info) : b.retained now = a.retained now := by
  funext m
  rw [retained, isMessageExpired_of_info h, retained]

/-- Keys with an empty queue make no difference. -/
lemma headsOf_filter (a : SubscriptionActor) (now : Instant) (keys : List String) :
    a.headsOf now (keys.filter fun key => !(a.queueOf key).isEmpty) = a.headsOf now keys := by
  induction keys with
  | nil => rfl
  | cons key keys ih =>
    unfold headsOf at ih ⊢
    by_cases hempty : a.queueOf key = []
    · rw [List.filter_cons_of_neg (by simp [hempty]), ih, List.filterMap_cons_none]
      rw [hempty]
      rfl
    · rw [List.filter_cons_of_pos (by simp [hempty]), List.filterMap_cons, List.filterMap_cons, ih]

lemma idleKeys_eq_filter (a : SubscriptionActor) : a.idleKeys.insertionSort (· ≤ ·) =
    a.freeKeys.filter fun key => !(a.queueOf key).isEmpty := by
  have hperm : (a.idleKeys.insertionSort (· ≤ ·)).Perm
      (a.freeKeys.filter fun key => !(a.queueOf key).isEmpty) := by
    refine (List.perm_insertionSort _ _).trans ?_
    refine List.Perm.trans ?_ ((List.perm_insertionSort _ _).filter _).symm
    rw [List.filter_filter, idleKeys]
    simp only [Bool.and_comm]
    exact List.Perm.refl _
  refine hperm.eq_of_pairwise' (List.pairwise_insertionSort _ _) ?_
  exact (List.pairwise_insertionSort _ _).filter _

/-- The keys that a pull visits give the same heads. -/
lemma headsOf_idleKeys (a : SubscriptionActor) (now : Instant) :
    a.headsOf now (a.idleKeys.insertionSort (· ≤ ·)) = a.pullableHeads now := by
  rw [idleKeys_eq_filter, headsOf_filter]
  rfl

/-- `b` comes from `a` by taking the given heads: their keys are in flight, and what left a
queue is a part of its front in which only the heads are within the retention. -/
structure TakesHeads (a : SubscriptionActor) (now : Instant) (taken : List (String × TopicMessage))
    (b : SubscriptionActor) : Prop where
  info : b.info = a.info
  keysInFlight : b.keysInFlight = a.keysInFlight ∪ (taken.map Prod.fst).toFinset
  queue : ∀ key, ∃ visited, a.queueOf key = visited ++ b.queueOf key ∧
    visited.filter (a.retained now) =
      (taken.filter fun head => decide (head.1 = key)).map Prod.snd

lemma TakesHeads.refl (a : SubscriptionActor) (now : Instant) : TakesHeads a now [] a where
  info := rfl
  keysInFlight := by rw [List.map_nil, List.toFinset_nil, Finset.union_empty]
  queue _ := ⟨[], rfl, rfl⟩

lemma TakesHeads.trans {taken taken' : List (String × TopicMessage)}
    (h : TakesHeads a now taken b) (h' : TakesHeads b now taken' c) :
    TakesHeads a now (taken ++ taken') c where
  info := h'.info.trans h.info
  keysInFlight := by
    rw [h'.keysInFlight, h.keysInFlight, List.map_append, List.toFinset_append, Finset.union_assoc]
  queue key := by
    obtain ⟨visited, hqueue, hvisited⟩ := h.queue key
    obtain ⟨visited', hqueue', hvisited'⟩ := h'.queue key
    refine ⟨visited ++ visited', ?_, ?_⟩
    · rw [hqueue, hqueue', List.append_assoc]
    · rw [retained_of_info h.info] at hvisited'
      rw [List.filter_append, hvisited, hvisited', List.filter_append, List.map_append]

def headOf (a : SubscriptionActor) (now : Instant) (key : String) (queue : List TopicMessage) :
    List (String × TopicMessage) :=
  (queue.find? (a.retained now)).toList.map fun m => (key, m)

lemma pullHead_queue (now deadline : Instant) (key : String) (queue : List TopicMessage)
    (a : SubscriptionActor) :
    ((pullHead now deadline key queue a).1.toList.map (·.message) =
        (queue.find? (a.retained now)).toList ∧
      (pullHead now deadline key queue a).2.keysInFlight =
        a.keysInFlight ∪ ((a.headOf now key queue).map Prod.fst).toFinset) ∧
    ∃ visited, queue = visited ++ (pullHead now deadline key queue a).2.queueOf key ∧
      visited.filter (a.retained now) = (queue.find? (a.retained now)).toList := by
  induction queue generalizing a with
  | nil =>
    refine ⟨⟨rfl, (Finset.union_empty _).symm⟩, [], ?_, rfl⟩
    simp only [pullHead, queueOf, HashMap.get_insert_self, List.nil_append, Option.getD_some]
  | cons head queue ih =>
    unfold pullHead
    split_ifs with hexpired
    · have hgone : ¬ a.retained now head = true := by simp [retained, hexpired]
      obtain ⟨hfst, visited, hqueue, hvisited⟩ := ih (a.dropExpired head)
      unfold headOf
      rw [List.find?_cons_of_neg hgone]
      refine ⟨hfst, head :: visited, ?_, ?_⟩
      · rw [List.cons_append, ← hqueue]
      · rw [List.filter_cons_of_neg hgone]
        exact hvisited
    · have hkept : a.retained now head = true := by simp [retained, hexpired]
      unfold headOf
      rw [List.find?_cons_of_pos hkept]
      refine ⟨⟨rfl, ?_⟩, [head], ?_, ?_⟩
      · exact Finset.insert_eq key a.keysInFlight |>.trans (Finset.union_comm _ _)
      · simp only [queueOf, HashMap.get_insert_self, Option.getD_some, List.singleton_append]
      · rw [List.filter_cons_of_pos hkept, List.filter_nil, Option.toList_some]

lemma takesHeads_pullHead (now deadline : Instant) (key : String) (a : SubscriptionActor) :
    TakesHeads a now (a.headOf now key (a.queueOf key))
      (pullHead now deadline key (a.queueOf key) a).2 := by
  obtain ⟨⟨-, hkeys⟩, visited, hqueue, hvisited⟩ :=
    pullHead_queue now deadline key (a.queueOf key) a
  refine ⟨info_pullHead now deadline key _ a, hkeys, fun key' => ?_⟩
  by_cases hkey : key' = key
  · subst hkey
    refine ⟨visited, hqueue, ?_⟩
    rw [hvisited, headOf, List.filter_eq_self.mpr, List.map_map]
    · exact (List.map_id _).symm
    · rintro _ hhead
      obtain ⟨m, -, rfl⟩ := List.mem_map.mp hhead
      exact decide_eq_true rfl
  · refine ⟨[], (queueOf_pullHead now deadline hkey _ a).symm, ?_⟩
    have hnone : (a.headOf now key (a.queueOf key)).filter (fun head => decide (head.1 = key')) =
        [] := by
      rw [List.filter_eq_nil_iff]
      rintro _ hhead
      obtain ⟨m, -, rfl⟩ := List.mem_map.mp hhead
      simpa using Ne.symm hkey
    rw [hnone]
    rfl

lemma length_headOf (now deadline : Instant) (key : String) (a : SubscriptionActor) :
    (pullHead now deadline key (a.queueOf key) a).1.toList.length =
      (a.headOf now key (a.queueOf key)).length := by
  obtain ⟨⟨hmessage, -⟩, -⟩ := pullHead_queue now deadline key (a.queueOf key) a
  have hlength := congrArg List.length hmessage
  rw [List.length_map] at hlength
  rw [headOf, List.length_map, hlength]

lemma headsOf_cons (a : SubscriptionActor) (now : Instant) (key : String) (keys : List String) :
    a.headsOf now (key :: keys) = a.headOf now key (a.queueOf key) ++ a.headsOf now keys := by
  unfold headsOf headOf
  cases hfind : (a.queueOf key).find? (a.retained now) with
  | none => rw [List.filterMap_cons_none (by rw [hfind]; rfl)]; rfl
  | some m => rw [List.filterMap_cons_some (by rw [hfind]; rfl)]; rfl

/-- Popping one queue leaves the heads of the others. -/
lemma headsOf_pullHead (now deadline : Instant) {key : String} {keys : List String}
    (hkey : key ∉ keys) (queue : List TopicMessage) (a : SubscriptionActor) :
    (pullHead now deadline key queue a).2.headsOf now keys = a.headsOf now keys := by
  refine List.filterMap_congr fun key' hkey' => ?_
  rw [retained_of_info (info_pullHead now deadline key queue a),
    queueOf_pullHead now deadline (ne_of_mem_of_not_mem hkey' hkey)]

/-- The first loop takes as many heads as there is room for. -/
lemma pullOrdered_heads (now deadline : Instant) (capacity : ℕ) {keys : List String}
    (hkeys : keys.Nodup) (result : List PulledMessage) (a : SubscriptionActor) :
    (pullOrdered now deadline capacity keys result a).1.map (·.message) =
        result.map (·.message) ++
          ((a.headsOf now keys).take (capacity - result.length)).map Prod.snd ∧
      TakesHeads a now ((a.headsOf now keys).take (capacity - result.length))
        (pullOrdered now deadline capacity keys result a).2 := by
  induction keys generalizing result a with
  | nil =>
    have hnil : (a.headsOf now []).take (capacity - result.length) = [] := List.take_nil
    rw [hnil]
    exact ⟨(List.append_nil _).symm, .refl a now⟩
  | cons key keys ih =>
    obtain ⟨hkey, hrest⟩ := List.nodup_cons.mp hkeys
    unfold pullOrdered
    split_ifs with hfull
    · rw [Nat.sub_eq_zero_of_le hfull, List.take_zero]
      exact ⟨(List.append_nil _).symm, .refl a now⟩
    · rw [headsOf_cons]
      split
      · next hnone =>
        have hempty : a.queueOf key = [] := by rw [queueOf, hnone]; rfl
        rw [hempty]
        exact ih hrest result a
      · next queue hsome =>
        have hqueue : a.queueOf key = queue := by rw [queueOf, hsome]; rfl
        subst hqueue
        set head := pullHead now deadline key (a.queueOf key) a with hhead
        obtain ⟨⟨hmessage, -⟩, -⟩ := pullHead_queue now deadline key (a.queueOf key) a
        have hlength : (a.headOf now key (a.queueOf key)).length = head.1.toList.length :=
          (length_headOf now deadline key a).symm
        have hone := Option.length_toList_le (o := head.1)
        obtain ⟨hfst, htakes⟩ := ih hrest (result ++ head.1.toList) head.2
        rw [headsOf_pullHead now deadline hkey, List.length_append, ← Nat.sub_sub] at hfst htakes
        rw [List.take_append, List.take_of_length_le (by omega), hlength]
        constructor
        · have hheads : (a.headOf now key (a.queueOf key)).map Prod.snd =
              head.1.toList.map (·.message) := by
            rw [headOf, List.map_map, hmessage]
            exact List.map_id _
          rw [hfst, List.map_append, List.map_append, hheads, List.append_assoc]
        · exact (takesHeads_pullHead now deadline key a).trans htakes

lemma queueOf_pullHead_self (now deadline : Instant) (key : String) (queue : List TopicMessage)
    (a : SubscriptionActor) : (pullHead now deadline key queue a).2.queueOf key =
      afterFront (a.retained now) 1 queue := by
  induction queue generalizing a with
  | nil => simp only [pullHead, queueOf, HashMap.get_insert_self, Option.getD_some, afterFront]
  | cons head queue ih =>
    unfold pullHead afterFront
    split_ifs with hexpired hkept hkept
    · simp [retained, hexpired] at hkept
    · exact ih (a.dropExpired head)
    · simp only [queueOf, HashMap.get_insert_self, Option.getD_some, afterFront]
    · simp [retained, hexpired] at hkept

/-- With room left, the loop pops the queue of the first key, and goes on. -/
lemma pullOrdered_cons_of_room (now deadline : Instant) {capacity : ℕ} (key : String)
    (keys : List String) {result : List PulledMessage} (a : SubscriptionActor)
    (hroom : result.length < capacity) :
    ∃ head b, pullOrdered now deadline capacity (key :: keys) result a =
        pullOrdered now deadline capacity keys (result ++ head) b ∧
      head.length = (a.headOf now key (a.queueOf key)).length ∧ b.info = a.info ∧
      b.queueOf key = afterFront (a.retained now) 1 (a.queueOf key) ∧
      ∀ key', key' ≠ key → b.queueOf key' = a.queueOf key' := by
  rw [pullOrdered, if_neg (by omega)]
  split
  · next hnone =>
    have hempty : a.queueOf key = [] := by rw [queueOf, hnone]; rfl
    refine ⟨[], a, by rw [List.append_nil], ?_, rfl, ?_, fun _ _ => rfl⟩
    · rw [hempty]
      rfl
    · rw [hempty, afterFront]
  · next queue hsome =>
    have hqueue : a.queueOf key = queue := by rw [queueOf, hsome]; rfl
    subst hqueue
    exact ⟨_, _, rfl, length_headOf now deadline key a, info_pullHead now deadline key _ a,
      queueOf_pullHead_self now deadline key _ a,
      fun key' hne => queueOf_pullHead now deadline hne _ a⟩

/-- The first loop leaves the queues of the keys alone for which the heads of the keys before
them leave no room. -/
lemma queueOf_pullOrdered (now deadline : Instant) (capacity : ℕ) {keys : List String}
    (hkeys : keys.Pairwise (· < ·)) (result : List PulledMessage) (a : SubscriptionActor)
    (key : String) : (pullOrdered now deadline capacity keys result a).2.queueOf key =
      afterFront (a.retained now)
        (if key ∈ keys ∧ result.length +
            (a.headsOf now (keys.filter fun key' => decide (key' < key))).length < capacity
          then 1 else 0) (a.queueOf key) := by
  induction keys generalizing result a with
  | nil => rw [if_neg fun h => List.not_mem_nil h.1, afterFront, pullOrdered]
  | cons first keys ih =>
    obtain ⟨hfirst, hrest⟩ := List.pairwise_cons.mp hkeys
    by_cases hfull : capacity ≤ result.length
    · rw [pullOrdered, if_pos hfull, if_neg (by omega), afterFront]
    · obtain ⟨head, b, hcons, hlength, hinfo, hself, hother⟩ :=
        pullOrdered_cons_of_room now deadline first keys a (not_le.mp hfull)
      rw [hcons, ih hrest, retained_of_info hinfo]
      by_cases hkey : key = first
      · -- no key is before the first one
        subst hkey
        have hnone : (key :: keys).filter (fun key' => decide (key' < key)) = [] := by
          rw [List.filter_eq_nil_iff]
          intro key' hkey'
          rw [decide_eq_true_iff, not_lt]
          rcases List.mem_cons.mp hkey' with rfl | hmem
          · exact le_rfl
          · exact (hfirst key' hmem).le
        rw [if_neg fun h => lt_irrefl _ (hfirst key h.1), afterFront, hself, hnone,
          if_pos ⟨List.mem_cons_self, not_le.mp hfull⟩]
      · rw [hother key hkey]
        have hmem : key ∈ first :: keys ↔ key ∈ keys := by simp [hkey]
        by_cases hin : key ∈ keys
        · have hbefore : (first :: keys).filter (fun key' => decide (key' < key)) =
              first :: keys.filter fun key' => decide (key' < key) :=
            List.filter_cons_of_pos (decide_eq_true (hfirst key hin))
          have hheads : b.headsOf now (keys.filter fun key' => decide (key' < key)) =
              a.headsOf now (keys.filter fun key' => decide (key' < key)) := by
            refine List.filterMap_congr fun key' hkey' => ?_
            have hne : key' ≠ first := by
              rintro rfl
              exact lt_irrefl _ (hfirst key' (List.mem_of_mem_filter hkey'))
            rw [retained_of_info hinfo, hother key' hne]
          rw [hbefore, headsOf_cons, hheads, List.length_append, List.length_append, hlength,
            ← Nat.add_assoc]
          simp only [hmem]
        · rw [if_neg fun h => hin h.1, if_neg fun h => hin (hmem.mp h.1)]

lemma pullBacklog_frame (now deadline : Instant) (capacity : ℕ) (backlog : List TopicMessage)
    (result : List PulledMessage) (a : SubscriptionActor) :
    (pullBacklog now deadline capacity backlog result a).2.keysInFlight = a.keysInFlight ∧
      (pullBacklog now deadline capacity backlog result a).2.queueOf = a.queueOf := by
  induction backlog generalizing result a with
  | nil => exact ⟨rfl, rfl⟩
  | cons message backlog ih =>
    unfold pullBacklog
    split_ifs
    · exact ⟨rfl, rfl⟩
    · exact ih result (a.dropExpired message)
    · exact ih _ (a.deliver deadline message).2

/-- The second loop takes what is within the retention up to the remaining room. -/
lemma pullBacklog_backlog (now deadline : Instant) (capacity : ℕ) (backlog : List TopicMessage)
    (result : List PulledMessage) (a : SubscriptionActor) :
    (pullBacklog now deadline capacity backlog result a).1.map (·.message) =
        result.map (·.message) ++
          (backlog.filter (a.retained now)).take (capacity - result.length) ∧
      (pullBacklog now deadline capacity backlog result a).2.backlog =
        afterFront (a.retained now) (capacity - result.length) backlog := by
  induction backlog generalizing result a with
  | nil =>
    rw [List.filter_nil, List.take_nil, List.append_nil]
    exact ⟨rfl, by cases capacity - result.length <;> rfl⟩
  | cons message backlog ih =>
    unfold pullBacklog
    split_ifs with hfull hexpired
    · rw [Nat.sub_eq_zero_of_le hfull, List.take_zero]
      exact ⟨(List.append_nil _).symm, rfl⟩
    · have hgone : ¬ a.retained now message = true := by simp [retained, hexpired]
      obtain ⟨hfst, hbacklog⟩ := ih result (a.dropExpired message)
      obtain ⟨room, hroom⟩ : ∃ room, capacity - result.length = room + 1 :=
        ⟨capacity - result.length - 1, by omega⟩
      rw [List.filter_cons_of_neg hgone, hroom, afterFront, if_neg hgone, ← hroom]
      exact ⟨hfst, hbacklog⟩
    · have hkept : a.retained now message = true := by simp [retained, hexpired]
      obtain ⟨hfst, hbacklog⟩ :=
        ih (result ++ [(a.deliver deadline message).1]) (a.deliver deadline message).2
      have hroom : capacity - result.length =
          capacity - (result ++ [(a.deliver deadline message).1]).length + 1 := by
        rw [List.length_append, List.length_singleton]
        omega
      rw [List.filter_cons_of_pos hkept, hroom, List.take_succ_cons, afterFront, if_pos hkept]
      refine ⟨?_, hbacklog⟩
      rw [hfst, List.map_append, List.append_assoc]
      rfl

/-- What a pull of at most `c` messages does to the queues. -/
structure TakesFront (a : SubscriptionActor) (now : Instant) (c : ℕ) (ps : List PulledMessage)
    (b : SubscriptionActor) : Prop where
  messages : ps.map (·.message) = (a.pullable now).take c
  keysInFlight : b.keysInFlight =
    a.keysInFlight ∪ (((a.pullableHeads now).take c).map Prod.fst).toFinset
  heads : ∀ key, ∃ visited, a.queueOf key = visited ++ b.queueOf key ∧
    visited.filter (a.retained now) =
      (((a.pullableHeads now).take c).filter fun head => decide (head.1 = key)).map Prod.snd
  queue : ∀ key, b.queueOf key =
    afterFront (a.retained now) (if a.Visits now c key then 1 else 0) (a.queueOf key)
  backlog : b.backlog =
    afterFront (a.retained now) (c - (a.pullableHeads now).length) a.backlog

/-- The loop gets to the queue of a key if the heads of the free keys before it leave room. -/
lemma queueOf_pullHeads (a : SubscriptionActor) (now deadline : Instant) (c : ℕ) (key : String) :
    (pullOrdered now deadline c (a.idleKeys.insertionSort (· ≤ ·)) [] a).2.queueOf key =
      afterFront (a.retained now) (if a.Visits now c key then 1 else 0) (a.queueOf key) := by
  have hsorted : (a.idleKeys.insertionSort (· ≤ ·)).Pairwise (· < ·) :=
    ((List.pairwise_insertionSort (· ≤ ·) a.idleKeys).and a.idleKeys_spec.1).imp
      fun h => lt_of_le_of_ne h.1 h.2
  rw [queueOf_pullOrdered now deadline c hsorted, a.idleKeys_eq_filter, List.length_nil,
    Nat.zero_add, List.filter_comm, headsOf_filter]
  by_cases hempty : a.queueOf key = []
  · rw [hempty]
    split_ifs <;> simp only [afterFront]
  · have hmem : key ∈ a.freeKeys.filter (fun key => !(a.queueOf key).isEmpty) ↔
        key ∈ a.freeKeys := by simp [hempty]
    simp only [hmem]
    rfl

lemma takesFront_pullUpTo (a : SubscriptionActor) (now : Instant) (c : ℕ) :
    TakesFront a now c (a.pullUpTo now c).1 (a.pullUpTo now c).2 := by
  set deadline := now + a.info.ackDeadline with hdeadline
  set heads := pullOrdered now deadline c (a.idleKeys.insertionSort (· ≤ ·)) [] a with hheads
  obtain ⟨hfst, htakes⟩ := pullOrdered_heads now deadline c a.idleKeys_spec.1 [] a
  rw [headsOf_idleKeys, List.length_nil, Nat.sub_zero, ← hheads] at hfst htakes
  have hsame : heads.2.backlog = a.backlog := (pullOrdered_frame now deadline c _ [] a).2
  have hpulled : a.pullUpTo now c = pullBacklog now deadline c a.backlog heads.1 heads.2 := by
    rw [← hsame]
    rfl
  obtain ⟨hkeys, hqueue⟩ := pullBacklog_frame now deadline c a.backlog heads.1 heads.2
  obtain ⟨hall, hbacklog⟩ := pullBacklog_backlog now deadline c a.backlog heads.1 heads.2
  -- the room that the heads leave
  have hroom : c - heads.1.length = c - (a.pullableHeads now).length := by
    have hlength := congrArg List.length hfst
    rw [List.map_nil, List.nil_append, List.length_map, List.length_map,
      List.length_take] at hlength
    omega
  rw [retained_of_info htakes.info, hroom] at hall hbacklog
  rw [hpulled]
  refine ⟨?_, hkeys.trans htakes.keysInFlight, fun key => ?_, fun key => ?_, hbacklog⟩
  · rw [hall, hfst, pullable, List.take_append, List.map_take, List.length_map]
    rfl
  · obtain ⟨visited', hfront, hvisited'⟩ := htakes.queue key
    refine ⟨visited', ?_, hvisited'⟩
    rw [hfront, congrFun hqueue key]
  · rw [congrFun hqueue key]
    exact a.queueOf_pullHeads now deadline c key

lemma TakesFront.signalMore {c : ℕ} {ps : List PulledMessage} (h : TakesFront a now c ps b)
    (counters : SubscriptionCounters) :
    TakesFront a now c ps { b.signalMore with counters := counters } := by
  unfold SubscriptionActor.signalMore
  split_ifs <;> exact ⟨h.messages, h.keysInFlight, h.heads, h.queue, h.backlog⟩

lemma takesFront_pullMessages {a : SubscriptionActor} (hdeleted : a.deleted = false)
    (hdetached : a.info.detached = false) (now : Instant) (maxCount maxOutstanding : UInt16) :
    ∃ ps, (a.pullMessages now maxCount maxOutstanding).1 = .ok ps ∧
      TakesFront a now (a.effectiveMax maxCount maxOutstanding) ps
        (a.pullMessages now maxCount maxOutstanding).2 := by
  unfold pullMessages
  rw [if_neg (ne_true_of_eq_false hdeleted), if_neg (ne_true_of_eq_false hdetached)]
  split_ifs with hzero
  · refine ⟨[], rfl, ?_⟩
    rw [hzero]
    refine ⟨rfl, ?_, fun key => ⟨[], rfl, rfl⟩, fun key => ?_, ?_⟩
    · rw [List.take_zero, List.map_nil, List.toFinset_nil, Finset.union_empty]
    · rw [if_neg fun h => Nat.not_lt_zero _ h.2, afterFront]
    · rw [Nat.zero_sub, afterFront]
  · exact ⟨_, rfl, (a.takesFront_pullUpTo now _).signalMore _⟩

end

lemma get_foldl_add_of_notMem {ps : List PulledMessage} {id : AckId}
    (hid : id ∉ ps.map (·.ackId)) (t : OutstandingMessageTracker) :
    (ps.foldl .add t).messages.get id = t.messages.get id := by
  induction ps generalizing t with
  | nil => rfl
  | cons p ps ih =>
    rw [List.map_cons, List.mem_cons, not_or] at hid
    rw [List.foldl_cons, ih hid.2]
    exact (HashMap.get_insert _ _ _ _).trans (if_neg hid.1)

section

variable (info : SubscriptionInfo) (topic : Topic) (pushRegistry : PushSubscriptionsRegistry)
  (delegate : SubscriptionManagerState) (topicManager : Option TopicManagerRef)

/-- A pull returns the first messages of the list of all that can be pulled, under
consecutive ack IDs and with one deadline.  The keys of the heads it takes are in flight,
what it returns is outstanding, and of the queues it gets to only a front is gone, in which the
other messages are past the retention. -/
theorem pull_equals_reference (es : List (Env × ActorEvent)) (now : Instant)
    (maxCount maxOutstanding : UInt16) :
    let a := (start info topic pushRegistry delegate topicManager).run es
    let c := a.effectiveMax maxCount maxOutstanding
    let b := (a.pullMessages now maxCount maxOutstanding).2
    a.deleted = false → a.info.detached = false →
    ∃ ps, (a.pullMessages now maxCount maxOutstanding).1 = .ok ps ∧
      ps.map (·.message) = ((a.pullableHeads now).map Prod.snd ++ a.pullableBacklog now).take c ∧
      ps.map (·.ackId.value) = List.range' a.nextAckId.value ps.length ∧
      b.nextAckId.value = a.nextAckId.value + ps.length ∧
      (∀ p ∈ ps, p.deadline = AckDeadline.new (now + a.info.ackDeadline)) ∧
      (∀ p ∈ ps, b.outstanding.messages.get p.ackId = some p) ∧
      (∀ id, id ∉ ps.map (·.ackId) →
        b.outstanding.messages.get id = a.outstanding.messages.get id) ∧
      b.keysInFlight = a.keysInFlight ∪ (((a.pullableHeads now).take c).map Prod.fst).toFinset ∧
      (∀ key, ∃ visited, a.queueOf key = visited ++ b.queueOf key ∧
        visited.filter (a.retained now) =
          (((a.pullableHeads now).take c).filter fun head => decide (head.1 = key)).map Prod.snd) ∧
      (∀ key, b.queueOf key =
        afterFront (a.retained now) (if a.Visits now c key then 1 else 0) (a.queueOf key)) ∧
      b.backlog = afterFront (a.retained now) (c - (a.pullableHeads now).length) a.backlog ∧
      (∃ visited, a.backlog = visited ++ b.backlog ∧
        visited.filter (a.retained now) =
          (a.pullableBacklog now).take (c - (a.pullableHeads now).length)) ∧
      b.retryQueue = a.retryQueue := by
  intro a c b hdeleted hdetached
  have hsound : a.Sound := (sound_start info topic pushRegistry delegate topicManager).run es
  obtain ⟨ps, hps, htakes⟩ := takesFront_pullMessages hdeleted hdetached now maxCount maxOutstanding
  have hdelivers := a.delivers_pullMessages now maxCount maxOutstanding
  rw [hps] at hdelivers
  have habove : a.outstanding.Above a.nextAckId.value ps :=
    ⟨fun id hid => hsound.fresh.ackId id hid, hdelivers.ackIds⟩
  have hout : b.outstanding = ps.foldl .add a.outstanding := hdelivers.outstanding
  refine ⟨ps, hps, htakes.messages, hdelivers.ackIds, hdelivers.nextAckId, hdelivers.deadline, ?_,
    ?_, htakes.keysInFlight, htakes.heads, htakes.queue, htakes.backlog, ?_, hdelivers.retryQueue⟩
  · intro p hp
    rw [hout]
    exact habove.get_of_mem hp
  · intro id hid
    rw [hout]
    exact get_foldl_add_of_notMem hid a.outstanding
  · rw [htakes.backlog]
    exact exists_afterFront _ _ _

end

/-- Of two messages of a key the first is pulled, and after it the unkeyed one. -/
theorem pull_takes_head_then_backlog :
    let a := (Sample.start Sample.info).run (Sample.events [.postMessages
      [Sample.message 1 none, Sample.message 2 (some "k"), Sample.message 3 (some "k")]])
    ∃ ps, (a.pullMessages 0 10 0).1 = .ok ps ∧
      ps.map (·.message) = [Sample.message 2 (some "k"), Sample.message 1 none] := by
  intro a
  obtain ⟨ps, hps, hmessages, -⟩ := pull_equals_reference Sample.info Sample.topic ∅ .new none
    (Sample.events [.postMessages
      [Sample.message 1 none, Sample.message 2 (some "k"), Sample.message 3 (some "k")]]) 0 10 0
    (by decide +kernel) (by decide +kernel)
  refine ⟨ps, hps, hmessages.trans ?_⟩
  decide +kernel

end Deltio.SubscriptionActor
