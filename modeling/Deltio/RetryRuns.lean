import Deltio.Lib.DelayQueue
import Deltio.RetryQueue

namespace Deltio

open Lib

/-- The calls of a retry queue.  The iteration order of a drained map comes from outside. -/
inductive RetryCall where
  | add (message : TopicMessage) (deliverAt : AckDeadline)
  | takeReady (now : Instant)
  | drain (order : List TopicMessage → List TopicMessage) (perm : ∀ l, (order l).Perm l)
  | clear

structure RetryRun where
  queue : RetryQueue
  returned : List (List TopicMessage)

namespace RetryRun

def start : RetryRun := ⟨.new, []⟩

def step (r : RetryRun) : RetryCall → RetryRun
  | .add message deliverAt => { r with queue := r.queue.add message deliverAt }
  | .takeReady now =>
    let taken := r.queue.takeReady now
    ⟨taken.2, r.returned ++ [taken.1]⟩
  | .drain order _ =>
    let drained := r.queue.drain order
    ⟨drained.2, r.returned ++ [drained.1]⟩
  | .clear => { r with queue := r.queue.clear }

def run (calls : List RetryCall) : RetryRun := calls.foldl step start

end RetryRun

abbrev Retries := DelayQueue AckDeadline TopicMessage

def reachedBy (now : Instant) (deliverAt : AckDeadline) : Bool := !decide (now < deliverAt.time)

namespace Retries

def step (q : Retries) : RetryCall → Retries
  | .add message deliverAt => q.add message deliverAt
  | .takeReady now => q.take (reachedBy now)
  | .drain _ _ => q.drain
  | .clear => q.clear

def run (calls : List RetryCall) : Retries := calls.foldl step .empty

def added : List RetryCall → List (AckDeadline × TopicMessage)
  | [] => []
  | .add message deliverAt :: calls => (deliverAt, message) :: added calls
  | _ :: calls => added calls

end Retries

namespace RetryQueue

/-- The queue holds the waiting messages under their numbers. -/
structure Holds (r : RetryQueue) (waiting : List (Delayed AckDeadline TopicMessage)) : Prop where
  schedule : ∀ key, key ∈ r.schedule ↔ ∃ e ∈ waiting, e.key = key
  messages : ∀ seq m, r.messages.get seq = some m ↔ ∃ e ∈ waiting, e.number = seq ∧ e.message = m

variable {r : RetryQueue} {waiting : List (Delayed AckDeadline TopicMessage)}

/-- The entries of the map are the waiting messages. -/
lemma Holds.perm (h : r.Holds waiting) (hn : (waiting.map Delayed.number).Nodup) :
    r.messages.keys.Perm (waiting.map Delayed.number) ∧
      r.messages.values.Perm (waiting.map Delayed.message) := by
  have hentries : ∀ seq m, r.messages.get seq = some m ↔
      (seq, m) ∈ waiting.map fun e => (e.number, e.message) := by
    intro seq m
    rw [h.messages, List.mem_map]
    simp only [Prod.mk.injEq]
  have hperm := HashMap.perm_of_get_iff (by rwa [List.map_map]) hentries
  rwa [List.map_map, List.map_map] at hperm

lemma Holds.len (h : r.Holds waiting) (hn : (waiting.map Delayed.number).Nodup) :
    r.len = waiting.length := by
  rw [RetryQueue.len, HashMap.len_eq_length_values, (h.perm hn).2.length_eq, List.length_map]

/-- The sequence numbers of the schedule are the keys of the map, each once. -/
lemma Holds.perm_keys (h : r.Holds waiting) (hn : (waiting.map Delayed.number).Nodup) :
    (r.schedule.list.map fun key => (ofLex key).2).Perm r.messages.keys := by
  have hkeys : (waiting.map Delayed.key).Nodup := by
    refine List.Nodup.of_map (fun key => (ofLex key).2) ?_
    rwa [List.map_map]
  have hschedule : r.schedule.list.Perm (waiting.map Delayed.key) := by
    refine (List.perm_ext_iff_of_nodup r.schedule.nodup hkeys).mpr fun key => ?_
    rw [List.mem_map]
    exact h.schedule key
  refine (hschedule.map fun key => (ofLex key).2).trans ?_
  rw [List.map_map]
  exact (h.perm hn).1.symm

lemma holds_nil_of_empty (hschedule : r.schedule = ∅) (hmessages : r.messages = ∅) :
    r.Holds [] where
  schedule key := by
    rw [hschedule]
    exact iff_of_false (SortedSet.notMem_empty key) (by simp)
  messages seq m := by
    rw [hmessages]
    exact iff_of_false (by simp) (by simp)

lemma Holds.add (h : r.Holds waiting) (hfresh : ∀ e ∈ waiting, e.number < r.nextSeq)
    (message : TopicMessage) (deliverAt : AckDeadline) :
    (r.add message deliverAt).Holds (waiting ++ [⟨deliverAt, r.nextSeq, message⟩]) where
  schedule key := by
    change key ∈ r.schedule.insert (toLex (deliverAt, r.nextSeq)) ↔ _
    rw [SortedSet.mem_insert, h.schedule]
    simp only [List.mem_append, List.mem_singleton, or_and_right, exists_or, exists_eq_left]
    rw [or_comm, eq_comm]
    rfl
  messages seq m := by
    change (r.messages.insert r.nextSeq message).get seq = some m ↔ _
    rw [HashMap.get_insert]
    simp only [List.mem_append, List.mem_singleton, or_and_right, exists_or, exists_eq_left]
    split_ifs with hseq
    · have hnone : ¬ ∃ e ∈ waiting, e.number = seq ∧ e.message = m := by
        rintro ⟨e, he, hnumber, -⟩
        have hlt := hfresh e he
        omega
      rw [or_iff_right hnone, Option.some.injEq, hseq]
      exact (and_iff_right rfl).symm
    · rw [h.messages, or_iff_left]
      exact fun hnew => hseq hnew.1.symm

lemma takeMessages_of_delayed {es : List (Delayed AckDeadline TopicMessage)}
    (hn : (es.map Delayed.number).Nodup)
    (hes : ∀ e ∈ es, r.messages.get e.number = some e.message) :
    (takeMessages (es.map Delayed.key) r).1 = es.map Delayed.message ∧
      ∀ seq, (takeMessages (es.map Delayed.key) r).2.messages.get seq =
        if seq ∈ es.map Delayed.number then none else r.messages.get seq := by
  induction es generalizing r with
  | nil => exact ⟨rfl, fun seq => (if_neg List.not_mem_nil).symm⟩
  | cons e es ih =>
    obtain ⟨he, hn⟩ := List.nodup_cons.mp hn
    have hget : r.messages.get (ofLex e.key).2 = some e.message := hes e List.mem_cons_self
    have hrest : ∀ e' ∈ es, (r.messages.remove e.number).get e'.number = some e'.message := by
      intro e' he'
      have hne : e'.number ≠ e.number := fun heq => he (heq ▸ List.mem_map_of_mem he')
      rw [HashMap.get_remove, if_neg hne]
      exact hes e' (List.mem_cons_of_mem e he')
    obtain ⟨hfst, hsnd⟩ := ih (r := { r with messages := r.messages.remove e.number }) hn hrest
    rw [List.map_cons, takeMessages]
    simp only [hget]
    constructor
    · rw [List.map_cons, ← hfst]
      rfl
    · intro seq
      refine (hsnd seq).trans ?_
      rw [HashMap.get_remove, List.map_cons]
      simp only [List.mem_cons]
      split_ifs <;> tauto

lemma reachedBy_of_le {now : Instant} {a b : AckDeadline ×ₗ ℕ} (hle : a ≤ b)
    (hb : reachedBy now (ofLex b).1 = true) : reachedBy now (ofLex a).1 = true := by
  have htime : (ofLex a).1.time ≤ (ofLex b).1.time := Prod.Lex.monotone_fst _ _ hle
  unfold reachedBy at hb ⊢
  rw [Bool.not_eq_true', decide_eq_false_iff_not] at hb ⊢
  exact fun hlt => hb (lt_of_lt_of_le hlt htime)

variable {q : Retries}

/-- What is popped off the schedule are the messages that are ready. -/
lemma Holds.popWhile (h : r.Holds q.waiting) (hq : q.Accounted) (now : Instant) :
    (r.schedule.popWhile fun key => reachedBy now (ofLex key).1).1 =
      (q.ready (reachedBy now)).map Delayed.key := by
  have hleft : (r.schedule.popWhile fun key => reachedBy now (ofLex key).1).1.Pairwise (· < ·) :=
    r.schedule.sorted.sublist (List.takeWhile_sublist _)
  have hright : ((q.ready (reachedBy now)).map Delayed.key).Pairwise (· < ·) :=
    List.pairwise_map.mpr (hq.pairwise_ready _)
  refine hleft.eq_of_mem_iff hright fun key => ?_
  rw [(SortedSet.mem_popWhile_iff fun a b => reachedBy_of_le).1, h.schedule, List.mem_map]
  simp only [DelayQueue.mem_ready]
  constructor
  · rintro ⟨⟨e, he, rfl⟩, hdue⟩
    exact ⟨e, ⟨he, hdue⟩, rfl⟩
  · rintro ⟨e, ⟨he, hdue⟩, rfl⟩
    exact ⟨⟨e, he, rfl⟩, hdue⟩

/-- `takeReady` returns what is ready in the order of release and keeps the rest. -/
lemma Holds.takeReady (h : r.Holds q.waiting) (hq : q.Accounted) (now : Instant) :
    (r.takeReady now).1 = (q.ready (reachedBy now)).map Delayed.message ∧
      (r.takeReady now).2.Holds (q.waiting.filter fun e => !reachedBy now e.dueAt) := by
  set popped := r.schedule.popWhile fun key => reachedBy now (ofLex key).1 with hpopped
  have hkeys : popped.1 = (q.ready (reachedBy now)).map Delayed.key := h.popWhile hq now
  have hnodup : ((q.ready (reachedBy now)).map Delayed.number).Nodup := by
    rw [((q.perm_ready _).map _).nodup_iff]
    refine List.Nodup.sublist (List.filter_sublist.map _) ?_
    exact List.pairwise_map.mpr (hq.pairwise_waiting.imp ne_of_lt)
  have htake : r.takeReady now = takeMessages popped.1 { r with schedule := popped.2 } := rfl
  obtain ⟨hfst, hsnd⟩ := takeMessages_of_delayed (r := { r with schedule := popped.2 }) hnodup
    fun e he => (h.messages e.number e.message).mpr ⟨e, (DelayQueue.mem_ready.mp he).1, rfl, rfl⟩
  rw [← hkeys] at hfst hsnd
  rw [htake]
  refine ⟨hfst, fun key => ?_, fun seq m => ?_⟩
  · rw [(takeMessages_frame popped.1 { r with schedule := popped.2 }).1, hpopped,
      (SortedSet.mem_popWhile_iff fun a b => reachedBy_of_le).2, h.schedule]
    simp only [List.mem_filter, Bool.not_eq_true']
    constructor
    · rintro ⟨⟨e, he, rfl⟩, hdue⟩
      exact ⟨e, ⟨he, hdue⟩, rfl⟩
    · rintro ⟨e, ⟨he, hdue⟩, rfl⟩
      exact ⟨⟨e, he, rfl⟩, hdue⟩
  · have hmem : seq ∈ (q.ready (reachedBy now)).map Delayed.number ↔
        ∃ e, (e ∈ q.waiting ∧ reachedBy now e.dueAt = true) ∧ e.number = seq := by
      simp only [List.mem_map, DelayQueue.mem_ready]
    rw [hsnd]
    simp only [List.mem_filter, Bool.not_eq_true']
    split_ifs with hready
    · -- its number belongs to one of the released
      refine iff_of_false (by simp) ?_
      rintro ⟨e, ⟨he, hdue⟩, hnumber, -⟩
      obtain ⟨e', ⟨he', hdue'⟩, hnumber'⟩ := hmem.mp hready
      rw [hq.eq_of_number he he' (hnumber.trans hnumber'.symm), hdue'] at hdue
      cases hdue
    · rw [h.messages]
      constructor
      · rintro ⟨e, he, hnumber, hmessage⟩
        refine ⟨e, ⟨he, Bool.eq_false_iff.mpr fun hdue => ?_⟩, hnumber, hmessage⟩
        exact hready (hmem.mpr ⟨e, ⟨he, hdue⟩, hnumber⟩)
      · rintro ⟨e, ⟨he, -⟩, hnumber, hmessage⟩
        exact ⟨e, he, hnumber, hmessage⟩

end RetryQueue

/-- The retry queue is the delay queue, and it has returned its batches. -/
structure RetryRun.Follows (r : RetryRun) (q : Retries) : Prop where
  accounted : q.Accounted
  holds : r.queue.Holds q.waiting
  nextSeq : r.queue.nextSeq = q.arrived.length
  returned : List.Forall₂ (fun ms es => ms.Perm (es.map Delayed.message)) r.returned q.released

namespace RetryRun

variable {r : RetryRun} {q : Retries}

lemma follows_start : start.Follows .empty where
  accounted := DelayQueue.accounted_empty
  holds := RetryQueue.holds_nil_of_empty rfl rfl
  nextSeq := rfl
  returned := .nil

lemma forall₂_concat {α β : Type*} {R : α → β → Prop} {l : List α} {l' : List β} {a : α} {b : β}
    (h : List.Forall₂ R l l') (hab : R a b) : List.Forall₂ R (l ++ [a]) (l' ++ [b]) :=
  List.rel_append h (.cons hab .nil)

lemma Follows.nodup_numbers (h : r.Follows q) : (q.waiting.map Delayed.number).Nodup :=
  List.pairwise_map.mpr (h.accounted.pairwise_waiting.imp ne_of_lt)

lemma Follows.step (h : r.Follows q) (call : RetryCall) : (r.step call).Follows (q.step call) := by
  cases call with
  | add message deliverAt =>
    refine ⟨h.accounted.add message deliverAt, ?_, ?_, h.returned⟩
    · have hfresh : ∀ e ∈ q.waiting, e.number < r.queue.nextSeq := by
        intro e he
        rw [h.nextSeq]
        exact h.accounted.number_lt he
      have hadd := h.holds.add hfresh message deliverAt
      rw [h.nextSeq] at hadd
      exact hadd
    · change r.queue.nextSeq + 1 = (q.arrived ++ [_]).length
      rw [h.nextSeq, List.length_append, List.length_singleton]
  | takeReady now =>
    obtain ⟨hfst, hholds⟩ := h.holds.takeReady h.accounted now
    refine ⟨h.accounted.take _, hholds, ?_, forall₂_concat h.returned ?_⟩
    · exact (RetryQueue.takeMessages_frame _ _).2.trans h.nextSeq
    · rw [hfst]
  | drain order perm =>
    refine ⟨h.accounted.drain, RetryQueue.holds_nil_of_empty rfl rfl, h.nextSeq,
      forall₂_concat h.returned ?_⟩
    exact (perm _).trans (h.holds.perm h.nodup_numbers).2
  | clear =>
    exact ⟨h.accounted.clear, RetryQueue.holds_nil_of_empty rfl rfl, h.nextSeq, h.returned⟩

lemma Follows.foldl (h : r.Follows q) (calls : List RetryCall) :
    (calls.foldl RetryRun.step r).Follows (calls.foldl Retries.step q) := by
  induction calls generalizing r q with
  | nil => exact h
  | cons call calls ih => exact ih (h.step call)

end RetryRun

lemma Retries.arrived_foldl (q : Retries) (calls : List RetryCall) :
    ((calls.foldl step q).arrived.map fun e => (e.dueAt, e.message)) =
      (q.arrived.map fun e => (e.dueAt, e.message)) ++ added calls := by
  induction calls generalizing q with
  | nil => exact (List.append_nil _).symm
  | cons call calls ih =>
    rw [List.foldl_cons, ih]
    cases call with
    | add message deliverAt =>
      change ((q.arrived ++ [_]).map _) ++ _ = _ ++ (deliverAt, message) :: added calls
      rw [List.map_append, List.append_assoc]
      rfl
    | _ => rfl

/-- Over any run the schedule and the messages have the same sequence numbers.  What is
ready is taken by delivery time, ties by arrival, and the rest is kept.  Every message that
was added was returned by one call, or was cleared, or is still held. -/
theorem retryQueue_releases_once (calls : List RetryCall) :
    let r := RetryRun.run calls
    let q := Retries.run calls
    (r.queue.messages.keys.Nodup ∧
      (r.queue.schedule.list.map fun key => (ofLex key).2).Perm r.queue.messages.keys) ∧
    r.queue.Holds q.waiting ∧
    (∀ now, ∃ es : List (Delayed AckDeadline TopicMessage),
      (r.queue.takeReady now).1 = es.map Delayed.message ∧
      (∀ e, e ∈ es ↔ e ∈ q.waiting ∧ e.dueAt.time ≤ now) ∧
      (es.Pairwise fun e e' => e.key < e'.key) ∧
      (r.queue.takeReady now).2.Holds (q.waiting.filter fun e => decide (now < e.dueAt.time))) ∧
    (q.arrived.map fun e => (e.dueAt, e.message)) = Retries.added calls ∧
    q.arrived.map Delayed.number = List.range q.arrived.length ∧
    (q.released.flatten ++ q.cleared ++ q.waiting).Perm q.arrived ∧
    List.Forall₂ (fun ms es => ms.Perm (es.map Delayed.message)) r.returned q.released ∧
    r.queue.len = q.waiting.length ∧ r.queue.nextSeq = (Retries.added calls).length := by
  intro r q
  have h : r.Follows q := RetryRun.follows_start.foldl calls
  have hadded : (q.arrived.map fun e => (e.dueAt, e.message)) = Retries.added calls :=
    Retries.arrived_foldl .empty calls
  refine ⟨⟨r.queue.messages.nodup_keys, h.holds.perm_keys h.nodup_numbers⟩, h.holds, fun now => ?_,
    hadded, h.accounted.numbers, h.accounted.perm, h.returned, h.holds.len h.nodup_numbers, ?_⟩
  · obtain ⟨hfst, hholds⟩ := h.holds.takeReady h.accounted now
    refine ⟨q.ready (reachedBy now), hfst, fun e => ?_, h.accounted.pairwise_ready _, ?_⟩
    · rw [DelayQueue.mem_ready, reachedBy, Bool.not_eq_true', decide_eq_false_iff_not, not_lt]
    · simp only [reachedBy, Bool.not_not] at hholds
      exact hholds
  · rw [h.nextSeq, ← hadded, List.length_map]

end Deltio
