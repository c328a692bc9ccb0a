import Mathlib.Data.List.Sort
import Mathlib.Data.Prod.Lex
import Mathlib.Order.Lattice

namespace Deltio.Lib

structure Delayed (T M : Type*) where
  dueAt : T
  number : ℕ
  message : M

/-- What waits, in the order of arrival, and what happened so far: the arrivals, the
batches that were released, and what was thrown away. -/
structure DelayQueue (T M : Type*) where
  waiting : List (Delayed T M)
  arrived : List (Delayed T M)
  released : List (List (Delayed T M))
  cleared : List (Delayed T M)

variable {T M : Type*}

def Delayed.key (e : Delayed T M) : T ×ₗ ℕ := toLex (e.dueAt, e.number)

namespace DelayQueue

def empty : DelayQueue T M := ⟨[], [], [], []⟩

def add (q : DelayQueue T M) (m : M) (dueAt : T) : DelayQueue T M :=
  { q with
    waiting := q.waiting ++ [⟨dueAt, q.arrived.length, m⟩]
    arrived := q.arrived ++ [⟨dueAt, q.arrived.length, m⟩] }

/-- The messages that are due, in the order of their release. -/
def ready [LinearOrder T] (q : DelayQueue T M) (due : T → Bool) : List (Delayed T M) :=
  (q.waiting.filter fun e => due e.dueAt).insertionSort fun e e' => e.key ≤ e'.key

def take [LinearOrder T] (q : DelayQueue T M) (due : T → Bool) : DelayQueue T M :=
  { q with
    waiting := q.waiting.filter fun e => !due e.dueAt
    released := q.released ++ [q.ready due] }

def drain (q : DelayQueue T M) : DelayQueue T M :=
  { q with waiting := [], released := q.released ++ [q.waiting] }

def clear (q : DelayQueue T M) : DelayQueue T M :=
  { q with waiting := [], cleared := q.cleared ++ q.waiting }

/-- Arrivals are numbered, those that wait are still in their order, and every arrival is
released once, thrown away or still waiting. -/
structure Accounted (q : DelayQueue T M) : Prop where
  numbers : q.arrived.map Delayed.number = List.range q.arrived.length
  sublist : q.waiting.Sublist q.arrived
  perm : (q.released.flatten ++ q.cleared ++ q.waiting).Perm q.arrived

lemma accounted_empty : (empty : DelayQueue T M).Accounted := ⟨rfl, .refl [], .refl []⟩

section

variable {q : DelayQueue T M}

lemma Accounted.pairwise_arrived (h : q.Accounted) :
    q.arrived.Pairwise fun e e' => e.number < e'.number := by
  rw [← List.pairwise_map, h.numbers]
  exact List.pairwise_lt_range

/-- The numbers of what waits are different, and all have been used. -/
lemma Accounted.pairwise_waiting (h : q.Accounted) :
    q.waiting.Pairwise fun e e' => e.number < e'.number :=
  h.pairwise_arrived.sublist h.sublist

lemma Accounted.nodup_arrived (h : q.Accounted) : q.arrived.Nodup := by
  refine List.Nodup.of_map Delayed.number ?_
  rw [h.numbers]
  exact List.nodup_range

lemma Accounted.number_lt (h : q.Accounted) {e : Delayed T M} (he : e ∈ q.waiting) :
    e.number < q.arrived.length := by
  have hmem : e.number ∈ q.arrived.map Delayed.number := List.mem_map_of_mem (h.sublist.mem he)
  rw [h.numbers] at hmem
  exact List.mem_range.mp hmem

lemma Accounted.eq_of_number (h : q.Accounted) {e e' : Delayed T M} (he : e ∈ q.waiting)
    (he' : e' ∈ q.waiting) (hnumber : e.number = e'.number) : e = e' := by
  have hnodup : (q.waiting.map Delayed.number).Nodup :=
    List.pairwise_map.mpr (h.pairwise_waiting.imp ne_of_lt)
  exact List.inj_on_of_nodup_map hnodup he he' hnumber

lemma Accounted.add (h : q.Accounted) (m : M) (dueAt : T) : (q.add m dueAt).Accounted where
  numbers := by
    rw [DelayQueue.add, List.map_append, List.length_append, h.numbers, List.length_singleton,
      List.range_succ]
    rfl
  sublist := h.sublist.append (.refl _)
  perm := by
    have hperm := h.perm.append_right [⟨dueAt, q.arrived.length, m⟩]
    rwa [List.append_assoc] at hperm

lemma Accounted.drain (h : q.Accounted) : q.drain.Accounted where
  numbers := h.numbers
  sublist := List.nil_sublist _
  perm := by
    rw [DelayQueue.drain, List.flatten_concat, List.append_nil]
    refine List.Perm.trans ?_ h.perm
    rw [List.append_assoc, List.append_assoc]
    exact List.Perm.append_left _ List.perm_append_comm

lemma Accounted.clear (h : q.Accounted) : q.clear.Accounted where
  numbers := h.numbers
  sublist := List.nil_sublist _
  perm := by
    rw [DelayQueue.clear, List.append_nil, ← List.append_assoc]
    exact h.perm

variable [LinearOrder T]

lemma perm_ready (q : DelayQueue T M) (due : T → Bool) :
    (q.ready due).Perm (q.waiting.filter fun e => due e.dueAt) :=
  List.perm_insertionSort _ _

lemma mem_ready {due : T → Bool} {e : Delayed T M} :
    e ∈ q.ready due ↔ e ∈ q.waiting ∧ due e.dueAt = true := by
  rw [(q.perm_ready due).mem_iff, List.mem_filter]

/-- Different numbers make the order of release strict. -/
lemma Accounted.pairwise_ready (h : q.Accounted) (due : T → Bool) :
    (q.ready due).Pairwise fun e e' => e.key < e'.key := by
  have hsorted : (q.ready due).Pairwise fun e e' => e.key ≤ e'.key := by
    have htotal : Std.Total fun e e' : Delayed T M => e.key ≤ e'.key := ⟨fun e e' => le_total _ _⟩
    have htrans : IsTrans (Delayed T M) fun e e' => e.key ≤ e'.key := ⟨fun _ _ _ => le_trans⟩
    exact List.pairwise_insertionSort _ _
  have hnodup : (q.ready due).Nodup := by
    rw [(q.perm_ready due).nodup_iff]
    exact (h.nodup_arrived.sublist h.sublist).filter _
  refine (hsorted.and hnodup).imp_of_mem fun {e e'} he he' hle => ?_
  refine lt_of_le_of_ne hle.1 fun hkey => ?_
  have hnumber : e.number = e'.number := (Prod.ext_iff.mp (toLex.injective hkey)).2
  exact hle.2 (h.eq_of_number (mem_ready.mp he).1 (mem_ready.mp he').1 hnumber)

lemma Accounted.take (h : q.Accounted) (due : T → Bool) : (q.take due).Accounted where
  numbers := h.numbers
  sublist := List.filter_sublist.trans h.sublist
  perm := by
    have hsplit : (q.ready due ++ q.waiting.filter fun e => !due e.dueAt).Perm q.waiting :=
      ((q.perm_ready due).append_right _).trans (List.filter_append_perm _ _)
    rw [DelayQueue.take, List.flatten_concat]
    refine List.Perm.trans ?_ h.perm
    rw [List.append_assoc, List.append_assoc, List.append_assoc]
    refine List.Perm.append_left _ (List.Perm.trans ?_ (hsplit.append_left q.cleared))
    rw [← List.append_assoc, ← List.append_assoc]
    exact List.Perm.append_right _ List.perm_append_comm

end

end DelayQueue

end Deltio.Lib
