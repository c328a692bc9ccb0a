import Deltio.Lib.SortedSet
import Deltio.Message

namespace Deltio

open Lib

structure RetryQueue where
  schedule : SortedSet (AckDeadline ×ₗ ℕ)
  messages : HashMap ℕ TopicMessage
  nextSeq : ℕ
deriving DecidableEq

namespace RetryQueue

def new : RetryQueue := ⟨∅, ∅, 0⟩

def add (q : RetryQueue) (message : TopicMessage) (deliverAt : AckDeadline) : RetryQueue where
  schedule := q.schedule.insert (toLex (deliverAt, q.nextSeq))
  messages := q.messages.insert q.nextSeq message
  nextSeq := q.nextSeq + 1

def takeMessages : List (AckDeadline ×ₗ ℕ) → RetryQueue → List TopicMessage × RetryQueue
  | [], q => ([], q)
  | key :: keys, q =>
    match q.messages.get (ofLex key).2 with
    | some message =>
      let r := takeMessages keys { q with messages := q.messages.remove (ofLex key).2 }
      (message :: r.1, r.2)
    | none => takeMessages keys q

def takeReady (q : RetryQueue) (now : Instant) : List TopicMessage × RetryQueue :=
  let popped := q.schedule.popWhile fun key => !decide (now < (ofLex key).1.time)
  takeMessages popped.1 { q with schedule := popped.2 }

def len (q : RetryQueue) : ℕ := q.messages.len

def clear (q : RetryQueue) : RetryQueue := { q with schedule := ∅, messages := ∅ }

/-- Removes and returns all messages; `order` is the iteration order of the map. -/
def drain (q : RetryQueue) (order : List TopicMessage → List TopicMessage) :
    List TopicMessage × RetryQueue :=
  (order q.messages.values, q.clear)

def held (q : RetryQueue) : List TopicMessage := q.messages.values

/-- The next sequence number is not in use. -/
def Fresh (q : RetryQueue) : Prop := ∀ seq, q.nextSeq ≤ seq → q.messages.get seq = none

@[simp] lemma held_new : new.held = [] := rfl

@[simp] lemma held_clear (q : RetryQueue) : q.clear.held = [] := rfl

lemma fresh_new : new.Fresh := fun _ _ => rfl

lemma Fresh.clear (q : RetryQueue) : q.clear.Fresh := fun _ _ => rfl

lemma Fresh.add {q : RetryQueue} (h : q.Fresh) (message : TopicMessage) (deliverAt : AckDeadline) :
    (q.add message deliverAt).Fresh := by
  intro seq hs
  have hs : q.nextSeq + 1 ≤ seq := hs
  rw [RetryQueue.add, HashMap.get_insert, if_neg (by omega)]
  exact h seq (by omega)

lemma held_add {q : RetryQueue} (h : q.Fresh) (message : TopicMessage) (deliverAt : AckDeadline) :
    (q.add message deliverAt).held = message :: q.held :=
  HashMap.values_insert (h q.nextSeq le_rfl) message

lemma perm_takeMessages (keys : List (AckDeadline ×ₗ ℕ)) (q : RetryQueue) :
    q.held.Perm ((takeMessages keys q).1 ++ (takeMessages keys q).2.held) := by
  induction keys generalizing q with
  | nil => exact List.Perm.refl _
  | cons key keys ih =>
    unfold takeMessages
    split
    · next message h =>
      have hrest := ih { q with messages := q.messages.remove (ofLex key).2 }
      exact (HashMap.values_perm_remove h).trans (hrest.cons message)
    · exact ih q

lemma perm_takeReady (q : RetryQueue) (now : Instant) :
    q.held.Perm ((q.takeReady now).1 ++ (q.takeReady now).2.held) :=
  perm_takeMessages _ { q with schedule := (q.schedule.popWhile _).2 }

lemma Fresh.takeMessages {q : RetryQueue} (h : q.Fresh) (keys : List (AckDeadline ×ₗ ℕ)) :
    (RetryQueue.takeMessages keys q).2.Fresh := by
  induction keys generalizing q with
  | nil => exact h
  | cons key keys ih =>
    unfold RetryQueue.takeMessages
    split
    · refine ih fun seq hs => ?_
      rw [HashMap.get_remove]
      split_ifs
      · rfl
      · exact h seq hs
    · exact ih h

lemma Fresh.takeReady {q : RetryQueue} (h : q.Fresh) (now : Instant) :
    (q.takeReady now).2.Fresh :=
  Fresh.takeMessages (q := { q with schedule := (q.schedule.popWhile _).2 }) h _

/-- No entry of the schedule has a sequence number that is still to come. -/
def Timely (q : RetryQueue) : Prop := ∀ d seq, toLex (d, seq) ∈ q.schedule → seq < q.nextSeq

/-- The message waits under the sequence number, and for one delivery time only. -/
structure Waits (q : RetryQueue) (seq : ℕ) (m : TopicMessage) (deliverAt : AckDeadline) : Prop where
  message : q.messages.get seq = some m
  due : ∀ d, toLex (d, seq) ∈ q.schedule → d = deliverAt

lemma timely_new : new.Timely := fun _ _ h => absurd h (SortedSet.notMem_empty _)

lemma Timely.clear (q : RetryQueue) : q.clear.Timely :=
  fun _ _ h => absurd h (SortedSet.notMem_empty _)

lemma Timely.add {q : RetryQueue} (h : q.Timely) (m : TopicMessage) (deliverAt : AckDeadline) :
    (q.add m deliverAt).Timely := by
  intro d seq hd
  rcases (SortedSet.mem_insert _ _ _).mp hd with hd | hd
  · have hseq : seq = q.nextSeq := (Prod.ext_iff.mp (toLex.injective hd)).2
    exact hseq ▸ Nat.lt_succ_self _
  · exact (h d seq hd).trans (Nat.lt_succ_self _)

lemma takeMessages_frame (keys : List (AckDeadline ×ₗ ℕ)) (q : RetryQueue) :
    (takeMessages keys q).2.schedule = q.schedule ∧ (takeMessages keys q).2.nextSeq = q.nextSeq := by
  induction keys generalizing q with
  | nil => exact ⟨rfl, rfl⟩
  | cons key keys ih =>
    unfold takeMessages
    split
    · exact ih _
    · exact ih q

lemma Timely.takeReady {q : RetryQueue} (h : q.Timely) (now : Instant) :
    (q.takeReady now).2.Timely := by
  intro d seq hd
  obtain ⟨hschedule, hseq⟩ := takeMessages_frame
    (q.schedule.popWhile fun key => !decide (now < (ofLex key).1.time)).1
    { q with schedule := (q.schedule.popWhile fun key => !decide (now < (ofLex key).1.time)).2 }
  change toLex (d, seq) ∈ (RetryQueue.takeMessages _ _).2.schedule at hd
  rw [hschedule] at hd
  change seq < (RetryQueue.takeMessages _ _).2.nextSeq
  rw [hseq]
  exact h d seq (SortedSet.mem_of_mem_popWhile_snd hd)

lemma waits_add {q : RetryQueue} (h : q.Timely) (m : TopicMessage) (deliverAt : AckDeadline) :
    (q.add m deliverAt).Waits q.nextSeq m deliverAt where
  message := HashMap.get_insert_self _ _ _
  due := by
    intro d hd
    rcases (SortedSet.mem_insert _ _ _).mp hd with hd | hd
    · exact (Prod.ext_iff.mp (toLex.injective hd)).1
    · exact absurd (h d _ hd) (lt_irrefl _)

lemma Waits.add {q : RetryQueue} {seq : ℕ} {m : TopicMessage} {deliverAt : AckDeadline}
    (h : q.Waits seq m deliverAt) (hf : q.Fresh) (m' : TopicMessage) (d' : AckDeadline) :
    (q.add m' d').Waits seq m deliverAt := by
  have hne : seq ≠ q.nextSeq := by
    rintro rfl
    have hnone := hf q.nextSeq le_rfl
    rw [h.message] at hnone
    cases hnone
  refine ⟨?_, fun d hd => ?_⟩
  · change (q.messages.insert q.nextSeq m').get seq = some m
    rw [HashMap.get_insert, if_neg hne, h.message]
  · rcases (SortedSet.mem_insert _ _ _).mp hd with hd | hd
    · exact absurd (Prod.ext_iff.mp (toLex.injective hd)).2 hne
    · exact h.due d hd

lemma get_takeMessages {keys : List (AckDeadline ×ₗ ℕ)} {seq : ℕ}
    (h : ∀ key ∈ keys, (ofLex key).2 ≠ seq) (q : RetryQueue) :
    (takeMessages keys q).2.messages.get seq = q.messages.get seq := by
  induction keys generalizing q with
  | nil => rfl
  | cons key keys ih =>
    have hrest := ih fun key' hkey' => h key' (List.mem_cons_of_mem _ hkey')
    unfold takeMessages
    split
    · dsimp only
      rw [hrest, HashMap.get_remove, if_neg (Ne.symm (h key List.mem_cons_self))]
    · exact hrest q

/-- A message is not taken before it is due. -/
lemma Waits.takeReady {q : RetryQueue} {seq : ℕ} {m : TopicMessage} {deliverAt : AckDeadline}
    (h : q.Waits seq m deliverAt) {now : Instant} (hnow : now < deliverAt.time) :
    (q.takeReady now).2.Waits seq m deliverAt := by
  set popped := q.schedule.popWhile fun key => !decide (now < (ofLex key).1.time) with hpopped
  have hkeys : ∀ key ∈ popped.1, (ofLex key).2 ≠ seq := by
    intro key hkey hseq
    obtain ⟨hmem, hpassed⟩ := SortedSet.mem_popWhile_fst hkey
    have hdue : (ofLex key).1 = deliverAt := h.due (ofLex key).1 (hseq ▸ hmem)
    simp [hdue, hnow] at hpassed
  obtain ⟨hschedule, -⟩ := takeMessages_frame popped.1 { q with schedule := popped.2 }
  refine ⟨?_, fun d hd => ?_⟩
  · change (RetryQueue.takeMessages popped.1 _).2.messages.get seq = some m
    rw [get_takeMessages hkeys]
    exact h.message
  · change toLex (d, seq) ∈ (RetryQueue.takeMessages popped.1 _).2.schedule at hd
    rw [hschedule] at hd
    exact h.due d (SortedSet.mem_of_mem_popWhile_snd hd)

end RetryQueue

end Deltio
