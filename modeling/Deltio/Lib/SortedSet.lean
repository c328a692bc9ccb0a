import Mathlib.Data.List.Sort
import Mathlib.Data.List.TakeWhile
import Mathlib.Data.Prod.Lex
import Mathlib.Order.Lattice

namespace Deltio.Lib

/-- A finite set kept in increasing order. -/
structure SortedSet (α : Type*) [LinearOrder α] where
  list : List α
  sorted : list.Pairwise (· < ·)

namespace SortedSet

variable {α : Type*} [LinearOrder α]

instance : Membership α (SortedSet α) := ⟨fun s a => a ∈ s.list⟩

instance : EmptyCollection (SortedSet α) := ⟨⟨[], List.Pairwise.nil⟩⟩

instance : DecidableEq (SortedSet α) := fun s t =>
  decidable_of_iff (s.list = t.list) (by cases s; cases t; simp)

/-- Places `a` before the first larger element, unless it is there already. -/
def insertList (a : α) : List α → List α
  | [] => [a]
  | b :: l => if a < b then a :: b :: l else if a = b then b :: l else b :: insertList a l

lemma mem_insertList (a b : α) (l : List α) : b ∈ insertList a l ↔ b = a ∨ b ∈ l := by
  induction l with
  | nil => simp [insertList]
  | cons c l ih =>
    unfold insertList
    split_ifs with hlt heq
    · simp
    · simp [heq]
    · simp only [List.mem_cons, ih]
      tauto

lemma sorted_insertList (a : α) {l : List α} (h : l.Pairwise (· < ·)) :
    (insertList a l).Pairwise (· < ·) := by
  induction l with
  | nil => simp [insertList]
  | cons b l ih =>
    obtain ⟨hb, hl⟩ := List.pairwise_cons.mp h
    unfold insertList
    split_ifs with hlt heq
    · refine List.pairwise_cons.mpr ⟨?_, h⟩
      intro c hc
      rcases List.mem_cons.mp hc with rfl | hc
      · exact hlt
      · exact hlt.trans (hb c hc)
    · exact h
    · refine List.pairwise_cons.mpr ⟨?_, ih hl⟩
      intro c hc
      rcases (mem_insertList a c l).mp hc with rfl | hc
      · exact lt_of_le_of_ne (le_of_not_gt hlt) (Ne.symm heq)
      · exact hb c hc

def insert (s : SortedSet α) (a : α) : SortedSet α :=
  ⟨insertList a s.list, sorted_insertList a s.sorted⟩

def remove (s : SortedSet α) (a : α) : SortedSet α :=
  ⟨s.list.erase a, s.sorted.sublist List.erase_sublist⟩

def first (s : SortedSet α) : Option α := s.list.head?

def popFirst (s : SortedSet α) : Option (α × SortedSet α) := s.first.map fun a => (a, s.remove a)

/-- Pops elements off the front as long as `p` holds of the first one. -/
def popWhile (p : α → Bool) (s : SortedSet α) : List α × SortedSet α :=
  (s.list.takeWhile p, ⟨s.list.dropWhile p, s.sorted.sublist (List.dropWhile_sublist p)⟩)

lemma nodup (s : SortedSet α) : s.list.Nodup := s.sorted.imp ne_of_lt

@[simp] lemma notMem_empty (a : α) : a ∉ (∅ : SortedSet α) := List.not_mem_nil

@[simp] lemma mem_insert (s : SortedSet α) (a b : α) : b ∈ s.insert a ↔ b = a ∨ b ∈ s :=
  mem_insertList a b s.list

@[simp] lemma mem_remove (s : SortedSet α) (a b : α) : b ∈ s.remove a ↔ b ≠ a ∧ b ∈ s :=
  s.nodup.mem_erase_iff

variable {s : SortedSet α} {a b : α} {l : List α}

lemma mem_of_list_eq_cons (h : s.list = a :: l) : a ∈ s := by
  change a ∈ s.list
  rw [h]
  exact List.mem_cons_self

lemma list_remove_of_list_eq_cons (h : s.list = a :: l) : (s.remove a).list = l := by
  change s.list.erase a = l
  rw [h, List.erase_cons_head]

lemma le_of_list_eq_cons (h : s.list = a :: l) (hb : b ∈ s) : a ≤ b := by
  have hs := s.sorted
  rw [h, List.pairwise_cons] at hs
  have hb' : b ∈ s.list := hb
  rw [h, List.mem_cons] at hb'
  rcases hb' with rfl | hb'
  · exact le_rfl
  · exact (hs.1 b hb').le

lemma popFirst_of_list_eq_cons (h : s.list = a :: l) : s.popFirst = some (a, s.remove a) := by
  rw [popFirst, first, h]
  rfl

lemma mem_popWhile_fst {p : α → Bool} (h : a ∈ (s.popWhile p).1) : a ∈ s ∧ p a = true :=
  ⟨(List.takeWhile_sublist p).mem h, List.mem_takeWhile_imp h⟩

lemma mem_of_mem_popWhile_snd {p : α → Bool} (h : a ∈ (s.popWhile p).2) : a ∈ s :=
  (List.dropWhile_sublist p).mem h

section

variable {p : α → Bool} (hp : ∀ a b, a ≤ b → p b = true → p a = true)

include hp

lemma mem_takeWhile_of_sorted (hl : l.Pairwise (· < ·)) :
    a ∈ l.takeWhile p ↔ a ∈ l ∧ p a = true := by
  induction l with
  | nil => simp
  | cons b l ih =>
    obtain ⟨hb, hl⟩ := List.pairwise_cons.mp hl
    by_cases hpb : p b = true
    · rw [List.takeWhile_cons_of_pos hpb, List.mem_cons, List.mem_cons, ih hl]
      constructor
      · rintro (rfl | ⟨ha, hpa⟩)
        · exact ⟨.inl rfl, hpb⟩
        · exact ⟨.inr ha, hpa⟩
      · rintro ⟨rfl | ha, hpa⟩
        · exact .inl rfl
        · exact .inr ⟨ha, hpa⟩
    · rw [List.takeWhile_cons_of_neg hpb]
      refine iff_of_false List.not_mem_nil ?_
      rintro ⟨ha, hpa⟩
      rcases List.mem_cons.mp ha with rfl | ha
      · exact hpb hpa
      · exact hpb (hp b a (hb a ha).le hpa)

lemma mem_dropWhile_of_sorted (hl : l.Pairwise (· < ·)) :
    a ∈ l.dropWhile p ↔ a ∈ l ∧ p a = false := by
  induction l with
  | nil => simp
  | cons b l ih =>
    obtain ⟨hb, hl⟩ := List.pairwise_cons.mp hl
    by_cases hpb : p b = true
    · rw [List.dropWhile_cons_of_pos hpb, ih hl, List.mem_cons]
      refine and_congr_left fun hpa => (or_iff_right ?_).symm
      rintro rfl
      rw [hpb] at hpa
      cases hpa
    · rw [List.dropWhile_cons_of_neg hpb]
      refine (and_iff_left_of_imp fun ha => ?_).symm
      rw [← Bool.not_eq_true]
      intro hpa
      rcases List.mem_cons.mp ha with rfl | ha
      · exact hpb hpa
      · exact hpb (hp b a (hb a ha).le hpa)

/-- A test that holds below whatever it holds of splits the set. -/
lemma mem_popWhile_iff :
    (a ∈ (s.popWhile p).1 ↔ a ∈ s ∧ p a = true) ∧ (a ∈ (s.popWhile p).2 ↔ a ∈ s ∧ p a = false) :=
  ⟨mem_takeWhile_of_sorted hp s.sorted, mem_dropWhile_of_sorted hp s.sorted⟩

end

/-- Nothing is popped when the first element fails the test. -/
lemma popWhile_of_first {p : α → Bool} (h : ∀ a, s.first = some a → p a = false) :
    s.popWhile p = ([], s) := by
  obtain ⟨l, hl⟩ := s
  cases l with
  | nil => rfl
  | cons a l =>
    have ha : ¬ p a = true := by simp [h a rfl]
    unfold popWhile
    congr 1
    · exact List.takeWhile_cons_of_neg ha
    · congr 1
      exact List.dropWhile_cons_of_neg ha

/-- What holds above whatever it holds of holds of all elements if it does of the first. -/
lemma forall_mem_iff_first {p : α → Prop} (hp : ∀ a b, a ≤ b → p a → p b) :
    (∀ a ∈ s, p a) ↔ ∀ a, s.first = some a → p a := by
  obtain ⟨l, hl⟩ := s
  cases l with
  | nil => exact iff_of_true (fun a ha => absurd ha (notMem_empty a)) fun a ha => by cases ha
  | cons b l =>
    constructor
    · rintro hall a ⟨⟩
      exact hall _ List.mem_cons_self
    · intro hfirst a ha
      exact hp b a (le_of_list_eq_cons rfl ha) (hfirst b rfl)

lemma popWhile_cons {p : α → Bool} (h : s.list = a :: l) (hp : p a = true) :
    s.popWhile p = (a :: ((s.remove a).popWhile p).1, ((s.remove a).popWhile p).2) := by
  have hl := list_remove_of_list_eq_cons h
  unfold popWhile
  simp only [hl, h, List.takeWhile_cons_of_pos hp, List.dropWhile_cons_of_pos hp]

end SortedSet

end Deltio.Lib
