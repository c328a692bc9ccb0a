import Mathlib.Data.List.DropRight

namespace Deltio.Lib.Utf8

/-- The number of bytes of a text.  An offset inside a character cuts nothing off. -/
def len : List Char → ℕ
  | [] => 0
  | c :: s => c.utf8Size + len s

def getFrom : ℕ → List Char → Option (List Char)
  | 0, s => some s
  | _ + 1, [] => none
  | n + 1, c :: s => if c.utf8Size ≤ n + 1 then getFrom (n + 1 - c.utf8Size) s else none

def getTo : ℕ → List Char → Option (List Char)
  | 0, _ => some []
  | _ + 1, [] => none
  | n + 1, c :: s =>
    if c.utf8Size ≤ n + 1 then (getTo (n + 1 - c.utf8Size) s).map (c :: ·) else none

def find (c : Char) : List Char → Option ℕ
  | [] => none
  | d :: s => if d = c then some 0 else (find c s).map (d.utf8Size + ·)

def trimMatches (c : Char) (s : List Char) : List Char :=
  (s.dropWhile (· == c)).rdropWhile (· == c)

variable {s t p q : List Char} {c : Char} {n : ℕ}

@[simp] lemma len_nil : len [] = 0 := rfl

@[simp] lemma len_cons (c : Char) (s : List Char) : len (c :: s) = c.utf8Size + len s := rfl

@[simp] lemma len_append (s t : List Char) : len (s ++ t) = len s + len t := by
  induction s with
  | nil => simp
  | cons c s ih => simp only [List.cons_append, len_cons, ih, Nat.add_assoc]

lemma len_pos (h : s ≠ []) : 0 < len s := by
  cases s with
  | nil => exact absurd rfl h
  | cons c s => exact Nat.add_pos_left c.utf8Size_pos _

/-- Two beginnings of a text of the same length are the same. -/
lemma eq_of_append_eq (h : p ++ s = q ++ t) (hlen : len p = len q) : p = q ∧ s = t := by
  induction p generalizing q with
  | nil =>
    have hq : q = [] := by
      by_contra hne
      exact (len_pos hne).ne hlen
    subst hq
    exact ⟨rfl, h⟩
  | cons c p ih =>
    cases q with
    | nil => exact absurd hlen (len_pos (List.cons_ne_nil c p)).ne'
    | cons d q =>
      obtain ⟨rfl, htail⟩ := List.cons.inj h
      obtain ⟨rfl, rfl⟩ := ih htail (Nat.add_left_cancel hlen)
      exact ⟨rfl, rfl⟩

/-- The longer of two beginnings of a text goes on from the shorter one. -/
lemma exists_of_append_eq (h : p ++ s = q ++ t) (hlen : len p ≤ len q) :
    ∃ m, q = p ++ m ∧ s = m ++ t := by
  rcases List.append_eq_append_iff.mp h with ⟨m, hq, hs⟩ | ⟨m, hp, ht⟩
  · exact ⟨m, hq, hs⟩
  · have hm : m = [] := by
      by_contra hne
      have hpos := len_pos hne
      rw [hp, len_append] at hlen
      omega
    subst hm
    rw [List.append_nil] at hp
    exact ⟨[], by rw [hp, List.append_nil], ht.symm⟩

lemma getFrom_cons (c : Char) (s : List Char) (n : ℕ) :
    getFrom (c.utf8Size + n) (c :: s) = getFrom n s := by
  obtain ⟨k, hk⟩ := Nat.exists_eq_add_of_lt (Nat.add_pos_left c.utf8Size_pos n)
  have hsucc : c.utf8Size + n = k + 1 := by omega
  rw [hsucc, getFrom, if_pos (by omega), ← hsucc, Nat.add_sub_cancel_left]

lemma getFrom_append (p t : List Char) : getFrom (len p) (p ++ t) = some t := by
  induction p with
  | nil => rw [len_nil, List.nil_append, getFrom]
  | cons c p ih => rw [len_cons, List.cons_append, getFrom_cons, ih]

lemma getFrom_eq_some : getFrom n s = some t ↔ ∃ p, s = p ++ t ∧ len p = n := by
  constructor
  · intro h
    induction s generalizing n with
    | nil =>
      cases n with
      | zero => exact ⟨[], by simpa [getFrom] using h, rfl⟩
      | succ n => simp [getFrom] at h
    | cons c s ih =>
      cases n with
      | zero => exact ⟨[], by simpa [getFrom] using h, rfl⟩
      | succ n =>
        rw [getFrom] at h
        split_ifs at h with hle
        obtain ⟨p, rfl, hp⟩ := ih h
        exact ⟨c :: p, rfl, by rw [len_cons, hp, Nat.add_sub_cancel' hle]⟩
  · rintro ⟨p, rfl, rfl⟩
    exact getFrom_append p t

lemma getTo_cons (c : Char) (s : List Char) (n : ℕ) :
    getTo (c.utf8Size + n) (c :: s) = (getTo n s).map (c :: ·) := by
  obtain ⟨k, hk⟩ := Nat.exists_eq_add_of_lt (Nat.add_pos_left c.utf8Size_pos n)
  have hsucc : c.utf8Size + n = k + 1 := by omega
  rw [hsucc, getTo, if_pos (by omega), ← hsucc, Nat.add_sub_cancel_left]

lemma getTo_append (p t : List Char) : getTo (len p) (p ++ t) = some p := by
  induction p with
  | nil => rw [len_nil, List.nil_append, getTo]
  | cons c p ih =>
    rw [len_cons, List.cons_append, getTo_cons, ih]
    rfl

lemma find_eq_some : find c s = some n ↔ ∃ p t, s = p ++ c :: t ∧ c ∉ p ∧ len p = n := by
  constructor
  · intro h
    induction s generalizing n with
    | nil => simp [find] at h
    | cons d s ih =>
      rw [find] at h
      split_ifs at h with hd
      · subst hd
        exact ⟨[], s, rfl, List.not_mem_nil, Option.some.inj h⟩
      · obtain ⟨k, hk, rfl⟩ := Option.map_eq_some_iff.mp h
        obtain ⟨p, t, rfl, hp, rfl⟩ := ih hk
        refine ⟨d :: p, t, rfl, ?_, rfl⟩
        rintro (_ | ⟨_, hmem⟩)
        · exact hd rfl
        · exact hp hmem
  · rintro ⟨p, t, rfl, hp, rfl⟩
    induction p with
    | nil => rw [List.nil_append, find, if_pos rfl, len_nil]
    | cons d p ih =>
      rw [List.mem_cons, not_or] at hp
      rw [List.cons_append, find, if_neg (Ne.symm hp.1), ih hp.2]
      rfl

lemma trimMatches_of_notMem (h : c ∉ s) : trimMatches c s = s := by
  have hneg : ∀ d ∈ s, ¬ (d == c) = true := by
    intro d hd heq
    exact h (eq_of_beq heq ▸ hd)
  have hdrop : s.dropWhile (· == c) = s := by
    cases s with
    | nil => rfl
    | cons d s => exact List.dropWhile_cons_of_neg (hneg d List.mem_cons_self)
  rw [trimMatches, hdrop, List.rdropWhile_eq_self_iff]
  intro hne
  exact hneg _ (List.getLast_mem hne)

/-- Both ends are trimmed already. -/
lemma trimEnds_trimEnds {α : Type*} (p : α → Bool) (l : List α) :
    (((l.dropWhile p).rdropWhile p).dropWhile p).rdropWhile p = (l.dropWhile p).rdropWhile p := by
  have hhead : ((l.dropWhile p).rdropWhile p).dropWhile p = (l.dropWhile p).rdropWhile p := by
    rw [List.dropWhile_eq_self_iff]
    intro hpos
    have hpre := List.rdropWhile_prefix p (l.dropWhile p)
    rw [hpre.getElem hpos]
    exact List.dropWhile_get_zero_not p l (hpos.trans_le hpre.length_le)
  rw [hhead, List.rdropWhile_idempotent]

lemma length_le_len (chars : List Char) : chars.length ≤ len chars := by
  induction chars with
  | nil => exact le_rfl
  | cons c chars ih =>
    have hpos := c.utf8Size_pos
    rw [List.length_cons, len_cons]
    omega

/-- A text has as many bytes as characters only if each is one byte. -/
lemma ascii_of_len_eq {chars : List Char} (h : len chars = chars.length) :
    ∀ c ∈ chars, c.toNat < 128 := by
  induction chars with
  | nil => simp
  | cons c chars ih =>
    have hpos := c.utf8Size_pos
    have hle := length_le_len chars
    rw [List.length_cons, len_cons] at h
    have hone : c.utf8Size = 1 := by omega
    rw [Char.utf8Size_eq_one_iff, UInt32.le_iff_toNat_le] at hone
    have hascii : c.toNat ≤ 127 := hone
    rw [List.forall_mem_cons]
    exact ⟨by omega, ih (by omega)⟩

lemma length_flatMap_utf8EncodeChar (chars : List Char) :
    (chars.flatMap String.utf8EncodeChar).length = len chars := by
  induction chars with
  | nil => rfl
  | cons c chars ih =>
    rw [List.flatMap_cons, List.length_append, ih, String.length_utf8EncodeChar, len_cons]

end Deltio.Lib.Utf8
