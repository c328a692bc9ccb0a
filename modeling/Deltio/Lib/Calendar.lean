import Mathlib.Algebra.BigOperators.Group.Finset.Basic
import Mathlib.Algebra.Order.BigOperators.Group.Finset
import Mathlib.Data.Nat.Basic
import Mathlib.Tactic.IntervalCases

namespace Deltio.Lib.Calendar

structure Date where
  year : ℕ
  month : ℕ
  day : ℕ
deriving DecidableEq

def isLeap (year : ℕ) : Bool := year % 4 == 0 && (year % 100 != 0 || year % 400 == 0)

def monthLength (year : ℕ) : ℕ → ℕ
  | 2 => if isLeap year then 29 else 28
  | 4 | 6 | 9 | 11 => 30
  | _ => 31

def yearLength (year : ℕ) : ℕ := if isLeap year then 366 else 365

namespace Date

structure Valid (d : Date) : Prop where
  month_pos : 1 ≤ d.month
  month_le : d.month ≤ 12
  day_pos : 1 ≤ d.day
  day_le : d.day ≤ monthLength d.year d.month

def next (d : Date) : Date :=
  if d.day < monthLength d.year d.month then ⟨d.year, d.month, d.day + 1⟩
  else if d.month < 12 then ⟨d.year, d.month + 1, 1⟩
  else ⟨d.year + 1, 1, 1⟩

def number (d : Date) : ℕ :=
  ∑ y ∈ Finset.range d.year, yearLength y +
    ∑ m ∈ Finset.range (d.month - 1), monthLength d.year (m + 1) + (d.day - 1)

end Date

lemma monthLength_bounds (year month : ℕ) :
    28 ≤ monthLength year month ∧ monthLength year month ≤ 31 := by
  unfold monthLength
  split
  · split_ifs
    · decide
    · decide
  all_goals decide

lemma monthLength_pos (year month : ℕ) : 0 < monthLength year month :=
  Nat.lt_of_lt_of_le (by decide) (monthLength_bounds year month).1

lemma february_le (year : ℕ) : monthLength year 2 ≤ 29 := by
  unfold monthLength
  split_ifs
  · decide
  · decide

lemma sum_monthLength (year : ℕ) :
    ∑ m ∈ Finset.range 12, monthLength year (m + 1) = yearLength year := by
  simp only [Finset.sum_range_succ, Finset.sum_range_zero, monthLength, yearLength]
  cases isLeap year <;> rfl

namespace Date

lemma Valid.next {d : Date} (h : d.Valid) : d.next.Valid := by
  unfold Date.next
  split_ifs with hday hmonth
  · exact ⟨h.month_pos, h.month_le, Nat.le_add_left 1 _, hday⟩
  · exact ⟨Nat.le_add_left 1 _, hmonth, le_rfl, monthLength_pos _ _⟩
  · exact ⟨le_rfl, Nat.one_le_of_lt (Nat.lt_succ_self 11), le_rfl, monthLength_pos _ _⟩

/-- The day after has the next number. -/
lemma Valid.number_next {d : Date} (h : d.Valid) : d.next.number = d.number + 1 := by
  have hmonth := h.month_pos
  have hday := h.day_pos
  unfold Date.next number
  split_ifs with hlast hyear
  · dsimp only
    omega
  · have heq : d.day = monthLength d.year d.month := le_antisymm h.day_le (not_lt.mp hlast)
    obtain ⟨k, hk⟩ : ∃ k, d.month = k + 1 := ⟨d.month - 1, by omega⟩
    dsimp only
    rw [heq, hk, Nat.add_sub_cancel, Nat.add_sub_cancel, Finset.sum_range_succ]
    have hpos := monthLength_pos d.year (k + 1)
    omega
  · have heq : d.day = monthLength d.year d.month := le_antisymm h.day_le (not_lt.mp hlast)
    have htwelve : d.month = 12 := le_antisymm h.month_le (not_lt.mp hyear)
    have hsum : ∑ m ∈ Finset.range 11, monthLength d.year (m + 1) + monthLength d.year 12 =
        yearLength d.year := (Finset.sum_range_succ _ 11).symm.trans (sum_monthLength d.year)
    have hpos := monthLength_pos d.year 12
    dsimp only
    rw [heq, htwelve, Finset.sum_range_succ, Nat.sub_self, Finset.sum_range_zero, ← hsum,
      show 12 - 1 = 11 from rfl]
    omega

/-- A day before 1 January is in an earlier year. -/
lemma year_lt_of_number_lt {d : Date} {year : ℕ} (h : d.number < (⟨year, 1, 1⟩ : Date).number) :
    d.year < year := by
  by_contra hyear
  have hsum : ∑ y ∈ Finset.range year, yearLength y ≤ ∑ y ∈ Finset.range d.year, yearLength y :=
    Finset.sum_le_sum_of_subset (Finset.range_subset_range.mpr (not_lt.mp hyear))
  unfold number at h
  rw [Nat.sub_self, Finset.sum_range_zero] at h
  dsimp only at h
  omega

end Date

/-- The days from 1 March of year 0 to 1 March of the given year. -/
def marchStart (year : ℕ) : ℕ := 365 * year + year / 4 - year / 100 + year / 400

/-- The year from March has the February of the next year. -/
lemma marchStart_succ (year : ℕ) :
    marchStart (year + 1) = marchStart year + 337 + monthLength (year + 1) 2 := by
  have hfour : (year + 1) / 4 = year / 4 + _ := Nat.succ_div
  have hcentury : (year + 1) / 100 = year / 100 + _ := Nat.succ_div
  have hera : (year + 1) / 400 = year / 400 + _ := Nat.succ_div
  have hle : year / 100 ≤ year / 4 := by omega
  simp only [Nat.dvd_iff_mod_eq_zero] at hfour hcentury hera
  unfold marchStart monthLength isLeap
  simp only [Bool.and_eq_true, Bool.or_eq_true, beq_iff_eq, bne_iff_ne]
  -- a multiple of 400 is one of 100, and that one of 4, so four cases are left of eight
  by_cases h4 : (year + 1) % 4 = 0
  · by_cases h100 : (year + 1) % 100 = 0
    · by_cases h400 : (year + 1) % 400 = 0
      · rw [if_pos ⟨h4, Or.inr h400⟩]
        rw [if_pos h4] at hfour
        rw [if_pos h100] at hcentury
        rw [if_pos h400] at hera
        omega
      · rw [if_neg fun h => h.2.elim (fun hn => hn h100) h400]
        rw [if_pos h4] at hfour
        rw [if_pos h100] at hcentury
        rw [if_neg h400] at hera
        omega
    · rw [if_pos ⟨h4, Or.inl h100⟩]
      rw [if_pos h4] at hfour
      rw [if_neg h100] at hcentury
      rw [if_neg (by omega)] at hera
      omega
  · rw [if_neg fun h => h4 h.1]
    rw [if_neg h4] at hfour
    rw [if_neg (by omega)] at hcentury
    rw [if_neg (by omega)] at hera
    omega

lemma marchStart_add_era (year era : ℕ) :
    marchStart (year + era * 400) = marchStart year + era * 146097 := by
  unfold marchStart
  omega

lemma marchStart_strictMono : StrictMono marchStart := by
  refine strictMono_nat_of_lt_succ fun year => ?_
  rw [marchStart_succ]
  omega

/-- Every day is in one year from March. -/
lemma exists_marchStart (z : ℕ) : ∃ year, marchStart year ≤ z ∧ z < marchStart (year + 1) := by
  induction z with
  | zero => exact ⟨0, by decide, by decide⟩
  | succ z ih =>
    obtain ⟨year, hle, hlt⟩ := ih
    by_cases hin : z + 1 < marchStart (year + 1)
    · exact ⟨year, by omega, hin⟩
    · have hstep : marchStart (year + 1) < marchStart (year + 1 + 1) :=
        marchStart_strictMono (Nat.lt_succ_self _)
      exact ⟨year + 1, by omega, by omega⟩

/-- The days from 1 March to the first of the month, the months counted from March. -/
def monthStart (month : ℕ) : ℕ := (153 * month + 2) / 5

def marchDate (year month day : ℕ) : Date :=
  if month < 10 then ⟨year, month + 3, day + 1⟩ else ⟨year + 1, month - 9, day + 1⟩

/-- The length of a month counted from March; the last one is February of the next year. -/
def marchLength (year month : ℕ) : ℕ :=
  if month < 10 then monthLength year (month + 3) else monthLength (year + 1) (month - 9)

lemma marchLength_pos (year month : ℕ) : 0 < marchLength year month := by
  unfold marchLength
  split_ifs
  · exact monthLength_pos _ _
  · exact monthLength_pos _ _

/-- Before February the lengths of the months do not depend on the year. -/
lemma monthStart_succ {month : ℕ} (h : month < 11) (year : ℕ) :
    monthStart (month + 1) = monthStart month + marchLength year month := by
  interval_cases month <;> rfl

lemma marchStart_succ_eq (year : ℕ) :
    marchStart (year + 1) = marchStart year + (monthStart 11 + marchLength year 11) := by
  rw [marchStart_succ, Nat.add_assoc]
  rfl

/-- A day number gives the month it is in. -/
lemma month_eq_iff {day month : ℕ} :
    (5 * day + 2) / 153 = month ↔ monthStart month ≤ day ∧ day < monthStart (month + 1) := by
  unfold monthStart
  omega

lemma day_marchDate (year month day : ℕ) : (marchDate year month day).day = day + 1 := by
  unfold marchDate
  split_ifs
  · rfl
  · rfl

lemma monthLength_marchDate (year month day : ℕ) :
    monthLength (marchDate year month day).year (marchDate year month day).month =
      marchLength year month := by
  unfold marchDate marchLength
  split_ifs
  · rfl
  · rfl

section

variable {year month day : ℕ}

lemma next_marchDate (h : day + 1 < marchLength year month) :
    (marchDate year month day).next = marchDate year month (day + 1) := by
  unfold Date.next
  rw [day_marchDate, monthLength_marchDate, if_pos h]
  unfold marchDate
  split_ifs
  · rfl
  · rfl

/-- The months from March turn into each other, December into January of the next year. -/
lemma next_marchDate_month (hmonth : month < 11) (h : day + 1 = marchLength year month) :
    (marchDate year month day).next = marchDate year (month + 1) 0 := by
  unfold Date.next
  rw [day_marchDate, monthLength_marchDate, if_neg (by omega)]
  by_cases hdecember : month < 9
  · have hdate : marchDate year month day = ⟨year, month + 3, day + 1⟩ := if_pos (by omega)
    have hnext : marchDate year (month + 1) 0 = ⟨year, month + 1 + 3, 1⟩ := if_pos (by omega)
    rw [hdate, hnext, if_pos (by dsimp only; omega)]
  · obtain rfl | rfl : month = 9 ∨ month = 10 := by omega
    · rfl
    · rfl

/-- February turns into March of the next year from March. -/
lemma next_marchDate_year (h : day + 1 = marchLength year 11) :
    (marchDate year 11 day).next = marchDate (year + 1) 0 0 := by
  unfold Date.next
  rw [day_marchDate, monthLength_marchDate, if_neg (by omega)]
  rfl

/-- The day is before the next month from March, and before the next year from March. -/
lemma monthStart_add_lt (hmonth : month < 12) (h : day < marchLength year month) :
    monthStart month + day < monthStart (month + 1) ∧
      marchStart year + (monthStart month + day) < marchStart (year + 1) := by
  have hyear := marchStart_succ_eq year
  have hleap : marchLength year 11 ≤ 29 := february_le (year + 1)
  by_cases hfebruary : month < 11
  · have hnext := monthStart_succ hfebruary year
    have hlast : monthStart (month + 1) ≤ monthStart 11 := by
      unfold monthStart
      omega
    omega
  · obtain rfl : month = 11 := by omega
    have hend : monthStart (11 + 1) = monthStart 11 + 30 := rfl
    omega

/-- Every day is the day of a month of a year from March. -/
lemma exists_marchDate (z : ℕ) : ∃ year month day, month < 12 ∧ day < marchLength year month ∧
    z = marchStart year + (monthStart month + day) := by
  obtain ⟨year, hle, hlt⟩ := exists_marchStart z
  have hyear := marchStart_succ_eq year
  have hleap : marchLength year 11 ≤ 29 := february_le (year + 1)
  have hend : monthStart 11 = 337 := rfl
  obtain ⟨hfrom, hto⟩ := month_eq_iff.mp (Eq.refl ((5 * (z - marchStart year) + 2) / 153))
  have hmonth : (5 * (z - marchStart year) + 2) / 153 < 12 := by omega
  generalize (5 * (z - marchStart year) + 2) / 153 = month at hfrom hto hmonth
  refine ⟨year, month, z - marchStart year - monthStart month, hmonth, ?_, by omega⟩
  by_cases hfebruary : month < 11
  · have hnext := monthStart_succ hfebruary year
    omega
  · obtain rfl : month = 11 := by omega
    omega

end

end Deltio.Lib.Calendar
