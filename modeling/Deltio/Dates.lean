import Deltio.Lib.Rfc3339
import Deltio.Time
import Mathlib.Algebra.Order.Field.Basic
import Mathlib.Tactic.Linarith

namespace Deltio

open Lib Calendar Rfc3339

def yearOfEra (doe : ℕ) : ℕ := (doe - doe / 1460 + doe / 36524 - doe / 146096) / 365

lemma yearOfEra_mono {doe doe' : ℕ} (h : doe ≤ doe') (hera : doe' < 146097) :
    yearOfEra doe ≤ yearOfEra doe' := by
  unfold yearOfEra
  refine Nat.div_le_div_right ?_
  omega

/-- The corrections are right on the first and on the last day of each year. -/
lemma yearOfEra_ends (y : ℕ) (hy : y < 400) :
    yearOfEra (marchStart y) = y ∧ yearOfEra (marchStart (y + 1) - 1) = y := by
  have hall : ∀ y : Fin 400, yearOfEra (marchStart y) = y ∧
      yearOfEra (marchStart (y + 1) - 1) = y := by decide +kernel
  exact hall ⟨y, hy⟩

/-- So they are right on the days between. -/
lemma yearOfEra_eq {doe y : ℕ} (hy : y < 400) (hle : marchStart y ≤ doe)
    (hlt : doe < marchStart (y + 1)) : yearOfEra doe = y := by
  obtain ⟨hfirst, hlast⟩ := yearOfEra_ends y hy
  have hera : marchStart (y + 1) ≤ 146097 :=
    marchStart_strictMono.monotone (by omega : y + 1 ≤ 400)
  refine le_antisymm ?_ ?_
  · calc yearOfEra doe ≤ yearOfEra (marchStart (y + 1) - 1) :=
          yearOfEra_mono (by omega) (by omega)
      _ = y := hlast
  · calc y = yearOfEra (marchStart y) := hfirst.symm
      _ ≤ yearOfEra doe := yearOfEra_mono hle (by omega)

/-- The day of an era is in the year that is computed for it. -/
lemma yearOfEra_spec {doe : ℕ} (h : doe < 146097) : yearOfEra doe < 400 ∧
    marchStart (yearOfEra doe) ≤ doe ∧ doe < marchStart (yearOfEra doe + 1) := by
  obtain ⟨y, hle, hlt⟩ := exists_marchStart doe
  have hy : y < 400 := marchStart_strictMono.lt_iff_lt.mp (hle.trans_lt h)
  rw [yearOfEra_eq hy hle hlt]
  exact ⟨hy, hle, hlt⟩

def dateOf (days : ℕ) : Date :=
  let (year, month, day) := epochDaysToDate days
  ⟨year, month, day⟩

lemma dateOf_eq {days year month day : ℕ} (hmonth : month < 12)
    (hday : day < marchLength year month)
    (h : days + 719468 = marchStart year + (monthStart month + day)) :
    dateOf days = marchDate year month day := by
  obtain ⟨hnext, hlt⟩ := monthStart_add_lt hmonth hday
  have hmp := month_eq_iff.mpr ⟨Nat.le_add_right (monthStart month) day, hnext⟩
  -- the year in its era, and the day of the era in that year
  have hyear : year % 400 + year / 400 * 400 = year := Nat.mod_add_div' year 400
  have hera := marchStart_add_era (year % 400) (year / 400)
  have hera' := marchStart_add_era (year % 400 + 1) (year / 400)
  have hmod : year % 400 < 400 := Nat.mod_lt year (by decide)
  rw [hyear] at hera
  rw [Nat.add_right_comm, hyear] at hera'
  have hlast : marchStart (year % 400 + 1) ≤ 146097 :=
    marchStart_strictMono.monotone (by omega : year % 400 + 1 ≤ 400)
  have hdiv : (days + 719468) / 146097 = year / 400 := by omega
  have hdoe : days + 719468 - year / 400 * 146097 =
      marchStart (year % 400) + (monthStart month + day) := by omega
  have hyoe : yearOfEra (marchStart (year % 400) + (monthStart month + day)) = year % 400 :=
    yearOfEra_eq hmod (Nat.le_add_right _ _) (by omega)
  have hstart : 365 * (year % 400) + year % 400 / 4 - year % 400 / 100 =
      marchStart (year % 400) := by
    unfold marchStart
    omega
  unfold yearOfEra at hyoe
  unfold dateOf epochDaysToDate
  dsimp only
  rw [hdiv, hdoe, hyoe, hyear, hstart, Nat.add_sub_cancel_left, hmp]
  change Date.mk _ _ (monthStart month + day - monthStart month + 1) = _
  rw [Nat.add_sub_cancel_left]
  unfold marchDate
  split_ifs <;> first | rfl | omega

lemma dateOf_zero : dateOf 0 = ⟨1970, 1, 1⟩ := by decide

/-- Each day is followed by the next date. -/
lemma dateOf_succ (days : ℕ) : dateOf (days + 1) = (dateOf days).next := by
  obtain ⟨year, month, day, hmonth, hday, h⟩ := exists_marchDate (days + 719468)
  rw [dateOf_eq hmonth hday h]
  by_cases hlast : day + 1 < marchLength year month
  · rw [next_marchDate hlast]
    exact dateOf_eq hmonth hlast (by omega)
  · have hend : day + 1 = marchLength year month := by omega
    by_cases hfebruary : month < 11
    · have hnext := monthStart_succ hfebruary year
      rw [next_marchDate_month hfebruary hend]
      exact dateOf_eq (by omega) (marchLength_pos _ _) (by omega)
    · obtain rfl : month = 11 := by omega
      have hyear := marchStart_succ_eq year
      have hmarch : monthStart 0 = 0 := rfl
      rw [next_marchDate_year hend]
      exact dateOf_eq (by decide) (marchLength_pos _ _) (by omega)

lemma valid_dateOf (days : ℕ) : (dateOf days).Valid := by
  induction days with
  | zero =>
    rw [dateOf_zero]
    exact ⟨by decide, by decide, by decide, by decide⟩
  | succ days ih =>
    rw [dateOf_succ]
    exact ih.next

lemma number_dateOf (days : ℕ) : (dateOf days).number = (dateOf 0).number + days := by
  induction days with
  | zero => exact (Nat.add_zero _).symm
  | succ days ih => rw [dateOf_succ, (valid_dateOf days).number_next, ih, Nat.add_assoc]

def checkedU64 (n : ℕ) : Option ℕ := if n < 2 ^ 64 then some n else none

def checkedSub (a b : ℕ) : Option ℕ := if b ≤ a then some (a - b) else none

/-- `epochDaysToDate` with every operation checked: there is no result when a sum or product
overflows or a difference is negative. -/
def epochDaysToDateChecked (days : ℕ) : Option (ℕ × ℕ × ℕ) := do
  let z ← checkedU64 (days + 719468)
  let era := z / 146097
  let doe ← checkedSub z (← checkedU64 (era * 146097))
  let yoe := (← checkedSub (← checkedU64 ((← checkedSub doe (doe / 1460)) + doe / 36524))
    (doe / 146096)) / 365
  let y ← checkedU64 (yoe + (← checkedU64 (era * 400)))
  let doy ← checkedSub doe
    (← checkedSub (← checkedU64 ((← checkedU64 (365 * yoe)) + yoe / 4)) (yoe / 100))
  let mp := (← checkedU64 ((← checkedU64 (5 * doy)) + 2)) / 153
  let d ← checkedU64
    ((← checkedSub doy ((← checkedU64 ((← checkedU64 (153 * mp)) + 2)) / 5)) + 1)
  let m ← if mp < 10 then checkedU64 (mp + 3) else checkedSub mp 9
  let y ← if m ≤ 2 then checkedU64 (y + 1) else some y
  return (y, m, d)

lemma checkedU64_eq {n : ℕ} (h : n < 2 ^ 64) : checkedU64 n = some n := if_pos h

lemma checkedSub_eq {a b : ℕ} (h : b ≤ a) : checkedSub a b = some (a - b) := if_pos h

/-- Only the first sum can overflow, and no difference is negative. -/
lemma epochDaysToDateChecked_eq {days : ℕ} (h : days + 719468 < 2 ^ 64) :
    epochDaysToDateChecked days = some (epochDaysToDate days) := by
  unfold epochDaysToDateChecked epochDaysToDate
  rw [checkedU64_eq h, Option.bind_eq_bind, Option.bind_some]
  dsimp only
  rw [checkedU64_eq (by omega), Option.bind_some, checkedSub_eq (by omega), Option.bind_some]
  have hera : (days + 719468) / 146097 ≤ 2 ^ 64 / 146097 := by omega
  have hdoe : (days + 719468) - (days + 719468) / 146097 * 146097 < 146097 := by omega
  generalize (days + 719468) / 146097 = era at hera hdoe ⊢
  generalize days + 719468 - era * 146097 = doe at hdoe ⊢
  obtain ⟨hyoe, hle, hlt⟩ := yearOfEra_spec hdoe
  have hleap := february_le (yearOfEra doe + 1)
  rw [marchStart_succ] at hlt
  rw [checkedSub_eq (by omega), Option.bind_some, checkedU64_eq (by omega), Option.bind_some,
    checkedSub_eq (by omega), Option.bind_some]
  have hyear : (doe - doe / 1460 + doe / 36524 - doe / 146096) / 365 = yearOfEra doe := rfl
  rw [hyear]
  generalize yearOfEra doe = yoe at hyoe hle hlt hleap ⊢
  unfold marchStart at hle hlt
  rw [checkedU64_eq (by omega), Option.bind_some, checkedU64_eq (by omega), Option.bind_some,
    checkedU64_eq (by omega), Option.bind_some, checkedU64_eq (by omega), Option.bind_some,
    checkedSub_eq (by omega), Option.bind_some, checkedSub_eq (by omega), Option.bind_some]
  have hdoy : doe - (365 * yoe + yoe / 4 - yoe / 100) < 366 := by omega
  generalize doe - (365 * yoe + yoe / 4 - yoe / 100) = doy at hdoy ⊢
  rw [checkedU64_eq (by omega), Option.bind_some, checkedU64_eq (by omega), Option.bind_some]
  obtain ⟨hfrom, hto⟩ := month_eq_iff.mp (Eq.refl ((5 * doy + 2) / 153))
  generalize (5 * doy + 2) / 153 = mp at hfrom hto ⊢
  unfold monthStart at hfrom hto
  rw [checkedU64_eq (by omega), Option.bind_some, checkedU64_eq (by omega), Option.bind_some,
    checkedSub_eq (by omega), Option.bind_some, checkedU64_eq (by omega), Option.bind_some]
  have hyear : yoe + era * 400 + 1 < 2 ^ 64 := by omega
  by_cases hten : mp < 10
  · rw [if_pos hten, if_pos hten, checkedU64_eq (by omega), Option.bind_some, checkedU64_eq hyear]
    split_ifs
    · rfl
    · rfl
  · rw [if_neg hten, if_neg hten, checkedSub_eq (by omega), Option.bind_some, checkedU64_eq hyear]
    split_ifs
    · rfl
    · rfl

def unixEpoch : DateTime := ⟨⟨1970, 1, 1⟩, 0, 0, 0, 0, 0⟩

def endOfYear9999 : SystemTime :=
  (((⟨10000, 1, 1⟩ : Date).number - (⟨1970, 1, 1⟩ : Date).number) * 86400 * 1000000000 : ℕ)

lemma number_year10000 : (⟨10000, 1, 1⟩ : Date).number = (dateOf 0).number + 2932897 := by
  have hdate : dateOf 2932897 = ⟨10000, 1, 1⟩ := by decide
  rw [← hdate, number_dateOf]

lemma endOfYear9999_eq : endOfYear9999 = (2932897 * 86400 * 1000000000 : ℕ) := by
  unfold endOfYear9999
  rw [number_year10000, ← dateOf_zero, Nat.add_sub_cancel_left]

lemma formatRfc3339_eq (time : SystemTime) : formatRfc3339 time = String.ofList (utcText
    (dateOf (time.toNat / 1000000000 / 86400)) (time.toNat / 1000000000 % 86400 / 3600)
    (time.toNat / 1000000000 % 86400 % 3600 / 60) (time.toNat / 1000000000 % 86400 % 3600 % 60)
    (time.toNat % 1000000000 / 1000000)) := by
  have hzone : "+00:00".toList = '+' :: (pad 2 0 ++ ':' :: (pad 2 0 ++ [])) := by decide
  apply String.toList_inj.mp
  unfold formatRfc3339 utcText dateOf padded
  simp only [String.toList_append, String.toList_ofList, hzone, List.append_assoc]
  rfl

/-- The fields of a timestamp are those of the time, cut to whole milliseconds. -/
lemma readDateTime_formatRfc3339 {time : SystemTime} (hpos : 0 ≤ time)
    (hyear : time < endOfYear9999) : ∃ t, readDateTime (formatRfc3339 time) = some t ∧ t.Valid ∧
      t.offset = 0 ∧ t.seconds - unixEpoch.seconds = (time / 1000000 : ℤ) / 1000 := by
  obtain ⟨n, rfl⟩ := Int.eq_ofNat_of_zero_le hpos
  have hn : n < 2932897 * 86400 * 1000000000 := by
    rw [endOfYear9999_eq] at hyear
    exact Int.ofNat_lt.mp hyear
  have hnumber := number_dateOf (n / 1000000000 / 86400)
  have hdate := valid_dateOf (n / 1000000000 / 86400)
  have hdigits : (dateOf (n / 1000000000 / 86400)).year < 10000 := by
    refine Date.year_lt_of_number_lt ?_
    rw [hnumber, number_year10000]
    omega
  have hmonth := hdate.month_le
  have hday : (dateOf (n / 1000000000 / 86400)).day ≤ 31 :=
    hdate.day_le.trans (monthLength_bounds _ _).2
  rw [formatRfc3339_eq, Int.toNat_natCast]
  have hmillis : n % 1000000000 / 1000000 < 1000 := by omega
  refine ⟨_, readDateTime_utcText (by omega) (by omega) (by omega) (by omega) (by omega)
    (by omega) (by omega), ⟨hdate, by dsimp only; omega, by dsimp only; omega,
    by dsimp only; omega, ?_, ?_⟩, rfl, ?_⟩
  · exact div_nonneg (Nat.cast_nonneg _) (by norm_num)
  · rw [div_lt_one (by norm_num)]
    exact_mod_cast hmillis
  · have hparts : (n / 1000000000 / 86400 * 86400 + n / 1000000000 % 86400 / 3600 * 3600 +
        n / 1000000000 % 86400 % 3600 / 60 * 60 + n / 1000000000 % 86400 % 3600 % 60) * 1000 +
        n % 1000000000 / 1000000 = n / 1000000 := by omega
    have hfloor : (n : ℤ) / 1000000 = (n / 1000000 : ℕ) := rfl
    have hcast := congrArg (Nat.cast : ℕ → ℚ) hparts
    unfold DateTime.seconds unixEpoch
    dsimp only
    rw [← dateOf_zero, hnumber, hfloor, Int.cast_natCast]
    push_cast at hcast ⊢
    linarith

/-- The dates of all days are those of the Gregorian calendar, computed without an overflow or
a negative difference.  Through the year 9999 a timestamp denotes its time, cut to whole
milliseconds. -/
theorem dates_follow_calendar :
    epochDaysToDate 0 = (1970, 1, 1) ∧
    (∀ days ≤ (2 ^ 64 - 1) / 86400, dateOf (days + 1) = (dateOf days).next ∧
      epochDaysToDateChecked days = some (epochDaysToDate days)) ∧
    ∀ time : SystemTime, 0 ≤ time → time < endOfYear9999 →
      ∃ t, readDateTime (formatRfc3339 time) = some t ∧ t.Valid ∧ t.offset = 0 ∧
        t.seconds - unixEpoch.seconds = (time / 1000000 : ℤ) / 1000 := by
  refine ⟨by decide, fun days h => ⟨dateOf_succ days, ?_⟩, fun time hpos hyear => ?_⟩
  · have hdays : days ≤ 213503982334601 := h
    exact epochDaysToDateChecked_eq (by omega)
  · exact readDateTime_formatRfc3339 hpos hyear

/-- The leap day of a century that has one, and a time with a fraction below a millisecond. -/
theorem leap_day_and_timestamp :
    (dateOf 11016 = ⟨2000, 2, 29⟩ ∧ dateOf 11017 = (dateOf 11016).next ∧
      epochDaysToDateChecked 11016 = some (2000, 2, 29)) ∧
    formatRfc3339 1774619365852999999 = "2026-03-27T13:49:25.852+00:00" ∧
    ∃ t, readDateTime (formatRfc3339 1774619365852999999) = some t ∧ t.Valid ∧ t.offset = 0 ∧
      t.seconds - unixEpoch.seconds = (1774619365852 : ℤ) / 1000 := by
  have hyear : (1774619365852999999 : SystemTime) < endOfYear9999 := by
    rw [endOfYear9999_eq]
    decide
  obtain ⟨hnext, hchecked⟩ := dates_follow_calendar.2.1 11016 (by decide)
  exact ⟨⟨by decide, hnext, hchecked⟩, by decide +kernel,
    dates_follow_calendar.2.2 1774619365852999999 (by decide) hyear⟩

end Deltio
