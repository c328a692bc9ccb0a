import Deltio.Lib.Calendar
import Mathlib.Data.List.TakeWhile
import Mathlib.Data.Rat.Cast.Order
import Mathlib.Tactic.NormNum

namespace Deltio.Lib.Rfc3339

open Calendar

structure DateTime where
  date : Date
  hour : ℕ
  minute : ℕ
  second : ℕ
  fraction : ℚ
  /-- In minutes east of UTC. -/
  offset : ℤ
deriving DecidableEq

namespace DateTime

/-- The ranges of the fields, without leap seconds. -/
structure Valid (t : DateTime) : Prop where
  date : t.date.Valid
  hour_lt : t.hour < 24
  minute_lt : t.minute < 60
  second_lt : t.second < 60
  fraction_nonneg : 0 ≤ t.fraction
  fraction_lt : t.fraction < 1

/-- The time that the fields denote, in seconds from the start of year 0 in UTC. -/
def seconds (t : DateTime) : ℚ :=
  t.date.number * 86400 + t.hour * 3600 + t.minute * 60 + t.second + t.fraction - t.offset * 60

end DateTime

/-- A number of exactly `width` digits, and what comes after it. -/
def readDigits (width : ℕ) (chars : List Char) : Option (ℕ × List Char) :=
  if (chars.take width).length = width ∧ (chars.take width).all Char.isDigit then
    some (Nat.ofDigitChars 10 (chars.take width) 0, chars.drop width)
  else none

def expect (c : Char) : List Char → Option (List Char)
  | [] => none
  | d :: rest => if d = c then some rest else none

def readClock (chars : List Char) : Option ((ℕ × ℕ) × List Char) := do
  let (hour, rest) ← readDigits 2 chars
  let rest ← expect ':' rest
  let (minute, rest) ← readDigits 2 rest
  return ((hour, minute), rest)

def readFraction : List Char → Option (ℚ × List Char)
  | '.' :: rest =>
    let digits := rest.takeWhile Char.isDigit
    if digits = [] then none
    else some (Nat.ofDigitChars 10 digits 0 / 10 ^ digits.length, rest.dropWhile Char.isDigit)
  | rest => some (0, rest)

def readOffset : List Char → Option (ℤ × List Char)
  | 'Z' :: rest => some (0, rest)
  | '+' :: rest => (readClock rest).map fun r => ((r.1.1 * 60 + r.1.2 : ℕ), r.2)
  | '-' :: rest => (readClock rest).map fun r => (-(r.1.1 * 60 + r.1.2 : ℕ), r.2)
  | _ => none

def readDate (chars : List Char) : Option (Date × List Char) := do
  let (year, rest) ← readDigits 4 chars
  let rest ← expect '-' rest
  let (month, rest) ← readDigits 2 rest
  let rest ← expect '-' rest
  let (day, rest) ← readDigits 2 rest
  return (⟨year, month, day⟩, rest)

def readSeconds (chars : List Char) : Option ((ℕ × ℚ) × List Char) := do
  let rest ← expect ':' chars
  let (second, rest) ← readDigits 2 rest
  let (fraction, rest) ← readFraction rest
  return ((second, fraction), rest)

def readDateTime (text : String) : Option DateTime := do
  let (date, rest) ← readDate text.toList
  let rest ← expect 'T' rest
  let ((hour, minute), rest) ← readClock rest
  let ((second, fraction), rest) ← readSeconds rest
  let (offset, rest) ← readOffset rest
  if rest = [] then return ⟨date, hour, minute, second, fraction, offset⟩ else none

def pad (width n : ℕ) : List Char := List.leftpad width '0' (Nat.toDigits 10 n)

lemma isDigit_of_mem_pad {width n : ℕ} {c : Char} (h : c ∈ pad width n) : c.isDigit := by
  unfold pad List.leftpad at h
  rcases List.mem_append.mp h with hzero | hdigit
  · rw [List.eq_of_mem_replicate hzero]
    rfl
  · exact Nat.isDigit_of_mem_toDigits (by decide) (by decide) hdigit

lemma ofDigitChars_pad (width n : ℕ) : Nat.ofDigitChars 10 (pad width n) 0 = n := by
  unfold pad List.leftpad
  rw [Nat.ofDigitChars_append, Nat.ofDigitChars_replicate_zero, Nat.mul_zero,
    Nat.ofDigitChars_ten_toDigits]

lemma length_pad {width n : ℕ} (hwidth : 0 < width) (h : n < 10 ^ width) :
    (pad width n).length = width := by
  have hlen : (Nat.toDigits 10 n).length ≤ width :=
    (Nat.length_toDigits_le_iff (by decide) hwidth).mpr h
  unfold pad
  rw [List.length_leftpad]
  omega

section

variable {width n : ℕ} (hwidth : 0 < width) (h : n < 10 ^ width)

include hwidth h

lemma readDigits_pad (rest : List Char) :
    readDigits width (pad width n ++ rest) = some (n, rest) := by
  have hlen := length_pad hwidth h
  have htake : (pad width n ++ rest).take width = pad width n := by
    rw [List.take_append_of_le_length hlen.ge, List.take_of_length_le hlen.le]
  have hdrop : (pad width n ++ rest).drop width = rest := by
    rw [List.drop_append_of_le_length hlen.ge, List.drop_of_length_le hlen.le, List.nil_append]
  have hdigits : (pad width n).all Char.isDigit = true :=
    List.all_eq_true.mpr fun c hc => isDigit_of_mem_pad hc
  unfold readDigits
  rw [htake, hdrop, if_pos ⟨hlen, hdigits⟩, ofDigitChars_pad]

lemma readFraction_pad {c : Char} (hc : c.isDigit = false) (rest : List Char) :
    readFraction ('.' :: (pad width n ++ c :: rest)) = some ((n : ℚ) / 10 ^ width, c :: rest) := by
  have hlen := length_pad hwidth h
  have hne : pad width n ≠ [] := by
    rw [← List.length_pos_iff_ne_nil, hlen]
    exact hwidth
  have htake : (pad width n ++ c :: rest).takeWhile Char.isDigit = pad width n := by
    rw [List.takeWhile_append_of_pos fun d hd => isDigit_of_mem_pad hd, List.takeWhile_cons, hc]
    exact List.append_nil _
  have hdrop : (pad width n ++ c :: rest).dropWhile Char.isDigit = c :: rest := by
    rw [List.dropWhile_append_of_pos fun d hd => isDigit_of_mem_pad hd, List.dropWhile_cons, hc]
    rfl
  rw [readFraction, htake, hdrop, if_neg hne, ofDigitChars_pad, hlen]

end

lemma expect_cons (c : Char) (rest : List Char) : expect c (c :: rest) = some rest := if_pos rfl

lemma readClock_pad {hour minute : ℕ} (hhour : hour < 10 ^ 2) (hminute : minute < 10 ^ 2)
    (rest : List Char) : readClock (pad 2 hour ++ ':' :: (pad 2 minute ++ rest)) =
      some ((hour, minute), rest) := by
  unfold readClock
  simp only [Option.bind_eq_bind]
  rw [readDigits_pad (by decide) hhour, Option.bind_some]
  dsimp only
  rw [expect_cons, Option.bind_some, readDigits_pad (by decide) hminute]
  rfl

lemma readDate_pad {date : Date} (hyear : date.year < 10 ^ 4) (hmonth : date.month < 10 ^ 2)
    (hday : date.day < 10 ^ 2) (rest : List Char) :
    readDate (pad 4 date.year ++ '-' :: (pad 2 date.month ++ '-' :: (pad 2 date.day ++ rest))) =
      some (date, rest) := by
  unfold readDate
  simp only [Option.bind_eq_bind]
  rw [readDigits_pad (by decide) hyear, Option.bind_some]
  dsimp only
  rw [expect_cons, Option.bind_some, readDigits_pad (by decide) hmonth, Option.bind_some]
  dsimp only
  rw [expect_cons, Option.bind_some, readDigits_pad (by decide) hday]
  rfl

lemma readSeconds_pad {second millis : ℕ} (hsecond : second < 10 ^ 2) (hmillis : millis < 10 ^ 3)
    {c : Char} (hc : c.isDigit = false) (rest : List Char) :
    readSeconds (':' :: (pad 2 second ++ '.' :: (pad 3 millis ++ c :: rest))) =
      some ((second, (millis : ℚ) / 10 ^ 3), c :: rest) := by
  unfold readSeconds
  simp only [Option.bind_eq_bind]
  rw [expect_cons, Option.bind_some, readDigits_pad (by decide) hsecond, Option.bind_some]
  dsimp only
  rw [readFraction_pad (by decide) hmillis hc]
  rfl

def utcText (date : Date) (hour minute second millis : ℕ) : List Char :=
  pad 4 date.year ++ '-' :: (pad 2 date.month ++ '-' :: (pad 2 date.day ++ 'T' ::
    (pad 2 hour ++ ':' :: (pad 2 minute ++ ':' :: (pad 2 second ++ '.' ::
      (pad 3 millis ++ '+' :: (pad 2 0 ++ ':' :: (pad 2 0 ++ []))))))))

lemma readDateTime_utcText {date : Date} {hour minute second millis : ℕ}
    (hyear : date.year < 10 ^ 4) (hmonth : date.month < 10 ^ 2) (hday : date.day < 10 ^ 2)
    (hhour : hour < 10 ^ 2) (hminute : minute < 10 ^ 2) (hsecond : second < 10 ^ 2)
    (hmillis : millis < 10 ^ 3) :
    readDateTime (String.ofList (utcText date hour minute second millis)) =
      some ⟨date, hour, minute, second, millis / 10 ^ 3, 0⟩ := by
  unfold readDateTime utcText
  simp only [Option.bind_eq_bind]
  rw [String.toList_ofList, readDate_pad hyear hmonth hday, Option.bind_some]
  dsimp only
  rw [expect_cons, Option.bind_some, readClock_pad hhour hminute, Option.bind_some]
  dsimp only
  rw [readSeconds_pad hsecond hmillis (by decide), Option.bind_some]
  dsimp only
  rw [readOffset, readClock_pad (by decide) (by decide), Option.map_some, Option.bind_some]
  rfl

end Deltio.Lib.Rfc3339
