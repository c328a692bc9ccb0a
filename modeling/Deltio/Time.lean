import Mathlib.Data.Prod.Lex
import Mathlib.Order.Lattice
import Mathlib.Tactic.NormNum

namespace Deltio

/-- The monotonic clock in nanoseconds from the epoch that `AckDeadline` rounds against; an
instant before the first deadline was made is negative. -/
abbrev Instant := ℤ

/-- The wall clock in nanoseconds from the Unix epoch. -/
abbrev SystemTime := ℤ

abbrev Duration := ℕ

namespace Duration

def fromMicros (n : ℕ) : Duration := n * 1000

def fromSecs (n : ℕ) : Duration := n * 1000000000

/-- `Duration::MAX`: `u64::MAX` seconds and 999 999 999 nanoseconds. -/
def max : Duration := (2 ^ 64 - 1) * 1000000000 + 999999999

def saturatingMul (d : Duration) (n : ℕ) : Duration := min (d * n) max

end Duration

/-- The time from `earlier` to `later`, zero when it would be negative. -/
def Instant.saturatingDurationSince (later earlier : Instant) : Duration := (later - earlier).toNat

structure AckDeadline where
  time : Instant
deriving DecidableEq

instance : LinearOrder AckDeadline :=
  LinearOrder.lift' AckDeadline.time fun a b h => by cases a; cases b; simp_all

/-- Rounds up to a whole multiple of 100 ms after the epoch.  The duration is
cut to whole microseconds first, and all arithmetic is on 64 bits. -/
def AckDeadline.new (time : Instant) : AckDeadline :=
  let precisionMicros := 100000
  let timeInMicros := (Instant.saturatingDurationSince time 0 / 1000) % 2 ^ 64
  let roundedMicros := ((timeInMicros + precisionMicros - 1) / precisionMicros * precisionMicros) % 2 ^ 64
  ⟨0 + Duration.fromMicros roundedMicros⟩

/-- Days since the Unix epoch to (year, month, day). -/
def epochDaysToDate (days : ℕ) : ℕ × ℕ × ℕ :=
  let z := days + 719468
  let era := z / 146097
  let doe := z - era * 146097
  let yoe := (doe - doe / 1460 + doe / 36524 - doe / 146096) / 365
  let y := yoe + era * 400
  let doy := doe - (365 * yoe + yoe / 4 - yoe / 100)
  let mp := (5 * doy + 2) / 153
  let d := doy - (153 * mp + 2) / 5 + 1
  let m := if mp < 10 then mp + 3 else mp - 9
  let y := if m ≤ 2 then y + 1 else y
  (y, m, d)

def padded (width n : ℕ) : String := String.ofList (List.leftpad width '0' (Nat.toDigits 10 n))

def formatRfc3339 (time : SystemTime) : String :=
  let sinceEpoch := time.toNat
  let totalSecs := sinceEpoch / 1000000000
  let millis := sinceEpoch % 1000000000 / 1000000
  let days := totalSecs / 86400
  let remaining := totalSecs % 86400
  let hours := remaining / 3600
  let remaining := remaining % 3600
  let minutes := remaining / 60
  let seconds := remaining % 60
  let (year, month, day) := epochDaysToDate days
  padded 4 year ++ "-" ++ padded 2 month ++ "-" ++ padded 2 day ++ "T" ++ padded 2 hours ++ ":" ++
    padded 2 minutes ++ ":" ++ padded 2 seconds ++ "." ++ padded 3 millis ++ "+00:00"

end Deltio
