import Deltio.Parser

namespace Deltio

open Lib Deltio.Parser

namespace AckDeadline

/-- The deadline is the first multiple of 100 ms that is not before the time, and it does not
fall behind that of any earlier time. -/
structure RoundsUp (t : Instant) : Prop where
  notBefore : t ≤ (new t).time
  within : (new t).time < t + 100000000
  whole : ∃ k : ℕ, (new t).time = k * 100000000
  monotone : ∀ t', 0 ≤ t' → t' ≤ t → new t' ≤ new t
  idempotent : new (new t).time = new t

def rounded (n : ℕ) : ℕ := (n / 1000 % 2 ^ 64 + 100000 - 1) / 100000 * 100000 % 2 ^ 64 * 1000

lemma time_new (n : ℕ) : (new n).time = rounded n := Int.zero_add _

/-- The last multiple of 100 ms whose microseconds fit 64 bits. -/
def lastTick : ℕ := 184467440737095 * 100000000

lemma rounded_eq {n : ℕ} (h : n ≤ lastTick) :
    rounded n = (n / 1000 + 99999) / 100000 * 100000000 := by
  unfold lastTick at h
  unfold rounded
  omega

/-- Past the last tick the microseconds wrap around. -/
lemma rounded_lt {n : ℕ} (h : lastTick < n) : rounded n < n := by
  unfold lastTick at h
  unfold rounded
  by_cases hfits : n < 2 ^ 64 * 1000
  · rw [Nat.mod_eq_of_lt (by omega : n / 1000 < 2 ^ 64)]
    -- the microseconds fit, but the next multiple of 100 ms does not
    have htick : (n / 1000 + 100000 - 1) / 100000 = 184467440737095 ∨
        (n / 1000 + 100000 - 1) / 100000 = 184467440737096 := by omega
    rcases htick with htick | htick
    · rw [htick]
      omega
    · rw [htick]
      omega
  · have hlt : (n / 1000 % 2 ^ 64 + 100000 - 1) / 100000 * 100000 % 2 ^ 64 < 2 ^ 64 :=
      Nat.mod_lt _ (by decide)
    exact ((Nat.mul_lt_mul_right (by decide)).mpr hlt).trans_le (not_lt.mp hfits)

lemma rounded_mono {m n : ℕ} (hle : m ≤ n) (hlast : n ≤ lastTick) : rounded m ≤ rounded n := by
  rw [rounded_eq hlast, rounded_eq (hle.trans hlast)]
  omega

lemma rounded_rounded {n : ℕ} (hlast : n ≤ lastTick) : rounded (rounded n) = rounded n := by
  have hle : rounded n ≤ lastTick := by
    rw [rounded_eq hlast]
    unfold lastTick at *
    omega
  rw [rounded_eq hle, rounded_eq hlast]
  omega

lemma le_rounded_iff (n : ℕ) :
    n ≤ rounded n ↔ n ≤ lastTick ∧ (n % 100000000 = 0 ∨ 1000 ≤ n % 100000000) := by
  by_cases hlast : n ≤ lastTick
  · rw [rounded_eq hlast]
    omega
  · have hlt := rounded_lt (not_le.mp hlast)
    omega

/-- A deadline is rounded up exactly when its time is not in the microsecond after a multiple
of 100 ms, and its microseconds fit 64 bits. -/
theorem roundsUp_iff (t : Instant) (h : 0 ≤ t) :
    RoundsUp t ↔ t ≤ lastTick ∧ (t % 100000000 = 0 ∨ 1000 ≤ t % 100000000) := by
  obtain ⟨n, rfl⟩ := Int.eq_ofNat_of_zero_le h
  have hcond : ((n : Instant) ≤ lastTick ∧
      ((n : Instant) % 100000000 = 0 ∨ 1000 ≤ (n : Instant) % 100000000)) ↔ n ≤ rounded n := by
    rw [le_rounded_iff]
    norm_cast
  rw [hcond]
  constructor
  · intro hrounds
    have hle := hrounds.notBefore
    rw [time_new] at hle
    exact Int.ofNat_le.mp hle
  · intro hle
    have hlast := ((le_rounded_iff n).mp hle).1
    refine ⟨?_, ?_, ?_, ?_, ?_⟩
    · rw [time_new]
      exact Int.ofNat_le.mpr hle
    · have hlt : rounded n < n + 100000000 := by
        rw [rounded_eq hlast]
        omega
      rw [time_new]
      exact Int.ofNat_lt.mpr hlt
    · refine ⟨(n / 1000 + 99999) / 100000, ?_⟩
      rw [time_new, rounded_eq hlast]
      exact Int.natCast_mul _ _
    · intro t' ht' htn
      obtain ⟨n', rfl⟩ := Int.eq_ofNat_of_zero_le ht'
      change (new n').time ≤ (new n).time
      rw [time_new, time_new]
      exact Int.ofNat_le.mpr (rounded_mono (Int.ofNat_le.mp htn) hlast)
    · have htime : (new (rounded n)).time = (new n).time := by
        rw [time_new, time_new, rounded_rounded hlast]
      rw [time_new n]
      exact congrArg AckDeadline.mk htime

theorem fifty_millis_round_up : RoundsUp 50000000 :=
  (roundsUp_iff 50000000 (by decide)).mpr (by decide)

/-- A lease of ten seconds from one nanosecond after a tick ends a nanosecond early. -/
theorem nanosecond_after_tick_rounds_down :
    (0 : Instant) ≤ 10000000001 ∧ ¬ (10000000001 : Instant) ≤ (new 10000000001).time := by
  decide

end AckDeadline

namespace RetryPolicy

variable {p : RetryPolicy}

/-- Twenty doublings of ten minutes are within a `Duration`. -/
lemma product_le_max (hmax : p.minimumBackoff ≤ Duration.fromSecs 600) (n : ℕ) :
    p.minimumBackoff * 2 ^ min (n - 1) 20 ≤ Duration.max := by
  have hpow : 2 ^ min (n - 1) 20 ≤ 2 ^ 20 := Nat.pow_le_pow_right (by decide) (min_le_right _ _)
  calc p.minimumBackoff * 2 ^ min (n - 1) 20 ≤ Duration.fromSecs 600 * 2 ^ 20 :=
        Nat.mul_le_mul hmax hpow
    _ ≤ Duration.max := by decide

lemma calculateBackoff_mono (hmax : p.maximumBackoff ≤ Duration.max) {m n : ℕ} (h : m ≤ n) :
    p.calculateBackoff m ≤ p.calculateBackoff n := by
  rw [calculateBackoff_eq hmax, calculateBackoff_eq hmax]
  have hpow : 2 ^ min (m - 1) 20 ≤ 2 ^ min (n - 1) 20 :=
    Nat.pow_le_pow_right (by decide) (by omega)
  exact min_le_min_left _ (Nat.mul_le_mul_left _ hpow)

/-- Below the cap of the exponent each attempt doubles the backoff. -/
lemma calculateBackoff_succ (hmax : p.maximumBackoff ≤ Duration.max) {n : ℕ} (hpos : 1 ≤ n)
    (hcap : n ≤ 20) :
    p.calculateBackoff (n + 1) = min p.maximumBackoff (2 * p.calculateBackoff n) := by
  rw [calculateBackoff_eq hmax, calculateBackoff_eq hmax]
  obtain ⟨k, rfl⟩ : ∃ k, n = k + 1 := ⟨n - 1, by omega⟩
  have hexp : min (k + 1 + 1 - 1) 20 = k + 1 := by omega
  have hexp' : min (k + 1 - 1) 20 = k := by omega
  rw [hexp, hexp', pow_succ]
  -- the doubled product against the maximum and against twice the maximum
  rcases le_total p.maximumBackoff (p.minimumBackoff * 2 ^ k) with hle | hle
  · have hdouble : p.minimumBackoff * 2 ^ k ≤ p.minimumBackoff * (2 ^ k * 2) :=
      Nat.mul_le_mul_left _ (Nat.le_mul_of_pos_right _ (by decide))
    rw [min_eq_left hle, min_eq_left (hle.trans hdouble),
      min_eq_left (Nat.le_mul_of_pos_left _ (by decide))]
  · rw [min_eq_right hle, ← Nat.mul_assoc, Nat.mul_comm]

/-- The backoffs of an accepted policy are the exact products within its bounds: they never
saturate, do not decrease and double from attempt to attempt up to the maximum. -/
theorem backoff_exact_and_bounded (proto : RetryPolicyProto) (policy : RetryPolicy)
    (h : parseRetryPolicy proto = .ok policy) :
    (∀ n, 2 ^ min (n - 1) 20 < 2 ^ 32 ∧
      policy.minimumBackoff * 2 ^ min (n - 1) 20 ≤ Duration.max ∧
      policy.calculateBackoff n =
        min (policy.minimumBackoff * 2 ^ min (n - 1) 20) policy.maximumBackoff) ∧
    (∀ n, policy.minimumBackoff ≤ policy.calculateBackoff n ∧
      policy.calculateBackoff n ≤ policy.maximumBackoff) ∧
    policy.maximumBackoff ≤ Duration.fromSecs 600 ∧
    (∀ m n, m ≤ n → policy.calculateBackoff m ≤ policy.calculateBackoff n) ∧
    ∀ n, 1 ≤ n → n ≤ 20 → policy.calculateBackoff (n + 1) =
      min policy.maximumBackoff (2 * policy.calculateBackoff n) := by
  obtain ⟨hle, hmax⟩ := parseRetryPolicy_spec h
  have hfits : policy.maximumBackoff ≤ Duration.max := hmax.trans (by decide)
  refine ⟨fun n => ⟨?_, product_le_max (hle.trans hmax) n, ?_⟩, fun n => ?_, hmax,
    fun m n hmn => calculateBackoff_mono hfits hmn,
    fun n hpos hcap => calculateBackoff_succ hfits hpos hcap⟩
  · exact Nat.pow_lt_pow_right (by decide) (by omega)
  · rw [calculateBackoff_eq hfits, min_comm]
  · rw [calculateBackoff_eq hfits]
    exact ⟨le_min hle (Nat.le_mul_of_pos_right _ (by positivity)), min_le_left _ _⟩

theorem backoffs_of_carried_nanos :
    parseRetryPolicy ⟨some ⟨-3, 1500000000⟩, none⟩ = .ok ⟨1500000000, Duration.fromSecs 600⟩ ∧
      ∀ m n, m ≤ n → calculateBackoff ⟨1500000000, Duration.fromSecs 600⟩ m ≤
        calculateBackoff ⟨1500000000, Duration.fromSecs 600⟩ n :=
  have h : parseRetryPolicy ⟨some ⟨-3, 1500000000⟩, none⟩ =
      .ok ⟨1500000000, Duration.fromSecs 600⟩ := by decide +kernel
  ⟨h, (backoff_exact_and_bounded _ _ h).2.2.2.1⟩

end RetryPolicy

end Deltio
