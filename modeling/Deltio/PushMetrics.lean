import Deltio.Lib.Histogram
import Deltio.Time
import Mathlib.Data.List.Induction
import Mathlib.Order.WithBot

namespace Deltio

open Lib Histogram

/-- A bound of the duration histogram in nanoseconds, and how it is printed; the last one is
infinite.  The source compares floats of seconds, and no rounding moves a whole number of
nanoseconds across a bound. -/
structure DurationBucket where
  bound : WithTop Duration
  le : String

def durationBuckets : List DurationBucket :=
  [⟨some 5000000, "0.005"⟩, ⟨some 10000000, "0.01"⟩, ⟨some 25000000, "0.025"⟩,
    ⟨some 50000000, "0.05"⟩, ⟨some 100000000, "0.1"⟩, ⟨some 250000000, "0.25"⟩,
    ⟨some 500000000, "0.5"⟩, ⟨some 1000000000, "1"⟩, ⟨some 2500000000, "2.5"⟩,
    ⟨some 5000000000, "5"⟩, ⟨some 10000000000, "10"⟩, ⟨⊤, "+Inf"⟩]

structure PushMetrics where
  dispatchSuccess : ℕ
  dispatchFailure : ℕ
  durationBuckets : List ℕ
  durationSumMicros : ℕ

inductive MetricsOp where
  | success
  | failure
  | bucket (i : ℕ)
  | sum (micros : ℕ)
deriving DecidableEq

/-- A `fetch_add` wraps around. -/
def fetchAdd (delta value : ℕ) : ℕ := (value + delta) % 2 ^ 64

namespace PushMetrics

def new : PushMetrics := ⟨0, 0, Deltio.durationBuckets.map fun _ => 0, 0⟩

def bucketOf (duration : Duration) : ℕ :=
  ((Deltio.durationBuckets.map DurationBucket.bound).findIdx? fun bound =>
    decide ((duration : WithTop Duration) ≤ bound)).getD (Deltio.durationBuckets.length - 1)

def record (success : Bool) (duration : Duration) : List MetricsOp :=
  [if success then .success else .failure, .bucket (bucketOf duration),
    .sum (duration / 1000 % 2 ^ 64)]

def apply (p : PushMetrics) : MetricsOp → PushMetrics
  | .success => { p with dispatchSuccess := fetchAdd 1 p.dispatchSuccess }
  | .failure => { p with dispatchFailure := fetchAdd 1 p.dispatchFailure }
  | .bucket i => { p with durationBuckets := p.durationBuckets.modify i (fetchAdd 1) }
  | .sum micros => { p with durationSumMicros := fetchAdd micros p.durationSumMicros }

/-- The counters after the additions of any number of tasks, in the order they happened. -/
def afterOps (ops : List MetricsOp) : PushMetrics := ops.foldl apply new

end PushMetrics

structure PushMetricsSnapshot where
  dispatchSuccess : ℕ
  dispatchFailure : ℕ
  durationBuckets : List ℕ
  durationSumMicros : ℕ
  durationCount : ℕ

namespace PushMetrics

/-- The counters are loaded one after the other: `seen` is the state that each load finds.  The
count is derived from the buckets that were loaded. -/
def snapshot (seen : ℕ → PushMetrics) : PushMetricsSnapshot :=
  let buckets := (List.range Deltio.durationBuckets.length).map fun i =>
    (seen i).durationBuckets.getD i 0
  { durationBuckets := buckets
    dispatchSuccess := (seen Deltio.durationBuckets.length).dispatchSuccess
    dispatchFailure := (seen (Deltio.durationBuckets.length + 1)).dispatchFailure
    durationCount := buckets.sum % 2 ^ 64
    durationSumMicros := (seen (Deltio.durationBuckets.length + 2)).durationSumMicros }

lemma apply_concat (ops : List MetricsOp) (op : MetricsOp) :
    afterOps (ops ++ [op]) = (afterOps ops).apply op := by
  rw [afterOps, List.foldl_append]
  rfl

def micros : MetricsOp → ℕ
  | .sum micros => micros
  | _ => 0

/-- The state of the counters says how often each addition happened, not in which order. -/
theorem afterOps_eq (ops : List MetricsOp) :
    afterOps ops = {
      dispatchSuccess := ops.count .success % 2 ^ 64
      dispatchFailure := ops.count .failure % 2 ^ 64
      durationBuckets := (List.range 12).map fun i => ops.count (.bucket i) % 2 ^ 64
      durationSumMicros := (ops.map micros).sum % 2 ^ 64 } := by
  induction ops using List.reverseRecOn with
  | nil => rfl
  | append_singleton ops op ih =>
    rw [apply_concat, ih]
    cases op with
    | success => simp [apply, fetchAdd, micros, List.count_append]
    | failure => simp [apply, fetchAdd, micros, List.count_append]
    | bucket i =>
      simp only [apply, micros, modify_map_range, fetchAdd, List.count_append, List.map_append,
        List.sum_append, List.map_singleton, List.sum_singleton, Nat.add_zero]
      congr 2
      funext j
      by_cases hj : i = j
      · simp [hj]
      · simp [hj]
    | sum n => simp [apply, fetchAdd, micros, List.count_append]

def recordAll (dispatches : List (Bool × Duration)) : List MetricsOp :=
  dispatches.flatMap fun d => record d.1 d.2

lemma count_bucket_recordAll (dispatches : List (Bool × Duration)) (i : ℕ) :
    (recordAll dispatches).count (.bucket i) = (dispatches.map fun d => bucketOf d.2).count i := by
  induction dispatches with
  | nil => rfl
  | cons d dispatches ih =>
    rw [recordAll, List.flatMap_cons, List.count_append]
    change _ + (recordAll dispatches).count _ = _
    rw [ih, List.map_cons, List.count_cons, Nat.add_comm]
    congr 1
    obtain ⟨success, duration⟩ := d
    cases success <;> simp [record, List.count_cons]

lemma count_success_recordAll (dispatches : List (Bool × Duration)) :
    (recordAll dispatches).count .success = dispatches.countP Prod.fst ∧
      (recordAll dispatches).count .failure = dispatches.countP fun d => !d.1 := by
  induction dispatches with
  | nil => exact ⟨rfl, rfl⟩
  | cons d dispatches ih =>
    rw [recordAll, List.flatMap_cons, List.count_append, List.count_append]
    change _ + (recordAll dispatches).count _ = _ ∧ _ + (recordAll dispatches).count _ = _
    rw [ih.1, ih.2, List.countP_cons, List.countP_cons]
    obtain ⟨success, duration⟩ := d
    cases success <;> simp [record] <;> omega

lemma sum_micros_recordAll (dispatches : List (Bool × Duration)) :
    ((recordAll dispatches).map micros).sum % 2 ^ 64 =
      (dispatches.map fun d => d.2 / 1000).sum % 2 ^ 64 := by
  induction dispatches with
  | nil => rfl
  | cons d dispatches ih =>
    have hsum : ((record d.1 d.2).map micros).sum = d.2 / 1000 % 2 ^ 64 := by
      obtain ⟨success, duration⟩ := d
      cases success <;> simp [record, micros]
    rw [recordAll, List.flatMap_cons, List.map_append, List.sum_append, hsum]
    change (_ + ((recordAll dispatches).map micros).sum) % _ = _
    rw [List.map_cons, List.sum_cons, Nat.mod_add_mod, Nat.add_mod, ih, ← Nat.add_mod]

lemma pairwise_bounds : (Deltio.durationBuckets.map DurationBucket.bound).Pairwise (· ≤ ·) := by
  decide

/-- Every duration is within the last bound. -/
lemma bucketOf_eq (duration : Duration) : bucketOf duration =
    Histogram.bucketOf (Deltio.durationBuckets.map DurationBucket.bound) duration := by
  have hlast : ∃ bound ∈ Deltio.durationBuckets.map DurationBucket.bound,
      decide ((duration : WithTop Duration) ≤ bound) = true :=
    ⟨⊤, by decide, decide_eq_true le_top⟩
  rw [bucketOf, List.findIdx?_eq_some_of_exists hlast]
  rfl

section

variable {dispatches : List (Bool × Duration)} {ops : List MetricsOp}

/-- The count is the last running total, whatever the loads have seen. -/
lemma runningTotals_durationCount (seen : ℕ → PushMetrics) :
    (runningTotals (2 ^ 64) 0 (snapshot seen).durationBuckets)[11]? =
      some (snapshot seen).durationCount := by
  apply runningTotals_last
  rw [snapshot, List.length_map, List.length_range]
  rfl

lemma durationBuckets_snapshot (hops : ops.Perm (recordAll dispatches)) :
    (snapshot fun _ => afterOps ops).durationBuckets =
      (List.range 12).map fun i => (dispatches.map fun d => bucketOf d.2).count i % 2 ^ 64 := by
  rw [snapshot, afterOps_eq]
  apply List.map_congr_left
  intro i hi
  have hlt : i < 12 := List.mem_range.mp hi
  simp [List.getD, hlt, hops.count_eq, count_bucket_recordAll]

/-- The running totals of the buckets: how many dispatches took no longer than each bound. -/
lemma runningTotals_snapshot (hops : ops.Perm (recordAll dispatches)) :
    runningTotals (2 ^ 64) 0 (snapshot fun _ => afterOps ops).durationBuckets =
      Deltio.durationBuckets.map fun bucket =>
        dispatches.countP (fun d => decide ((d.2 : WithTop Duration) ≤ bucket.bound)) %
          2 ^ 64 := by
  rw [durationBuckets_snapshot hops]
  apply List.ext_getElem?
  intro k
  by_cases hk : k < 12
  · have hbound : (Deltio.durationBuckets.map DurationBucket.bound)[k]? =
        some (Deltio.durationBuckets.get ⟨k, hk⟩).bound := by
      rw [List.getElem?_map, List.getElem?_eq_getElem hk]
      rfl
    have htake : ((List.range 12).map fun i =>
        (dispatches.map fun d => bucketOf d.2).count i % 2 ^ 64).take (k + 1) =
          ((List.range (k + 1)).map fun i => (dispatches.map fun d => bucketOf d.2).count i).map
            (· % 2 ^ 64) := by
      rw [← List.map_take, List.take_range, Nat.min_eq_left hk, List.map_map]
      rfl
    rw [getElem?_runningTotals _ _ (by simpa using hk), htake, Nat.zero_add, ← List.sum_nat_mod,
      sum_count_range, List.countP_map, List.getElem?_map, List.getElem?_eq_getElem hk,
      Option.map_some]
    congr 3
    funext d
    simp only [Function.comp_apply, bucketOf_eq, bucketOf_le_iff pairwise_bounds hbound]
    rfl
  · rw [List.getElem?_eq_none, List.getElem?_eq_none]
    · rw [List.length_map]
      exact not_lt.mp hk
    · rw [length_runningTotals, List.length_map, List.length_range]
      exact not_lt.mp hk

lemma durationCount_snapshot (hops : ops.Perm (recordAll dispatches)) :
    (snapshot fun _ => afterOps ops).durationCount = dispatches.length % 2 ^ 64 := by
  have hlast := runningTotals_durationCount fun _ => afterOps ops
  rw [runningTotals_snapshot hops, List.getElem?_map] at hlast
  refine (Option.some.inj hlast).symm.trans ?_
  dsimp only
  rw [List.countP_eq_length.mpr fun d _ => decide_eq_true le_top]

lemma outcomes_snapshot (hops : ops.Perm (recordAll dispatches)) :
    (snapshot fun _ => afterOps ops).dispatchSuccess = dispatches.countP Prod.fst % 2 ^ 64 ∧
      (snapshot fun _ => afterOps ops).dispatchFailure =
        (dispatches.countP fun d => !d.1) % 2 ^ 64 := by
  rw [snapshot, afterOps_eq, hops.count_eq, hops.count_eq, (count_success_recordAll dispatches).1,
    (count_success_recordAll dispatches).2]
  exact ⟨rfl, rfl⟩

lemma durationSumMicros_snapshot (hops : ops.Perm (recordAll dispatches)) :
    (snapshot fun _ => afterOps ops).durationSumMicros =
      (dispatches.map fun d => d.2 / 1000).sum % 2 ^ 64 := by
  rw [snapshot, afterOps_eq, ← sum_micros_recordAll]
  exact congrArg (· % 2 ^ 64) (hops.map micros).sum_eq

end

end PushMetrics

end Deltio
