import Mathlib.Algebra.BigOperators.Group.List.Basic
import Mathlib.Data.List.Count
import Mathlib.Data.Nat.ModEq
import Mathlib.Order.Lattice

namespace Deltio.Lib.Histogram

section

variable {α : Type*} [LinearOrder α]

/-- The first bucket whose bound the observation does not exceed. -/
def bucketOf (bounds : List α) (x : α) : ℕ := bounds.findIdx fun bound => decide (x ≤ bound)

lemma bucketOf_le_iff {bounds : List α} (hsorted : bounds.Pairwise (· ≤ ·)) {k : ℕ} {bound : α}
    (hk : bounds[k]? = some bound) (x : α) : bucketOf bounds x ≤ k ↔ x ≤ bound := by
  obtain ⟨hlt, rfl⟩ := List.getElem?_eq_some_iff.mp hk
  constructor
  · intro hle
    have hfound := List.findIdx_getElem (p := fun bound => decide (x ≤ bound))
      (w := lt_of_le_of_lt hle hlt)
    apply le_trans (of_decide_eq_true hfound)
    rcases Nat.lt_or_eq_of_le hle with hlt' | heq
    · exact List.pairwise_iff_getElem.mp hsorted _ _ _ _ hlt'
    · exact le_of_eq (getElem_congr_idx heq)
  · intro hx
    by_contra hlt'
    have hno := List.not_of_lt_findIdx (not_le.mp hlt')
    exact of_decide_eq_false hno hx

end

def runningTotals (m : ℕ) : ℕ → List ℕ → List ℕ
  | _, [] => []
  | total, n :: ns => (total + n) % m :: runningTotals m ((total + n) % m) ns

lemma length_runningTotals (m total : ℕ) (ns : List ℕ) :
    (runningTotals m total ns).length = ns.length := by
  induction ns generalizing total with
  | nil => rfl
  | cons n ns ih => rw [runningTotals, List.length_cons, ih, List.length_cons]

lemma getElem?_runningTotals (m total : ℕ) {ns : List ℕ} {k : ℕ} (hk : k < ns.length) :
    (runningTotals m total ns)[k]? = some ((total + (ns.take (k + 1)).sum) % m) := by
  induction ns generalizing total k with
  | nil => cases hk
  | cons n ns ih =>
    rw [runningTotals]
    cases k with
    | zero => simp
    | succ k =>
      rw [List.getElem?_cons_succ, ih _ (Nat.lt_of_succ_lt_succ hk), List.take_succ_cons,
        List.sum_cons, Nat.mod_add_mod, Nat.add_assoc]

lemma runningTotals_last {m k : ℕ} {ns : List ℕ} (hk : ns.length = k + 1) :
    (runningTotals m 0 ns)[k]? = some (ns.sum % m) := by
  rw [getElem?_runningTotals m 0 (by omega), Nat.zero_add, List.take_of_length_le hk.le]

/-- One of the counters changes. -/
lemma modify_map_range (n i : ℕ) (f g : ℕ → ℕ) :
    ((List.range n).map f).modify i g =
      (List.range n).map fun j => if i = j then g (f j) else f j := by
  apply List.ext_getElem
  · simp
  · intro j hj hj'
    simp [List.getElem_modify]

lemma countP_le_succ (buckets : List ℕ) (k : ℕ) :
    buckets.countP (fun i => decide (i ≤ k + 1)) =
      buckets.countP (fun i => decide (i ≤ k)) + buckets.count (k + 1) := by
  induction buckets with
  | nil => rfl
  | cons i buckets ih =>
    simp only [List.countP_cons, List.count_cons, decide_eq_true_eq, beq_iff_eq]
    split_ifs <;> omega

/-- The buckets up to `k` hold what is in a bucket up to `k`. -/
lemma sum_count_range (buckets : List ℕ) (k : ℕ) :
    ((List.range (k + 1)).map fun i => buckets.count i).sum =
      buckets.countP fun i => decide (i ≤ k) := by
  induction k with
  | zero => simp [List.count_eq_countP, beq_eq_decide]
  | succ k ih =>
    rw [List.range_succ, List.map_append, List.sum_append, ih, List.map_singleton,
      List.sum_singleton, countP_le_succ]

end Deltio.Lib.Histogram
