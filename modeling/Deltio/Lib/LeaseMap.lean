import Mathlib.Data.List.Basic
import Mathlib.Logic.Function.Basic

namespace Deltio.Lib

/-- The value on lease under each id. -/
abbrev LeaseMap (I V : Type*) := I → Option V

namespace LeaseMap

variable {I V D : Type*} [DecidableEq I]

/-- Ends the leases of the listed ids and returns their values. -/
def removeAll : List I → LeaseMap I V → List V × LeaseMap I V
  | [], m => ([], m)
  | i :: is, m =>
    let r := removeAll is (Function.update m i none)
    ((m i).toList ++ r.1, r.2)

def change (extend : V → D → V) (m : LeaseMap I V) (c : I × Option D) : List V × LeaseMap I V :=
  match m c.1, c.2 with
  | none, _ => ([], m)
  | some v, some d => ([], Function.update m c.1 (some (extend v d)))
  | some v, none => ([v], Function.update m c.1 none)

def changeAll (extend : V → D → V) : List (I × Option D) → LeaseMap I V → List V × LeaseMap I V
  | [], m => ([], m)
  | c :: cs, m =>
    let r := changeAll extend cs (change extend m c).2
    ((change extend m c).1 ++ r.1, r.2)

lemma removeAll_filter {i : I} {m : LeaseMap I V} (h : m i = none) (is : List I) :
    removeAll (is.filter fun j => !j == i) m = removeAll is m := by
  induction is generalizing m with
  | nil => rfl
  | cons j is ih =>
    by_cases hj : j = i
    · subst hj
      have hsame : Function.update m j none = m := by rw [← h, Function.update_eq_self]
      rw [List.filter_cons_of_neg (by simp), ih h, removeAll, hsame, h]
      rfl
    · have hrest : Function.update m j none i = none := by
        rw [Function.update_of_ne (Ne.symm hj), h]
      rw [List.filter_cons_of_pos (by simpa using hj), removeAll, removeAll, ih hrest]

/-- The values come back in the order in which their ids are first mentioned. -/
lemma removeAll_fst (is : List I) (m : LeaseMap I V) :
    (removeAll is m).1 = is.eraseDups.filterMap m := by
  -- on the length, since `eraseDups` goes on with the other ids only
  induction hlen : is.length using Nat.strongRecOn generalizing is m with
  | ind n ih =>
    cases is with
    | nil => rfl
    | cons i is =>
      have hshort : (is.filter fun j => !j == i).length < n := by
        rw [← hlen, List.length_cons]
        exact Nat.lt_succ_of_le (List.length_filter_le _ _)
      have hrest := ih _ hshort (is.filter fun j => !j == i) (Function.update m i none) rfl
      rw [removeAll_filter (Function.update_self i none m)] at hrest
      have hcongr : (is.filter fun j => !j == i).eraseDups.filterMap (Function.update m i none) =
          (is.filter fun j => !j == i).eraseDups.filterMap m := by
        refine List.filterMap_congr fun j hj => ?_
        rw [List.mem_eraseDups, List.mem_filter] at hj
        rw [Function.update_of_ne (by simpa using hj.2)]
      rw [removeAll, List.eraseDups_cons, hrest, hcongr]
      cases hi : m i with
      | none => rw [List.filterMap_cons_none hi, Option.toList_none, List.nil_append]
      | some v => rw [List.filterMap_cons_some hi, Option.toList_some, List.singleton_append]

lemma removeAll_snd (is : List I) (m : LeaseMap I V) :
    (removeAll is m).2 = fun i => if i ∈ is then none else m i := by
  induction is generalizing m with
  | nil =>
    funext i
    exact (if_neg List.not_mem_nil).symm
  | cons j is ih =>
    rw [removeAll, ih]
    funext i
    by_cases hi : i = j
    · simp [hi]
    · simp [hi]

end LeaseMap

end Deltio.Lib
