import Mathlib.Data.List.Basic
import Mathlib.Data.List.Infix
import Mathlib.Data.List.Nodup

namespace Deltio.Lib

variable {α : Type*}

def pageAt (size offset : ℕ) (l : List α) : List α := (l.drop offset).take size

/-- The walk from the `i`-th request on, with the pages it gets. -/
inductive OffsetWalk (size : ℕ) (l : ℕ → List α) : ℕ → ℕ → List (List α) → Prop
  | last {i offset : ℕ} (h : pageAt size offset (l i) = []) : OffsetWalk size l i offset [[]]
  | next {i offset : ℕ} {pages : List (List α)} (h : pageAt size offset (l i) ≠ [])
      (hs : OffsetWalk size l (i + 1) (offset + (pageAt size offset (l i)).length) pages) :
      OffsetWalk size l i offset (pageAt size offset (l i) :: pages)

def Evolves (fresh : α → Prop) (l l' : List α) : Prop :=
  ∃ (keep : α → Bool) (new : List α), l' = l.filter keep ++ new ∧ ∀ x ∈ new, fresh x

namespace Evolves

variable {fresh : α → Prop}

lemma refl (fresh : α → Prop) (l : List α) : Evolves fresh l l :=
  ⟨fun _ => true, [], by rw [List.filter_true, List.append_nil], by simp⟩

lemma append (l : List α) {new : List α} (h : ∀ x ∈ new, fresh x) : Evolves fresh l (l ++ new) :=
  ⟨fun _ => true, new, by rw [List.filter_true], h⟩

lemma filter (fresh : α → Prop) (l : List α) (keep : α → Bool) : Evolves fresh l (l.filter keep) :=
  ⟨keep, [], (List.append_nil _).symm, by simp⟩

lemma trans {l l' l'' : List α} (h : Evolves fresh l l') (h' : Evolves fresh l' l'') :
    Evolves fresh l l'' := by
  obtain ⟨keep, new, rfl, hnew⟩ := h
  obtain ⟨keep', new', rfl, hnew'⟩ := h'
  refine ⟨fun x => keep' x && keep x, new.filter keep' ++ new', ?_, fun x hx => ?_⟩
  · rw [List.filter_append, List.filter_filter, List.append_assoc]
  · rcases List.mem_append.mp hx with hx | hx
    · exact hnew x (List.mem_filter.mp hx).1
    · exact hnew' x hx

lemma mono {fresh' : α → Prop} {l l' : List α} (h : Evolves fresh l l')
    (hfresh : ∀ x, fresh x → fresh' x) : Evolves fresh' l l' := by
  obtain ⟨keep, new, rfl, hnew⟩ := h
  exact ⟨keep, new, rfl, fun x hx => hfresh x (hnew x hx)⟩

/-- What has been seen and is all still there is in front. -/
lemma isPrefix {l l' seen : List α} (h : Evolves (· ∉ l) l l') (hseen : seen <+: l)
    (hkept : ∀ x ∈ seen, x ∈ l') : seen <+: l' := by
  obtain ⟨keep, new, rfl, hnew⟩ := h
  obtain ⟨rest, rfl⟩ := hseen
  have hall : seen.filter keep = seen := by
    refine List.filter_eq_self.mpr fun x hx => ?_
    rcases List.mem_append.mp (hkept x hx) with hmem | hmem
    · exact (List.mem_filter.mp hmem).2
    · exact absurd (List.mem_append_left rest hx) (hnew x hmem)
  refine ⟨rest.filter keep ++ new, ?_⟩
  rw [List.filter_append, hall, List.append_assoc]

end Evolves

section

variable {size : ℕ} {l : ℕ → List α}

lemma pageAt_eq_nil_iff (hpos : 0 < size) {offset : ℕ} {l : List α} :
    pageAt size offset l = [] ↔ l.length ≤ offset := by
  unfold pageAt
  rw [List.take_eq_nil_iff, List.drop_eq_nil_iff]
  omega

/-- A page that is not empty ends inside the list. -/
lemma offset_add_length_le {size offset : ℕ} {l : List α} (h : pageAt size offset l ≠ []) :
    offset + (pageAt size offset l).length ≤ l.length := by
  unfold pageAt at h ⊢
  rw [List.length_take, List.length_drop]
  have hdrop : l.drop offset ≠ [] := fun hnil => h (by rw [hnil, List.take_nil])
  rw [Ne, List.drop_eq_nil_iff] at hdrop
  omega

/-- As long as the list stays below some length, the walk ends. -/
theorem exists_offsetWalk {n : ℕ} (hn : ∀ i, (l i).length ≤ n) (i offset : ℕ) :
    ∃ pages, OffsetWalk size l i offset pages := by
  -- every page that is not empty leaves less to read
  induction hleft : n - offset using Nat.strong_induction_on generalizing i offset with
  | _ left ih =>
    by_cases hpage : pageAt size offset (l i) = []
    · exact ⟨_, .last hpage⟩
    · have hlen : 0 < (pageAt size offset (l i)).length := List.length_pos_iff.mpr hpage
      have hle := (offset_add_length_le hpage).trans (hn i)
      obtain ⟨pages, hs⟩ := ih (n - (offset + (pageAt size offset (l i)).length)) (by omega)
        (i + 1) (offset + (pageAt size offset (l i)).length) rfl
      exact ⟨_, .next hpage hs⟩

/-- After what has been seen, the page continues the list. -/
lemma append_pageAt_isPrefix {seen l : List α} (h : seen <+: l) (size : ℕ) :
    seen ++ pageAt size seen.length l <+: l := by
  obtain ⟨rest, rfl⟩ := h
  unfold pageAt
  rw [List.drop_left, List.prefix_append_right_inj]
  exact List.take_prefix size rest

/-- If nothing is lost that has been seen, the pages are the whole list as it is at the
last request. -/
theorem OffsetWalk.flatten_eq (hpos : 0 < size) (hl : ∀ i, Evolves (· ∉ l i) (l i) (l (i + 1)))
    {i offset : ℕ} {pages : List (List α)} (h : OffsetWalk size l i offset pages) {seen : List α}
    (hoffset : offset = seen.length) (hseen : seen <+: l i)
    (hkept : ∀ j < pages.length, ∀ x ∈ seen ++ (pages.take j).flatten, x ∈ l (i + j)) :
    seen ++ pages.flatten = l (i + pages.length - 1) := by
  induction h generalizing seen with
  | @last i offset hpage =>
    rw [pageAt_eq_nil_iff hpos, hoffset] at hpage
    rw [hseen.eq_of_length_le hpage, List.flatten_singleton, List.append_nil]
    rfl
  | @next i offset pages hpage hs ih =>
    subst hoffset
    have hnonempty : 0 < pages.length := by
      cases hs <;> exact Nat.succ_pos _
    have hnext : seen ++ pageAt size seen.length (l i) <+: l (i + 1) := by
      refine (hl i).isPrefix (append_pageAt_isPrefix hseen size) fun x hx => ?_
      refine hkept 1 (by rw [List.length_cons]; omega) x ?_
      rw [List.take_succ_cons, List.take_zero, List.flatten_singleton]
      exact hx
    have hrest := ih (List.length_append).symm hnext fun j hj x hx => ?_
    · rw [List.flatten_cons, ← List.append_assoc, hrest, List.length_cons]
      congr 1
      omega
    · have hmem := hkept (j + 1) (by rw [List.length_cons]; omega) x ?_
      · rwa [Nat.add_assoc, Nat.add_comm 1 j]
      · rw [List.take_succ_cons, List.flatten_cons, ← List.append_assoc]
        exact hx

/-- What is on a page was listed at its request. -/
lemma OffsetWalk.exists_of_mem {i offset : ℕ} {pages : List (List α)}
    (h : OffsetWalk size l i offset pages) {j : ℕ} {x : α} (hx : x ∈ (pages.take j).flatten) :
    ∃ k < j, x ∈ l (i + k) := by
  induction h generalizing j with
  | last hpage =>
    obtain ⟨page, hmem, hx⟩ := List.mem_flatten.mp hx
    rw [List.mem_singleton.mp (List.mem_of_mem_take hmem)] at hx
    cases hx
  | @next i offset pages hpage hs ih =>
    cases j with
    | zero => cases hx
    | succ j =>
      rw [List.take_succ_cons, List.flatten_cons] at hx
      rcases List.mem_append.mp hx with hx | hx
      · exact ⟨0, Nat.succ_pos j, List.mem_of_mem_drop (List.mem_of_mem_take hx)⟩
      · obtain ⟨k, hk, hmem⟩ := ih hx
        refine ⟨k + 1, Nat.succ_lt_succ hk, ?_⟩
        rwa [Nat.add_assoc, Nat.add_comm 1 k] at hmem

/-- The part of a page that lies in front. -/
lemma count_pageAt [DecidableEq α] {front rest : List α} {x : α} (hx : x ∉ rest) (offset : ℕ) :
    (pageAt size offset (front ++ rest)).count x = ((front.drop offset).take size).count x := by
  unfold pageAt
  rw [List.drop_append, List.take_append, List.count_append, Nat.add_eq_left]
  refine List.count_eq_zero.mpr fun hmem => hx ?_
  exact List.mem_of_mem_drop (List.mem_of_mem_take hmem)

/-- What is in front at every request is seen as often as it is there. -/
theorem OffsetWalk.count_eq [DecidableEq α] (hpos : 0 < size) {front : List α} {x : α}
    (hl : ∀ i, ∃ rest, l i = front ++ rest ∧ x ∉ rest) {i offset : ℕ} {pages : List (List α)}
    (h : OffsetWalk size l i offset pages) :
    pages.flatten.count x = (front.drop offset).count x := by
  induction h with
  | @last i offset hpage =>
    obtain ⟨rest, hrest, -⟩ := hl i
    rw [pageAt_eq_nil_iff hpos, hrest, List.length_append] at hpage
    rw [List.drop_eq_nil_of_le (by omega)]
    rfl
  | @next i offset pages hpage hs ih =>
    obtain ⟨rest, hrest, hx⟩ := hl i
    have hlen : (pageAt size offset (l i)).length = min size ((l i).length - offset) := by
      unfold pageAt
      rw [List.length_take, List.length_drop]
    have htail : (front.drop offset).drop size =
        front.drop (offset + (pageAt size offset (l i)).length) := by
      rw [List.drop_drop]
      rw [hrest, List.length_append] at hlen
      by_cases hfull : size ≤ front.length + rest.length - offset
      · rw [hrest, hlen, min_eq_left hfull]
      · rw [List.drop_eq_nil_of_le (by omega), hrest, hlen, List.drop_eq_nil_of_le (by omega)]
    rw [List.flatten_cons, List.count_append, ih, ← htail, hrest, count_pageAt hx,
      ← List.count_append, List.take_append_drop]

end

/-- The world at the `i`-th request: between two requests come some operations. -/
def afterOps {W C : Type*} (apply : W → C → W) (w : W) (ops : ℕ → List C) : ℕ → W
  | 0 => w
  | i + 1 => (ops i).foldl apply (afterOps apply w ops i)

/-- What the operations keep holds at every request. -/
lemma afterOps_induction {W C : Type*} {apply : W → C → W} {w : W} {ops : ℕ → List C}
    {P : W → Prop} (hstart : P w) (hstep : ∀ i, ∀ c ∈ ops i, ∀ v, P v → P (apply v c)) (i : ℕ) :
    P (afterOps apply w ops i) := by
  have hfoldl : ∀ (cs : List C) (v : W), P v → (∀ c ∈ cs, ∀ v, P v → P (apply v c)) →
      P (cs.foldl apply v) := by
    intro cs
    induction cs with
    | nil => exact fun v hv _ => hv
    | cons c cs ih =>
      intro v hv h
      exact ih (apply v c) (h c List.mem_cons_self v hv) fun c' hc' =>
        h c' (List.mem_cons_of_mem c hc')
  induction i with
  | zero => exact hstart
  | succ i ih => exact hfoldl (ops i) _ ih (hstep i)

/-- A world whose operations change a list.  What they add is numbered above a bound that
only grows. -/
structure Timeline (W C R : Type*) where
  apply : W → C → W
  listed : W → List R
  id : R → ℕ
  bound : W → ℕ
  Valid : W → Prop
  valid_apply : ∀ w c, Valid w → Valid (apply w c)
  bound_le : ∀ w c, bound w ≤ bound (apply w c)
  below : ∀ w, Valid w → ∀ r ∈ listed w, id r ≤ bound w
  evolves : ∀ w c, Valid w → Evolves (fun r => bound w < id r) (listed w) (listed (apply w c))

namespace Timeline

variable {W C R : Type*} (T : Timeline W C R)

lemma evolves_foldl {w : W} (h : T.Valid w) (cs : List C) :
    Evolves (fun r => T.bound w < T.id r) (T.listed w) (T.listed (cs.foldl T.apply w)) := by
  induction cs generalizing w with
  | nil => exact .refl _ _
  | cons c cs ih =>
    refine (T.evolves w c h).trans ((ih (T.valid_apply w c h)).mono fun r hr => ?_)
    exact (T.bound_le w c).trans_lt hr

lemma valid_afterOps {w : W} (h : T.Valid w) (ops : ℕ → List C) (i : ℕ) :
    T.Valid (afterOps T.apply w ops i) :=
  afterOps_induction h (fun _ c _ v hv => T.valid_apply v c hv) i

lemma evolves_afterOps {w : W} (h : T.Valid w) (ops : ℕ → List C) (i : ℕ) :
    Evolves (· ∉ T.listed (afterOps T.apply w ops i)) (T.listed (afterOps T.apply w ops i))
      (T.listed (afterOps T.apply w ops (i + 1))) := by
  have hvalid := T.valid_afterOps h ops i
  refine (T.evolves_foldl hvalid (ops i)).mono fun r hr hmem => ?_
  exact absurd (T.below _ hvalid r hmem) (Nat.not_le.mpr hr)

/-- If nothing is lost that has been seen, the walk has seen the list as it is at the last
request. -/
theorem flatten_eq {w : W} (h : T.Valid w) {ops : ℕ → List C} {size : ℕ} (hpos : 0 < size)
    {pages : List (List R)}
    (hwalk : OffsetWalk size (fun i => T.listed (afterOps T.apply w ops i)) 0 0 pages)
    (hkept : ∀ j < pages.length, ∀ r ∈ (pages.take j).flatten,
      r ∈ T.listed (afterOps T.apply w ops j)) :
    pages.flatten = T.listed (afterOps T.apply w ops (pages.length - 1)) := by
  have hflatten : [] ++ pages.flatten =
      T.listed (afterOps T.apply w ops (0 + pages.length - 1)) := by
    refine hwalk.flatten_eq hpos (T.evolves_afterOps h ops) rfl List.nil_prefix fun j hj r hr => ?_
    rw [Nat.zero_add]
    exact hkept j hj r hr
  rwa [List.nil_append, Nat.zero_add] at hflatten

end Timeline

end Deltio.Lib
