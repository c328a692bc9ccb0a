import Mathlib.Data.List.AList
import Mathlib.Data.Multiset.AddSub

namespace Deltio.Lib

/-- A finite map with one value per key.  The order of the list stands for the unspecified
iteration order. -/
def HashMap (K V : Type*) := AList fun _ : K => V

namespace HashMap

variable {K V : Type*}

instance : EmptyCollection (HashMap K V) := ⟨(∅ : AList fun _ : K => V)⟩

instance [DecidableEq K] [DecidableEq V] : DecidableEq (HashMap K V) :=
  inferInstanceAs (DecidableEq (AList fun _ : K => V))

/-- The keys, each once, in iteration order. -/
def keys (m : HashMap K V) : List K := AList.keys m

def values (m : HashMap K V) : List V := (AList.entries m).map Sigma.snd

def len (m : HashMap K V) : ℕ := (AList.entries m).length

def filterMap (f : K → V → Option V) (m : HashMap K V) : HashMap K V where
  entries := (AList.entries m).filterMap fun e => (f e.1 e.2).map fun v => ⟨e.1, v⟩
  nodupKeys := by
    have hsub : (((AList.entries m).filterMap
        fun e => (f e.1 e.2).map fun v => (⟨e.1, v⟩ : Sigma fun _ : K => V)).keys).Sublist
        (AList.entries m).keys := by
      induction AList.entries m with
      | nil => simp
      | cons e l ih =>
        rw [List.filterMap_cons]
        cases h : f e.1 e.2 with
        | none => exact ih.cons _
        | some v => exact ih.cons_cons _
    exact hsub.nodup (AList.keys_nodup m)

@[simp] lemma values_empty : (∅ : HashMap K V).values = [] := rfl

@[simp] lemma keys_empty : (∅ : HashMap K V).keys = [] := rfl

lemma len_eq_length_values (m : HashMap K V) : m.len = m.values.length := by
  simp [len, values]

lemma nodup_keys (m : HashMap K V) : m.keys.Nodup := AList.keys_nodup m

variable [DecidableEq K]

def get (m : HashMap K V) (k : K) : Option V := AList.lookup k m

def insert (m : HashMap K V) (k : K) (v : V) : HashMap K V := AList.insert k v m

def remove (m : HashMap K V) (k : K) : HashMap K V := AList.erase k m

def containsKey (m : HashMap K V) (k : K) : Bool := (m.get k).isSome

@[simp] lemma get_empty (k : K) : (∅ : HashMap K V).get k = none := rfl

lemma get_insert (m : HashMap K V) (k j : K) (v : V) :
    (m.insert k v).get j = if j = k then some v else m.get j := by
  split_ifs with h
  · subst h
    exact AList.lookup_insert m
  · exact AList.lookup_insert_ne h

@[simp] lemma get_insert_self (m : HashMap K V) (k : K) (v : V) :
    (m.insert k v).get k = some v := by
  simp [get_insert]

lemma get_remove (m : HashMap K V) (k j : K) :
    (m.remove k).get j = if j = k then none else m.get j := by
  split_ifs with h
  · subst h
    exact AList.lookup_erase j m
  · exact AList.lookup_erase_ne h

@[simp] lemma get_remove_self (m : HashMap K V) (k : K) : (m.remove k).get k = none := by
  simp [get_remove]

lemma get_insert_eq_update (m : HashMap K V) (k : K) (v : V) :
    (m.insert k v).get = Function.update m.get k (some v) := by
  funext j
  rw [get_insert, Function.update_apply]

lemma get_remove_eq_update (m : HashMap K V) (k : K) :
    (m.remove k).get = Function.update m.get k none := by
  funext j
  rw [get_remove, Function.update_apply]

lemma get_eq_some_iff (m : HashMap K V) (k : K) (v : V) :
    m.get k = some v ↔ ⟨k, v⟩ ∈ AList.entries m :=
  AList.mem_lookup_iff

lemma mem_values (m : HashMap K V) (v : V) : v ∈ m.values ↔ ∃ k, m.get k = some v := by
  simp only [values, List.mem_map, get_eq_some_iff]
  constructor
  · rintro ⟨⟨k, w⟩, h, rfl⟩
    exact ⟨k, h⟩
  · rintro ⟨k, h⟩
    exact ⟨⟨k, v⟩, h, rfl⟩

lemma mem_keys (m : HashMap K V) (k : K) : k ∈ m.keys ↔ ∃ v, m.get k = some v := by
  rw [← Option.isSome_iff_exists]
  exact AList.lookup_isSome.symm

lemma get_filterMap (f : K → V → Option V) (m : HashMap K V) (k : K) :
    (m.filterMap f).get k = (m.get k).bind (f k) := by
  ext v
  rw [get_eq_some_iff, Option.bind_eq_some_iff]
  simp only [filterMap, get_eq_some_iff, List.mem_filterMap, Option.map_eq_some_iff]
  constructor
  · rintro ⟨⟨j, w⟩, hmem, u, hu, he⟩
    cases he
    exact ⟨w, hmem, hu⟩
  · rintro ⟨w, hmem, hw⟩
    exact ⟨⟨k, w⟩, hmem, v, hw, rfl⟩

/-- Collecting pairs whose values are determined by their keys. -/
lemma get_foldl_insert {f : K → Option V} {es : List (K × V)} (h : ∀ e ∈ es, f e.1 = some e.2)
    (m : HashMap K V) (k : K) : (es.foldl (fun m e => m.insert e.1 e.2) m).get k =
      if k ∈ es.map Prod.fst then f k else m.get k := by
  induction es generalizing m with
  | nil => simp
  | cons e es ih =>
    rw [List.foldl_cons, ih (fun e' he' => h e' (List.mem_cons_of_mem _ he')), get_insert]
    by_cases hk : k = e.1
    · subst hk
      simp [h e List.mem_cons_self]
    · have hiff : k ∈ (e :: es).map Prod.fst ↔ k ∈ es.map Prod.fst := by
        rw [List.map_cons, List.mem_cons, or_iff_right hk]
      simp only [hk, if_false, hiff]

/-- Removing one key commutes with inserting another. -/
lemma remove_insert_of_ne {j k : K} (h : j ≠ k) (m : HashMap K V) (v : V) :
    (m.insert k v).remove j = (m.remove j).insert k v := by
  apply AList.ext
  change List.kerase j (⟨k, v⟩ :: List.kerase k m.entries) =
    ⟨k, v⟩ :: List.kerase k (List.kerase j m.entries)
  rw [List.kerase_cons_ne h, List.kerase_kerase]

lemma foldl_remove_insert {keys : List K} {k : K} (h : k ∉ keys) (m : HashMap K V) (v : V) :
    keys.foldl remove (m.insert k v) = (keys.foldl remove m).insert k v := by
  induction keys generalizing m with
  | nil => rfl
  | cons j keys ih =>
    rw [List.mem_cons, not_or] at h
    rw [List.foldl_cons, List.foldl_cons, remove_insert_of_ne (Ne.symm h.1), ih h.2]

lemma get_foldl_remove (ks : List K) (m : HashMap K V) (k : K) :
    (ks.foldl remove m).get k = if k ∈ ks then none else m.get k := by
  induction ks generalizing m with
  | nil => rw [List.foldl_nil, if_neg List.not_mem_nil]
  | cons j ks ih =>
    rw [List.foldl_cons, ih, get_remove]
    simp only [List.mem_cons]
    split_ifs <;> tauto

/-- A value that is in none of the lists does not occur in all of them. -/
lemma count_flatten_values {α : Type*} [DecidableEq α] {m : HashMap K (List α)} {a : α}
    (h : ∀ k l, m.get k = some l → a ∉ l) : m.values.flatten.count a = 0 := by
  rw [List.count_eq_zero]
  intro ha
  obtain ⟨l, hl, ha⟩ := List.mem_flatten.mp ha
  obtain ⟨k, hget⟩ := (mem_values m l).mp hl
  exact h k l hget ha

lemma values_insert {m : HashMap K V} {k : K} (h : m.get k = none) (v : V) :
    (m.insert k v).values = v :: m.values := by
  have hk := AList.lookup_eq_none.mp h
  have he : AList.entries (m.insert k v) = ⟨k, v⟩ :: AList.entries m :=
    AList.entries_insert_of_notMem hk
  simp only [values, he, List.map_cons]

/-- A map that is given by a list of its entries. -/
lemma perm_of_get_iff {m : HashMap K V} {es : List (K × V)} (hes : (es.map Prod.fst).Nodup)
    (h : ∀ k v, m.get k = some v ↔ (k, v) ∈ es) :
    m.keys.Perm (es.map Prod.fst) ∧ m.values.Perm (es.map Prod.snd) := by
  have hentries : (AList.entries m).Perm (es.map fun e => ⟨e.1, e.2⟩) := by
    refine (List.perm_ext_iff_of_nodup (List.nodupKeys_iff_pairwise.mp m.nodupKeys |>.imp ?_)
      ?_).mpr ?_
    · rintro e e' hne rfl
      exact hne rfl
    · refine (List.Nodup.of_map Prod.fst hes).map ?_
      rintro ⟨k, v⟩ ⟨k', v'⟩ heq
      cases heq
      rfl
    · rintro ⟨k, v⟩
      rw [← get_eq_some_iff, h, List.mem_map]
      constructor
      · intro hmem
        exact ⟨(k, v), hmem, rfl⟩
      · rintro ⟨⟨k', v'⟩, hmem, heq⟩
        cases heq
        exact hmem
  constructor
  · have hkeys := hentries.map Sigma.fst
    rwa [List.map_map] at hkeys
  · have hvalues := hentries.map Sigma.snd
    rwa [List.map_map] at hvalues

/-- Removing a present key takes exactly its value out. -/
lemma values_perm_remove {m : HashMap K V} {k : K} {v : V} (h : m.get k = some v) :
    m.values.Perm (v :: (m.remove k).values) := by
  have hk : k ∈ (AList.entries m).keys := by
    have hs : (AList.lookup k m).isSome := by
      change (m.get k).isSome
      simp [h]
    exact AList.lookup_isSome.mp hs
  obtain ⟨w, l₁, l₂, -, he, hr⟩ := List.exists_of_kerase hk
  have hw : w = v := by
    have hmem : (⟨k, w⟩ : Sigma fun _ : K => V) ∈ AList.entries m := by rw [he]; simp
    rw [← get_eq_some_iff, h] at hmem
    exact (Option.some.inj hmem).symm
  subst hw
  have hv : (m.remove k).values = (l₁ ++ l₂).map Sigma.snd := congrArg _ hr
  rw [hv, values, he, List.map_append, List.map_cons, List.map_append]
  exact List.perm_middle

/-- A value that occurs once has one key. -/
lemma eq_of_get_of_count [DecidableEq V] {m : HashMap K V} {j k : K} {v : V}
    (hj : m.get j = some v) (hk : m.get k = some v) (h : m.values.count v ≤ 1) : j = k := by
  by_contra hne
  have hrest : (m.remove k).get j = some v := by rw [get_remove, if_neg hne, hj]
  have hpos := List.count_pos_iff.mpr ((mem_values _ _).mpr ⟨j, hrest⟩)
  rw [(values_perm_remove hk).count_eq, List.count_cons_self] at h
  omega

/-- Overwriting a present key exchanges its value. -/
lemma values_perm_insert {m : HashMap K V} {k : K} {v w : V} (h : m.get k = some v) :
    (v :: (m.insert k w).values).Perm (w :: m.values) := by
  have hi : (m.insert k w).values = w :: (m.remove k).values := rfl
  rw [hi]
  exact (List.Perm.swap w v _).trans ((values_perm_remove h).symm.cons w)

end HashMap

end Deltio.Lib
