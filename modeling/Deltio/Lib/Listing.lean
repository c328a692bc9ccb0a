import Deltio.Lib.OffsetWalk
import Deltio.Lib.Registry
import Mathlib.Data.List.Sort

namespace Deltio.Lib

variable {N R : Type*} [DecidableEq N]

/-- The handles that are wanted, in the order of their numbers. -/
def listing (id : R → ℕ) (wanted : R → Bool) (entries : HashMap N R) : List R :=
  (entries.values.filter wanted).insertionSort fun a b => id a ≤ id b

lemma mem_listing {id : R → ℕ} {wanted : R → Bool} {entries : HashMap N R} {r : R} :
    r ∈ listing id wanted entries ↔ wanted r = true ∧ ∃ n, entries.get n = some r := by
  unfold listing
  rw [List.mem_insertionSort, List.mem_filter, HashMap.mem_values, and_comm]

omit [DecidableEq N] in
lemma length_listing_le (id : R → ℕ) (wanted : R → Bool) (entries : HashMap N R) :
    (listing id wanted entries).length ≤ entries.len := by
  unfold listing
  rw [List.length_insertionSort, HashMap.len_eq_length_values]
  exact List.length_filter_le _ _

lemma DistinctIds.pairwise_values {id : R → ℕ} {entries : HashMap N R}
    (h : DistinctIds id entries) : entries.values.Pairwise fun a b => id a ≠ id b := by
  have hkeys : (AList.entries entries).Pairwise fun e e' => e.1 ≠ e'.1 :=
    List.pairwise_map.mp entries.nodup_keys
  refine List.pairwise_map.mpr (hkeys.imp_of_mem ?_)
  intro e e' he he' hne hid
  exact hne (h e.1 e'.1 e.2 e'.2 ((entries.get_eq_some_iff _ _).mpr he)
    ((entries.get_eq_some_iff _ _).mpr he') hid)

/-- With distinct numbers the listing is strictly increasing. -/
lemma DistinctIds.pairwise_listing {id : R → ℕ} {entries : HashMap N R}
    (h : DistinctIds id entries) (wanted : R → Bool) :
    (listing id wanted entries).Pairwise fun a b => id a < id b := by
  have hle : (listing id wanted entries).Pairwise fun a b => id a ≤ id b :=
    List.pairwise_insertionSort _ _
  have hne : (listing id wanted entries).Pairwise fun a b => id a ≠ id b := by
    refine (List.Perm.pairwise_iff ?_ (List.perm_insertionSort _ _)).mpr
      (h.pairwise_values.filter wanted)
    exact fun hab => Ne.symm hab
  exact (hle.and hne).imp fun hab => lt_of_le_of_ne hab.1 hab.2

lemma nodup_of_pairwise {id : R → ℕ} {l : List R} (h : l.Pairwise fun a b => id a < id b) :
    l.Nodup := by
  refine h.imp fun {a b} hlt heq => ?_
  rw [heq] at hlt
  exact lt_irrefl _ hlt

/-- Increasing lists with the same elements are the same. -/
lemma eq_of_pairwise_of_mem {id : R → ℕ} {l l' : List R} (h : l.Pairwise fun a b => id a < id b)
    (h' : l'.Pairwise fun a b => id a < id b) (hmem : ∀ r, r ∈ l ↔ r ∈ l') : l = l' := by
  refine List.Perm.eq_of_pairwise ?_ h h'
    ((List.perm_ext_iff_of_nodup (nodup_of_pairwise h) (nodup_of_pairwise h')).mpr hmem)
  exact fun a b _ _ hab hba => absurd (hab.trans hba) (lt_irrefl _)

section

variable {name : R → N} {id : R → ℕ} {entries : HashMap N R} {nextId : ℕ} {wanted : R → Bool}

/-- A new handle comes last. -/
lemma Numbered.listing_insert (h : Numbered name id entries nextId) {r : R}
    (hr : id r = nextId + 1) (hfree : entries.get (name r) = none) :
    listing id wanted (entries.insert (name r) r) =
      listing id wanted entries ++ if wanted r then [r] else [] := by
  refine eq_of_pairwise_of_mem ((h.insert hr).distinct.pairwise_listing wanted) ?_ fun r' => ?_
  · refine List.pairwise_append.mpr ⟨h.distinct.pairwise_listing wanted, ?_, ?_⟩
    · split_ifs
      · exact List.pairwise_singleton _ _
      · exact .nil
    · intro a ha b hb
      obtain ⟨-, n, hn⟩ := mem_listing.mp ha
      have hle := h.below n a hn
      split_ifs at hb
      · rw [List.mem_singleton.mp hb]
        omega
      · cases hb
  · rw [List.mem_append, mem_listing, mem_listing]
    constructor
    · rintro ⟨hwanted, n, hn⟩
      rw [HashMap.get_insert] at hn
      split_ifs at hn
      · rw [← Option.some.inj hn] at hwanted ⊢
        exact .inr (by rw [if_pos hwanted]; exact List.mem_singleton_self r)
      · exact .inl ⟨hwanted, n, hn⟩
    · rintro (⟨hwanted, n, hn⟩ | hmem)
      · refine ⟨hwanted, n, ?_⟩
        have hne : n ≠ name r := by
          rintro rfl
          rw [hfree] at hn
          cases hn
        rw [HashMap.get_insert, if_neg hne, hn]
      · split_ifs at hmem with hwanted
        · rw [List.mem_singleton.mp hmem]
          exact ⟨hwanted, name r, HashMap.get_insert_self _ _ _⟩
        · cases hmem

/-- The others stay where they are. -/
lemma Numbered.listing_remove (h : Numbered name id entries nextId) (n : N) :
    listing id wanted (entries.remove n) =
      (listing id wanted entries).filter fun r => decide (name r ≠ n) := by
  refine eq_of_pairwise_of_mem ((h.remove n).distinct.pairwise_listing wanted)
    ((h.distinct.pairwise_listing wanted).filter _) fun r => ?_
  rw [List.mem_filter, mem_listing, mem_listing, decide_eq_true_iff]
  constructor
  · rintro ⟨hwanted, n', hn'⟩
    rw [HashMap.get_remove] at hn'
    split_ifs at hn' with hne
    exact ⟨⟨hwanted, n', hn'⟩, by rw [h.named n' r hn']; exact hne⟩
  · rintro ⟨⟨hwanted, n', hn'⟩, hne⟩
    rw [h.named n' r hn'] at hne
    exact ⟨hwanted, n', by rw [HashMap.get_remove, if_neg hne, hn']⟩

end

/-- A registry gets a new handle under a free name, or none. -/
inductive Grows (name : R → N) (id : R → ℕ) :
    HashMap N R → ℕ → HashMap N R → ℕ → Prop
  | same {entries : HashMap N R} {nextId nextId' : ℕ} (hle : nextId ≤ nextId') :
      Grows name id entries nextId entries nextId'
  | insert {entries : HashMap N R} {nextId : ℕ} {r : R} (hid : id r = nextId + 1)
      (hfree : entries.get (name r) = none) :
      Grows name id entries nextId (entries.insert (name r) r) (nextId + 1)

/-- A registry grows, or loses what it has under a name. -/
inductive Changes (name : R → N) (id : R → ℕ) : HashMap N R → ℕ → HashMap N R → ℕ → Prop
  | grows {entries entries' : HashMap N R} {nextId nextId' : ℕ}
      (h : Grows name id entries nextId entries' nextId') :
      Changes name id entries nextId entries' nextId'
  | remove (entries : HashMap N R) (nextId : ℕ) (n : N) :
      Changes name id entries nextId (entries.remove n) nextId

section

variable {name : R → N} {id : R → ℕ} {entries entries' : HashMap N R} {nextId nextId' : ℕ}

lemma Changes.le (h : Changes name id entries nextId entries' nextId') : nextId ≤ nextId' := by
  cases h with
  | grows h =>
    cases h with
    | same hle => exact hle
    | insert => exact Nat.le_succ _
  | remove => exact le_rfl

lemma Changes.numbered (h : Changes name id entries nextId entries' nextId')
    (hn : Numbered name id entries nextId) : Numbered name id entries' nextId' := by
  cases h with
  | grows h =>
    cases h with
    | same hle => exact hn.mono hle
    | insert hid => exact hn.insert hid
  | remove _ n => exact hn.remove n

lemma Changes.evolves (h : Changes name id entries nextId entries' nextId')
    (hn : Numbered name id entries nextId) (wanted : R → Bool) :
    Evolves (fun r => nextId < id r) (listing id wanted entries) (listing id wanted entries') := by
  cases h with
  | grows h =>
    cases h with
    | same => exact .refl _ _
    | @insert r hid hfree =>
      rw [hn.listing_insert hid hfree]
      refine .append _ fun r' hr' => ?_
      split_ifs at hr'
      · rw [List.mem_singleton.mp hr', hid]
        exact Nat.lt_succ_self _
      · cases hr'
  | remove _ n =>
    rw [hn.listing_remove n]
    exact .filter _ _ _

end

/-- Everything is still there, and what is new is numbered above the bound. -/
structure Grown (name : R → N) (id : R → ℕ) (entries : HashMap N R) (bound : ℕ)
    (entries' : HashMap N R) : Prop where
  distinct : DistinctIds id entries'
  kept : ∀ n r, entries.get n = some r → entries'.get n = some r
  fresh : ∀ n r, entries'.get n = some r → entries.get n = some r ∨ bound < id r

namespace Grown

variable {name : R → N} {id : R → ℕ} {entries entries' entries'' : HashMap N R} {bound : ℕ}

lemma refl (h : DistinctIds id entries) (bound : ℕ) : Grown name id entries bound entries :=
  ⟨h, fun _ _ hr => hr, fun _ _ hr => .inl hr⟩

lemma insert (h : Grown name id entries bound entries') {r : R}
    (hfree : entries'.get (name r) = none) (hbound : bound < id r)
    (hother : ∀ n r', entries'.get n = some r' → id r' ≠ id r) :
    Grown name id entries bound (entries'.insert (name r) r) := by
  have hcases : ∀ n r', (entries'.insert (name r) r).get n = some r' →
      (n = name r ∧ r' = r) ∨ entries'.get n = some r' := by
    intro n r' hr'
    rw [HashMap.get_insert] at hr'
    split_ifs at hr' with hn
    · exact .inl ⟨hn, (Option.some.inj hr').symm⟩
    · exact .inr hr'
  constructor
  · intro n n' r₁ r₂ h₁ h₂ heq
    rcases hcases n r₁ h₁ with ⟨hn, hr₁⟩ | hold₁ <;> rcases hcases n' r₂ h₂ with ⟨hn', hr₂⟩ | hold₂
    · rw [hn, hn']
    · exact absurd (heq.symm.trans (congrArg id hr₁)) (hother n' r₂ hold₂)
    · exact absurd (heq.trans (congrArg id hr₂)) (hother n r₁ hold₁)
    · exact h.distinct n n' r₁ r₂ hold₁ hold₂ heq
  · intro n r' hr'
    have hold := h.kept n r' hr'
    have hne : n ≠ name r := by
      rintro rfl
      rw [hfree] at hold
      cases hold
    rw [HashMap.get_insert, if_neg hne, hold]
  · intro n r' hr'
    rcases hcases n r' hr' with ⟨-, rfl⟩ | hold
    · exact .inr hbound
    · exact h.fresh n r' hold

lemma grows (h : Grown name id entries bound entries') {nextId nextId' : ℕ}
    (hn : Numbered name id entries' nextId) (hle : bound ≤ nextId)
    (hgrows : Grows name id entries' nextId entries'' nextId') :
    Grown name id entries bound entries'' := by
  cases hgrows with
  | same => exact h
  | insert hid hfree =>
    refine h.insert hfree (by omega) fun n r' hr' => ?_
    have hbelow := hn.below n r' hr'
    omega

lemma afterOps {W C : Type*} {apply : W → C → W} {entries : W → HashMap N R} {nextId : W → ℕ}
    {w : W} (h : Numbered name id (entries w) (nextId w)) {ops : ℕ → List C}
    (hgrows : ∀ i, ∀ c ∈ ops i, ∀ v,
      Grows name id (entries v) (nextId v) (entries (apply v c)) (nextId (apply v c))) (i : ℕ) :
    Grown name id (entries w) (nextId w) (entries (Lib.afterOps apply w ops i)) := by
  have hall : Numbered name id (entries (Lib.afterOps apply w ops i))
        (nextId (Lib.afterOps apply w ops i)) ∧ nextId w ≤ nextId (Lib.afterOps apply w ops i) ∧
      Grown name id (entries w) (nextId w) (entries (Lib.afterOps apply w ops i)) := by
    refine afterOps_induction (P := fun v => Numbered name id (entries v) (nextId v) ∧
      nextId w ≤ nextId v ∧ Grown name id (entries w) (nextId w) (entries v))
      ⟨h, le_rfl, .refl h.distinct _⟩ ?_ i
    rintro i c hc v ⟨hv, hle, hgrown⟩
    have hchange : Changes name id (entries v) (nextId v) (entries (apply v c))
        (nextId (apply v c)) := .grows (hgrows i c hc v)
    exact ⟨hchange.numbered hv, hle.trans hchange.le, hgrown.grows hv hle (hgrows i c hc v)⟩
  exact hall.2.2

end Grown

/-- The listing of a registry that changes with every operation. -/
def registryTimeline {W C : Type*} {name : R → N} {id : R → ℕ} {apply : W → C → W}
    {entries : W → HashMap N R} {nextId : W → ℕ} (wanted : R → Bool)
    (h : ∀ w c, Changes name id (entries w) (nextId w) (entries (apply w c)) (nextId (apply w c))) :
    Timeline W C R where
  apply := apply
  listed w := listing id wanted (entries w)
  id := id
  bound := nextId
  Valid w := Numbered name id (entries w) (nextId w)
  valid_apply w c hw := (h w c).numbered hw
  bound_le w c := (h w c).le
  below w hw r hr := by
    obtain ⟨-, n, hn⟩ := mem_listing.mp hr
    exact hw.below n r hn
  evolves w c hw := (h w c).evolves hw wanted

end Deltio.Lib
