import Deltio.Lib.HashMap

namespace Deltio.Lib

variable {N R : Type*} [DecidableEq N]

/-- No two names have handles with the same number. -/
def DistinctIds (id : R → ℕ) (entries : HashMap N R) : Prop :=
  ∀ n n' r r', entries.get n = some r → entries.get n' = some r' → id r = id r' → n = n'

/-- The handles are under their own names, and their numbers are distinct and among those
that the counter has passed. -/
structure Numbered (name : R → N) (id : R → ℕ) (entries : HashMap N R) (nextId : ℕ) : Prop where
  named : ∀ n r, entries.get n = some r → name r = n
  below : ∀ n r, entries.get n = some r → id r ≤ nextId
  distinct : DistinctIds id entries

namespace Numbered

variable {name : R → N} {id : R → ℕ} {entries : HashMap N R} {nextId : ℕ}

lemma empty (name : R → N) (id : R → ℕ) (nextId : ℕ) : Numbered name id ∅ nextId where
  named _ _ h := by cases h
  below _ _ h := by cases h
  distinct _ _ _ _ h := by cases h

lemma mono (h : Numbered name id entries nextId) {nextId' : ℕ} (hle : nextId ≤ nextId') :
    Numbered name id entries nextId' :=
  ⟨h.named, fun n r hr => (h.below n r hr).trans hle, h.distinct⟩

lemma insert (h : Numbered name id entries nextId) {r : R} (hr : id r = nextId + 1) :
    Numbered name id (entries.insert (name r) r) (nextId + 1) := by
  have hcases : ∀ n r', (entries.insert (name r) r).get n = some r' →
      (n = name r ∧ r' = r) ∨ entries.get n = some r' := by
    intro n r' hr'
    rw [HashMap.get_insert] at hr'
    split_ifs at hr' with hn
    · exact .inl ⟨hn, (Option.some.inj hr').symm⟩
    · exact .inr hr'
  constructor
  · intro n r' hr'
    rcases hcases n r' hr' with ⟨rfl, rfl⟩ | hold
    · rfl
    · exact h.named n r' hold
  · intro n r' hr'
    rcases hcases n r' hr' with ⟨rfl, rfl⟩ | hold
    · exact hr.le
    · exact (h.below n r' hold).trans (Nat.le_succ _)
  · intro n n' r₁ r₂ h₁ h₂ heq
    rcases hcases n r₁ h₁ with ⟨hn, hr₁⟩ | hold₁ <;> rcases hcases n' r₂ h₂ with ⟨hn', hr₂⟩ | hold₂
    · rw [hn, hn']
    · have hle := h.below n' r₂ hold₂
      rw [← heq, hr₁, hr] at hle
      omega
    · have hle := h.below n r₁ hold₁
      rw [heq, hr₂, hr] at hle
      omega
    · exact h.distinct n n' r₁ r₂ hold₁ hold₂ heq

lemma remove (h : Numbered name id entries nextId) (n : N) :
    Numbered name id (entries.remove n) nextId := by
  have hold : ∀ n' r, (entries.remove n).get n' = some r → entries.get n' = some r := by
    intro n' r hr
    rw [HashMap.get_remove] at hr
    split_ifs at hr
    exact hr
  exact ⟨fun n' r hr => h.named n' r (hold n' r hr), fun n' r hr => h.below n' r (hold n' r hr),
    fun n₁ n₂ r₁ r₂ h₁ h₂ => h.distinct n₁ n₂ r₁ r₂ (hold n₁ r₁ h₁) (hold n₂ r₂ h₂)⟩

end Numbered

/-- The entries are exactly the live handles, under their names. -/
def Names (name : R → N) (live : R → Prop) (entries : HashMap N R) : Prop :=
  ∀ n r, entries.get n = some r ↔ name r = n ∧ live r

namespace Names

variable {name : R → N} {live live' : R → Prop} {entries : HashMap N R}

lemma empty (h : ∀ r, ¬ live r) : Names name live ∅ :=
  fun _ r => iff_of_false (by simp) fun hr => h r hr.2

lemma congr (h : Names name live entries) (hlive : ∀ r, live' r ↔ live r) :
    Names name live' entries := by
  intro n r
  rw [hlive]
  exact h n r

lemma eq_of_name (h : Names name live entries) {r r' : R} (hr : live r) (hr' : live r')
    (hname : name r' = name r) : r' = r := by
  have hget := (h (name r) r).mpr ⟨rfl, hr⟩
  rw [(h (name r) r').mpr ⟨hname, hr'⟩] at hget
  exact Option.some.inj hget

/-- A new handle under a free name. -/
lemma insert (h : Names name live entries) {r : R} (hfree : entries.get (name r) = none) :
    Names name (fun r' => r' = r ∨ live r') (entries.insert (name r) r) := by
  intro n r'
  rw [HashMap.get_insert]
  split_ifs with hn
  · constructor
    · intro he
      cases he
      exact ⟨hn.symm, .inl rfl⟩
    · rintro ⟨hname, rfl | hlive⟩
      · rfl
      · have hget := (h n r').mpr ⟨hname, hlive⟩
        rw [hn, hfree] at hget
        cases hget
  · rw [h n r']
    refine and_congr_right fun hname => (or_iff_right ?_).symm
    rintro rfl
    exact hn hname.symm

/-- A live handle that takes out its name takes out itself. -/
lemma remove (h : Names name live entries) {r : R} (hr : live r) :
    Names name (fun r' => r' ≠ r ∧ live r') (entries.remove (name r)) := by
  intro n r'
  rw [HashMap.get_remove]
  split_ifs with hn
  · refine iff_of_false (by simp) ?_
    rintro ⟨hname, hne, hlive⟩
    exact hne (h.eq_of_name hr hlive (hname.trans hn))
  · rw [h n r']
    refine and_congr_right fun hname => (and_iff_right ?_).symm
    rintro rfl
    exact hn hname.symm

end Names

/-- These handles were created in this order, numbered from 2 on. -/
structure Counted (id : R → ℕ) (created : List R) (nextId : ℕ) : Prop where
  ids : created.map id = List.range' 2 created.length
  next : nextId = created.length + 1

namespace Counted

variable {id : R → ℕ} {created : List R} {nextId : ℕ}

lemma nil (id : R → ℕ) : Counted id [] 1 := ⟨rfl, rfl⟩

lemma append (h : Counted id created nextId) {r : R} (hr : id r = nextId + 1) :
    Counted id (created ++ [r]) (nextId + 1) where
  ids := by
    rw [List.map_append, h.ids, List.length_append, List.length_singleton, List.range'_concat,
      List.map_singleton, hr, h.next]
    congr 2
    omega
  next := by rw [h.next, List.length_append, List.length_singleton]

lemma bounds (h : Counted id created nextId) {r : R} (hr : r ∈ created) :
    2 ≤ id r ∧ id r ≤ nextId := by
  have hmem : id r ∈ List.range' 2 created.length := by
    rw [← h.ids]
    exact List.mem_map_of_mem hr
  rw [List.mem_range'_1] at hmem
  have hnext := h.next
  omega

lemma pairwise (h : Counted id created nextId) : created.Pairwise fun a b => id a < id b := by
  rw [← List.pairwise_map, h.ids]
  exact List.pairwise_lt_range'

lemma eq_of_id (h : Counted id created nextId) {r r' : R} (hr : r ∈ created) (hr' : r' ∈ created)
    (hid : id r = id r') : r = r' := by
  have hnodup : (created.map id).Nodup := by
    rw [h.ids]
    exact List.nodup_range'
  exact List.inj_on_of_nodup_map hnodup hr hr' hid

lemma not_mem (h : Counted id created nextId) {r : R} (hr : id r = nextId + 1) : r ∉ created := by
  intro hmem
  have hbounds := h.bounds hmem
  omega

/-- The live handles are numbered as they were created. -/
lemma numbered (h : Counted id created nextId) {name : R → N} {live : R → Prop}
    {entries : HashMap N R} (hnames : Names name live entries) (hlive : ∀ r, live r → r ∈ created) :
    Numbered name id entries nextId where
  named n r hr := ((hnames n r).mp hr).1
  below n r hr := (h.bounds (hlive r ((hnames n r).mp hr).2)).2
  distinct n n' r r' hr hr' hid := by
    obtain ⟨hname, hr⟩ := (hnames n r).mp hr
    obtain ⟨hname', hr'⟩ := (hnames n' r').mp hr'
    rw [← hname, ← hname', h.eq_of_id (hlive r hr) (hlive r' hr') hid]

end Counted

end Deltio.Lib
