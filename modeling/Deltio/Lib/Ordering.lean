import Deltio.Lib.Delivery

namespace Deltio.Lib.Places

variable {M K : Type*}

lemma pairwise_of_length_le_one {r : M → M → Prop} {l : List M} (h : l.length ≤ 1) :
    l.Pairwise r := by
  rcases l with _ | ⟨m, _ | ⟨m', l⟩⟩
  · exact List.Pairwise.nil
  · exact List.pairwise_singleton r m
  · simp at h

def out (p : Places M K) : Multiset M := p.leased + p.waiting

variable [DecidableEq K]

/-- Keyed messages are delivered one at a time and in the order of `rank`. -/
structure Ordered (route : M → Option K) (rank : M → ℕ) (p : Places M K) : Prop where
  keyed : p.Keyed route
  unkeyed : ∀ m ∈ p.backlog, route m = none
  busy : ∀ m ∈ p.out, ∀ k, route m = some k → k ∈ p.busy
  single : ∀ k, (p.out.filter fun m => route m = some k).card ≤ 1
  increasing : ∀ k, (p.queue k).Pairwise fun m m' => rank m < rank m'
  oldest : ∀ k, ∀ m ∈ p.out, route m = some k → ∀ m' ∈ p.queue k, rank m < rank m'

variable {route : M → Option K} {rank : M → ℕ}

/-- Two messages of one key are never out together. -/
lemma Ordered.route_ne {p : Places M K} (hp : p.Ordered route rank) {m : M} {rest : Multiset M}
    (h : p.out = m ::ₘ rest) {k : K} (hm : route m = some k) : ∀ m' ∈ rest, route m' ≠ some k := by
  intro m' hm' hk
  have hs := hp.single k
  rw [h, Multiset.filter_cons_of_pos (p := fun m => route m = some k) _ hm, Multiset.card_cons] at hs
  have h0 : rest.filter (fun m => route m = some k) = 0 := Multiset.card_eq_zero.mp (by omega)
  have hmem : m' ∈ rest.filter fun m => route m = some k := Multiset.mem_filter.mpr ⟨hm', hk⟩
  rw [h0] at hmem
  exact Multiset.notMem_zero _ hmem

/-- A message that was out is gone, and no key but its own was freed. -/
lemma Ordered.remove {p q : Places M K} (hp : p.Ordered route rank) {m : M} {rest : Multiset M}
    (h : p.out = m ::ₘ rest) (hq : q.out = rest) (hqueue : q.queue = p.queue)
    (hbacklog : q.backlog = p.backlog) (hbusy : ∀ k ∈ p.busy, route m ≠ some k → k ∈ q.busy) :
    q.Ordered route rank where
  keyed := by rw [Keyed, hqueue]; exact hp.keyed
  unkeyed := by rw [hbacklog]; exact hp.unkeyed
  busy := by
    intro m' hm' k hk
    rw [hq] at hm'
    have hmem : m' ∈ p.out := by rw [h]; exact Multiset.mem_cons_of_mem hm'
    exact hbusy k (hp.busy m' hmem k hk) fun hm => hp.route_ne h hm m' hm' hk
  single := by
    intro k
    refine le_trans (Multiset.card_le_card (Multiset.filter_le_filter _ ?_)) (hp.single k)
    rw [hq, h]
    exact Multiset.le_cons_self rest m
  increasing := by rw [hqueue]; exact hp.increasing
  oldest := by
    intro k m' hm' hk
    rw [hqueue]
    rw [hq] at hm'
    exact hp.oldest k m' (by rw [h]; exact Multiset.mem_cons_of_mem hm') hk

lemma Ordered.appendBacklog {p : Places M K} (hp : p.Ordered route rank) {m : M}
    (hm : route m = none) : Ordered route rank { p with backlog := p.backlog ++ [m] } := by
  refine ⟨hp.keyed, ?_, hp.busy, hp.single, hp.increasing, hp.oldest⟩
  intro m' hm'
  rcases List.mem_append.mp hm' with hm' | hm'
  · exact hp.unkeyed m' hm'
  · rw [List.mem_singleton.mp hm']
    exact hm

/-- A message older than its queue goes back to the head of it. -/
lemma Ordered.requeue {p : Places M K} (hp : p.Ordered route rank) {m : M}
    (hfree : ∀ k, route m = some k → ∀ m' ∈ p.out, route m' ≠ some k)
    (hold : ∀ k, route m = some k → ∀ m' ∈ p.queue k, rank m < rank m') :
    (p.requeue route m).Ordered route rank := by
  have hkeyed := hp.keyed.requeue m
  unfold Places.requeue at hkeyed ⊢
  cases hk : route m with
  | none => exact hp.appendBacklog hk
  | some k =>
    rw [hk] at hkeyed
    refine ⟨hkeyed, hp.unkeyed, ?_, hp.single, ?_, ?_⟩
    · intro m' hm' j hj
      have hne : j ≠ k := fun e => hfree k hk m' hm' (e ▸ hj)
      exact Finset.mem_erase.mpr ⟨hne, hp.busy m' hm' j hj⟩
    · intro j
      by_cases hj : j = k
      · subst hj
        simp only [Function.update_self]
        exact List.pairwise_cons.mpr ⟨hold j hk, hp.increasing j⟩
      · simp only [Function.update_of_ne hj]
        exact hp.increasing j
    · intro j m' hm' hj
      have hne : j ≠ k := fun e => hfree k hk m' hm' (e ▸ hj)
      simp only [Function.update_of_ne hne]
      exact hp.oldest j m' hm' hj

/-- A message that was out goes back to the queue of its key. -/
lemma Ordered.putBack {p q : Places M K} (hp : p.Ordered route rank) {m : M} {rest : Multiset M}
    (h : p.out = m ::ₘ rest) (hq : q.out = rest) (hqueue : q.queue = p.queue)
    (hbacklog : q.backlog = p.backlog) (hbusy : q.busy = p.busy) :
    (q.requeue route m).Ordered route rank := by
  have hmem : m ∈ p.out := by rw [h]; exact Multiset.mem_cons_self m _
  have hrest : q.Ordered route rank :=
    hp.remove h hq hqueue hbacklog fun _ hj _ => by rw [hbusy]; exact hj
  apply hrest.requeue
  · intro k hk
    rw [hq]
    exact hp.route_ne h hk
  · intro k hk
    rw [hqueue]
    exact hp.oldest k m hmem hk

/-- A shorter queue stays ordered. -/
lemma Ordered.dropHead {p q : Places M K} (hp : p.Ordered route rank) {k : K} {m : M}
    {rest : List M} (h : p.queue k = m :: rest) (hqueue : q.queue = Function.update p.queue k rest)
    (hbacklog : q.backlog = p.backlog) (hout : q.out = p.out) (hbusy : q.busy = p.busy) :
    q.Ordered route rank := by
  have hsub : ∀ j, (q.queue j).Sublist (p.queue j) := by
    intro j
    rw [hqueue]
    by_cases hj : j = k
    · subst hj
      rw [Function.update_self, h]
      exact List.sublist_cons_self m rest
    · rw [Function.update_of_ne hj]
  refine ⟨fun j m' hm' => hp.keyed j m' ((hsub j).subset hm'), ?_, ?_, ?_,
    fun j => (hp.increasing j).sublist (hsub j), ?_⟩
  · rw [hbacklog]; exact hp.unkeyed
  · rw [hout, hbusy]; exact hp.busy
  · rw [hout]; exact hp.single
  · intro j m' hm' hj m'' hm''
    rw [hout] at hm'
    exact hp.oldest j m' hm' hj m'' ((hsub j).subset hm'')

lemma Ordered.lease {p : Places M K} (hp : p.Ordered route rank) {k : K} {m : M}
    {rest : List M} (h : p.queue k = m :: rest) (hk : k ∉ p.busy) :
    Ordered route rank { p with
      queue := Function.update p.queue k rest
      leased := m ::ₘ p.leased
      busy := insert k p.busy } := by
  have hm : route m = some k := hp.keyed k m (by rw [h]; exact List.mem_cons_self)
  have hlt : ∀ m' ∈ rest, rank m < rank m' := by
    have hi := hp.increasing k
    rw [h] at hi
    exact (List.pairwise_cons.mp hi).1
  have hout : out { p with
      queue := Function.update p.queue k rest
      leased := m ::ₘ p.leased
      busy := insert k p.busy } = m ::ₘ p.out := Multiset.cons_add _ _ _
  -- a key that is not busy has nothing out
  have hfree : ∀ m' ∈ p.out, route m' ≠ some k := fun m' hm' hr => hk (hp.busy m' hm' k hr)
  have hdrop : Ordered route rank { p with queue := Function.update p.queue k rest } :=
    hp.dropHead h rfl rfl rfl rfl
  refine ⟨hdrop.keyed, hp.unkeyed, ?_, ?_, hdrop.increasing, ?_⟩
  · intro m' hm' j hj
    rw [hout] at hm'
    rcases Multiset.mem_cons.mp hm' with rfl | hm'
    · rw [hm] at hj
      exact Option.some.inj hj ▸ Finset.mem_insert_self _ _
    · exact Finset.mem_insert_of_mem (hp.busy m' hm' j hj)
  · intro j
    rw [hout]
    by_cases hj : j = k
    · subst hj
      rw [Multiset.filter_cons_of_pos (p := fun m => route m = some j) _ hm,
        Multiset.filter_eq_nil.mpr hfree]
      simp
    · rw [Multiset.filter_cons_of_neg (p := fun m => route m = some j) _
        (by rw [hm]; exact fun e => hj (Option.some.inj e).symm)]
      exact hp.single j
  · intro j m' hm' hj m'' hm''
    rw [hout] at hm'
    rcases Multiset.mem_cons.mp hm' with rfl | hm'
    · have hjk : j = k := Option.some.inj (hj.symm.trans hm)
      subst hjk
      simp only [Function.update_self] at hm''
      exact hlt m'' hm''
    · exact hdrop.oldest j m' hm' hj m'' hm''

/-- A message newer than every unsettled message of its key arrives. -/
lemma Ordered.enqueue {p : Places M K} (hp : p.Ordered route rank) {m : M}
    (hnew : ∀ k, route m = some k →
      (∀ m' ∈ p.queue k, rank m' < rank m) ∧ ∀ m' ∈ p.out, route m' = some k → rank m' < rank m) :
    (p.enqueue route m).Ordered route rank := by
  have hkeyed := hp.keyed.enqueue m
  unfold Places.enqueue at hkeyed ⊢
  cases hk : route m with
  | none => exact hp.appendBacklog hk
  | some k =>
    rw [hk] at hkeyed
    obtain ⟨hq, ho⟩ := hnew k hk
    refine ⟨hkeyed, hp.unkeyed, hp.busy, hp.single, ?_, ?_⟩
    · intro j
      by_cases hj : j = k
      · subst hj
        simp only [Function.update_self]
        refine List.pairwise_append.mpr ⟨hp.increasing j, List.pairwise_singleton _ _, ?_⟩
        intro a ha b hb
        rw [List.mem_singleton.mp hb]
        exact hq a ha
      · simp only [Function.update_of_ne hj]
        exact hp.increasing j
    · intro j m' hm' hj m'' hm''
      by_cases hjk : j = k
      · subst hjk
        simp only [Function.update_self] at hm''
        rcases List.mem_append.mp hm'' with hm'' | hm''
        · exact hp.oldest j m' hm' hj m'' hm''
        · rw [List.mem_singleton.mp hm'']
          exact ho m' hm' hj
      · simp only [Function.update_of_ne hjk] at hm''
        exact hp.oldest j m' hm' hj m'' hm''

/-- A message without a key is leased. -/
lemma Ordered.leaseBacklog {p : Places M K} (hp : p.Ordered route rank) {m : M} {rest : List M}
    (h : p.backlog = m :: rest) :
    Ordered route rank { p with backlog := rest, leased := m ::ₘ p.leased } := by
  have hm : route m = none := hp.unkeyed m (by rw [h]; exact List.mem_cons_self)
  have hout : out { p with backlog := rest, leased := m ::ₘ p.leased } = m ::ₘ p.out :=
    Multiset.cons_add _ _ _
  -- the keyed messages that are out are the same as before
  have hkeyed : ∀ m' ∈ m ::ₘ p.out, ∀ k, route m' = some k → m' ∈ p.out := by
    intro m' hm' k hk
    rcases Multiset.mem_cons.mp hm' with rfl | hm'
    · rw [hm] at hk
      cases hk
    · exact hm'
  refine ⟨hp.keyed, ?_, ?_, ?_, hp.increasing, ?_⟩
  · exact fun m' hm' => hp.unkeyed m' (by rw [h]; exact List.mem_cons_of_mem _ hm')
  · intro m' hm' k hk
    exact hp.busy m' (hkeyed m' (hout ▸ hm') k hk) k hk
  · intro k
    rw [hout, Multiset.filter_cons_of_neg (p := fun m => route m = some k) _ (by simp [hm])]
    exact hp.single k
  · intro k m' hm' hk
    exact hp.oldest k m' (hkeyed m' (hout ▸ hm') k hk) hk

/-- What is put back goes in front of each queue, whatever the order in which it
is drained, since at most one message of a key is out. -/
lemma Ordered.rewind {p : Places M K} (hp : p.Ordered route rank) {keep : M → Bool}
    {order : List M} {dropped : Multiset M} (ho : (order : Multiset M) = p.out) :
    (p.rewind route keep order dropped).Ordered route rank := by
  have hmem : ∀ m, m ∈ order ↔ m ∈ p.out := fun m => by rw [← ho, Multiset.mem_coe]
  have hback : ∀ k, ∀ m ∈ (order.filter fun m => keep m && decide (route m = some k)).reverse,
      m ∈ p.out ∧ route m = some k := by
    intro k m hm
    obtain ⟨hm, hk⟩ := List.mem_filter.mp (List.mem_reverse.mp hm)
    rw [Bool.and_eq_true, decide_eq_true_eq] at hk
    exact ⟨(hmem m).mp hm, hk.2⟩
  have hone : ∀ k, (order.filter fun m => keep m && decide (route m = some k)).length ≤ 1 := by
    intro k
    refine le_trans ?_ (hp.single k)
    rw [← ho, Multiset.filter_coe, Multiset.coe_card]
    refine (List.monotone_filter_right order fun m hm => ?_).length_le
    exact (Bool.and_eq_true _ _ ▸ hm : _ ∧ _).2
  refine ⟨?_, ?_, ?_, ?_, ?_, ?_⟩
  · intro k m hm
    rcases List.mem_append.mp hm with hm | hm
    · exact (hback k m hm).2
    · exact hp.keyed k m (List.mem_filter.mp hm).1
  · intro m hm
    rcases List.mem_append.mp hm with hm | hm
    · exact hp.unkeyed m (List.mem_filter.mp hm).1
    · have hn := (List.mem_filter.mp hm).2
      rw [Bool.and_eq_true] at hn
      exact Option.isNone_iff_eq_none.mp hn.2
  · intro m hm
    simp [out, Places.rewind] at hm
  · intro k
    simp [out, Places.rewind]
  · intro k
    refine List.pairwise_append.mpr ⟨?_, (hp.increasing k).filter _, ?_⟩
    · apply pairwise_of_length_le_one
      rw [List.length_reverse]
      exact hone k
    · intro a ha b hb
      obtain ⟨ha, hk⟩ := hback k a ha
      exact hp.oldest k a ha hk b (List.mem_filter.mp hb).1
  · intro k m hm
    simp [out, Places.rewind] at hm

variable [DecidableEq M]

/-- Every act keeps the order, provided that what arrives is newer than what is
there. -/
theorem Step.ordered {p q : Places M K} {a : Act M} (h : Step route p a q)
    (hp : p.Ordered route rank)
    (hnew : ∀ m, a = .enqueue m → ∀ k, route m = some k →
      (∀ m' ∈ p.queue k, rank m' < rank m) ∧ ∀ m' ∈ p.out, route m' = some k → rank m' < rank m) :
    q.Ordered route rank := by
  cases h with
  | enqueue m => exact hp.enqueue (hnew m rfl)
  | leaseBacklog h => exact hp.leaseBacklog h
  | leaseQueue h hk => exact hp.lease h hk
  | @expireBacklog m rest h =>
    refine ⟨hp.keyed, ?_, hp.busy, hp.single, hp.increasing, hp.oldest⟩
    exact fun m' hm' => hp.unkeyed m' (by rw [h]; exact List.mem_cons_of_mem _ hm')
  | expireQueue h => exact hp.dropHead h rfl rfl rfl rfl
  | @ack m rest h =>
    have hout : p.out = m ::ₘ (rest + p.waiting) := by rw [out, h, Multiset.cons_add]
    unfold release
    split
    · next k hk =>
      refine hp.remove hout rfl rfl rfl fun j hj hne => Finset.mem_erase.mpr ⟨?_, hj⟩
      rintro rfl
      exact hne hk
    · exact hp.remove hout rfl rfl rfl fun _ hj _ => hj
  | @nack m rest h =>
    have hout : p.out = m ::ₘ (rest + p.waiting) := by rw [out, h, Multiset.cons_add]
    exact hp.putBack (q := { p with leased := rest }) hout rfl rfl rfl rfl
  | @defer m rest h =>
    have hout : out { p with leased := rest, waiting := m ::ₘ p.waiting } = p.out := by
      simp [out, h]
    refine ⟨hp.keyed, hp.unkeyed, ?_, ?_, hp.increasing, ?_⟩ <;> rw [hout]
    · exact hp.busy
    · exact hp.single
    · exact hp.oldest
  | @bury m rest h =>
    have hout : p.out = m ::ₘ (rest + p.waiting) := by rw [out, h, Multiset.cons_add]
    exact hp.remove hout rfl rfl rfl fun _ hj _ => hj
  | @ripen m rest h =>
    have hout : p.out = m ::ₘ (p.leased + rest) := by rw [out, h, Multiset.add_cons]
    exact hp.putBack (q := { p with waiting := rest }) hout rfl rfl rfl rfl
  | @rot m rest h =>
    have hout : p.out = m ::ₘ (p.leased + rest) := by rw [out, h, Multiset.add_cons]
    exact hp.remove hout rfl rfl rfl fun _ hj _ => hj
  | rewind keep order dropped ho hd hk => exact hp.rewind ho
  | clear => constructor <;> simp [Places.clear, out, Keyed]

/-- Every message that ever occurred is one of `seen`. -/
def Seen (route : M → Option K) (seen : List M) (p : Places M K) : Prop :=
  ∀ m, 0 < p.occ route m → m ∈ seen

lemma Step.seen {p q : Places M K} {a : Act M} {seen : List M} (h : Step route p a q)
    (hp : p.Keyed route) (hs : p.Seen route seen) : q.Seen route (seen ++ arrivals [a]) := by
  intro m hm
  by_cases ha : a = .clear
  · subst ha
    cases h
    refine List.mem_append_left _ (hs m (lt_of_lt_of_le hm ?_))
    have hown : p.clear.own route m = [] := by
      cases hr : route m <;> simp [own, hr, Places.clear]
    unfold occ
    rw [hown]
    simp only [Places.clear, List.count_nil, Multiset.count_zero]
    omega
  · rw [h.occ_eq hp ha] at hm
    rcases Nat.eq_zero_or_pos (p.occ route m) with h0 | h0
    · exact List.mem_append_right _ (List.count_pos_iff.mp (by omega))
    · exact List.mem_append_left _ (hs m h0)

omit [DecidableEq K] in
lemma Seen.of_queue {p : Places M K} {seen : List M} (hs : p.Seen route seen)
    (hp : p.Keyed route) {k : K} {m : M} (hm : m ∈ p.queue k) : m ∈ seen := by
  apply hs
  have hc : 0 < (p.own route m).count m := by
    rw [own_of_route (hp k m hm)]
    exact List.count_pos_iff.mpr hm
  unfold occ
  omega

omit [DecidableEq K] in
lemma Seen.of_out {p : Places M K} {seen : List M} (hs : p.Seen route seen) {m : M}
    (hm : m ∈ p.out) : m ∈ seen := by
  apply hs
  have hc : 0 < p.leased.count m + p.waiting.count m := by
    rw [← Multiset.count_add]
    exact Multiset.count_pos.mpr hm
  unfold occ
  omega

/-- Arrivals in increasing order keep every key in order, whatever else happens
in between. -/
theorem Steps.ordered {p q : Places M K} {as : List (Act M)} (h : Steps route p as q)
    {seen : List M} (hp : p.Ordered route rank) (hs : p.Seen route seen)
    (hinc : (seen ++ arrivals as).Pairwise fun m m' => rank m < rank m') :
    q.Ordered route rank ∧ q.Seen route (seen ++ arrivals as) := by
  induction h generalizing seen with
  | nil _ => exact ⟨hp, by simpa [arrivals] using hs⟩
  | @cons p q r a as h _ ih =>
    have he : seen ++ arrivals (a :: as) = (seen ++ arrivals [a]) ++ arrivals as := by
      rw [List.append_assoc, ← arrivals_append, List.singleton_append]
    rw [he] at hinc ⊢
    refine ih (h.ordered hp ?_) (h.seen hp.keyed hs) hinc
    rintro m rfl k hk
    -- everything of the key that is still there has arrived before
    have hlt : ∀ m' ∈ seen, rank m' < rank m := by
      intro m' hm'
      have hpre := (List.pairwise_append.mp hinc).1
      exact (List.pairwise_append.mp hpre).2.2 m' hm' m (by simp [arrivals])
    exact ⟨fun m' hm' => hlt m' (hs.of_queue hp.keyed hm'), fun m' hm' _ => hlt m' (hs.of_out hm')⟩

/-- Every busy key has a message out that will free it. -/
def Manned (route : M → Option K) (p : Places M K) : Prop :=
  ∀ k ∈ p.busy, ∃ m ∈ p.out, route m = some k

/-- The acts that take a keyed message out of circulation without freeing its
key. -/
def Strands (route : M → Option K) : Act M → Prop
  | .bury m | .rot m => (route m).isSome
  | _ => False

omit [DecidableEq K] [DecidableEq M] in
/-- The key of the message that leaves is no longer busy, or it had none. -/
lemma Manned.remove {p q : Places M K} (hp : p.Manned route) {m : M} {rest : Multiset M}
    (h : p.out = m ::ₘ rest) (hq : q.out = rest)
    (hbusy : ∀ k ∈ q.busy, k ∈ p.busy ∧ route m ≠ some k) : q.Manned route := by
  intro k hk
  obtain ⟨hk, hne⟩ := hbusy k hk
  obtain ⟨m', hm', hr⟩ := hp k hk
  rw [h] at hm'
  rcases Multiset.mem_cons.mp hm' with rfl | hm'
  · exact absurd hr hne
  · exact ⟨m', hq ▸ hm', hr⟩

omit [DecidableEq M] in
lemma Manned.requeue {p : Places M K} (hp : p.Manned route) {m : M} {rest : Multiset M}
    (h : p.out = m ::ₘ rest) {q : Places M K} (hq : q.out = rest) (hbusy : q.busy = p.busy) :
    (q.requeue route m).Manned route := by
  unfold Places.requeue
  split
  · next k hk =>
    refine hp.remove h hq ?_
    intro j hj
    obtain ⟨hne, hj⟩ := Finset.mem_erase.mp hj
    exact ⟨hbusy ▸ hj, fun e => hne (Option.some.inj (e.symm.trans hk))⟩
  · next hk => exact hp.remove h hq fun j hj => ⟨hbusy ▸ hj, by simp [hk]⟩

theorem Step.manned {p q : Places M K} {a : Act M} (h : Step route p a q) (hk : p.Keyed route)
    (hp : p.Manned route) (ha : ¬ Strands route a) : q.Manned route := by
  cases h with
  | enqueue m => unfold Places.enqueue; split <;> exact hp
  | leaseBacklog h =>
    intro k hb
    obtain ⟨m', hm', hr⟩ := hp k hb
    exact ⟨m', Multiset.mem_of_le (Multiset.add_le_add_right (Multiset.le_cons_self _ _)) hm', hr⟩
  | @leaseQueue k m rest h _ =>
    intro j hj
    rcases Finset.mem_insert.mp hj with rfl | hj
    · refine ⟨m, ?_, hk j m (by rw [h]; exact List.mem_cons_self)⟩
      exact Multiset.mem_add.mpr (Or.inl (Multiset.mem_cons_self m _))
    · obtain ⟨m', hm', hr⟩ := hp j hj
      exact ⟨m', Multiset.mem_of_le (Multiset.add_le_add_right (Multiset.le_cons_self _ _)) hm', hr⟩
  | expireBacklog h => exact hp
  | expireQueue h => exact hp
  | @ack m rest h =>
    have hout : p.out = m ::ₘ (rest + p.waiting) := by rw [out, h, Multiset.cons_add]
    unfold release
    split
    · next k hm =>
      refine hp.remove hout rfl fun j hj => ?_
      obtain ⟨hne, hj⟩ := Finset.mem_erase.mp hj
      exact ⟨hj, fun e => hne (Option.some.inj (e.symm.trans hm))⟩
    · next hm => exact hp.remove hout rfl fun j hj => ⟨hj, by simp [hm]⟩
  | @nack m rest h =>
    have hout : p.out = m ::ₘ (rest + p.waiting) := by rw [out, h, Multiset.cons_add]
    exact hp.requeue (q := { p with leased := rest }) hout rfl rfl
  | @defer m rest h =>
    have hout : out { p with leased := rest, waiting := m ::ₘ p.waiting } = p.out := by
      simp [out, h]
    intro k hb
    rw [hout]
    exact hp k hb
  | @bury m rest h =>
    have hout : p.out = m ::ₘ (rest + p.waiting) := by rw [out, h, Multiset.cons_add]
    have hm : route m = none := by simpa [Strands] using ha
    exact hp.remove hout rfl fun j hj => ⟨hj, by simp [hm]⟩
  | @ripen m rest h =>
    have hout : p.out = m ::ₘ (p.leased + rest) := by rw [out, h, Multiset.add_cons]
    exact hp.requeue (q := { p with waiting := rest }) hout rfl rfl
  | @rot m rest h =>
    have hout : p.out = m ::ₘ (p.leased + rest) := by rw [out, h, Multiset.add_cons]
    have hm : route m = none := by simpa [Strands] using ha
    exact hp.remove hout rfl fun j hj => ⟨hj, by simp [hm]⟩
  | rewind keep order dropped ho hd hk =>
    intro k hb
    simp [Places.rewind] at hb
  | clear =>
    intro k hb
    simp [Places.clear] at hb

end Deltio.Lib.Places
