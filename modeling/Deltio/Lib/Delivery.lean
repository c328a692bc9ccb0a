import Mathlib.Data.Multiset.Filter
import Mathlib.Data.Finset.Basic
import Mathlib.Logic.Function.Basic
import Mathlib.Tactic.Tauto

namespace Deltio.Lib

/-- Where every message is, and which keys are busy. -/
structure Places (M K : Type*) where
  backlog : List M
  queue : K → List M
  leased : Multiset M
  waiting : Multiset M
  busy : Finset K
  acked : Multiset M
  buried : Multiset M
  expired : Multiset M
  rewound : Multiset M

/-- What happens to a message: it arrives, is leased, expires in its queue, is
acknowledged, goes back to its queue, starts to wait for its retry, is given up,
ends its wait, or expires while waiting.  `rewind` resets the whole
subscription and `clear` forgets everything that is not settled. -/
inductive Act (M : Type*) where
  | enqueue (m : M)
  | lease (m : M)
  | expire (m : M)
  | ack (m : M)
  | requeue (m : M)
  | defer (m : M)
  | bury (m : M)
  | ripen (m : M)
  | rot (m : M)
  | rewind
  | clear
deriving DecidableEq

namespace Places

variable {M K : Type*} (route : M → Option K)

/-- The queue a message belongs to if it has a key. -/
def own (p : Places M K) (m : M) : List M :=
  match route m with
  | some k => p.queue k
  | none => []

variable {route} in
lemma own_of_route {p : Places M K} {m : M} {k : K} (h : route m = some k) :
    p.own route m = p.queue k := by
  simp [own, h]

/-- The message waits in the backlog or in the queue of an idle key. -/
def Available (p : Places M K) (m : M) : Prop :=
  m ∈ p.backlog ∨ ∃ k, k ∉ p.busy ∧ m ∈ p.queue k

def Failed : Act M → Prop
  | .bury _ | .defer _ | .requeue _ => True
  | _ => False

variable [DecidableEq K]

def enqueue (p : Places M K) (m : M) : Places M K :=
  match route m with
  | some k => { p with queue := Function.update p.queue k (p.queue k ++ [m]) }
  | none => { p with backlog := p.backlog ++ [m] }

def release (p : Places M K) (m : M) : Places M K :=
  match route m with
  | some k => { p with busy := p.busy.erase k }
  | none => p

/-- Puts a message back: to the head of its key's queue, which frees the key,
or to the end of the backlog. -/
def requeue (p : Places M K) (m : M) : Places M K :=
  match route m with
  | some k =>
    { p with queue := Function.update p.queue k (m :: p.queue k), busy := p.busy.erase k }
  | none => { p with backlog := p.backlog ++ [m] }

/-- Everything out comes back in the given order; what `keep` rejects is gone. -/
def rewind (keep : M → Bool) (order : List M) (dropped : Multiset M) (p : Places M K) :
    Places M K where
  backlog := p.backlog.filter keep ++ order.filter fun m => keep m && (route m).isNone
  queue k := (order.filter fun m => keep m && decide (route m = some k)).reverse ++
    (p.queue k).filter keep
  leased := 0
  waiting := 0
  busy := ∅
  acked := p.acked
  buried := p.buried
  expired := p.expired
  rewound := p.rewound + dropped

def clear (p : Places M K) : Places M K :=
  { p with backlog := [], queue := fun _ => [], leased := 0, waiting := 0, busy := ∅ }

inductive Step [DecidableEq M] : Places M K → Act M → Places M K → Prop
  | enqueue (p : Places M K) (m : M) : Step p (.enqueue m) (p.enqueue route m)
  | leaseBacklog {p : Places M K} {m : M} {rest : List M} (h : p.backlog = m :: rest) :
      Step p (.lease m) { p with backlog := rest, leased := m ::ₘ p.leased }
  | leaseQueue {p : Places M K} {k : K} {m : M} {rest : List M} (h : p.queue k = m :: rest)
      (hk : k ∉ p.busy) :
      Step p (.lease m) { p with
        queue := Function.update p.queue k rest
        leased := m ::ₘ p.leased
        busy := insert k p.busy }
  | expireBacklog {p : Places M K} {m : M} {rest : List M} (h : p.backlog = m :: rest) :
      Step p (.expire m) { p with backlog := rest, expired := m ::ₘ p.expired }
  | expireQueue {p : Places M K} {k : K} {m : M} {rest : List M} (h : p.queue k = m :: rest) :
      Step p (.expire m) { p with
        queue := Function.update p.queue k rest
        expired := m ::ₘ p.expired }
  | ack {p : Places M K} {m : M} {rest : Multiset M} (h : p.leased = m ::ₘ rest) :
      Step p (.ack m) (release route { p with leased := rest, acked := m ::ₘ p.acked } m)
  | nack {p : Places M K} {m : M} {rest : Multiset M} (h : p.leased = m ::ₘ rest) :
      Step p (.requeue m) (requeue route { p with leased := rest } m)
  | defer {p : Places M K} {m : M} {rest : Multiset M} (h : p.leased = m ::ₘ rest) :
      Step p (.defer m) { p with leased := rest, waiting := m ::ₘ p.waiting }
  | bury {p : Places M K} {m : M} {rest : Multiset M} (h : p.leased = m ::ₘ rest) :
      Step p (.bury m) { p with leased := rest, buried := m ::ₘ p.buried }
  | ripen {p : Places M K} {m : M} {rest : Multiset M} (h : p.waiting = m ::ₘ rest) :
      Step p (.ripen m) (requeue route { p with waiting := rest } m)
  | rot {p : Places M K} {m : M} {rest : Multiset M} (h : p.waiting = m ::ₘ rest) :
      Step p (.rot m) { p with waiting := rest, expired := m ::ₘ p.expired }
  | rewind {p : Places M K} (keep : M → Bool) (order : List M) (dropped : Multiset M)
      (ho : (order : Multiset M) = p.leased + p.waiting)
      (hd : ∀ m, keep m = false → dropped.count m =
        p.backlog.count m + (p.own route m).count m + order.count m)
      (hk : ∀ m, keep m = true → dropped.count m = 0) :
      Step p .rewind (p.rewind route keep order dropped)
  | clear (p : Places M K) : Step p .clear p.clear

inductive Steps [DecidableEq M] : Places M K → List (Act M) → Places M K → Prop
  | nil (p : Places M K) : Steps p [] p
  | cons {p q r : Places M K} {a : Act M} {as : List (Act M)} (h : Step route p a q)
      (hs : Steps q as r) : Steps p (a :: as) r

variable {route}

def Keyed (route : M → Option K) (p : Places M K) : Prop :=
  ∀ k, ∀ m ∈ p.queue k, route m = some k

def arrivals : List (Act M) → List M
  | [] => []
  | .enqueue m :: as => m :: arrivals as
  | _ :: as => arrivals as

def leases : List (Act M) → List M
  | [] => []
  | .lease m :: as => m :: leases as
  | _ :: as => leases as

@[simp] lemma leases_append (as bs : List (Act M)) :
    leases (as ++ bs) = leases as ++ leases bs := by
  induction as with
  | nil => rfl
  | cons a as ih => cases a <;> simp [leases, ih]

@[simp] lemma arrivals_append (as bs : List (Act M)) :
    arrivals (as ++ bs) = arrivals as ++ arrivals bs := by
  induction as with
  | nil => rfl
  | cons a as ih => cases a <;> simp [arrivals, ih]

lemma arrivals_eq_nil {as : List (Act M)} (h : ∀ m, Act.enqueue m ∉ as) : arrivals as = [] := by
  induction as with
  | nil => rfl
  | cons a as ih =>
    have hrest := ih fun m hm => h m (List.mem_cons_of_mem _ hm)
    cases a with
    | enqueue m => exact absurd List.mem_cons_self (h m)
    | _ => exact hrest

@[simp] lemma arrivals_map_enqueue (ms : List M) : arrivals (ms.map Act.enqueue) = ms := by
  induction ms with
  | nil => rfl
  | cons m ms ih => simp [arrivals, ih]

/-- Replacing one queue is seen by the messages of that key alone. -/
lemma own_of_queue_update {p q : Places M K} {k : K} {l : List M}
    (h : q.queue = Function.update p.queue k l) (m : M) :
    q.own route m = if route m = some k then l else p.own route m := by
  cases hm : route m with
  | none => simp [own, hm]
  | some j =>
    by_cases hj : j = k
    · simp [own, hm, h, hj]
    · simp [own, hm, h, hj]

lemma Keyed.update {p q : Places M K} {k : K} {l : List M} (hp : p.Keyed route)
    (h : q.queue = Function.update p.queue k l) (hl : ∀ m ∈ l, route m = some k) :
    q.Keyed route := by
  intro j m hm
  rw [h] at hm
  by_cases hj : j = k
  · subst hj
    rw [Function.update_self] at hm
    exact hl m hm
  · rw [Function.update_of_ne hj] at hm
    exact hp j m hm

lemma Keyed.requeue {p : Places M K} (hp : p.Keyed route) (m : M) :
    (p.requeue route m).Keyed route := by
  unfold Places.requeue
  split
  · next k hk =>
    refine hp.update rfl ?_
    intro m' hm'
    rcases List.mem_cons.mp hm' with rfl | hm'
    · exact hk
    · exact hp k m' hm'
  · exact hp

lemma Keyed.enqueue {p : Places M K} (hp : p.Keyed route) (m : M) :
    (p.enqueue route m).Keyed route := by
  unfold Places.enqueue
  split
  · next k hk =>
    refine hp.update rfl ?_
    intro m' hm'
    rcases List.mem_append.mp hm' with hm' | hm'
    · exact hp k m' hm'
    · rw [List.mem_singleton.mp hm', hk]
  · exact hp

variable [DecidableEq M]

lemma Step.keyed {p q : Places M K} {a : Act M} (h : Step route p a q) (hp : p.Keyed route) :
    q.Keyed route := by
  cases h with
  | enqueue m => exact hp.enqueue m
  | leaseBacklog h => exact hp
  | @leaseQueue k m rest h _ =>
    exact hp.update rfl fun m' hm' => hp k m' (h ▸ List.mem_cons_of_mem _ hm')
  | expireBacklog h => exact hp
  | @expireQueue k m rest h =>
    exact hp.update rfl fun m' hm' => hp k m' (h ▸ List.mem_cons_of_mem _ hm')
  | ack h => unfold release; split <;> exact hp
  | @nack m rest h => exact Keyed.requeue (p := { p with leased := rest }) hp m
  | defer h => exact hp
  | bury h => exact hp
  | @ripen m rest h => exact Keyed.requeue (p := { p with waiting := rest }) hp m
  | rot h => exact hp
  | rewind keep order dropped ho hd hk =>
    intro k m hm
    rcases List.mem_append.mp hm with hm | hm
    · have hk := (List.mem_filter.mp (List.mem_reverse.mp hm)).2
      exact (by simpa using hk : _ ∧ _).2
    · exact hp k m (List.mem_filter.mp hm).1
  | clear => intro k m hm; simp [Places.clear] at hm

lemma Step.steps {p q : Places M K} {a : Act M} (h : Step route p a q) : Steps route p [a] q :=
  .cons h (.nil q)

lemma Steps.eq_of_nil {p q : Places M K} (h : Steps route p [] q) : q = p := by
  cases h
  rfl

lemma Steps.append {p q r : Places M K} {as bs : List (Act M)} (h₁ : Steps route p as q)
    (h₂ : Steps route q bs r) : Steps route p (as ++ bs) r := by
  induction h₁ with
  | nil _ => exact h₂
  | cons h _ ih => exact .cons h (ih h₂)

/-- An invariant of every act that occurs is an invariant of the sequence. -/
theorem Steps.preserves {I : Places M K → Prop} {p q : Places M K} {as : List (Act M)}
    (hs : Steps route p as q)
    (hI : ∀ p' a q', a ∈ as → I p' → Step route p' a q' → I q') (hp : I p) : I q := by
  induction hs with
  | nil _ => exact hp
  | cons h _ ih =>
    refine ih (fun p' b q' hb => hI p' b q' (List.mem_cons_of_mem _ hb)) ?_
    exact hI _ _ _ List.mem_cons_self hp h

/-- How often a message occurs, settled or not. -/
def occ (route : M → Option K) (p : Places M K) (m : M) : ℕ :=
  p.backlog.count m + (p.own route m).count m + p.leased.count m + p.waiting.count m +
    (p.acked.count m + p.buried.count m + p.expired.count m + p.rewound.count m)

/-- The head of a queue moves somewhere else: its own queue gets shorter. -/
lemma count_own_of_head {p q : Places M K} {k : K} {m : M} {rest : List M}
    (hp : p.Keyed route) (h : p.queue k = m :: rest)
    (hq : q.queue = Function.update p.queue k rest) (m' : M) :
    (p.own route m').count m' = (q.own route m').count m' + if m = m' then 1 else 0 := by
  have hm : route m = some k := hp k m (by rw [h]; exact List.mem_cons_self)
  rw [own_of_queue_update hq]
  split_ifs with hk hmm hmm
  · rw [own_of_route hk, h, hmm, List.count_cons_self]
  · rw [own_of_route hk, h, List.count_cons_of_ne hmm, Nat.add_zero]
  · exact absurd (hmm ▸ hm) hk
  · rfl

lemma occ_requeue (p : Places M K) (m m' : M) :
    (p.requeue route m).occ route m' = p.occ route m' + if m = m' then 1 else 0 := by
  unfold Places.requeue
  split
  · next k hk =>
    simp only [occ]
    rw [own_of_queue_update (p := p) rfl]
    split_ifs with hk' hmm hmm
    · simp only [own_of_route hk', hmm, List.count_cons_self]
      omega
    · rw [own_of_route hk', List.count_cons_of_ne hmm, Nat.add_zero]
    · exact absurd (hmm ▸ hk) hk'
    · rfl
  · simp only [occ, own, List.count_append, List.count_singleton, beq_iff_eq]
    omega

lemma occ_enqueue (p : Places M K) (m m' : M) :
    (p.enqueue route m).occ route m' = p.occ route m' + if m = m' then 1 else 0 := by
  unfold Places.enqueue
  split
  · next k hk =>
    simp only [occ]
    rw [own_of_queue_update (p := p) rfl]
    split_ifs with hk' hmm hmm
    · simp only [own_of_route hk', hmm, List.count_append, List.count_singleton_self]
      omega
    · simp [own_of_route hk', hmm]
    · exact absurd (hmm ▸ hk) hk'
    · rfl
  · simp only [occ, own, List.count_append, List.count_singleton, beq_iff_eq]
    omega

lemma occ_release (p : Places M K) (m m' : M) :
    (p.release route m).occ route m' = p.occ route m' := by
  unfold release
  split <;> rfl

lemma count_filter_ite (f : M → Bool) (l : List M) (m : M) :
    (l.filter f).count m = if f m then l.count m else 0 := by
  split_ifs with h
  · exact List.count_filter h
  · exact List.count_eq_zero.mpr fun hm => h (List.mem_filter.mp hm).2

/-- A kept message is in the backlog or its queue as often as it was there or out. -/
lemma count_rewind (p : Places M K) (keep : M → Bool) (order : List M) (dropped : Multiset M)
    (m : M) :
    (p.rewind route keep order dropped).backlog.count m +
        ((p.rewind route keep order dropped).own route m).count m =
      if keep m then p.backlog.count m + (p.own route m).count m + order.count m else 0 := by
  cases hr : route m with
  | none =>
    simp only [own, hr, rewind, List.count_append, count_filter_ite, Option.isNone_none,
      Bool.and_true, List.count_nil]
    split_ifs <;> omega
  | some k =>
    simp only [own, hr, rewind, List.count_append, count_filter_ite, Option.isNone_some,
      Bool.and_false, Bool.false_eq_true, if_false, List.count_reverse, Bool.and_eq_true,
      decide_eq_true_eq, and_true]
    split_ifs <;> omega

lemma occ_rewind {p : Places M K} {keep : M → Bool} {order : List M} {dropped : Multiset M}
    (ho : (order : Multiset M) = p.leased + p.waiting)
    (hd : ∀ m, keep m = false → dropped.count m =
      p.backlog.count m + (p.own route m).count m + order.count m)
    (hk : ∀ m, keep m = true → dropped.count m = 0) (m : M) :
    (p.rewind route keep order dropped).occ route m = p.occ route m := by
  have hcount : order.count m = p.leased.count m + p.waiting.count m := by
    rw [← Multiset.count_add, ← ho, Multiset.coe_count]
  unfold occ
  change _ + _ + Multiset.count m 0 + Multiset.count m 0 + (p.acked.count m + p.buried.count m +
    p.expired.count m + (p.rewound + dropped).count m) = _
  rw [p.count_rewind keep order dropped m, Multiset.count_zero, Multiset.count_add]
  -- a message that is not kept moves to `dropped`, and a kept one to its queue
  cases hkm : keep m with
  | false =>
    have hdm := hd m hkm
    rw [if_neg Bool.false_ne_true]
    omega
  | true =>
    have hdm := hk m hkm
    rw [if_pos rfl]
    omega

/-- Every act but `clear` keeps all messages, and only an arrival adds one. -/
theorem Step.occ_eq {p q : Places M K} {a : Act M} (h : Step route p a q) (hp : p.Keyed route)
    (ha : a ≠ .clear) (m' : M) :
    q.occ route m' = p.occ route m' + (arrivals [a]).count m' := by
  cases h with
  | enqueue m => simp [occ_enqueue, arrivals, List.count_cons]
  | @leaseBacklog m rest h =>
    simp only [occ, own, arrivals, h, List.count_cons, Multiset.count_cons, beq_iff_eq,
      List.count_nil, eq_comm (a := m')]
    omega
  | @leaseQueue k m rest h hk =>
    have hc := count_own_of_head hp h (q := { p with
        queue := Function.update p.queue k rest
        leased := m ::ₘ p.leased
        busy := insert k p.busy }) rfl m'
    simp only [occ, arrivals, Multiset.count_cons, List.count_nil, eq_comm (a := m')]
    omega
  | @expireBacklog m rest h =>
    simp only [occ, own, arrivals, h, List.count_cons, Multiset.count_cons, beq_iff_eq,
      List.count_nil, eq_comm (a := m')]
    omega
  | @expireQueue k m rest h =>
    have hc := count_own_of_head hp h (q := { p with
        queue := Function.update p.queue k rest
        expired := m ::ₘ p.expired }) rfl m'
    simp only [occ, arrivals, Multiset.count_cons, List.count_nil, eq_comm (a := m')]
    omega
  | @ack m rest h =>
    rw [occ_release]
    simp only [occ, own, arrivals, h, Multiset.count_cons, List.count_nil]
    omega
  | @nack m rest h =>
    rw [occ_requeue]
    simp only [occ, own, arrivals, h, Multiset.count_cons, List.count_nil, eq_comm (a := m')]
    omega
  | @defer m rest h =>
    simp only [occ, own, arrivals, h, Multiset.count_cons, List.count_nil]
    omega
  | @bury m rest h =>
    simp only [occ, own, arrivals, h, Multiset.count_cons, List.count_nil]
    omega
  | @ripen m rest h =>
    rw [occ_requeue]
    simp only [occ, own, arrivals, h, Multiset.count_cons, List.count_nil, eq_comm (a := m')]
    omega
  | @rot m rest h =>
    simp only [occ, own, arrivals, h, Multiset.count_cons, List.count_nil]
    omega
  | rewind keep order dropped ho hd hk => simp [occ_rewind ho hd hk, arrivals]
  | clear => exact absurd rfl ha

/-- Conservation over a sequence of acts: nothing is lost and nothing is
duplicated. -/
theorem Steps.occ_eq {p q : Places M K} {as : List (Act M)} (h : Steps route p as q)
    (hp : p.Keyed route) (ha : Act.clear ∉ as) (m : M) :
    q.occ route m = p.occ route m + (arrivals as).count m := by
  induction h with
  | nil _ => simp [arrivals]
  | @cons p q r a as h _ ih =>
    rw [List.mem_cons, not_or] at ha
    rw [ih (h.keyed hp) ha.2, h.occ_eq hp (Ne.symm ha.1), Nat.add_assoc, ← List.count_append,
      ← arrivals_append, List.singleton_append]

/-- Whatever happens, a message does not occur more often than it arrived. -/
theorem Step.occ_le {p q : Places M K} {a : Act M} (h : Step route p a q) (hp : p.Keyed route)
    (m : M) : q.occ route m ≤ p.occ route m + (arrivals [a]).count m := by
  by_cases ha : a = .clear
  · subst ha
    cases h
    have hown : (p.clear.own route m).count m = 0 := by
      unfold own
      cases route m <;> rfl
    have hsettled : p.clear.occ route m = (p.clear.own route m).count m +
        (p.acked.count m + p.buried.count m + p.expired.count m + p.rewound.count m) := by
      simp only [occ, Places.clear, List.count_nil, Multiset.count_zero]
      omega
    rw [hsettled, hown]
    unfold occ
    omega
  · exact (h.occ_eq hp ha m).le

theorem Steps.occ_le {p q : Places M K} {as : List (Act M)} (h : Steps route p as q)
    (hp : p.Keyed route) (m : M) : q.occ route m ≤ p.occ route m + (arrivals as).count m := by
  induction h with
  | nil _ => simp [arrivals]
  | @cons p q r a as h _ ih =>
    have hhead := h.occ_le hp m
    have htail := ih (h.keyed hp)
    have hsplit : (arrivals (a :: as)).count m =
        (arrivals [a]).count m + (arrivals as).count m := by
      rw [← List.count_append, ← arrivals_append, List.singleton_append]
    omega

omit [DecidableEq K] in
def settled (p : Places M K) (m : M) : ℕ :=
  p.acked.count m + p.buried.count m + p.expired.count m + p.rewound.count m

lemma Step.settled_le {p q : Places M K} {a : Act M} (h : Step route p a q) (m : M) :
    p.settled m ≤ q.settled m := by
  have hle : ∀ (s : Multiset M) (x : M), s.count m ≤ (x ::ₘ s).count m := fun s x =>
    Multiset.count_le_of_le m (Multiset.le_cons_self s x)
  cases h with
  | enqueue x => unfold Places.enqueue; split <;> exact le_rfl
  | leaseBacklog h => exact le_rfl
  | leaseQueue h hk => exact le_rfl
  | @expireBacklog x rest h => have := hle p.expired x; simp only [settled]; omega
  | @expireQueue k x rest h => have := hle p.expired x; simp only [settled]; omega
  | @ack x rest h =>
    have := hle p.acked x
    unfold release
    split <;> (simp only [settled]; omega)
  | @nack x rest h => unfold Places.requeue; split <;> exact le_rfl
  | defer h => exact le_rfl
  | @bury x rest h => have := hle p.buried x; simp only [settled]; omega
  | @ripen x rest h => unfold Places.requeue; split <;> exact le_rfl
  | @rot x rest h => have := hle p.expired x; simp only [settled]; omega
  | rewind keep order dropped ho hd hk =>
    simp only [settled, Places.rewind, Multiset.count_add]
    omega
  | clear => exact le_rfl

theorem Steps.settled_le {p q : Places M K} {as : List (Act M)} (h : Steps route p as q) (m : M) :
    p.settled m ≤ q.settled m := by
  induction h with
  | nil _ => exact le_rfl
  | cons h _ ih => exact (h.settled_le m).trans ih

omit [DecidableEq K] [DecidableEq M] in
/-- The message waits, is leased or waits for its retry. -/
def Holds (p : Places M K) (m : M) : Prop :=
  m ∈ p.backlog ∨ (∃ k, m ∈ p.queue k) ∨ m ∈ p.leased ∨ m ∈ p.waiting

omit [DecidableEq K] in
/-- What is held occurs, and is not all settled. -/
lemma Keyed.holds_iff {p : Places M K} (hp : p.Keyed route) (m : M) :
    p.Holds m ↔ p.settled m < p.occ route m := by
  have hown : (∃ k, m ∈ p.queue k) ↔ 0 < (p.own route m).count m := by
    rw [List.count_pos_iff]
    constructor
    · rintro ⟨k, hk⟩
      rwa [own_of_route (hp k m hk)]
    · intro hm
      unfold own at hm
      split at hm
      · next k _ => exact ⟨k, hm⟩
      · cases hm
  unfold Holds
  rw [hown, ← List.count_pos_iff, ← Multiset.count_pos, ← Multiset.count_pos]
  unfold occ settled
  omega

/-- As long as messages are only leased or expire, what is leased stays so. -/
theorem Steps.leased_eq {p q : Places M K} {as : List (Act M)} (h : Steps route p as q)
    (ha : ∀ a ∈ as, (∃ m, a = .lease m) ∨ ∃ m, a = .expire m) :
    q.leased = (leases as : Multiset M) + p.leased := by
  induction h with
  | nil p => exact (Multiset.zero_add p.leased).symm
  | @cons p q r a as h _ ih =>
    rw [ih fun b hb => ha b (List.mem_cons_of_mem _ hb)]
    rcases ha a List.mem_cons_self with ⟨m, rfl⟩ | ⟨m, rfl⟩
    · cases h <;> simp [leases, ← Multiset.cons_coe]
    · cases h <;> rfl

/-- As long as messages are only leased or expire, what waits keeps waiting. -/
theorem Steps.waiting_eq {p q : Places M K} {as : List (Act M)} (h : Steps route p as q)
    (ha : ∀ a ∈ as, (∃ m, a = .lease m) ∨ ∃ m, a = .expire m) : q.waiting = p.waiting := by
  induction h with
  | nil _ => rfl
  | @cons p q r a as h _ ih =>
    rw [ih fun b hb => ha b (List.mem_cons_of_mem _ hb)]
    rcases ha a List.mem_cons_self with ⟨m, rfl⟩ | ⟨m, rfl⟩ <;> cases h <;> rfl

omit [DecidableEq K] in
/-- How often a message is out or settled, so that it cannot be leased. -/
def away (p : Places M K) (m : M) : ℕ := p.leased.count m + p.waiting.count m + p.settled m

/-- A message that is leased while it is away occurs twice. -/
theorem Steps.away_lt_occ {p q : Places M K} {as : List (Act M)} (h : Steps route p as q)
    (ha : ∀ a ∈ as, (∃ m, a = .lease m) ∨ ∃ m, a = .expire m) {m : M} (hm : m ∈ leases as) :
    p.away m < q.occ route m := by
  have hleased : q.leased.count m = (leases as).count m + p.leased.count m := by
    rw [h.leased_eq ha, Multiset.count_add, Multiset.coe_count]
  have hnew : 0 < (leases as).count m := List.count_pos_iff.mpr hm
  have hwaiting : q.waiting.count m = p.waiting.count m := by rw [h.waiting_eq ha]
  have hsettled := h.settled_le m
  unfold away occ
  unfold settled at *
  omega

/-- Leasing and expiring make nothing available. -/
theorem Steps.available_of_pull {p q : Places M K} {as : List (Act M)} (h : Steps route p as q)
    (ha : ∀ a ∈ as, (∃ m, a = .lease m) ∨ ∃ m, a = .expire m) {m : M} (hm : q.Available m) :
    p.Available m := by
  -- a queue only loses its head, and no key is freed
  have hshrink : ∀ {p : Places M K} {k : K} {x : M} {rest : List M}, p.queue k = x :: rest →
      ∀ j, m ∈ Function.update p.queue k rest j → m ∈ p.queue j := by
    intro p k x rest hq j hj
    by_cases hjk : j = k
    · subst hjk
      rw [Function.update_self] at hj
      rw [hq]
      exact List.mem_cons_of_mem _ hj
    · rwa [Function.update_of_ne hjk] at hj
  induction h with
  | nil _ => exact hm
  | @cons p q r a as h _ ih =>
    have hq := ih (fun b hb => ha b (List.mem_cons_of_mem _ hb)) hm
    rcases ha a List.mem_cons_self with ⟨x, rfl⟩ | ⟨x, rfl⟩
    · cases h with
      | leaseBacklog hb =>
        rcases hq with hq | hq
        · exact .inl (by rw [hb]; exact List.mem_cons_of_mem _ hq)
        · exact .inr hq
      | leaseQueue hb hk =>
        rcases hq with hq | ⟨j, hj, hq⟩
        · exact .inl hq
        · exact .inr ⟨j, fun hin => hj (Finset.mem_insert_of_mem hin), hshrink hb j hq⟩
    · cases h with
      | expireBacklog hb =>
        rcases hq with hq | hq
        · exact .inl (by rw [hb]; exact List.mem_cons_of_mem _ hq)
        · exact .inr hq
      | expireQueue hb =>
        rcases hq with hq | ⟨j, hj, hq⟩
        · exact .inl hq
        · exact .inr ⟨j, hj, hshrink hb j hq⟩

/-- After failed leases, the backlog is empty exactly if it was and no message
without a key came back. -/
theorem Steps.backlog_eq_nil_of_failed {p q : Places M K} {as : List (Act M)}
    (h : Steps route p as q) (ha : ∀ a ∈ as, Failed a) :
    q.backlog = [] ↔ p.backlog = [] ∧ ∀ m, .requeue m ∈ as → route m ≠ none := by
  induction h with
  | nil _ => simp
  | @cons p q r a as h _ ih =>
    rw [ih fun b hb => ha b (List.mem_cons_of_mem _ hb)]
    have hfailed := ha a List.mem_cons_self
    cases h with
    | @nack x rest hx =>
      cases hr : route x with
      | none => simp [Places.requeue, hr]
      | some k => simp [Places.requeue, hr]
    | defer hx => simp
    | bury hx => simp
    | _ => exact hfailed.elim

/-- After failed leases, a key is idle and has a queue exactly if it was so
before or one of its messages came back. -/
theorem Steps.idle_of_failed {p q : Places M K} {as : List (Act M)} (h : Steps route p as q)
    (ha : ∀ a ∈ as, Failed a) (k : K) :
    k ∉ q.busy ∧ q.queue k ≠ [] ↔
      (k ∉ p.busy ∧ p.queue k ≠ []) ∨ ∃ m, .requeue m ∈ as ∧ route m = some k := by
  induction h with
  | nil _ => simp
  | @cons p q r a as h _ ih =>
    rw [ih fun b hb => ha b (List.mem_cons_of_mem _ hb)]
    have hfailed := ha a List.mem_cons_self
    cases h with
    | @nack x rest hx =>
      -- what comes back frees its key and is then at the head of its queue
      cases hr : route x with
      | none =>
        have hne : ∀ m, m = x → route m ≠ some k := by rintro m rfl; simp [hr]
        simp only [Places.requeue, hr, List.mem_cons, Act.requeue.injEq]
        grind
      | some j =>
        by_cases hj : j = k
        · subst hj
          simp only [Places.requeue, hr, List.mem_cons, Act.requeue.injEq, Finset.mem_erase,
            Function.update_self]
          grind
        · have hk : k ≠ j := Ne.symm hj
          simp only [Places.requeue, hr, List.mem_cons, Act.requeue.injEq, Finset.mem_erase,
            Function.update_of_ne hk]
          grind
    | defer hx => simp
    | bury hx => simp
    | _ => exact hfailed.elim

end Places

end Deltio.Lib
