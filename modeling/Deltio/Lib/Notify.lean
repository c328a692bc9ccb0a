import Mathlib.Data.List.Basic
import Mathlib.Logic.Function.Iterate

namespace Deltio.Lib

/-- The state of a notifier: the stored permit, how often `notifyWaiters` was called, the
tasks that sleep (longest first), and those that were woken one by one and have not run yet.
A permit is stored only while nobody sleeps. -/
structure Notify (ι : Type*) where
  permit : Bool
  calls : ℕ
  waiters : List ι
  woken : List ι
  waiters_of_permit : permit = true → waiters = []

namespace Notify

variable {ι : Type*}

def new : Notify ι := ⟨false, 0, [], [], fun _ => rfl⟩

def notifyOne (n : Notify ι) : Notify ι :=
  match n.waiters with
  | [] => { n with permit := true, waiters := [], waiters_of_permit := fun _ => rfl }
  | i :: rest =>
    { n with
      permit := false
      waiters := rest
      woken := i :: n.woken
      waiters_of_permit := fun h => Bool.noConfusion h }

def notifyWaiters (n : Notify ι) : Notify ι :=
  { n with calls := n.calls + 1, waiters := [], waiters_of_permit := fun _ => rfl }

/-- The first poll of a task that subscribed when there had been `seen` calls of
`notifyWaiters`.  It goes on, or falls asleep. -/
def poll (n : Notify ι) (i : ι) (seen : ℕ) : Bool × Notify ι :=
  if h : n.permit = true then (true, { n with permit := false, waiters_of_permit := by simp })
  else if seen = n.calls then
    (false, { n with waiters := n.waiters ++ [i], waiters_of_permit := fun hp => absurd hp h })
  else (true, n)

def leave [DecidableEq ι] (n : Notify ι) (i : ι) : Notify ι :=
  { n with
    waiters := n.waiters.filter (· ≠ i)
    woken := n.woken.filter (· ≠ i)
    waiters_of_permit := fun h => by rw [n.waiters_of_permit h]; rfl }

def drop [DecidableEq ι] (n : Notify ι) (i : ι) : Notify ι :=
  if i ∈ n.woken then (n.leave i).notifyOne else n.leave i

/-- There is a wake-up that no task has acted on. -/
def Pending (n : Notify ι) : Prop := n.permit = true ∨ n.woken ≠ []

/-- The task waits in the queue, or was taken from it. -/
def Registered (n : Notify ι) (i : ι) : Prop := i ∈ n.waiters ∨ i ∈ n.woken

section

variable {n : Notify ι} {i j : ι}

@[simp] lemma calls_notifyOne (n : Notify ι) : n.notifyOne.calls = n.calls := by
  unfold notifyOne
  split <;> rfl

lemma pending_notifyOne (n : Notify ι) : n.notifyOne.Pending := by
  unfold notifyOne
  split
  · exact .inl rfl
  · exact .inr (List.cons_ne_nil _ _)

@[simp] lemma registered_notifyOne : n.notifyOne.Registered i ↔ n.Registered i := by
  unfold notifyOne
  split
  · next h => simp [Registered, h]
  · next j rest h =>
    simp only [Registered, h, List.mem_cons]
    tauto

lemma Pending.notifyOne_iterate (h : n.Pending) (k : ℕ) : (notifyOne^[k] n).Pending := by
  cases k with
  | zero => exact h
  | succ k =>
    rw [Function.iterate_succ_apply']
    exact pending_notifyOne _

lemma calls_notifyOne_iterate (n : Notify ι) (k : ℕ) : (notifyOne^[k] n).calls = n.calls := by
  induction k with
  | zero => rfl
  | succ k ih => rw [Function.iterate_succ_apply', calls_notifyOne, ih]

lemma registered_notifyOne_iterate (k : ℕ) :
    (notifyOne^[k] n).Registered i ↔ n.Registered i := by
  induction k with
  | zero => rfl
  | succ k ih => rw [Function.iterate_succ_apply', registered_notifyOne, ih]

lemma Pending.notifyWaiters (h : n.Pending) : n.notifyWaiters.Pending := h

lemma registered_of_notifyWaiters (h : n.notifyWaiters.Registered i) : n.Registered i :=
  h.elim (fun h => absurd h List.not_mem_nil) .inr

/-- A task falls asleep only when there is no permit and it missed no call. -/
lemma poll_eq_false_iff {seen : ℕ} :
    (n.poll i seen).1 = false ↔ n.permit = false ∧ seen = n.calls := by
  unfold poll
  by_cases hpermit : n.permit = true
  · simp [hpermit]
  · by_cases hseen : seen = n.calls <;> simp [hpermit, hseen]

/-- A task that falls asleep takes no wake-up with it. -/
lemma poll_of_eq_false {seen : ℕ} (h : (n.poll i seen).1 = false) :
    (n.poll i seen).2.calls = n.calls ∧ (n.Pending → (n.poll i seen).2.Pending) ∧
      ∀ j, (n.poll i seen).2.Registered j ↔ n.Registered j ∨ j = i := by
  obtain ⟨hpermit, hseen⟩ := poll_eq_false_iff.mp h
  unfold poll
  rw [dif_neg (by rw [hpermit]; exact Bool.false_ne_true), if_pos hseen]
  refine ⟨rfl, id, fun j => ?_⟩
  simp only [Registered, List.mem_append, List.mem_singleton]
  tauto

lemma poll_of_eq_true {seen : ℕ} (h : (n.poll i seen).1 = true) :
    (n.poll i seen).2.calls = n.calls ∧
      ∀ j, (n.poll i seen).2.Registered j ↔ n.Registered j := by
  unfold poll at h ⊢
  split_ifs at h ⊢ with hpermit hseen
  · exact ⟨rfl, fun j => Iff.rfl⟩
  · exact ⟨rfl, fun j => Iff.rfl⟩

variable [DecidableEq ι]

@[simp] lemma registered_leave : (n.leave i).Registered j ↔ n.Registered j ∧ j ≠ i := by
  simp only [Registered, leave, List.mem_filter, decide_eq_true_eq]
  tauto

@[simp] lemma registered_drop : (n.drop i).Registered j ↔ n.Registered j ∧ j ≠ i := by
  unfold drop
  split_ifs
  · rw [registered_notifyOne, registered_leave]
  · exact registered_leave

@[simp] lemma calls_drop (n : Notify ι) (i : ι) : (n.drop i).calls = n.calls := by
  unfold drop
  split_ifs
  · exact calls_notifyOne _
  · rfl

/-- No wake-up is lost when a task goes away. -/
lemma Pending.drop (h : n.Pending) (i : ι) : (n.drop i).Pending := by
  unfold Notify.drop
  split_ifs with hwoken
  · exact pending_notifyOne _
  · refine h.imp_right fun hne => ?_
    have hall : n.woken.filter (· ≠ i) = n.woken :=
      List.filter_eq_self.mpr fun j hj => decide_eq_true (ne_of_mem_of_not_mem hj hwoken)
    change n.woken.filter (· ≠ i) ≠ []
    rwa [hall]

end

end Notify

end Deltio.Lib
