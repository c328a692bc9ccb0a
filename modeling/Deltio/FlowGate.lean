import Deltio.Lib.Machine
import Deltio.Lib.Notify

namespace Deltio

open Lib

structure FlowControl where
  maxOutstandingBytes : UInt64
  maxOutstandingMessages : UInt64
  outstandingBytes : UInt64
  outstandingMessages : UInt64

namespace FlowControl

def create (maxOutstandingBytes maxOutstandingMessages : UInt64) : FlowControl :=
  ⟨maxOutstandingBytes, maxOutstandingMessages, 0, 0⟩

def hasAvailableSpace (c : FlowControl) : Bool :=
  c.outstandingMessages < c.maxOutstandingMessages && c.outstandingBytes < c.maxOutstandingBytes

end FlowControl

structure FlowUpdate where
  isInc : Bool
  bytes : UInt64
  messages : UInt64

/-- `fetch_add` or `fetch_sub`; both wrap around. -/
def FlowUpdate.fetch (u : FlowUpdate) (value delta : UInt64) : UInt64 :=
  if u.isInc then value + delta else value - delta

/-- Where a task is.  The number in a wait is that of the notifications before it subscribed. -/
inductive FlowCall where
  | idle
  | returned
  | checkMessages (subscribed : Option ℕ)
  | checkBytes (subscribed : Option ℕ)
  | subscribe
  | await (seen : ℕ)
  | asleep (seen : ℕ)
  | changeBytes (u : FlowUpdate)
  | changeMessages (u : FlowUpdate)
  | notify

/-- The tasks that use a flow control.  The counters are atomics that any task changes, and only
then are the waiting tasks notified. -/
structure FlowTasks (ι : Type*) where
  control : FlowControl
  notifier : Notify ι
  call : ι → FlowCall

/-- A task calls `wait_for_available_space`, `inc` or `dec`, goes on by one atomic step, or
stops waiting. -/
inductive FlowEvent (ι : Type*) where
  | wait (i : ι)
  | update (i : ι) (u : FlowUpdate)
  | act (i : ι)
  | drop (i : ι)

namespace FlowTasks

variable {ι : Type*}

def start (control : FlowControl) : FlowTasks ι := ⟨control, .new, fun _ => .idle⟩

variable [DecidableEq ι]

def setCall (s : FlowTasks ι) (i : ι) (call : FlowCall) : FlowTasks ι :=
  { s with call := Function.update s.call i call }

/-- There was no space: the first check goes on to subscribe, the later ones to wait. -/
def afterCheck (subscribed : Option ℕ) : FlowCall := subscribed.elim .subscribe .await

def act (s : FlowTasks ι) (i : ι) : Option (FlowTasks ι) :=
  match s.call i with
  | .idle | .returned => none
  | .checkMessages subscribed =>
    some <| s.setCall i <|
      if s.control.maxOutstandingMessages ≤ s.control.outstandingMessages then
        afterCheck subscribed
      else .checkBytes subscribed
  | .checkBytes subscribed =>
    some <| s.setCall i <|
      if s.control.maxOutstandingBytes ≤ s.control.outstandingBytes then afterCheck subscribed
      else .returned
  | .subscribe => some (s.setCall i (.checkMessages (some s.notifier.calls)))
  | .await seen =>
    let polled := s.notifier.poll i seen
    some { s.setCall i (if polled.1 then .subscribe else .asleep seen) with notifier := polled.2 }
  | .asleep _ => if i ∈ s.notifier.waiters then none else some (s.setCall i .subscribe)
  | .changeBytes u =>
    some { s.setCall i (.changeMessages u) with
      control := { s.control with
        outstandingBytes := u.fetch s.control.outstandingBytes u.bytes } }
  | .changeMessages u =>
    some { s.setCall i .notify with
      control := { s.control with
        outstandingMessages := u.fetch s.control.outstandingMessages u.messages } }
  | .notify => some { s.setCall i .idle with notifier := s.notifier.notifyWaiters }

def step (s : FlowTasks ι) : FlowEvent ι → Option (FlowTasks ι)
  | .wait i =>
    match s.call i with
    | .idle => some (s.setCall i (.checkMessages none))
    | _ => none
  | .update i u =>
    match s.call i with
    | .idle => some (s.setCall i (.changeBytes u))
    | _ => none
  | .act i => s.act i
  -- only a call that has been pending can be dropped
  | .drop i =>
    match s.call i with
    | .asleep _ =>
      some { s.setCall i .idle with notifier := s.notifier.drop i }
    | _ => none

def run (s : FlowTasks ι) (es : List (FlowEvent ι)) : Option (FlowTasks ι) :=
  Machine.run step s es

end FlowTasks

def FlowCall.seen : FlowCall → Option ℕ
  | .checkMessages subscribed | .checkBytes subscribed => subscribed
  | .await seen | .asleep seen => some seen
  | _ => none

/-- The call has found no space since it subscribed. -/
def FlowCall.Waits : FlowCall → Prop
  | .await _ | .asleep _ => True
  | _ => False

/-- The update has changed a counter and not yet notified. -/
def FlowCall.Unnotified : FlowCall → Prop
  | .changeMessages _ | .notify => True
  | _ => False

namespace FlowTasks

variable {ι : Type*} {s s' : FlowTasks ι}

/-- A wait that has missed no notification waits for good reason: there is no space, or some
update is still to notify it. -/
structure Attentive (s : FlowTasks ι) : Prop where
  permit : s.notifier.permit = false
  woken : s.notifier.woken = []
  seen : ∀ i n, (s.call i).seen = some n → n ≤ s.notifier.calls
  asleep : ∀ i ∈ s.notifier.waiters, s.call i = .asleep s.notifier.calls
  reason : ∀ i, (s.call i).Waits → (s.call i).seen = some s.notifier.calls →
    (∃ j, (s.call j).Unnotified) ∨ s.control.hasAvailableSpace = false

lemma Attentive.start (control : FlowControl) : (start control : FlowTasks ι).Attentive where
  permit := rfl
  woken := rfl
  seen _ _ h := by cases h
  asleep _ h := by cases h
  reason _ h := h.elim

/-- An update has changed something and is still to notify. -/
lemma Attentive.of_unnotified {i : ι} (hi : (s.call i).Unnotified)
    (hpermit : s.notifier.permit = false) (hwoken : s.notifier.woken = [])
    (hseen : ∀ i n, (s.call i).seen = some n → n ≤ s.notifier.calls)
    (hasleep : ∀ i ∈ s.notifier.waiters, s.call i = .asleep s.notifier.calls) : s.Attentive :=
  ⟨hpermit, hwoken, hseen, hasleep, fun _ _ _ => .inl ⟨i, hi⟩⟩

/-- A task that is awake is not in the queue. -/
lemma Attentive.not_mem_waiters (h : s.Attentive) {i : ι}
    (hi : s.call i ≠ .asleep s.notifier.calls) : i ∉ s.notifier.waiters :=
  fun hmem => hi (h.asleep i hmem)

variable [DecidableEq ι]

@[simp] lemma call_setCall_self (s : FlowTasks ι) (i : ι) (call : FlowCall) :
    (s.setCall i call).call i = call := Function.update_self ..

lemma call_setCall_of_ne (s : FlowTasks ι) {i j : ι} (h : j ≠ i) (call : FlowCall) :
    (s.setCall i call).call j = s.call j := Function.update_of_ne h ..

/-- What has been seen stays in the past. -/
lemma Attentive.seen_setCall (h : s.Attentive) {i : ι} {call : FlowCall}
    (hcall : ∀ n, call.seen = some n → n ≤ s.notifier.calls) (j : ι) (n : ℕ)
    (hj : ((s.setCall i call).call j).seen = some n) : n ≤ s.notifier.calls := by
  by_cases hji : j = i
  · rw [hji, call_setCall_self] at hj
    exact hcall n hj
  · rw [call_setCall_of_ne s hji] at hj
    exact h.seen j n hj

lemma Attentive.asleep_setCall (h : s.Attentive) {i : ι} (hi : i ∉ s.notifier.waiters)
    (call : FlowCall) : ∀ j ∈ s.notifier.waiters,
      (s.setCall i call).call j = .asleep s.notifier.calls := by
  intro j hj
  have hne : j ≠ i := ne_of_mem_of_not_mem hj hi
  rw [call_setCall_of_ne s hne]
  exact h.asleep j hj

/-- One task goes on; it is no update that has changed something. -/
lemma Attentive.setCall (h : s.Attentive) {i : ι} {call : FlowCall}
    (hi : i ∉ s.notifier.waiters) (hquiet : ¬ (s.call i).Unnotified)
    (hcall : ∀ n, call.seen = some n → n ≤ s.notifier.calls)
    (hreason : call.Waits → s.control.hasAvailableSpace = false) :
    (s.setCall i call).Attentive := by
  refine ⟨h.permit, h.woken, h.seen_setCall hcall, h.asleep_setCall hi call, ?_⟩
  intro j hwaits hseen
  by_cases hji : j = i
  · rw [hji, call_setCall_self] at hwaits
    exact .inr (hreason hwaits)
  · rw [call_setCall_of_ne s hji] at hwaits hseen
    refine (h.reason j hwaits hseen).imp_left ?_
    rintro ⟨k, hk⟩
    have hki : k ≠ i := by
      rintro rfl
      exact hquiet hk
    exact ⟨k, by rwa [call_setCall_of_ne s hki]⟩

/-- A check that fails has found a counter at its limit. -/
lemma Attentive.afterCheck (h : s.Attentive) {i : ι} (hi : i ∉ s.notifier.waiters)
    (hquiet : ¬ (s.call i).Unnotified) {subscribed : Option ℕ}
    (hseen : (s.call i).seen = subscribed) (hfull : s.control.hasAvailableSpace = false) :
    (s.setCall i (FlowTasks.afterCheck subscribed)).Attentive := by
  refine h.setCall hi hquiet (fun n hn => h.seen i n ?_) fun _ => hfull
  rw [hseen]
  cases subscribed with
  | none => cases hn
  | some seen => exact hn

lemma Attentive.await (h : s.Attentive) {i : ι} {seen : ℕ} (hcall : s.call i = .await seen) :
    Attentive { s.setCall i (if (s.notifier.poll i seen).1 then .subscribe else .asleep seen) with
      notifier := (s.notifier.poll i seen).2 } := by
  have hi : i ∉ s.notifier.waiters := h.not_mem_waiters (by rw [hcall]; simp)
  have hquiet : ¬ (s.call i).Unnotified := by rw [hcall]; exact id
  have hle : seen ≤ s.notifier.calls := h.seen i seen (by rw [hcall]; rfl)
  unfold Notify.poll
  rw [dif_neg (by rw [h.permit]; exact Bool.false_ne_true)]
  by_cases hseen : seen = s.notifier.calls
  · rw [if_pos hseen]
    have hset : (s.setCall i (.asleep seen)).Attentive := by
      refine ⟨h.permit, h.woken, h.seen_setCall ?_, h.asleep_setCall hi _, ?_⟩
      · intro n hn
        cases hn
        exact hle
      · intro j hwaits hj
        have hbefore : (∃ k, (s.call k).Unnotified) ∨ s.control.hasAvailableSpace = false := by
          by_cases hji : j = i
          · exact h.reason i (by rw [hcall]; trivial) (by rw [hcall, hseen]; rfl)
          · rw [call_setCall_of_ne s hji] at hwaits hj
            exact h.reason j hwaits hj
        refine hbefore.imp_left ?_
        rintro ⟨k, hk⟩
        have hki : k ≠ i := by
          rintro rfl
          exact hquiet hk
        exact ⟨k, by rwa [call_setCall_of_ne s hki]⟩
    refine ⟨h.permit, h.woken, hset.seen, ?_, hset.reason⟩
    intro j hj
    rcases List.mem_append.mp hj with hj | hj
    · exact hset.asleep j hj
    · rw [List.mem_singleton.mp hj]
      exact (call_setCall_self s i (.asleep seen)).trans (congrArg FlowCall.asleep hseen)
  · rw [if_neg hseen]
    exact h.setCall hi hquiet (fun n hn => by cases hn) fun hwaits => hwaits.elim

lemma Attentive.act (h : s.Attentive) {i : ι} (hstep : s.act i = some s') : s'.Attentive := by
  unfold FlowTasks.act at hstep
  split at hstep
  · cases hstep
  · cases hstep
  · next subscribed hcall =>
    cases hstep
    have hi : i ∉ s.notifier.waiters := h.not_mem_waiters (by rw [hcall]; simp)
    have hquiet : ¬ (s.call i).Unnotified := by rw [hcall]; exact id
    have hseen : (s.call i).seen = subscribed := by rw [hcall]; rfl
    split_ifs with hfull
    · refine h.afterCheck hi hquiet hseen ?_
      simp [FlowControl.hasAvailableSpace, UInt64.not_lt.mpr hfull]
    · exact h.setCall hi hquiet (fun n hn => h.seen i n (hseen.trans hn)) fun hwaits => hwaits.elim
  · next subscribed hcall =>
    cases hstep
    have hi : i ∉ s.notifier.waiters := h.not_mem_waiters (by rw [hcall]; simp)
    have hquiet : ¬ (s.call i).Unnotified := by rw [hcall]; exact id
    have hseen : (s.call i).seen = subscribed := by rw [hcall]; rfl
    split_ifs with hfull
    · refine h.afterCheck hi hquiet hseen ?_
      simp [FlowControl.hasAvailableSpace, UInt64.not_lt.mpr hfull]
    · exact h.setCall hi hquiet (fun n hn => by cases hn) fun hwaits => hwaits.elim
  · next hcall =>
    cases hstep
    refine h.setCall (h.not_mem_waiters (by rw [hcall]; simp)) (by rw [hcall]; exact id) ?_
      fun hwaits => hwaits.elim
    intro n hn
    cases hn
    exact Nat.le_refl _
  · next seen hcall =>
    cases hstep
    exact h.await hcall
  · next seen hcall =>
    split_ifs at hstep with hi
    cases hstep
    exact h.setCall hi (by rw [hcall]; exact id) (fun n hn => by cases hn) fun hwaits => hwaits.elim
  · next u hcall =>
    cases hstep
    have hi : i ∉ s.notifier.waiters := h.not_mem_waiters (by rw [hcall]; simp)
    refine Attentive.of_unnotified (i := i) ?_ h.permit h.woken
      (h.seen_setCall fun n hn => by cases hn) (h.asleep_setCall hi _)
    exact (congrArg FlowCall.Unnotified (call_setCall_self s i _)).mpr trivial
  · next u hcall =>
    cases hstep
    have hi : i ∉ s.notifier.waiters := h.not_mem_waiters (by rw [hcall]; simp)
    refine Attentive.of_unnotified (i := i) ?_ h.permit h.woken
      (h.seen_setCall fun n hn => by cases hn) (h.asleep_setCall hi _)
    exact (congrArg FlowCall.Unnotified (call_setCall_self s i _)).mpr trivial
  · next hcall =>
    cases hstep
    have hpast : ∀ j n, ((s.setCall i .idle).call j).seen = some n → n ≤ s.notifier.calls :=
      h.seen_setCall fun n hn => by cases hn
    refine ⟨h.permit, h.woken, fun j n hn => Nat.le_succ_of_le (hpast j n hn),
      fun j hj => absurd hj List.not_mem_nil, fun j _ hj => ?_⟩
    -- everybody who subscribed before the notification has missed none
    exact absurd (hpast j _ hj) (Nat.not_succ_le_self _)

lemma Attentive.step (h : s.Attentive) {e : FlowEvent ι} (hstep : s.step e = some s') :
    s'.Attentive := by
  cases e with
  | wait i =>
    simp only [FlowTasks.step] at hstep
    split at hstep
    · next hcall =>
      cases hstep
      exact h.setCall (h.not_mem_waiters (by rw [hcall]; simp)) (by rw [hcall]; exact id)
        (fun n hn => by cases hn) fun hwaits => hwaits.elim
    · cases hstep
  | update i u =>
    simp only [FlowTasks.step] at hstep
    split at hstep
    · next hcall =>
      cases hstep
      exact h.setCall (h.not_mem_waiters (by rw [hcall]; simp)) (by rw [hcall]; exact id)
        (fun n hn => by cases hn) fun hwaits => hwaits.elim
    · cases hstep
  | act i => exact h.act hstep
  | drop i =>
    simp only [FlowTasks.step] at hstep
    split at hstep
    · next seen hcall =>
      cases hstep
      have hdrop : s.notifier.drop i = s.notifier.leave i := by
        rw [Notify.drop, h.woken, if_neg List.not_mem_nil]
      rw [hdrop]
      -- without the task the queue is as before
      have hleft : Attentive { s with notifier := s.notifier.leave i } := by
        refine ⟨h.permit, ?_, h.seen, fun j hj => h.asleep j (List.mem_of_mem_filter hj), h.reason⟩
        change s.notifier.woken.filter (· ≠ i) = []
        rw [h.woken]
        rfl
      have hi : i ∉ (s.notifier.leave i).waiters := fun hmem => by
        simpa using (List.mem_filter.mp hmem).2
      exact hleft.setCall (s := { s with notifier := s.notifier.leave i }) hi
        (by dsimp only; rw [hcall]; exact id) (fun n hn => by cases hn) fun hwaits => hwaits.elim
    · cases hstep

/-- A call of `wait_for_available_space` that cannot go on sleeps for good reason: there is no
space, or an update has changed a counter and is about to notify it. -/
theorem no_wait_sleeps_with_space (maxOutstandingBytes maxOutstandingMessages : UInt64)
    (es : List (FlowEvent ι)) (s : FlowTasks ι)
    (hrun : (start (.create maxOutstandingBytes maxOutstandingMessages)).run es = some s) (i : ι)
    (hidle : s.call i ≠ .idle) (hreturned : s.call i ≠ .returned) (hblocked : s.act i = none) :
    s.control.hasAvailableSpace = false ∨
      ∃ j, (s.call j).Unnotified ∧ (s.act j).isSome := by
  have h : s.Attentive :=
    Machine.run_preserves hrun (.start _) fun _ _ _ hs hstep => hs.step hstep
  -- only a task in the queue of the notifier cannot go on
  have hqueued : i ∈ s.notifier.waiters := by
    unfold FlowTasks.act at hblocked
    split at hblocked
    · next hcall => exact absurd hcall hidle
    · next hcall => exact absurd hcall hreturned
    all_goals first
      | cases hblocked
      | skip
    by_contra hi
    rw [if_neg hi] at hblocked
    cases hblocked
  have hasleep := h.asleep i hqueued
  rcases h.reason i (by rw [hasleep]; trivial) (by rw [hasleep]; rfl) with ⟨j, hj⟩ | hfull
  · refine .inr ⟨j, hj, ?_⟩
    unfold FlowCall.Unnotified at hj
    split at hj
    · next hcall => simp [FlowTasks.act, hcall]
    · next hcall => simp [FlowTasks.act, hcall]
    · exact hj.elim
  · exact .inl hfull

def Sample.events : List (FlowEvent Bool) :=
  [.update true ⟨true, 0, 1⟩, .act true, .act true, .act true, .wait false, .act false, .act false,
    .act false, .act false]

/-- The task sleeps because there is no space. -/
theorem wait_sleeps_without_space : ∃ s : FlowTasks Bool,
    (start (.create 10 1)).run Sample.events = some s ∧ s.act false = none ∧
    (s.control.hasAvailableSpace = false ∨ ∃ j, (s.call j).Unnotified ∧ (s.act j).isSome) := by
  have hreached : ∃ s : FlowTasks Bool, (start (.create 10 1)).run Sample.events = some s ∧
      s.call false = .asleep 1 ∧ s.act false = none := ⟨_, rfl, rfl, rfl⟩
  obtain ⟨s, hrun, hcall, hblocked⟩ := hreached
  refine ⟨s, hrun, hblocked, no_wait_sleeps_with_space 10 1 Sample.events s hrun false ?_ ?_ hblocked⟩
  · simp [hcall]
  · simp [hcall]

end FlowTasks

end Deltio
