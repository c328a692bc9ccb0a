import Mathlib.Data.List.Nodup
import Mathlib.Data.List.Infix

namespace Deltio.Lib

/-- Jobs that wait, have been started, and run.  The permits are with the running jobs or left
over. -/
structure Jobs (α : Type*) where
  limit : ℕ
  queued : List α
  started : List α
  running : List α
  permits : ℕ
  balanced : running.length + permits = limit

namespace Jobs

variable {α : Type*}

def start (limit : ℕ) (jobs : List α) : Jobs α where
  limit := limit
  queued := jobs
  started := []
  running := []
  permits := limit
  balanced := Nat.zero_add limit

def next (j : Jobs α) : Option (α × Jobs α) :=
  match j.queued with
  | [] => none
  | job :: rest =>
    if h : 0 < j.permits then
      some (job, { j with
        queued := rest
        started := j.started ++ [job]
        running := j.running ++ [job]
        permits := j.permits - 1
        balanced := by
          have := j.balanced
          rw [List.length_append, List.length_singleton]
          omega })
    else none

def release [DecidableEq α] (j : Jobs α) (job : α) : Option (Jobs α) :=
  if h : job ∈ j.running then
    some { j with
      running := j.running.erase job
      permits := j.permits + 1
      balanced := by
        have := j.balanced
        have := List.length_pos_of_mem h
        rw [List.length_erase_of_mem h]
        omega }
  else none

lemma length_running_le (j : Jobs α) : j.running.length ≤ j.limit := by
  have := j.balanced
  omega

lemma next_eq_some {j j' : Jobs α} {job : α} (h : j.next = some (job, j')) :
    j.queued = job :: j'.queued ∧ j'.started = j.started ++ [job] ∧
      j'.running = j.running ++ [job] ∧ j'.limit = j.limit := by
  unfold next at h
  split at h
  · cases h
  · next job' rest hqueued =>
    split_ifs at h with hpermits
    cases h
    exact ⟨hqueued, rfl, rfl, rfl⟩

lemma release_eq_some [DecidableEq α] {j j' : Jobs α} {job : α} (h : j.release job = some j') :
    job ∈ j.running ∧ j'.running = j.running.erase job ∧ j'.queued = j.queued ∧
      j'.started = j.started ∧ j'.limit = j.limit := by
  unfold release at h
  split_ifs at h with hmem
  cases h
  exact ⟨hmem, rfl, rfl, rfl, rfl⟩

/-- Started jobs and waiting jobs are all jobs, in their order. -/
lemma started_append_queued_next {j j' : Jobs α} {job : α} (h : j.next = some (job, j')) :
    j'.started ++ j'.queued = j.started ++ j.queued := by
  obtain ⟨hqueued, hstarted, -, -⟩ := next_eq_some h
  rw [hqueued, hstarted, List.append_assoc, List.singleton_append]

end Jobs

end Deltio.Lib
