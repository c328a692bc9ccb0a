import Deltio.Exclusivity
import Deltio.FlowControl
import Deltio.Lib.Jobs
import Deltio.Lib.Machine
import Deltio.Names
import Deltio.Paging

namespace Deltio

open Lib

structure PushPayloadMessage where
  attributes : Attributes
  data : String
  messageId : String
  publishTime : String
  messageIdDupe : String
  publishTimeDupe : String

structure PushPayload where
  message : PushPayloadMessage
  subscription : String

/-- The payload before it is written as JSON.  The attributes are left out, and the publish
time is a constant. -/
def encodeMessagePayload (engine : Base64Engine) (subscription : SubscriptionName)
    (message : TopicMessage) : PushPayload where
  subscription := subscription.toString
  message := {
    data := engine.encode message.data
    messageId := toString message.id.value
    messageIdDupe := toString message.id.value
    attributes := ∅
    publishTime := "2000-01-01T12:00:00Z"
    publishTimeDupe := "2000-01-01T12:00:00Z" }

inductive PushResult where
  | response (status : ℕ)
  | sendError
deriving DecidableEq

def PushResult.isSuccess : PushResult → Bool
  | .response status => status ∈ [102, 200, 201, 202, 204]
  | .sendError => false

inductive DispatchStage where
  | queued
  | sending
  | answered (result : PushResult)
  | settled (result : PushResult)
deriving DecidableEq

def DispatchStage.isSettled : DispatchStage → Bool
  | .settled _ => true
  | _ => false

/-- A task that has pulled its page.  After it has spawned a dispatch it waits for a moment. -/
structure PushTask where
  config : PushConfig
  page : List PulledMessage
  jobs : Jobs PulledMessage
  stage : PulledMessage → DispatchStage
  pausing : Bool

inductive TaskState where
  | absent
  | pulling (config : PushConfig)
  | dispatching (t : PushTask)
  | finished (t : PushTask)
  -- the page could not be pulled
  | returned
  -- the subscription was deleted meanwhile
  | cancelled

/-- The tasks of one subscription: what its actor has handled, how far each task is, and what
it has posted, been answered and asked of the actor. -/
structure PushTasks (ι : Type*) where
  history : List (Env × ActorEvent)
  task : ι → TaskState
  requests : ι → List (String × PushPayload)
  responses : ι → List (PulledMessage × PushResult)
  settles : ι → List (PulledMessage × SubscriptionRequest)

inductive PushEvent (ι : Type*) where
  | other (e : Env × ActorEvent)
  | spawn (i : ι)
  | pull (i : ι) (env : Env)
  | next (i : ι)
  | resume (i : ι)
  | respond (i : ι) (p : PulledMessage) (result : PushResult)
  | settle (i : ι) (p : PulledMessage) (env : Env)
  | release (i : ι) (p : PulledMessage)
  | finish (i : ι)
  | cancel (i : ι)

/-- The batch size; `as u16` does not cut it. -/
def batchSize (maxConcurrency : ℕ) : UInt16 := UInt16.ofNat (min (maxConcurrency * 2) 1000)

def settleRequest (p : PulledMessage) (result : PushResult) : SubscriptionRequest :=
  if result.isSuccess then .acknowledgeMessages [p.ackId] else .modifyDeadline [.nack p.ackId]

namespace PushTask

def start (maxConcurrency : ℕ) (config : PushConfig) (page : List PulledMessage) : PushTask where
  config := config
  page := page
  jobs := .start maxConcurrency page
  stage := fun _ => .queued
  pausing := false

def request (engine : Base64Engine) (t : PushTask) (subscription : SubscriptionName)
    (p : PulledMessage) : String × PushPayload :=
  (t.config.endpoint, encodeMessagePayload engine subscription p.message)

def setStage (t : PushTask) (p : PulledMessage) (stage : DispatchStage) : PushTask :=
  { t with stage := Function.update t.stage p stage }

@[simp] lemma stage_setStage_self (t : PushTask) (p : PulledMessage) (stage : DispatchStage) :
    (t.setStage p stage).stage p = stage := Function.update_self ..

lemma stage_setStage_of_ne (t : PushTask) {p q : PulledMessage} (h : q ≠ p)
    (stage : DispatchStage) : (t.setStage p stage).stage q = t.stage q := Function.update_of_ne h ..

end PushTask

namespace PushTasks

variable {ι : Type*} [DecidableEq ι]

def start : PushTasks ι := ⟨[], fun _ => .absent, fun _ => [], fun _ => [], fun _ => []⟩

section

variable (engine : Base64Engine) (a₀ : SubscriptionActor) (maxConcurrency : ℕ)

def actor (s : PushTasks ι) : SubscriptionActor := a₀.run s.history

def setTask (s : PushTasks ι) (i : ι) (t : TaskState) : PushTasks ι :=
  { s with task := Function.update s.task i t }

def handle (s : PushTasks ι) (e : Env × ActorEvent) : PushTasks ι :=
  { s with history := s.history ++ [e] }

def pullEvent (env : Env) : Env × ActorEvent :=
  (env, .request (.pullMessages (batchSize maxConcurrency) 0))

def stepPull (s : PushTasks ι) (i : ι) (env : Env) : Option (PushTasks ι) :=
  match s.task i with
  | .pulling config =>
    some <| (s.handle (pullEvent maxConcurrency env)).setTask i <|
      match ((s.actor a₀).pullMessages env.now (batchSize maxConcurrency) 0).1 with
      | .error _ => .returned
      | .ok page => .dispatching (.start maxConcurrency config page)
  | _ => none

/-- A permit is acquired and the next dispatch is spawned. -/
def stepNext (s : PushTasks ι) (i : ι) : Option (PushTasks ι) :=
  match s.task i with
  | .dispatching t =>
    if t.pausing then none
    else t.jobs.next.map fun (p, jobs) =>
      { s.setTask i (.dispatching { t.setStage p .sending with jobs := jobs, pausing := true }) with
        requests := Function.update s.requests i
          (s.requests i ++ [t.request engine a₀.info.name p]) }
  | _ => none

def stepRespond (s : PushTasks ι) (i : ι) (p : PulledMessage) (result : PushResult) :
    Option (PushTasks ι) :=
  match s.task i with
  | .dispatching t =>
    if t.stage p = .sending then
      some { s.setTask i (.dispatching (t.setStage p (.answered result))) with
        responses := Function.update s.responses i (s.responses i ++ [(p, result)]) }
    else none
  | _ => none

def stepSettle (s : PushTasks ι) (i : ι) (p : PulledMessage) (env : Env) : Option (PushTasks ι) :=
  match s.task i with
  | .dispatching t =>
    match t.stage p with
    | .answered result =>
      some { (s.handle (env, .request (settleRequest p result))).setTask i
          (.dispatching (t.setStage p (.settled result))) with
        settles := Function.update s.settles i
          (s.settles i ++ [(p, settleRequest p result)]) }
    | _ => none
  | _ => none

def stepRelease (s : PushTasks ι) (i : ι) (p : PulledMessage) : Option (PushTasks ι) :=
  match s.task i with
  | .dispatching t =>
    if (t.stage p).isSettled then
      (t.jobs.release p).map fun jobs => s.setTask i (.dispatching { t with jobs := jobs })
    else none
  | _ => none

def stepFinish (s : PushTasks ι) (i : ι) : Option (PushTasks ι) :=
  match s.task i with
  | .dispatching t =>
    if !t.pausing && t.jobs.queued.isEmpty && t.jobs.running.isEmpty then
      some (s.setTask i (.finished t))
    else none
  | _ => none

def step (s : PushTasks ι) : PushEvent ι → Option (PushTasks ι)
  | .other e => some (s.handle e)
  | .spawn i =>
    match s.task i, (s.actor a₀).pushRegistry.get a₀.info.name with
    | .absent, some config => some (s.setTask i (.pulling config))
    | _, _ => none
  | .pull i env => s.stepPull a₀ maxConcurrency i env
  | .next i => s.stepNext engine a₀ i
  | .resume i =>
    match s.task i with
    | .dispatching t => some (s.setTask i (.dispatching { t with pausing := false }))
    | _ => none
  | .respond i p result => s.stepRespond i p result
  | .settle i p env => s.stepSettle i p env
  | .release i p => s.stepRelease i p
  | .finish i => s.stepFinish i
  | .cancel i =>
    match s.task i with
    | .pulling _ | .dispatching _ =>
      if (s.actor a₀).deleted then some (s.setTask i .cancelled) else none
    | _ => none

def run (s : PushTasks ι) (es : List (PushEvent ι)) : Option (PushTasks ι) :=
  Machine.run (step engine a₀ maxConcurrency) s es

end

section

variable {engine : Base64Engine} {a₀ : SubscriptionActor} {maxConcurrency : ℕ} {s s' : PushTasks ι}

inductive Transition (engine : Base64Engine) (a₀ : SubscriptionActor) (maxConcurrency : ℕ)
    (s : PushTasks ι) : PushEvent ι → PushTasks ι → Prop where
  | other (e : Env × ActorEvent) : Transition engine a₀ maxConcurrency s (.other e) (s.handle e)
  | spawn {i : ι} {config : PushConfig} (htask : s.task i = .absent) :
      Transition engine a₀ maxConcurrency s (.spawn i) (s.setTask i (.pulling config))
  | pullFailed {i : ι} {env : Env} {config : PushConfig} (htask : s.task i = .pulling config)
      (hnone : (s.actor a₀).pulled (pullEvent maxConcurrency env) = []) :
      Transition engine a₀ maxConcurrency s (.pull i env)
        ((s.handle (pullEvent maxConcurrency env)).setTask i .returned)
  | pull {i : ι} {env : Env} {config : PushConfig} (htask : s.task i = .pulling config) :
      Transition engine a₀ maxConcurrency s (.pull i env)
        ((s.handle (pullEvent maxConcurrency env)).setTask i (.dispatching
          (.start maxConcurrency config ((s.actor a₀).pulled (pullEvent maxConcurrency env)))))
  | next {i : ι} {t : PushTask} {p : PulledMessage} {jobs : Jobs PulledMessage}
      (htask : s.task i = .dispatching t) (hnext : t.jobs.next = some (p, jobs)) :
      Transition engine a₀ maxConcurrency s (.next i)
        { s.setTask i (.dispatching { t.setStage p .sending with jobs := jobs, pausing := true }) with
          requests := Function.update s.requests i
            (s.requests i ++ [t.request engine a₀.info.name p]) }
  | resume {i : ι} {t : PushTask} (htask : s.task i = .dispatching t) :
      Transition engine a₀ maxConcurrency s (.resume i)
        (s.setTask i (.dispatching { t with pausing := false }))
  | respond {i : ι} {t : PushTask} {p : PulledMessage} {result : PushResult}
      (htask : s.task i = .dispatching t) (hstage : t.stage p = .sending) :
      Transition engine a₀ maxConcurrency s (.respond i p result)
        { s.setTask i (.dispatching (t.setStage p (.answered result))) with
          responses := Function.update s.responses i (s.responses i ++ [(p, result)]) }
  | settle {i : ι} {t : PushTask} {p : PulledMessage} {env : Env} {result : PushResult}
      (htask : s.task i = .dispatching t) (hstage : t.stage p = .answered result) :
      Transition engine a₀ maxConcurrency s (.settle i p env)
        { (s.handle (env, .request (settleRequest p result))).setTask i
            (.dispatching (t.setStage p (.settled result))) with
          settles := Function.update s.settles i
            (s.settles i ++ [(p, settleRequest p result)]) }
  | release {i : ι} {t : PushTask} {p : PulledMessage} {jobs : Jobs PulledMessage}
      (htask : s.task i = .dispatching t) (hstage : (t.stage p).isSettled = true)
      (hrelease : t.jobs.release p = some jobs) :
      Transition engine a₀ maxConcurrency s (.release i p)
        (s.setTask i (.dispatching { t with jobs := jobs }))
  | finish {i : ι} {t : PushTask} (htask : s.task i = .dispatching t)
      (hqueued : t.jobs.queued = []) (hrunning : t.jobs.running = []) :
      Transition engine a₀ maxConcurrency s (.finish i) (s.setTask i (.finished t))
  | cancel {i : ι} (hdeleted : (s.actor a₀).deleted = true) :
      Transition engine a₀ maxConcurrency s (.cancel i) (s.setTask i .cancelled)

lemma transition_of_step {e : PushEvent ι} (h : s.step engine a₀ maxConcurrency e = some s') :
    Transition engine a₀ maxConcurrency s e s' := by
  cases e with
  | other e =>
    cases h
    exact .other e
  | spawn i =>
    simp only [step] at h
    split at h
    · next htask _ =>
      cases h
      exact .spawn htask
    · cases h
  | pull i env =>
    simp only [step, stepPull] at h
    split at h
    · next config htask =>
      cases h
      split
      · next err hpull =>
        refine .pullFailed htask ?_
        simp only [SubscriptionActor.pulled, pullEvent, hpull]
        rfl
      · next page hpull =>
        have hpage : (s.actor a₀).pulled (pullEvent maxConcurrency env) = page := by
          simp only [SubscriptionActor.pulled, pullEvent, hpull]
          rfl
        rw [← hpage]
        exact .pull htask
    · cases h
  | next i =>
    simp only [step, stepNext] at h
    split at h
    · next t htask =>
      split_ifs at h with hpausing
      obtain ⟨⟨p, jobs⟩, hnext, rfl⟩ := Option.map_eq_some_iff.mp h
      exact .next htask hnext
    · cases h
  | resume i =>
    simp only [step] at h
    split at h
    · next t htask =>
      cases h
      exact .resume htask
    · cases h
  | respond i p result =>
    simp only [step, stepRespond] at h
    split at h
    · next t htask =>
      split_ifs at h with hstage
      cases h
      exact .respond htask hstage
    · cases h
  | settle i p env =>
    simp only [step, stepSettle] at h
    split at h
    · next t htask =>
      split at h
      · next result hstage =>
        cases h
        exact .settle htask hstage
      · cases h
    · cases h
  | release i p =>
    simp only [step, stepRelease] at h
    split at h
    · next t htask =>
      split_ifs at h with hstage
      obtain ⟨jobs, hrelease, rfl⟩ := Option.map_eq_some_iff.mp h
      exact .release htask hstage hrelease
    · cases h
  | finish i =>
    simp only [step, stepFinish] at h
    split at h
    · next t htask =>
      split_ifs at h with hdone
      cases h
      simp only [Bool.and_eq_true, List.isEmpty_iff] at hdone
      exact .finish htask hdone.1.2 hdone.2
    · cases h
  | cancel i =>
    simp only [step] at h
    split at h
    · split_ifs at h with hdeleted
      cases h
      exact .cancel hdeleted
    · split_ifs at h with hdeleted
      cases h
      exact .cancel hdeleted
    · cases h

end

end PushTasks

lemma nodup_map_fst_concat {α β : Type*} {l : List (α × β)} {a : α} {b : β}
    (hl : (l.map Prod.fst).Nodup) (ha : a ∉ l.map Prod.fst) :
    ((l ++ [(a, b)]).map Prod.fst).Nodup := by
  rw [List.map_append, List.map_singleton, ← List.concat_eq_append]
  exact hl.concat ha

namespace PushTask

def inFlight (t : PushTask) : List PulledMessage :=
  t.jobs.started.filter fun p => !(t.stage p).isSettled

/-- The page is worked off in its order, and what was posted, answered and asked of the actor
agrees with how far its messages are. -/
structure Orderly (engine : Base64Engine) (maxConcurrency : ℕ) (subscription : SubscriptionName)
    (requests : List (String × PushPayload)) (responses : List (PulledMessage × PushResult))
    (settles : List (PulledMessage × SubscriptionRequest)) (t : PushTask) : Prop where
  limit : t.jobs.limit = maxConcurrency
  size : t.page.length ≤ min (maxConcurrency * 2) 1000
  nodup : t.page.Nodup
  order : t.jobs.started ++ t.jobs.queued = t.page
  running : ∀ p ∈ t.jobs.started, p ∉ t.jobs.running → (t.stage p).isSettled = true
  queued : ∀ p, t.stage p = .queued ↔ p ∉ t.jobs.started
  requested : requests = t.jobs.started.map (t.request engine subscription)
  responded : ∀ p result, (p, result) ∈ responses ↔
    t.stage p = .answered result ∨ t.stage p = .settled result
  respondsOnce : (responses.map Prod.fst).Nodup
  asked : ∀ p r, (p, r) ∈ settles ↔ ∃ result, t.stage p = .settled result ∧
    r = settleRequest p result
  settlesOnce : (settles.map Prod.fst).Nodup

section

variable {maxConcurrency : ℕ} {subscription : SubscriptionName}
  {requests : List (String × PushPayload)} {responses : List (PulledMessage × PushResult)}
  {settles : List (PulledMessage × SubscriptionRequest)} {t : PushTask}

lemma Orderly.start {config : PushConfig} {page : List PulledMessage} (hnodup : page.Nodup)
    (hsize : page.length ≤ min (maxConcurrency * 2) 1000) :
    (PushTask.start maxConcurrency config page).Orderly engine maxConcurrency subscription
      [] [] [] where
  limit := rfl
  size := hsize
  nodup := hnodup
  order := rfl
  running := by simp [PushTask.start, Jobs.start]
  queued := by simp [PushTask.start, Jobs.start]
  requested := rfl
  responded := by simp [PushTask.start]
  respondsOnce := List.nodup_nil
  asked := by simp [PushTask.start]
  settlesOnce := List.nodup_nil

/-- A message gets a request when its turn comes. -/
lemma Orderly.next (h : t.Orderly engine maxConcurrency subscription requests responses settles)
    {p : PulledMessage} {jobs : Jobs PulledMessage} (hnext : t.jobs.next = some (p, jobs)) :
    Orderly engine maxConcurrency subscription (requests ++ [t.request engine subscription p])
      responses settles
      { t.setStage p .sending with jobs := jobs, pausing := true } := by
  obtain ⟨hqueued, hstarted, hrunning, hlimit⟩ := Jobs.next_eq_some hnext
  have horder := (Jobs.started_append_queued_next hnext).trans h.order
  have hfresh : p ∉ t.jobs.started := by
    have hnodup := h.nodup
    rw [← horder, hstarted, List.append_assoc] at hnodup
    intro hmem
    exact (List.nodup_append.mp hnodup).2.2 p hmem p (List.mem_append_left _ List.mem_cons_self) rfl
  have hwas : t.stage p = .queued := (h.queued p).mpr hfresh
  refine ⟨hlimit.trans h.limit, h.size, h.nodup, horder, ?_, ?_, ?_, ?_, h.respondsOnce, ?_,
    h.settlesOnce⟩
  · intro q hq hnot
    rw [hstarted, List.mem_append, List.mem_singleton] at hq
    rw [hrunning, List.mem_append, List.mem_singleton, not_or] at hnot
    have hne : q ≠ p := hnot.2
    rw [stage_setStage_of_ne t hne]
    exact h.running q (hq.resolve_right hne) hnot.1
  · intro q
    simp only [hstarted, List.mem_append, List.mem_singleton, not_or]
    by_cases hq : q = p
    · simp [hq]
    · rw [stage_setStage_of_ne t hq, h.queued q]
      exact (and_iff_left hq).symm
  · simp only [hstarted, List.map_append, h.requested]
    rfl
  · intro q result
    rw [h.responded q result]
    by_cases hq : q = p
    · simp [hq, hwas]
    · simp [stage_setStage_of_ne t hq]
  · intro q r
    rw [h.asked q r]
    by_cases hq : q = p
    · simp [hq, hwas]
    · simp [stage_setStage_of_ne t hq]

lemma Orderly.respond (h : t.Orderly engine maxConcurrency subscription requests responses settles)
    {p : PulledMessage} (hstage : t.stage p = .sending) (result : PushResult) :
    (t.setStage p (.answered result)).Orderly engine maxConcurrency subscription requests
      (responses ++ [(p, result)]) settles := by
  have hstarted : p ∈ t.jobs.started := by
    by_contra hnot
    rw [(h.queued p).mpr hnot] at hstage
    cases hstage
  have hnew : p ∉ responses.map Prod.fst := by
    intro hmem
    obtain ⟨⟨q, result'⟩, hq, rfl⟩ := List.mem_map.mp hmem
    rw [h.responded, hstage] at hq
    rcases hq with hq | hq <;> cases hq
  refine ⟨h.limit, h.size, h.nodup, h.order, ?_, ?_, h.requested, ?_, ?_, ?_, h.settlesOnce⟩
  · intro q hq hnot
    have hsettled := h.running q hq hnot
    have hne : q ≠ p := by
      rintro rfl
      rw [hstage] at hsettled
      cases hsettled
    rw [stage_setStage_of_ne t hne]
    exact hsettled
  · intro q
    by_cases hq : q = p
    · rw [hq, stage_setStage_self]
      simp [setStage, hstarted]
    · rw [stage_setStage_of_ne t hq]
      exact h.queued q
  · intro q result'
    rw [List.mem_append, List.mem_singleton, h.responded]
    by_cases hq : q = p
    · simp [hq, hstage, eq_comm]
    · simp [stage_setStage_of_ne t hq, hq]
  · exact nodup_map_fst_concat h.respondsOnce hnew
  · intro q r
    rw [h.asked]
    by_cases hq : q = p
    · simp [hq, hstage]
    · simp [stage_setStage_of_ne t hq]

lemma Orderly.settle (h : t.Orderly engine maxConcurrency subscription requests responses settles)
    {p : PulledMessage} {result : PushResult} (hstage : t.stage p = .answered result) :
    (t.setStage p (.settled result)).Orderly engine maxConcurrency subscription requests responses
      (settles ++ [(p, settleRequest p result)]) := by
  have hstarted : p ∈ t.jobs.started := by
    by_contra hnot
    rw [(h.queued p).mpr hnot] at hstage
    cases hstage
  have hnew : p ∉ settles.map Prod.fst := by
    intro hmem
    obtain ⟨⟨q, r⟩, hq, rfl⟩ := List.mem_map.mp hmem
    obtain ⟨result', hsettled, -⟩ := (h.asked _ _).mp hq
    rw [hstage] at hsettled
    cases hsettled
  refine ⟨h.limit, h.size, h.nodup, h.order, ?_, ?_, h.requested, ?_, h.respondsOnce, ?_, ?_⟩
  · intro q hq hnot
    by_cases hqp : q = p
    · rw [hqp, stage_setStage_self]
      rfl
    · rw [stage_setStage_of_ne t hqp]
      exact h.running q hq hnot
  · intro q
    by_cases hq : q = p
    · rw [hq, stage_setStage_self]
      simp [setStage, hstarted]
    · rw [stage_setStage_of_ne t hq]
      exact h.queued q
  · intro q result'
    rw [h.responded]
    by_cases hq : q = p
    · simp [hq, hstage]
    · simp [stage_setStage_of_ne t hq]
  · intro q r
    rw [List.mem_append, List.mem_singleton, h.asked]
    by_cases hq : q = p
    · simp [hq, hstage]
    · simp [stage_setStage_of_ne t hq, hq]
  · exact nodup_map_fst_concat h.settlesOnce hnew

lemma Orderly.release (h : t.Orderly engine maxConcurrency subscription requests responses settles)
    {p : PulledMessage} {jobs : Jobs PulledMessage} (hstage : (t.stage p).isSettled = true)
    (hrelease : t.jobs.release p = some jobs) :
    Orderly engine maxConcurrency subscription requests responses settles
      { t with jobs := jobs } := by
  obtain ⟨-, hrunning, hqueued, hstarted, hlimit⟩ := Jobs.release_eq_some hrelease
  refine ⟨hlimit.trans h.limit, h.size, h.nodup, ?_, ?_, ?_, ?_, h.responded, h.respondsOnce,
    h.asked, h.settlesOnce⟩
  · dsimp only
    rw [hstarted, hqueued]
    exact h.order
  · intro q hq hnot
    dsimp only at hq hnot ⊢
    rw [hstarted] at hq
    by_cases hqp : q = p
    · rw [hqp]
      exact hstage
    · rw [hrunning, List.mem_erase_of_ne hqp] at hnot
      exact h.running q hq hnot
  · dsimp only
    rw [hstarted]
    exact h.queued
  · dsimp only
    rw [hstarted]
    exact h.requested

/-- Every dispatch that is under way holds a permit. -/
lemma Orderly.length_inFlight_le
    (h : t.Orderly engine maxConcurrency subscription requests responses settles) :
    t.inFlight.length ≤ maxConcurrency := by
  have hstarted : t.jobs.started.Nodup := by
    have hnodup := h.nodup
    rw [← h.order] at hnodup
    exact (List.nodup_append.mp hnodup).1
  have hsubset : t.inFlight ⊆ t.jobs.running := by
    intro p hp
    obtain ⟨hp, hstage⟩ := List.mem_filter.mp hp
    by_contra hnot
    rw [h.running p hp hnot] at hstage
    cases hstage
  calc t.inFlight.length ≤ t.jobs.running.length :=
        (List.subperm_of_subset (hstarted.filter _) hsubset).length_le
    _ ≤ t.jobs.limit := t.jobs.length_running_le
    _ = maxConcurrency := h.limit

/-- When all dispatches have ended, every message of the page has been settled. -/
lemma Orderly.settles_perm
    (h : t.Orderly engine maxConcurrency subscription requests responses settles)
    (hqueued : t.jobs.queued = []) (hrunning : t.jobs.running = []) :
    (settles.map Prod.fst).Perm t.page := by
  have hstarted : t.jobs.started = t.page := by
    have horder := h.order
    rwa [hqueued, List.append_nil] at horder
  refine (List.perm_ext_iff_of_nodup h.settlesOnce h.nodup).mpr fun p => ?_
  constructor
  · intro hp
    obtain ⟨⟨q, r⟩, hq, rfl⟩ := List.mem_map.mp hp
    obtain ⟨result, hsettled, -⟩ := (h.asked _ _).mp hq
    rw [← hstarted]
    by_contra hnot
    rw [(h.queued _).mpr hnot] at hsettled
    cases hsettled
  · intro hp
    rw [← hstarted] at hp
    have hsettled := h.running p hp (by rw [hrunning]; exact List.not_mem_nil)
    unfold DispatchStage.isSettled at hsettled
    split at hsettled
    · next result hstage =>
      exact List.mem_map.mpr ⟨_, (h.asked p _).mpr ⟨result, hstage, rfl⟩, rfl⟩
    · cases hsettled

end

end PushTask

namespace SubscriptionActor

/-- No two messages of a pull have the same ack ID. -/
lemma nodup_pulled (a : SubscriptionActor) (e : Env × ActorEvent) : (a.pulled e).Nodup := by
  have hids : ((a.pulled e).map fun p => p.ackId.value).Nodup := by
    rw [a.ackIds_pulled e]
    exact List.nodup_range'
  exact List.Nodup.of_map _ hids

end SubscriptionActor

lemma toNat_batchSize (maxConcurrency : ℕ) :
    (batchSize maxConcurrency).toNat = min (maxConcurrency * 2) 1000 := by
  have hle : min (maxConcurrency * 2) 1000 ≤ 1000 := Nat.min_le_right _ _
  exact UInt16.toNat_ofNat_of_lt' (by unfold UInt16.size; omega)

def TaskState.Orderly (engine : Base64Engine) (maxConcurrency : ℕ) (subscription : SubscriptionName)
    (requests : List (String × PushPayload)) (responses : List (PulledMessage × PushResult))
    (settles : List (PulledMessage × SubscriptionRequest)) : TaskState → Prop
  | .absent | .pulling _ => requests = [] ∧ responses = [] ∧ settles = []
  | .dispatching t => t.Orderly engine maxConcurrency subscription requests responses settles
  | .finished t => t.Orderly engine maxConcurrency subscription requests responses settles ∧
    t.jobs.queued = [] ∧ t.jobs.running = []
  | .returned | .cancelled => True

namespace PushTasks

variable {ι : Type*} [DecidableEq ι] {a₀ : SubscriptionActor} {maxConcurrency : ℕ}
  {s s' : PushTasks ι}

lemma length_pulled_pullEvent_le (a : SubscriptionActor) (maxConcurrency : ℕ) (env : Env) :
    (a.pulled (pullEvent maxConcurrency env)).length ≤ min (maxConcurrency * 2) 1000 := by
  have hcap : a.effectiveMax (batchSize maxConcurrency) 0 ≤ (batchSize maxConcurrency).toNat := by
    unfold SubscriptionActor.effectiveMax
    dsimp only
    rw [if_neg (by decide)]
    exact Nat.min_le_left _ _
  rw [toNat_batchSize] at hcap
  exact (a.length_pulled_le env _ _).trans hcap

def Orderly (engine : Base64Engine) (a₀ : SubscriptionActor) (maxConcurrency : ℕ)
    (s : PushTasks ι) : Prop :=
  ∀ i, (s.task i).Orderly engine maxConcurrency a₀.info.name (s.requests i) (s.responses i)
    (s.settles i)

omit [DecidableEq ι] in
lemma Orderly.start : (start : PushTasks ι).Orderly engine a₀ maxConcurrency :=
  fun _ => ⟨rfl, rfl, rfl⟩

lemma Orderly.update (h : s.Orderly engine a₀ maxConcurrency) (i : ι) {task : TaskState}
    {requests : List (String × PushPayload)} {responses : List (PulledMessage × PushResult)}
    {settles : List (PulledMessage × SubscriptionRequest)}
    (htask : s'.task = Function.update s.task i task)
    (hrequests : s'.requests = Function.update s.requests i requests)
    (hresponses : s'.responses = Function.update s.responses i responses)
    (hsettles : s'.settles = Function.update s.settles i settles)
    (hi : task.Orderly engine maxConcurrency a₀.info.name requests responses settles) :
    s'.Orderly engine a₀ maxConcurrency := by
  intro j
  rw [htask, hrequests, hresponses, hsettles]
  by_cases hj : j = i
  · subst hj
    simp only [Function.update_self]
    exact hi
  · simp only [Function.update_of_ne hj]
    exact h j

lemma Orderly.step (h : s.Orderly engine a₀ maxConcurrency) {e : PushEvent ι}
    (hstep : s.step engine a₀ maxConcurrency e = some s') :
    s'.Orderly engine a₀ maxConcurrency := by
  have hself : ∀ {β : Type _} (f : ι → β) (i : ι), f = Function.update f i (f i) :=
    fun f i => (Function.update_eq_self i f).symm
  have hof : ∀ {i task}, s.task i = task → task.Orderly engine maxConcurrency a₀.info.name
      (s.requests i) (s.responses i) (s.settles i) := by
    rintro i task rfl
    exact h i
  cases transition_of_step hstep with
  | other e => exact h
  | spawn htask =>
    have hempty := hof htask
    exact h.update _ rfl (hself _ _) (hself _ _) (hself _ _) hempty
  | pullFailed htask hnone =>
    exact h.update _ rfl (hself _ _) (hself _ _) (hself _ _) trivial
  | @pull i env config htask =>
    obtain ⟨hrequests, hresponses, hsettles⟩ := hof htask
    refine h.update i rfl (hself _ i) (hself _ i) (hself _ i) ?_
    change PushTask.Orderly _ _ _ (s.requests i) (s.responses i) (s.settles i) _
    rw [hrequests, hresponses, hsettles]
    exact .start (SubscriptionActor.nodup_pulled _ _) (length_pulled_pullEvent_le _ _ _)
  | next htask hnext =>
    exact h.update _ rfl rfl (hself _ _) (hself _ _) ((hof htask).next hnext)
  | resume htask =>
    have ht := hof htask
    exact h.update _ rfl (hself _ _) (hself _ _) (hself _ _)
      ⟨ht.limit, ht.size, ht.nodup, ht.order, ht.running, ht.queued, ht.requested, ht.responded,
        ht.respondsOnce, ht.asked, ht.settlesOnce⟩
  | respond htask hstage =>
    exact h.update _ rfl (hself _ _) rfl (hself _ _) ((hof htask).respond hstage _)
  | settle htask hstage =>
    exact h.update _ rfl (hself _ _) (hself _ _) rfl ((hof htask).settle hstage)
  | release htask hstage hrelease =>
    exact h.update _ rfl (hself _ _) (hself _ _) (hself _ _)
      ((hof htask).release hstage hrelease)
  | finish htask hqueued hrunning =>
    exact h.update _ rfl (hself _ _) (hself _ _) (hself _ _) ⟨hof htask, hqueued, hrunning⟩
  | cancel hdeleted =>
    exact h.update _ rfl (hself _ _) (hself _ _) (hself _ _) trivial

/-- Whatever else happens to the subscription, a task posts the messages of its page in their
order, each once and never more at once than it has permits, and asks the actor at most once
for each of them, as the endpoint has answered.  When it finishes, it has done so for all. -/
theorem push_task_settles_page (engine : Base64Engine) (a₀ : SubscriptionActor) (maxConcurrency : ℕ)
    (es : List (PushEvent ι)) (s : PushTasks ι)
    (hrun : start.run engine a₀ maxConcurrency es = some s)
    (i : ι) (t : PushTask) (htask : s.task i = .dispatching t ∨ s.task i = .finished t) :
    t.page.length ≤ min (maxConcurrency * 2) 1000 ∧
    t.inFlight.length ≤ maxConcurrency ∧
    s.requests i <+: t.page.map (t.request engine a₀.info.name) ∧
    (∀ p, engine.decode (t.request engine a₀.info.name p).2.message.data = some p.message.data) ∧
    ((s.settles i).map Prod.fst).Nodup ∧
    (∀ p r, (p, r) ∈ s.settles i → ∃ result, (p, result) ∈ s.responses i ∧
      (∀ result', (p, result') ∈ s.responses i → result' = result) ∧ r = settleRequest p result) ∧
    (s.task i = .finished t → s.requests i = t.page.map (t.request engine a₀.info.name) ∧
      ((s.settles i).map Prod.fst).Perm t.page) := by
  have horderly : s.Orderly engine a₀ maxConcurrency :=
    Machine.run_preserves hrun .start fun _ _ _ hs hstep => hs.step hstep
  have ht : t.Orderly engine maxConcurrency a₀.info.name (s.requests i) (s.responses i)
      (s.settles i) := by
    have hi := horderly i
    rcases htask with htask | htask
    · rw [htask] at hi
      exact hi
    · rw [htask] at hi
      exact hi.1
  refine ⟨ht.size, ht.length_inFlight_le, ?_, fun p => engine.decode_encode _, ht.settlesOnce,
    fun p r hr => ?_, fun hfinished => ?_⟩
  · rw [ht.requested]
    have hstarted : t.jobs.started <+: t.page := ⟨_, ht.order⟩
    exact hstarted.map _
  · obtain ⟨result, hstage, hrequest⟩ := (ht.asked p r).mp hr
    refine ⟨result, (ht.responded p result).mpr (.inr hstage), fun result' hresult' => ?_, hrequest⟩
    rcases (ht.responded p result').mp hresult' with hstage' | hstage'
    · rw [hstage] at hstage'
      cases hstage'
    · rw [hstage] at hstage'
      cases hstage'
      rfl
  · have hi := horderly i
    rw [hfinished] at hi
    obtain ⟨-, hqueued, hrunning⟩ := hi
    have hstarted := ht.order
    rw [hqueued, List.append_nil] at hstarted
    exact ⟨by rw [ht.requested, hstarted], ht.settles_perm hqueued hrunning⟩

namespace Sample

def info : SubscriptionInfo :=
  { Deltio.Sample.info with pushConfig := some (Deltio.Sample.pushTo "http://localhost") }

def first : PulledMessage := ⟨Deltio.Sample.message 1 none, ⟨1⟩, ⟨10000000000⟩, 1⟩

def second : PulledMessage := ⟨Deltio.Sample.message 2 none, ⟨2⟩, ⟨10000000000⟩, 1⟩

def post : PushEvent ℕ :=
  .other (Deltio.Sample.env 0, .request (.postMessages [first.message, second.message]))

def postsFirst : List (PushEvent ℕ) :=
  [.spawn 0, .pull 0 (Deltio.Sample.env 0), .next 0, .respond 0 first (.response 200),
    .settle 0 first (Deltio.Sample.env 0), .release 0 first, .resume 0]

def postsSecond : List (PushEvent ℕ) :=
  [.next 0, .respond 0 second (.response 500), .settle 0 second (Deltio.Sample.env 0),
    .release 0 second, .resume 0, .finish 0]

end Sample

/-- One message is acked and the other nacked. -/
theorem push_task_settles_two_messages : ∃ s t,
    start.run .standard (Deltio.Sample.start Sample.info) 1
      (Sample.post :: (Sample.postsFirst ++ Sample.postsSecond)) = some s ∧
    s.task 0 = .finished t ∧ t.page = [Sample.first, Sample.second] ∧
    (s.settles 0).map Prod.snd = [.acknowledgeMessages [⟨1⟩], .modifyDeadline [.nack ⟨2⟩]] ∧
    ((s.settles 0).map Prod.fst).Perm t.page := by
  have hreached : ∃ s t, start.run .standard (Deltio.Sample.start Sample.info) 1
      (Sample.post :: (Sample.postsFirst ++ Sample.postsSecond)) = some s ∧
      s.task 0 = .finished t ∧ t.page = [Sample.first, Sample.second] ∧
      (s.settles 0).map Prod.snd = [.acknowledgeMessages [⟨1⟩], .modifyDeadline [.nack ⟨2⟩]] :=
    ⟨_, _, rfl, rfl, rfl, rfl⟩
  obtain ⟨s, t, hrun, htask, hpage, hsettles⟩ := hreached
  obtain ⟨-, -, -, -, -, -, hfinished⟩ := push_task_settles_page .standard
    (Deltio.Sample.start Sample.info) 1 _ s hrun 0 t (.inr htask)
  exact ⟨s, t, hrun, htask, hpage, hsettles, (hfinished htask).2⟩

end PushTasks

end Deltio
