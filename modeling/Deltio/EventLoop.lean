import Deltio.Conservation
import Deltio.Leases
import Deltio.RetryRuns
import Deltio.TrackerMap

namespace Deltio

open Lib

inductive Branch where
  | request
  | expired
  | ready
deriving DecidableEq

def Branch.all : List Branch := [.request, .expired, .ready]

lemma Branch.mem_all (b : Branch) : b ∈ Branch.all := by cases b <;> decide

/-- `poll_next_expired` or `poll_next_ready` as a future: it has not been polled, or it sleeps
until the first deadline, if there is one, or until it is notified. -/
inductive TimedPoll where
  | fresh
  | sleeping (wakeAt : Option Instant)
deriving DecidableEq

def TimedPoll.isDue (now : Instant) : TimedPoll → Bool
  | .fresh => true
  | .sleeping none => false
  | .sleeping (some wakeAt) => decide (wakeAt ≤ now)

def RetryQueue.nextReady (q : RetryQueue) : Option AckDeadline :=
  q.schedule.first.map fun key => (ofLex key).1

/-- The task of a subscription.  `unpolled` are the branches that are left of the current poll
of the select; `handled` records what the actor has done. -/
structure EventLoop where
  actor : SubscriptionActor
  mailbox : List SubscriptionRequest
  now : Instant
  expiration : TimedPoll
  retry : TimedPoll
  unpolled : List Branch
  stopped : Bool
  handled : List (Env × ActorEvent)

/-- What happens to a task: time passes, a request is sent, the select polls one of its
branches, the task is woken, or it ends because the subscription has been deleted. -/
inductive LoopEvent where
  | tick (elapsed : Duration)
  | send (r : SubscriptionRequest)
  | poll (b : Branch) (env : Env)
  | wake
  | stop

def LoopEvent.isOwn : LoopEvent → Bool
  | .tick _ | .send _ => false
  | _ => true

namespace EventLoop

def mailboxCapacity : ℕ := 128

def start (actor : SubscriptionActor) (now : Instant) : EventLoop where
  actor := actor
  mailbox := []
  now := now
  expiration := .fresh
  retry := .fresh
  unpolled := Branch.all
  stopped := false
  handled := []

def act (s : EventLoop) (e : Env × ActorEvent) : EventLoop :=
  { s with actor := s.actor.step e, handled := s.handled ++ [e] }

/-- A branch is taken: the other futures are dropped, and the loop selects anew. -/
def handle (s : EventLoop) (e : Env × ActorEvent) : EventLoop :=
  { s.act e with expiration := .fresh, retry := .fresh, unpolled := Branch.all }

def pend (s : EventLoop) (b : Branch) : EventLoop := { s with unpolled := s.unpolled.erase b }

def sleepExpiration (s : EventLoop) : EventLoop :=
  { s.pend .expired with
    expiration := .sleeping (s.actor.outstanding.nextExpiration.map AckDeadline.time) }

def sleepRetry (s : EventLoop) : EventLoop :=
  { s.pend .ready with
    retry := .sleeping (s.actor.retryQueue.nextReady.map AckDeadline.time) }

def poll (s : EventLoop) (env : Env) : Branch → EventLoop
  | .request =>
    match s.mailbox with
    | [] => s.pend .request
    | r :: mailbox => { s with mailbox := mailbox }.handle (env, .request r)
  | .expired =>
    if s.expiration.isDue s.now then
      if (s.actor.outstanding.takeExpired s.now).1.isEmpty then
        (s.act (env, .expired s.now)).sleepExpiration
      else s.handle (env, .expired s.now)
    else s.pend .expired
  | .ready =>
    if s.retry.isDue s.now then
      if (s.actor.retryQueue.takeReady s.now).1.isEmpty then
        (s.act (env, .retryReady s.now)).sleepRetry
      else s.handle (env, .retryReady s.now)
    else s.pend .ready

def isWoken (s : EventLoop) : Bool :=
  !s.mailbox.isEmpty || s.expiration.isDue s.now || s.retry.isDue s.now

def step (s : EventLoop) : LoopEvent → Option EventLoop
  | .tick elapsed => some { s with now := s.now + elapsed }
  | .send r =>
    if s.stopped = false ∧ s.mailbox.length < mailboxCapacity then
      some { s with mailbox := s.mailbox ++ [r] }
    else none
  | .poll b env => if s.stopped = false ∧ b ∈ s.unpolled then some (s.poll env b) else none
  | .wake =>
    if s.stopped = false ∧ s.unpolled = [] ∧ s.isWoken then some { s with unpolled := Branch.all }
    else none
  | .stop =>
    -- the receiver is dropped with the requests in it
    if s.stopped = false ∧ s.actor.observer.deleted then
      some { s with stopped := true, mailbox := [] }
    else none

end EventLoop

namespace RetryQueue

def Reached (q : RetryQueue) : Prop := ∃ calls, (RetryRun.run calls).queue = q

lemma reached_new : new.Reached := ⟨[], rfl⟩

variable {q : RetryQueue}

lemma Reached.call (h : q.Reached) (call : RetryCall) (returned : List (List TopicMessage)) :
    (RetryRun.step ⟨q, returned⟩ call).queue.Reached := by
  obtain ⟨calls, rfl⟩ := h
  refine ⟨calls ++ [call], ?_⟩
  rw [RetryRun.run, List.foldl_append]
  cases call <;> rfl

lemma Reached.add (h : q.Reached) (m : TopicMessage) (deliverAt : AckDeadline) :
    (q.add m deliverAt).Reached := h.call (.add m deliverAt) []

lemma Reached.takeReady (h : q.Reached) (now : Instant) : (q.takeReady now).2.Reached :=
  h.call (.takeReady now) []

lemma Reached.clear (h : q.Reached) : q.clear.Reached := h.call .clear []

/-- The messages that wait, with their delivery times. -/
lemma Reached.holds (h : q.Reached) : ∃ r : Retries, r.Accounted ∧ q.Holds r.waiting := by
  obtain ⟨calls, rfl⟩ := h
  have hfollows := RetryRun.follows_start.foldl calls
  exact ⟨_, hfollows.accounted, hfollows.holds⟩

/-- There is something to take if and only if the first of the schedule is ready. -/
lemma Reached.takeReady_eq_nil_iff (h : q.Reached) (now : Instant) :
    (q.takeReady now).1 = [] ↔ ∀ key ∈ q.schedule, now < (ofLex key).1.time := by
  obtain ⟨r, hr, hholds⟩ := h.holds
  rw [(hholds.takeReady hr now).1, List.map_eq_nil_iff, List.eq_nil_iff_forall_not_mem]
  constructor
  · intro hnone key hkey
    obtain ⟨e, he, rfl⟩ := (hholds.schedule key).mp hkey
    change now < e.dueAt.time
    by_contra hlt
    exact hnone e (DelayQueue.mem_ready.mpr ⟨he, by simpa [reachedBy] using hlt⟩)
  · intro hall e he
    obtain ⟨hwaiting, hready⟩ := DelayQueue.mem_ready.mp he
    have hlt : now < e.dueAt.time := hall e.key ((hholds.schedule _).mpr ⟨e, hwaiting, rfl⟩)
    simp [reachedBy, hlt] at hready

/-- What has been taken is gone. -/
lemma Reached.takeReady_takeReady (h : q.Reached) (now : Instant) :
    ((q.takeReady now).2.takeReady now).1 = [] := by
  obtain ⟨r, hr, hholds⟩ := h.holds
  rw [(h.takeReady now).takeReady_eq_nil_iff]
  intro key hkey
  obtain ⟨e, he, rfl⟩ := ((hholds.takeReady hr now).2.schedule key).mp hkey
  change now < e.dueAt.time
  simpa [reachedBy] using (List.mem_filter.mp he).2

/-- Every message that waits is on the schedule. -/
lemma Reached.mem_schedule (h : q.Reached) {seq : ℕ} {m : TopicMessage}
    (hm : q.messages.get seq = some m) : ∃ deliverAt, toLex (deliverAt, seq) ∈ q.schedule := by
  obtain ⟨r, hr, hholds⟩ := h.holds
  obtain ⟨e, he, rfl, -⟩ := (hholds.messages seq m).mp hm
  exact ⟨e.dueAt, (hholds.schedule _).mpr ⟨e, he, rfl⟩⟩

end RetryQueue

namespace SubscriptionActor

lemma reached_step {a : SubscriptionActor} (h : a.retryQueue.Reached) (e : Env × ActorEvent) :
    (a.step e).retryQueue.Reached := by
  have hstep : (a.step e).retryQueue = (a.custodyAfter e).retryQueue :=
    congrArg Custody.retryQueue (a.custody_step e)
  have hdefer := deferAll_preserves (I := RetryQueue.Reached) (fun q m d hq => hq.add m d) a.info
    e.1.now a.deliveryAttempts (a.failing e.2) h
  rw [hstep]
  unfold custodyAfter
  split
  · exact h
  · split_ifs <;> exact h
  · split_ifs
    · exact h
    · exact hdefer
  · exact hdefer
  · exact h.takeReady _
  · split_ifs
    · exact h
    · exact h.clear
  · split_ifs
    · exact h
    · exact h.clear
  · split_ifs
    · exact h
    · exact h.clear
  · exact h

end SubscriptionActor

namespace OutstandingMessageTracker

variable {t : OutstandingMessageTracker}

lemma SideBySide.takeExpired_eq_nil_iff (h : t.SideBySide) (now : Instant) :
    (t.takeExpired now).1 = [] ↔ ∀ key ∈ t.expirations, now < (ofLex key).1.time := by
  rw [List.eq_nil_iff_forall_not_mem]
  constructor
  · intro hnone key hkey
    obtain ⟨m, hm, hdeadline⟩ := (h.expirations (ofLex key).1 (ofLex key).2).mp hkey
    by_contra hlt
    refine hnone m ((h.mem_takeExpired now m).mpr ⟨_, hm, ?_⟩)
    rw [hdeadline]
    exact not_lt.mp hlt
  · intro hall m hm
    obtain ⟨id, hget, hpassed⟩ := (h.mem_takeExpired now m).mp hm
    exact absurd (hall _ ((h.expirations m.deadline id).mpr ⟨m, hget, rfl⟩)) (not_lt.mpr hpassed)

/-- What has expired is gone. -/
lemma SideBySide.takeExpired_takeExpired (h : t.SideBySide) (now : Instant) :
    ((t.takeExpired now).2.takeExpired now).1 = [] := by
  have htakes := h.takeExpired now
  rw [htakes.sideBySide.takeExpired_eq_nil_iff]
  intro key hkey
  obtain ⟨m, hm, hdeadline⟩ := (htakes.sideBySide.expirations (ofLex key).1 (ofLex key).2).mp hkey
  rw [htakes.get, Option.filter_eq_some_iff, decide_eq_true_iff] at hm
  rw [← hdeadline]
  exact hm.2

end OutstandingMessageTracker

/-- The future would look for messages at the right time. -/
def TimedPoll.Knows (f : TimedPoll) (first : Option AckDeadline) : Prop :=
  f = .fresh ∨ f = .sleeping (first.map AckDeadline.time)

/-- The timer of the first deadline goes off when one of the deadlines has passed. -/
lemma TimedPoll.isDue_first {β : Type*} [LinearOrder β] (keys : SortedSet (AckDeadline ×ₗ β))
    (now : Instant) :
    (TimedPoll.sleeping ((keys.first.map fun key => (ofLex key).1).map AckDeadline.time)).isDue
      now = false ↔ ∀ key ∈ keys, now < (ofLex key).1.time := by
  rw [SortedSet.forall_mem_iff_first]
  · cases hfirst : keys.first with
    | none => simp [isDue]
    | some key => simp [isDue]
  · intro a b hle hlt
    exact lt_of_lt_of_le hlt (Prod.Lex.monotone_fst _ _ hle)

lemma OutstandingMessageTracker.SideBySide.isDue_nextExpiration {t : OutstandingMessageTracker}
    (h : t.SideBySide) (now : Instant) :
    (TimedPoll.sleeping (t.nextExpiration.map AckDeadline.time)).isDue now =
      !(t.takeExpired now).1.isEmpty := by
  rw [Bool.eq_iff_iff, ← not_iff_not, Bool.not_eq_true, Bool.not_eq_true', Bool.not_eq_false,
    List.isEmpty_iff, h.takeExpired_eq_nil_iff]
  exact TimedPoll.isDue_first t.expirations now

lemma RetryQueue.Reached.isDue_nextReady {q : RetryQueue} (h : q.Reached) (now : Instant) :
    (TimedPoll.sleeping (q.nextReady.map AckDeadline.time)).isDue now =
      !(q.takeReady now).1.isEmpty := by
  rw [Bool.eq_iff_iff, ← not_iff_not, Bool.not_eq_true, Bool.not_eq_true', Bool.not_eq_false,
    List.isEmpty_iff, h.takeReady_eq_nil_iff]
  exact TimedPoll.isDue_first q.schedule now

namespace SubscriptionActor

variable (a : SubscriptionActor) (env : Env) (now : Instant)

lemma outstanding_expired :
    (a.step (env, .expired now)).outstanding = (a.outstanding.takeExpired now).2 :=
  congrArg Custody.outstanding (a.custody_step (env, .expired now))

lemma retryQueue_expired (h : (a.outstanding.takeExpired now).1 = []) :
    (a.step (env, .expired now)).retryQueue = a.retryQueue := by
  have hstep := congrArg Custody.retryQueue (a.custody_step (env, .expired now))
  refine hstep.trans ?_
  change deferAll a.info env.now a.deliveryAttempts (a.outstanding.takeExpired now).1 _ = _
  rw [h]
  rfl

lemma outstanding_retryReady :
    (a.step (env, .retryReady now)).outstanding = a.outstanding :=
  congrArg Custody.outstanding (a.custody_step (env, .retryReady now))

lemma retryQueue_retryReady :
    (a.step (env, .retryReady now)).retryQueue = (a.retryQueue.takeReady now).2 :=
  congrArg Custody.retryQueue (a.custody_step (env, .retryReady now))

end SubscriptionActor

namespace EventLoop

/-- The actor is where its events have brought it, and a future that sleeps knows the first
deadline of the actor as it is now. -/
structure Attuned (a₀ : SubscriptionActor) (s : EventLoop) : Prop where
  actor : s.actor = a₀.run s.handled
  tracked : s.actor.Tracked
  reached : s.actor.retryQueue.Reached
  expiration : s.expiration.Knows s.actor.outstanding.nextExpiration
  retry : s.retry.Knows s.actor.retryQueue.nextReady
  expirationPolled : .expired ∉ s.unpolled → s.expiration ≠ .fresh
  retryPolled : .ready ∉ s.unpolled → s.retry ≠ .fresh
  unpolled : s.unpolled.length ≤ 3

variable {a₀ : SubscriptionActor} {s s' : EventLoop}

lemma attuned_start (htracked : a₀.Tracked) (hreached : a₀.retryQueue.Reached) (now : Instant) :
    (start a₀ now).Attuned a₀ where
  actor := rfl
  tracked := htracked
  reached := hreached
  expiration := .inl rfl
  retry := .inl rfl
  expirationPolled h := absurd (Branch.mem_all _) h
  retryPolled h := absurd (Branch.mem_all _) h
  unpolled := le_rfl

lemma Attuned.actor_act (h : s.Attuned a₀) (e : Env × ActorEvent) :
    (s.act e).actor = a₀.run (s.act e).handled := by
  change s.actor.step e = a₀.run (s.handled ++ [e])
  rw [SubscriptionActor.run_append, ← h.actor]
  rfl

lemma Attuned.handle (h : s.Attuned a₀) (e : Env × ActorEvent) : (s.handle e).Attuned a₀ where
  actor := h.actor_act e
  tracked := h.tracked.step e
  reached := SubscriptionActor.reached_step h.reached e
  expiration := .inl rfl
  retry := .inl rfl
  expirationPolled h := absurd (Branch.mem_all _) h
  retryPolled h := absurd (Branch.mem_all _) h
  unpolled := le_rfl

lemma Attuned.pend (h : s.Attuned a₀) {b : Branch} (hexpiration : b = .expired → s.expiration ≠ .fresh)
    (hretry : b = .ready → s.retry ≠ .fresh) : (s.pend b).Attuned a₀ where
  actor := h.actor
  tracked := h.tracked
  reached := h.reached
  expiration := h.expiration
  retry := h.retry
  expirationPolled hpolled := by
    by_cases hb : b = .expired
    · exact hexpiration hb
    · exact h.expirationPolled fun hmem => hpolled ((List.mem_erase_of_ne (Ne.symm hb)).mpr hmem)
  retryPolled hpolled := by
    by_cases hb : b = .ready
    · exact hretry hb
    · exact h.retryPolled fun hmem => hpolled ((List.mem_erase_of_ne (Ne.symm hb)).mpr hmem)
  unpolled := List.length_erase_le.trans h.unpolled

/-- Nothing has expired, and the future goes to sleep. -/
lemma Attuned.sleepExpiration (h : s.Attuned a₀) (env : Env)
    (hempty : (s.actor.outstanding.takeExpired s.now).1 = []) :
    (s.act (env, .expired s.now)).sleepExpiration.Attuned a₀ where
  actor := h.actor_act (env, .expired s.now)
  tracked := h.tracked.step (env, .expired s.now)
  reached := SubscriptionActor.reached_step h.reached _
  expiration := .inr rfl
  retry := by
    have hsame := s.actor.retryQueue_expired env s.now hempty
    exact hsame.symm ▸ h.retry
  expirationPolled _ := TimedPoll.noConfusion
  retryPolled hpolled := by
    apply h.retryPolled
    intro hmem
    exact hpolled ((List.mem_erase_of_ne (by decide)).mpr hmem)
  unpolled := List.length_erase_le.trans h.unpolled

/-- Nothing is ready, and the future goes to sleep. -/
lemma Attuned.sleepRetry (h : s.Attuned a₀) (env : Env) :
    (s.act (env, .retryReady s.now)).sleepRetry.Attuned a₀ where
  actor := h.actor_act (env, .retryReady s.now)
  tracked := h.tracked.step (env, .retryReady s.now)
  reached := SubscriptionActor.reached_step h.reached _
  expiration := by
    have hsame := s.actor.outstanding_retryReady env s.now
    exact hsame.symm ▸ h.expiration
  retry := .inr rfl
  expirationPolled hpolled := by
    apply h.expirationPolled
    intro hmem
    exact hpolled ((List.mem_erase_of_ne (by decide)).mpr hmem)
  retryPolled _ := TimedPoll.noConfusion
  unpolled := List.length_erase_le.trans h.unpolled

lemma ne_fresh_of_not_isDue {f : TimedPoll} {now : Instant} (h : ¬ f.isDue now = true) :
    f ≠ .fresh := by
  rintro rfl
  exact h rfl

lemma Attuned.poll (h : s.Attuned a₀) (env : Env) (b : Branch) : (s.poll env b).Attuned a₀ := by
  cases b with
  | request =>
    cases hmailbox : s.mailbox with
    | nil =>
      simp only [EventLoop.poll, hmailbox]
      exact h.pend (by simp) (by simp)
    | cons r mailbox =>
      have hrest : Attuned a₀ { s with mailbox := mailbox } := { h with }
      simp only [EventLoop.poll, hmailbox]
      exact hrest.handle _
  | expired =>
    rw [EventLoop.poll]
    split_ifs with hdue hempty
    · exact h.sleepExpiration env (List.isEmpty_iff.mp hempty)
    · exact h.handle _
    · exact h.pend (fun _ => ne_fresh_of_not_isDue hdue) (by simp)
  | ready =>
    rw [EventLoop.poll]
    split_ifs with hdue hempty
    · exact h.sleepRetry env
    · exact h.handle _
    · exact h.pend (by simp) fun _ => ne_fresh_of_not_isDue hdue

lemma Attuned.step (h : s.Attuned a₀) {e : LoopEvent} (hstep : s.step e = some s') :
    s'.Attuned a₀ := by
  cases e with
  | tick elapsed =>
    cases hstep
    exact { h with }
  | send r =>
    simp only [EventLoop.step] at hstep
    split_ifs at hstep
    cases hstep
    exact { h with }
  | poll b env =>
    simp only [EventLoop.step] at hstep
    split_ifs at hstep
    cases hstep
    exact h.poll env b
  | wake =>
    simp only [EventLoop.step] at hstep
    split_ifs at hstep
    cases hstep
    exact { h with
      expirationPolled := fun hpolled => absurd (Branch.mem_all _) hpolled
      retryPolled := fun hpolled => absurd (Branch.mem_all _) hpolled
      unpolled := le_rfl }
  | stop =>
    simp only [EventLoop.step] at hstep
    split_ifs at hstep
    cases hstep
    exact { h with }

def due (s : EventLoop) : Branch → Bool
  | .request => !s.mailbox.isEmpty
  | .expired => !(s.actor.outstanding.takeExpired s.now).1.isEmpty
  | .ready => !(s.actor.retryQueue.takeReady s.now).1.isEmpty

/-- How often a branch can still be taken.  A request can make messages expire, and an expired
message can be ready for its retry at once. -/
def work (s : EventLoop) : ℕ :=
  4 * s.mailbox.length + 2 * (s.due .expired).toNat + (s.due .ready).toNat

def isBehind (s : EventLoop) : Bool := Branch.all.any fun b => s.due b && !decide (b ∈ s.unpolled)

/-- How many steps the loop can take without outside help. -/
def patience (s : EventLoop) : ℕ :=
  if s.stopped then 0 else 3 * s.work + s.unpolled.length + 4 * s.isBehind.toNat + 1

lemma isBehind_of_all (h : s.unpolled = Branch.all) : s.isBehind = false := by
  simp [isBehind, h, Branch.mem_all]

lemma isBehind_iff : s.isBehind = true ↔ ∃ b, s.due b = true ∧ b ∉ s.unpolled := by
  simp [isBehind, Branch.mem_all]

lemma patience_lt_of_handle {e : Env × ActorEvent} (hstopped : s.stopped = false)
    (hstopped' : s'.stopped = false) (hunpolled : s.unpolled ≠ []) (hwork : (s'.handle e).work < s.work) :
    (s'.handle e).patience < s.patience := by
  have hpos := List.length_pos_iff.mpr hunpolled
  have hall : (s'.handle e).unpolled = Branch.all := rfl
  have hlive : (s'.handle e).stopped = false := hstopped'
  rw [patience, patience, hstopped, hlive, isBehind_of_all hall, hall]
  simp only [Bool.false_eq_true, if_false, Branch.all, List.length_cons, List.length_nil,
    Bool.toNat_false]
  omega

lemma patience_lt_of_pending {b : Branch} (hstopped : s.stopped = false)
    (hstopped' : s'.stopped = false) (hb : b ∈ s.unpolled)
    (hunpolled : s'.unpolled = s.unpolled.erase b) (hmailbox : s'.mailbox = s.mailbox)
    (hdue : ∀ c, s'.due c = s.due c) (hpending : s.due b = false) :
    s'.patience < s.patience := by
  have hlength := List.length_erase_of_mem hb
  have hpos := List.length_pos_of_mem hb
  have hwork : s'.work = s.work := by rw [work, work, hmailbox, hdue, hdue]
  have hbehind : s'.isBehind = true → s.isBehind = true := by
    rw [isBehind_iff, isBehind_iff]
    rintro ⟨c, hc, hpolled⟩
    rw [hdue] at hc
    refine ⟨c, hc, fun hmem => hpolled ?_⟩
    rw [hunpolled, List.mem_erase_of_ne]
    · exact hmem
    · rintro rfl
      rw [hpending] at hc
      cases hc
  have hle : s'.isBehind.toNat ≤ s.isBehind.toNat := Bool.toNat_le_toNat hbehind
  rw [patience, patience, hstopped, hstopped', hwork, hunpolled]
  simp only [Bool.false_eq_true, if_false]
  omega

lemma Attuned.isDue_expiration (h : s.Attuned a₀) (hslept : s.expiration ≠ .fresh) :
    s.expiration.isDue s.now = s.due .expired := by
  rw [h.expiration.resolve_left hslept]
  exact h.tracked.sideBySide.isDue_nextExpiration s.now

lemma Attuned.isDue_retry (h : s.Attuned a₀) (hslept : s.retry ≠ .fresh) :
    s.retry.isDue s.now = s.due .ready := by
  rw [h.retry.resolve_left hslept]
  exact h.reached.isDue_nextReady s.now

lemma Attuned.due_expired_act (h : s.Attuned a₀) (env : Env) :
    (s.act (env, .expired s.now)).due .expired = false := by
  have houtstanding := s.actor.outstanding_expired env s.now
  change (!((s.actor.step (env, .expired s.now)).outstanding.takeExpired s.now).1.isEmpty) = false
  rw [houtstanding, h.tracked.sideBySide.takeExpired_takeExpired]
  rfl

lemma Attuned.due_ready_act (h : s.Attuned a₀) (env : Env) :
    (s.act (env, .retryReady s.now)).due .ready = false := by
  have hqueue := s.actor.retryQueue_retryReady env s.now
  change (!((s.actor.step (env, .retryReady s.now)).retryQueue.takeReady s.now).1.isEmpty) = false
  rw [hqueue, h.reached.takeReady_takeReady]
  rfl

lemma due_expired_act_retryReady (s : EventLoop) (env : Env) :
    (s.act (env, .retryReady s.now)).due .expired = s.due .expired := by
  have houtstanding := s.actor.outstanding_retryReady env s.now
  change (!((s.actor.step (env, .retryReady s.now)).outstanding.takeExpired s.now).1.isEmpty) = _
  rw [houtstanding]
  rfl

lemma due_ready_act_expired (env : Env)
    (hempty : (s.actor.outstanding.takeExpired s.now).1 = []) :
    (s.act (env, .expired s.now)).due .ready = s.due .ready := by
  have hqueue := s.actor.retryQueue_expired env s.now hempty
  change (!((s.actor.step (env, .expired s.now)).retryQueue.takeReady s.now).1.isEmpty) = _
  rw [hqueue]
  rfl

lemma patience_poll_request (hstopped : s.stopped = false) (env : Env)
    (hb : .request ∈ s.unpolled) : (s.poll env .request).patience < s.patience := by
  cases hmailbox : s.mailbox with
  | nil =>
    simp only [poll, hmailbox]
    exact patience_lt_of_pending hstopped hstopped hb rfl rfl (fun _ => rfl) (by simp [due, hmailbox])
  | cons r mailbox =>
    simp only [poll, hmailbox]
    refine patience_lt_of_handle hstopped hstopped (List.ne_nil_of_mem hb) ?_
    have hlength : s.mailbox.length = mailbox.length + 1 := by rw [hmailbox, List.length_cons]
    set t := { s with mailbox := mailbox }.handle (env, .request r) with ht
    have hmailbox' : t.mailbox = mailbox := rfl
    have hexpired := (t.due .expired).toNat_le
    have hready := (t.due .ready).toNat_le
    rw [work, work, hmailbox']
    omega

lemma Attuned.patience_poll_expired (h : s.Attuned a₀) (hstopped : s.stopped = false) (env : Env)
    (hb : .expired ∈ s.unpolled) : (s.poll env .expired).patience < s.patience := by
  rw [EventLoop.poll]
  split_ifs with hdue hempty
  · have hnone := List.isEmpty_iff.mp hempty
    have hpending : s.due .expired = false := by simp [due, hnone]
    refine patience_lt_of_pending hstopped hstopped hb rfl rfl (fun c => ?_) hpending
    cases c with
    | request => rfl
    | expired => exact (h.due_expired_act env).trans hpending.symm
    | ready => exact due_ready_act_expired env hnone
  · refine patience_lt_of_handle hstopped hstopped (List.ne_nil_of_mem hb) ?_
    set t := s.handle (env, .expired s.now) with ht
    have hexpired : t.due .expired = false := h.due_expired_act env
    have hbefore : s.due .expired = true := by simp [due, hempty]
    have hmailbox : t.mailbox = s.mailbox := rfl
    have hready := (t.due .ready).toNat_le
    rw [work, work, hmailbox, hexpired, hbefore, Bool.toNat_false, Bool.toNat_true]
    omega
  · have hslept := ne_fresh_of_not_isDue hdue
    rw [h.isDue_expiration hslept, Bool.not_eq_true] at hdue
    exact patience_lt_of_pending hstopped hstopped hb rfl rfl (fun _ => rfl) hdue

lemma Attuned.patience_poll_ready (h : s.Attuned a₀) (hstopped : s.stopped = false) (env : Env)
    (hb : .ready ∈ s.unpolled) : (s.poll env .ready).patience < s.patience := by
  rw [EventLoop.poll]
  split_ifs with hdue hempty
  · have hnone := List.isEmpty_iff.mp hempty
    have hpending : s.due .ready = false := by simp [due, hnone]
    refine patience_lt_of_pending hstopped hstopped hb rfl rfl (fun c => ?_) hpending
    cases c with
    | request => rfl
    | expired => exact due_expired_act_retryReady s env
    | ready => exact (h.due_ready_act env).trans hpending.symm
  · refine patience_lt_of_handle hstopped hstopped (List.ne_nil_of_mem hb) ?_
    set t := s.handle (env, .retryReady s.now) with ht
    have hready : t.due .ready = false := h.due_ready_act env
    have hbefore : s.due .ready = true := by simp [due, hempty]
    have hexpired : t.due .expired = s.due .expired := due_expired_act_retryReady s env
    have hmailbox : t.mailbox = s.mailbox := rfl
    rw [work, work, hmailbox, hexpired, hready, hbefore, Bool.toNat_false, Bool.toNat_true]
    omega
  · have hslept := ne_fresh_of_not_isDue hdue
    rw [h.isDue_retry hslept, Bool.not_eq_true] at hdue
    exact patience_lt_of_pending hstopped hstopped hb rfl rfl (fun _ => rfl) hdue

/-- A sleeping loop is woken for a reason. -/
lemma Attuned.isWoken_iff (h : s.Attuned a₀) (hunpolled : s.unpolled = []) :
    s.isWoken = true ↔ ∃ b, s.due b = true := by
  have hexpiration := h.isDue_expiration (h.expirationPolled (by simp [hunpolled]))
  have hretry := h.isDue_retry (h.retryPolled (by simp [hunpolled]))
  rw [isWoken, hexpiration, hretry, Bool.or_eq_true, Bool.or_eq_true]
  constructor
  · rintro ((hb | hb) | hb)
    · exact ⟨.request, hb⟩
    · exact ⟨.expired, hb⟩
    · exact ⟨.ready, hb⟩
  · rintro ⟨b, hb⟩
    cases b with
    | request => exact .inl (.inl hb)
    | expired => exact .inl (.inr hb)
    | ready => exact .inr hb

lemma Attuned.patience_lt (h : s.Attuned a₀) {e : LoopEvent} (hown : e.isOwn = true)
    (hstep : s.step e = some s') : s'.patience < s.patience := by
  cases e with
  | tick elapsed => cases hown
  | send r => cases hown
  | poll b env =>
    simp only [EventLoop.step] at hstep
    split_ifs at hstep with hpoll
    cases hstep
    cases b with
    | request => exact patience_poll_request hpoll.1 env hpoll.2
    | expired => exact h.patience_poll_expired hpoll.1 env hpoll.2
    | ready => exact h.patience_poll_ready hpoll.1 env hpoll.2
  | wake =>
    simp only [EventLoop.step] at hstep
    split_ifs at hstep with hwake
    cases hstep
    obtain ⟨hstopped, hunpolled, hwoken⟩ := hwake
    obtain ⟨b, hb⟩ := (h.isWoken_iff hunpolled).mp hwoken
    have hbehind : s.isBehind = true := isBehind_iff.mpr ⟨b, hb, by simp [hunpolled]⟩
    set t : EventLoop := { s with unpolled := Branch.all } with ht
    have hall : t.unpolled = Branch.all := rfl
    have hwork : t.work = s.work := rfl
    rw [patience, patience, hstopped, isBehind_of_all hall, hbehind, hunpolled, hall, hwork]
    simp only [Bool.false_eq_true, if_false, Branch.all, List.length_cons, List.length_nil,
      Bool.toNat_false, Bool.toNat_true]
    omega
  | stop =>
    simp only [EventLoop.step] at hstep
    split_ifs at hstep with hstop
    cases hstep
    simp only [patience, hstop.1, Bool.false_eq_true, if_false, if_true]
    omega

lemma patience_le (h : s.unpolled.length ≤ 3) : s.patience ≤ 12 * s.mailbox.length + 17 := by
  have hexpired := (s.due .expired).toNat_le
  have hready := (s.due .ready).toNat_le
  have hbehind := s.isBehind.toNat_le
  unfold patience work
  split_ifs <;> omega

/-- When the loop can do nothing more, nothing is due. -/
lemma Attuned.not_due_of_resting (h : s.Attuned a₀) (hstopped : s.stopped = false)
    (hrest : ∀ e : LoopEvent, e.isOwn = true → s.step e = none) (b : Branch) : s.due b = false := by
  have hunpolled : s.unpolled = [] := by
    rw [List.eq_nil_iff_forall_not_mem]
    intro c hc
    have hpoll := hrest (.poll c (Sample.env 0)) rfl
    rw [EventLoop.step, if_pos ⟨hstopped, hc⟩] at hpoll
    cases hpoll
  have hwoken : ¬ s.isWoken = true := by
    intro hwoken
    have hwake := hrest .wake rfl
    rw [EventLoop.step, if_pos ⟨hstopped, hunpolled, hwoken⟩] at hwake
    cases hwake
  rw [h.isWoken_iff hunpolled] at hwoken
  exact Bool.eq_false_iff.mpr fun hb => hwoken ⟨b, hb⟩

/-- The message is settled, or it waits for a consumer, or the time until which its consumer or
its backoff holds it is still to come. -/
def Awaits (s : EventLoop) (m : TopicMessage) : Whereabouts → Prop
  | .outstanding => ∃ id p, s.actor.outstanding.messages.get id = some p ∧ p.message = m ∧
      s.now < p.deadline.time
  | .retryQueue => ∃ seq deliverAt, s.actor.retryQueue.messages.get seq = some m ∧
      toLex (deliverAt, seq) ∈ s.actor.retryQueue.schedule ∧ s.now < deliverAt.time
  | _ => True

lemma Attuned.lease_lasts (h : s.Attuned a₀) (hdue : s.due .expired = false) {id : AckId}
    {p : PulledMessage} (hp : s.actor.outstanding.messages.get id = some p) :
    s.now < p.deadline.time := by
  have hexpired : (s.actor.outstanding.takeExpired s.now).1 = [] := by simpa [due] using hdue
  have hmem := (h.tracked.sideBySide.expirations p.deadline id).mpr ⟨p, hp, rfl⟩
  exact (h.tracked.sideBySide.takeExpired_eq_nil_iff s.now).mp hexpired _ hmem

lemma Attuned.backoff_lasts (h : s.Attuned a₀) (hdue : s.due .ready = false)
    {deliverAt : AckDeadline} {seq : ℕ} (hmem : toLex (deliverAt, seq) ∈ s.actor.retryQueue.schedule) :
    s.now < deliverAt.time := by
  have hready : (s.actor.retryQueue.takeReady s.now).1 = [] := by simpa [due] using hdue
  exact (h.reached.takeReady_eq_nil_iff s.now).mp hready _ hmem

lemma Attuned.awaits (h : s.Attuned a₀) (hdue : ∀ b, s.due b = false) {m : TopicMessage}
    {w : Whereabouts} (hm : 0 < s.actor.occurrences w m) : s.Awaits m w := by
  cases w with
  | outstanding =>
    obtain ⟨p, hp, hmessage⟩ := List.mem_map.mp (List.count_pos_iff.mp hm)
    obtain ⟨id, hget⟩ := (HashMap.mem_values _ p).mp hp
    exact ⟨id, p, hget, hmessage, h.lease_lasts (hdue .expired) hget⟩
  | retryQueue =>
    obtain ⟨seq, hget⟩ := (HashMap.mem_values _ m).mp (List.count_pos_iff.mp hm)
    obtain ⟨deliverAt, hmem⟩ := h.reached.mem_schedule hget
    exact ⟨seq, deliverAt, hget, hmem, h.backoff_lasts (hdue .ready) hmem⟩
  | _ => trivial

section

variable (info : SubscriptionInfo) (topic : Topic) (pushRegistry : PushSubscriptionsRegistry)
  (delegate : SubscriptionManagerState) (topicManager : Option TopicManagerRef)

/-- Left alone, the loop comes to rest, in whichever order it polls its branches.  When it
rests, no request is left, and every deadline of a lease and every entry of the schedule is
still to come: every message that was accepted is in one place, and it waits there for a
consumer or for such a time. -/
theorem loop_comes_to_rest {start₀ : Instant} {events : List LoopEvent} {s : EventLoop}
    (hrun : Machine.run step
      (.start (.start info topic pushRegistry delegate topicManager) start₀) events = some s) :
    (∀ own t, (∀ e ∈ own, LoopEvent.isOwn e = true) → Machine.run step s own = some t →
      own.length ≤ 12 * s.mailbox.length + 17) ∧
    (s.stopped = false → (∀ e : LoopEvent, e.isOwn = true → s.step e = none) →
      s.mailbox = [] ∧
      (∀ id p, s.actor.outstanding.messages.get id = some p → s.now < p.deadline.time) ∧
      (∀ deliverAt seq, toLex (deliverAt, seq) ∈ s.actor.retryQueue.schedule →
        s.now < deliverAt.time) ∧
      (∀ m w, 0 < s.actor.occurrences w m → s.Awaits m w) ∧
      ((∀ e ∈ s.handled, ¬ e.2.discards) →
        ((SubscriptionActor.posted s.handled).map (·.id)).Nodup →
        ∀ m ∈ SubscriptionActor.posted s.handled, s.actor.accepts m = true →
          ∃ w, s.actor.ExactlyAt m w ∧ s.Awaits m w)) := by
  have h : s.Attuned (.start info topic pushRegistry delegate topicManager) := by
    refine Machine.run_preserves hrun ?_ fun u e v hu hstep => hu.step hstep
    exact attuned_start
      (SubscriptionActor.tracked_start info topic pushRegistry delegate topicManager)
      RetryQueue.reached_new start₀
  refine ⟨fun own t hown hrun => ?_, fun hstopped hrest => ?_⟩
  · have halong : Machine.Along step (fun _ e => e.isOwn = true) s own :=
      Machine.along_of_forall (fun _ e he => hown e he) s
    have hlength := halong.length_le hrun h (fun _ _ _ hu _ hstep => hu.step hstep)
      fun _ _ _ hu he hstep => hu.patience_lt he hstep
    exact hlength.trans (patience_le h.unpolled)
  · have hdue := h.not_due_of_resting hstopped hrest
    refine ⟨by simpa [due] using hdue .request, fun id p => h.lease_lasts (hdue .expired),
      fun deliverAt seq => h.backoff_lasts (hdue .ready), fun m w => h.awaits hdue, ?_⟩
    intro hkept hids m hm haccepts
    have hocc := SubscriptionActor.occ_run info topic pushRegistry delegate topicManager hkept m
    rw [← h.actor, List.count_eq_one_of_mem ((List.Nodup.of_map _ hids).filter _)
      (List.mem_filter.mpr ⟨hm, haccepts⟩)] at hocc
    obtain ⟨w, hw⟩ := SubscriptionActor.exists_exactlyAt h.tracked.sound.keyed hocc
    refine ⟨w, hw, h.awaits hdue ?_⟩
    rw [hw.once]
    exact Nat.one_pos

end

/-- A message is posted and pulled, and its lease runs out while the loop sleeps.  The loop is
woken, puts the message back into its queue and rests again. -/
def Sample.events : List LoopEvent :=
  [.send (.postMessages [Deltio.Sample.message 1 none]), .poll .request (Deltio.Sample.env 0),
    .poll .ready (Deltio.Sample.env 0), .send (.pullMessages 10 0),
    .poll .request (Deltio.Sample.env 0), .poll .expired (Deltio.Sample.env 0),
    .poll .request (Deltio.Sample.env 0), .poll .ready (Deltio.Sample.env 0),
    .tick (.fromSecs 11), .wake, .poll .ready (Deltio.Sample.env 0),
    .poll .expired (Deltio.Sample.env 0), .poll .request (Deltio.Sample.env 0),
    .poll .expired (Deltio.Sample.env 0), .poll .ready (Deltio.Sample.env 0)]

theorem loop_comes_to_rest_after_expiry : ∃ s,
    Machine.run step (.start (Deltio.Sample.start Deltio.Sample.info) 0) Sample.events = some s ∧
    s.mailbox = [] ∧
    ∃ w, s.actor.ExactlyAt (Deltio.Sample.message 1 none) w ∧
      s.Awaits (Deltio.Sample.message 1 none) w := by
  obtain ⟨s, hrun⟩ : ∃ s, Machine.run step
      (.start (Deltio.Sample.start Deltio.Sample.info) 0) Sample.events = some s := ⟨_, rfl⟩
  have hstopped : s.stopped = false := by
    cases hrun
    rfl
  have hrest : ∀ e : LoopEvent, e.isOwn = true → s.step e = none := by
    cases hrun
    intro e he
    cases e with
    | tick | send => cases he
    | poll b env => rfl
    | wake => rfl
    | stop => rfl
  obtain ⟨hmailbox, -, -, -, hawaits⟩ := (loop_comes_to_rest Deltio.Sample.info Deltio.Sample.topic ∅ .new
    none hrun).2 hstopped hrest
  have hposted : SubscriptionActor.posted s.handled = [Deltio.Sample.message 1 none] := by
    cases hrun
    rfl
  have hkept : ∀ e ∈ s.handled, ¬ e.2.discards := by
    cases hrun
    exact ActorEvent.not_discards_of_all rfl
  refine ⟨s, hrun, hmailbox, hawaits hkept ?_ _ ?_ ?_⟩
  · rw [hposted]
    decide
  · rw [hposted]
    exact List.mem_singleton_self _
  · cases hrun
    rfl

end EventLoop

end Deltio
