import Deltio.Detachment
import Deltio.FlowControl
import Deltio.Lib.Notify

namespace Deltio

open Lib

namespace SubscriptionActor

lemma releaseAcked_of_eq_nil {acked : List PulledMessage} {freedKeys : List String}
    {a : SubscriptionActor} (h : (releaseAcked acked freedKeys a).1 = []) :
    freedKeys = [] ∧ (releaseAcked acked freedKeys a).2.keysInFlight = a.keysInFlight := by
  induction acked generalizing freedKeys a with
  | nil => exact ⟨h, rfl⟩
  | cons pulled rest ih =>
    unfold releaseAcked at h ⊢
    dsimp only at h ⊢
    obtain ⟨hfreed, hkeys⟩ := ih h
    obtain ⟨hnil, hone⟩ := List.append_eq_nil_iff.mp hfreed
    refine ⟨hnil, hkeys.trans ?_⟩
    unfold settleAcked at hone ⊢
    dsimp only at hone ⊢
    split at hone
    · next key _ _ =>
      split_ifs at hone with hin
      · cases hone
      · exact Finset.erase_eq_of_notMem hin
    · rfl

lemma queues_settleAcked (a : SubscriptionActor) (m : TopicMessage) :
    (a.settleAcked m).2.backlog = a.backlog ∧
      (a.settleAcked m).2.orderedQueues = a.orderedQueues := by
  unfold settleAcked
  dsimp only
  split <;> exact ⟨rfl, rfl⟩

lemma queues_releaseAcked (acked : List PulledMessage) (freedKeys : List String)
    (a : SubscriptionActor) :
    (releaseAcked acked freedKeys a).2.backlog = a.backlog ∧
      (releaseAcked acked freedKeys a).2.orderedQueues = a.orderedQueues := by
  induction acked generalizing freedKeys a with
  | nil => exact ⟨rfl, rfl⟩
  | cons pulled rest ih =>
    obtain ⟨hbacklog, hqueues⟩ := a.queues_settleAcked pulled.message
    obtain ⟨hb, hq⟩ := ih (freedKeys ++ (a.settleAcked pulled.message).1.toList)
      (a.settleAcked pulled.message).2
    exact ⟨hb.trans hbacklog, hq.trans hqueues⟩

/-- An ack makes messages deliverable only by freeing their key, which it signals. -/
lemma announces_acknowledgeMessages (a : SubscriptionActor) (ackIds : List AckId)
    {m : TopicMessage} (hm : (a.acknowledgeMessages ackIds).2.Deliverable m)
    (hnew : ¬ a.Deliverable m) :
    a.observer.newMessagesAvailable <
      (a.acknowledgeMessages ackIds).2.observer.newMessagesAvailable := by
  unfold acknowledgeMessages at hm ⊢
  split_ifs at hm ⊢ with hdeleted
  · exact absurd hm hnew
  dsimp only at hm ⊢
  set removed := a.outstanding.remove (ackIds.filter a.outstanding.contains)
  set b : SubscriptionActor := { a with outstanding := removed.2 } with hb
  obtain ⟨hbacklog, hqueues⟩ := queues_releaseAcked removed.1 [] b
  have hobs := observer_of_reports (reports_releaseAcked removed.1 [] b)
  have hfreed : (releaseAcked removed.1 [] b).1 ≠ [] := by
    intro hnil
    refine hnew ?_
    have hkeys := (releaseAcked_of_eq_nil hnil).2
    rw [hnil, if_pos (List.isEmpty_nil)] at hm
    unfold Deliverable queueOf at hm ⊢
    split_ifs at hm
    all_goals
      dsimp only [notifyOutstandingFreed] at hm
      rw [hbacklog, hqueues, hkeys] at hm
      exact hm
  rw [if_neg (fun h => hfreed (List.isEmpty_iff.mp h)), show a.observer = b.observer from rfl,
    ← hobs]
  split_ifs <;> exact Nat.lt_succ_self _

/-- Acks and seeks send the second signal. -/
def Frees : ActorEvent → Prop
  | .request (.acknowledgeMessages _) | .request (.seek _) => True
  | _ => False

structure OnlyAnnounces (a b : SubscriptionActor) : Prop where
  outstandingFreed : b.observer.outstandingFreed = a.observer.outstandingFreed
  deleted : b.observer.deleted = a.observer.deleted

lemma OnlyAnnounces.of_reports {a b : SubscriptionActor} (h : b.reports = a.reports) :
    OnlyAnnounces a b := by
  constructor <;> rw [observer_of_reports h]

lemma OnlyAnnounces.notify {a b : SubscriptionActor} (h : OnlyAnnounces a b) :
    OnlyAnnounces a b.notifyNewMessagesAvailable := ⟨h.outstandingFreed, h.deleted⟩

lemma onlyAnnounces_requeueMessages (a : SubscriptionActor) (env : Env)
    (msgs : List PulledMessage) : OnlyAnnounces a (a.requeueMessages env msgs) := by
  have hloop := OnlyAnnounces.of_reports (reports_requeueLoop env.now msgs [] [] a)
  obtain ⟨spawned, attempts, counters, h⟩ := a.requeueMessages_eq env msgs
  rw [h]
  dsimp only
  split_ifs
  · exact ⟨hloop.outstandingFreed, hloop.deleted⟩
  · exact ⟨hloop.outstandingFreed, hloop.deleted⟩

lemma onlyAnnounces_step (a : SubscriptionActor) {e : Env × ActorEvent} (h : ¬ Frees e.2)
    (hdelete : e.2 ≠ .request .delete) : OnlyAnnounces a (a.step e) := by
  obtain ⟨env, event⟩ := e
  cases event with
  | expired polledAt =>
    change OnlyAnnounces a (a.pollExpired env polledAt)
    unfold pollExpired handleExpiredMessages
    dsimp only
    split_ifs
    · exact ⟨rfl, rfl⟩
    · have hrequeue := onlyAnnounces_requeueMessages { a with
        outstanding := (a.outstanding.takeExpired polledAt).2
        counters := { a.counters with
          expired := a.counters.expired + (a.outstanding.takeExpired polledAt).1.length } } env
        (a.outstanding.takeExpired polledAt).1
      exact ⟨hrequeue.outstandingFreed, hrequeue.deleted⟩
  | retryReady polledAt =>
    change OnlyAnnounces a (a.pollReady env polledAt)
    unfold pollReady handleRetryReady
    dsimp only
    set b : SubscriptionActor := { a with retryQueue := (a.retryQueue.takeReady polledAt).2 }
    have hloop : OnlyAnnounces a _ := OnlyAnnounces.of_reports
      (reports_retryReadyLoop env.now (a.retryQueue.takeReady polledAt).1 false b)
    split_ifs
    · exact ⟨rfl, rfl⟩
    · exact hloop.notify
    · exact hloop
  | request r =>
    cases r with
    | acknowledgeMessages ackIds => exact absurd trivial h
    | seek seekTime => exact absurd trivial h
    | delete => exact absurd rfl hdelete
    | postMessages messages =>
      change OnlyAnnounces a (a.postMessages messages)
      unfold postMessages
      have hloop := OnlyAnnounces.of_reports (reports_postLoop messages false a)
      dsimp only
      split_ifs
      · exact ⟨rfl, rfl⟩
      · exact hloop.notify
      · exact hloop
    | pullMessages maxCount maxOutstanding =>
      change OnlyAnnounces a (a.pullMessages env.now maxCount maxOutstanding).2
      unfold pullMessages signalMore
      have hloop := OnlyAnnounces.of_reports
        (a.reports_pullUpTo env.now (a.effectiveMax maxCount maxOutstanding))
      dsimp only
      split_ifs
      · exact ⟨rfl, rfl⟩
      · exact ⟨rfl, rfl⟩
      · exact ⟨rfl, rfl⟩
      · exact ⟨hloop.outstandingFreed, hloop.deleted⟩
      · exact ⟨hloop.outstandingFreed, hloop.deleted⟩
    | modifyDeadline modifications =>
      change OnlyAnnounces a (a.modifyDeadline env modifications).2
      unfold modifyDeadline
      dsimp only
      split_ifs
      · exact ⟨rfl, rfl⟩
      · have hrequeue := onlyAnnounces_requeueMessages { a with
          outstanding := (a.outstanding.modify modifications).2
          counters := { a.counters with
            nacked := a.counters.nacked + (a.outstanding.modify modifications).1.length } } env
          (a.outstanding.modify modifications).1
        exact ⟨hrequeue.outstandingFreed, hrequeue.deleted⟩
    | detach =>
      change OnlyAnnounces a a.detach
      unfold detach
      split_ifs <;> exact ⟨rfl, rfl⟩
    | getInfo | getStats | updateInfo | modifyPushConfig => exact ⟨rfl, rfl⟩

lemma wakes_of_not_missesWakeup {a : SubscriptionActor} (h : a.Fresh) {e : Env × ActorEvent}
    (hmiss : ¬ a.MissesWakeup e) : a.Wakes e := by
  obtain ⟨env, event⟩ := e
  cases event with
  | expired polledAt => exact (wakes_expired_iff h env polledAt).mpr hmiss
  | retryReady polledAt => exact a.wakes_retryReady env polledAt
  | request r =>
    cases r with
    | modifyDeadline modifications => exact (wakes_modifyDeadline_iff h env modifications).mpr hmiss
    | postMessages messages => exact a.wakes_postMessages env messages
    | pullMessages maxCount maxOutstanding =>
      exact wakes_pullMessages h env maxCount maxOutstanding
    | acknowledgeMessages ackIds => exact a.wakes_acknowledgeMessages env ackIds
    | seek seekTime => exact a.wakes_seek env seekTime
    | delete => exact a.wakes_delete env
    | detach => exact a.wakes_detach env
    | getInfo | getStats | updateInfo | modifyPushConfig =>
      exact wakes_of_unchanged (fun _ hm => hm) le_rfl

lemma announces_seek (a : SubscriptionActor) (order : DrainOrder) (seekTime : SystemTime)
    {m : TopicMessage} (hm : (a.seekToTime order seekTime).Deliverable m)
    (hnew : ¬ a.Deliverable m) :
    a.observer.newMessagesAvailable <
      (a.seekToTime order seekTime).observer.newMessagesAvailable := by
  unfold seekToTime at hm ⊢
  split_ifs at hm ⊢ with hdeleted
  · exact absurd hm hnew
  · dsimp only
    rw [← show (a.resetTo seekTime).observer = a.observer from rfl,
      ← observer_of_reports (reports_foldl_seekOne seekTime _ (a.resetTo seekTime))]
    exact Nat.lt_succ_self _

/-- What becomes deliverable is announced with the first signal, to Pull calls as well. -/
lemma announces_step {a : SubscriptionActor} (h : a.Fresh) {e : Env × ActorEvent}
    (hmiss : ¬ a.MissesWakeup e) {m : TopicMessage} (hm : (a.step e).Deliverable m)
    (hnew : ¬ a.Deliverable m) :
    a.observer.newMessagesAvailable < (a.step e).observer.newMessagesAvailable := by
  have hnotified : Notified a (a.step e) :=
    wakes_of_not_missesWakeup h hmiss ⟨m, hm⟩ (.inl ⟨m, hm, hnew⟩)
  have hquiet : ¬ Frees e.2 → e.2 ≠ .request .delete →
      a.observer.newMessagesAvailable < (a.step e).observer.newMessagesAvailable := by
    intro hfrees hdelete
    have hfreed := (a.onlyAnnounces_step hfrees hdelete).outstandingFreed
    rcases hnotified with hlt | hlt
    · exact hlt
    · omega
  obtain ⟨env, event⟩ := e
  cases event with
  | expired | retryReady => exact hquiet id (by simp)
  | request r =>
    cases r with
    | acknowledgeMessages ackIds => exact a.announces_acknowledgeMessages ackIds hm hnew
    | seek seekTime => exact a.announces_seek env.order seekTime hm hnew
    | delete =>
      refine absurd hm ?_
      change ¬ (a.delete env.topicAnswer).2.Deliverable m
      unfold delete
      split_ifs
      · exact hnew
      · cases env.topicAnswer with
        | closed => exact hnew
        | gone | removed =>
          rintro (hb | ⟨key, -, hq⟩)
          · cases hb
          · cases hq
    | _ => exact hquiet id (by simp)

lemma outstandingFreed_le_step (a : SubscriptionActor) (e : Env × ActorEvent) :
    a.observer.outstandingFreed ≤ (a.step e).observer.outstandingFreed := by
  have hquiet : ¬ Frees e.2 → e.2 ≠ .request .delete →
      a.observer.outstandingFreed ≤ (a.step e).observer.outstandingFreed :=
    fun hfrees hdelete => (a.onlyAnnounces_step hfrees hdelete).outstandingFreed.ge
  obtain ⟨env, event⟩ := e
  cases event with
  | expired | retryReady => exact hquiet id (by simp)
  | request r =>
    cases r with
    | acknowledgeMessages ackIds =>
      change _ ≤ (a.acknowledgeMessages ackIds).2.observer.outstandingFreed
      unfold acknowledgeMessages
      dsimp only
      set removed := a.outstanding.remove (ackIds.filter a.outstanding.contains)
      have hloop : OnlyAnnounces a _ := OnlyAnnounces.of_reports
        (reports_releaseAcked removed.1 [] { a with outstanding := removed.2 })
      have hle := hloop.outstandingFreed.ge
      split_ifs
      · exact le_rfl
      all_goals first | exact hle | exact hle.trans (Nat.le_succ _)
    | seek seekTime =>
      change _ ≤ (a.seekToTime env.order seekTime).observer.outstandingFreed
      unfold seekToTime
      dsimp only
      split_ifs
      · exact le_rfl
      · exact (OnlyAnnounces.of_reports
          (reports_foldl_seekOne seekTime _ (a.resetTo seekTime))).outstandingFreed.ge.trans
            (Nat.le_succ _)
    | delete =>
      change _ ≤ (a.delete env.topicAnswer).2.observer.outstandingFreed
      unfold delete
      split_ifs
      · exact le_rfl
      · cases env.topicAnswer <;> exact le_rfl
    | _ => exact hquiet id (by simp)

/-- The subscription is neither deleted nor detached. -/
structure Serving (a : SubscriptionActor) : Prop where
  deleted : a.deleted = false
  detached : a.info.detached = false

lemma deleted_step {a : SubscriptionActor} (hs : a.Sound) (e : Env × ActorEvent)
    (h : a.deleted = true) : (a.step e).deleted = true := by
  obtain ⟨env, event⟩ := e
  rcases config_step_cases hs env event with
    ⟨-, hconfig⟩ | ⟨update, rfl⟩ | ⟨pushConfig, rfl⟩ | rfl | rfl
  · exact (congrArg Config.deleted hconfig).trans h
  · exact h
  · exact h
  · simp [step, receive, delete, h]
  · change a.detach.deleted = true
    unfold detach
    split_ifs <;> exact h

/-- Neither a deletion nor a detachment is taken back. -/
lemma Serving.of_step {a : SubscriptionActor} (hs : a.Sound) {e : Env × ActorEvent}
    (h : (a.step e).Serving) : a.Serving := by
  constructor
  · by_contra hd
    have hafter := deleted_step hs e (Bool.not_eq_false _ ▸ hd)
    exact Bool.false_ne_true (h.deleted.symm.trans hafter)
  · by_contra hd
    have hafter := (detached_step hs e).mpr (.inl (Bool.not_eq_false _ ▸ hd))
    exact Bool.false_ne_true (h.detached.symm.trans hafter)

/-- The deletion is signalled only by an actor that is marked as deleted. -/
lemma deleted_of_observer_step {a : SubscriptionActor} (hs : a.Sound) (e : Env × ActorEvent)
    (h : a.observer.deleted = true → a.deleted = true)
    (hafter : (a.step e).observer.deleted = true) : (a.step e).deleted = true := by
  have hsame : (a.step e).observer.deleted = a.observer.deleted → (a.step e).deleted = true :=
    fun heq => deleted_step hs e (h (heq.symm.trans hafter))
  have hquiet : ¬ Frees e.2 → e.2 ≠ .request .delete → (a.step e).deleted = true :=
    fun hfrees hdelete => hsame (a.onlyAnnounces_step hfrees hdelete).deleted
  obtain ⟨env, event⟩ := e
  cases event with
  | expired | retryReady => exact hquiet id (by simp)
  | request r =>
    cases r with
    | acknowledgeMessages ackIds =>
      apply hsame
      change (a.acknowledgeMessages ackIds).2.observer.deleted = _
      unfold acknowledgeMessages
      dsimp only
      set removed := a.outstanding.remove (ackIds.filter a.outstanding.contains)
      have hloop : OnlyAnnounces a _ := OnlyAnnounces.of_reports
        (reports_releaseAcked removed.1 [] { a with outstanding := removed.2 })
      split_ifs
      · rfl
      all_goals exact hloop.deleted
    | seek seekTime =>
      apply hsame
      change (a.seekToTime env.order seekTime).observer.deleted = _
      unfold seekToTime
      dsimp only
      split_ifs
      · rfl
      · exact (OnlyAnnounces.of_reports
          (reports_foldl_seekOne seekTime _ (a.resetTo seekTime))).deleted
    | delete =>
      change (a.delete env.topicAnswer).2.deleted = true
      unfold delete
      split_ifs with hdeleted
      · exact hdeleted
      · cases env.topicAnswer <;> rfl
    | _ => exact hquiet id (by simp)

/-- Only pulls add to what is outstanding. -/
lemma len_step_le {a : SubscriptionActor} (h : a.Fresh) {e : Env × ActorEvent}
    (hpull : a.pulled e = []) : (a.step e).outstanding.len ≤ a.outstanding.len := by
  by_cases hkeeps : ¬ e.2.discards ∧ ¬ e.2.seeks
  · have hlen := len_step h hkeeps.1 hkeeps.2
    rw [hpull, List.length_nil] at hlen
    omega
  · have hstep : (a.step e).outstanding = (a.custodyAfter e).outstanding :=
      congrArg Custody.outstanding (a.custody_step e)
    rw [hstep]
    obtain ⟨env, event⟩ := e
    cases event with
    | expired | retryReady => exact absurd ⟨id, id⟩ hkeeps
    | request r =>
      cases r with
      | delete | detach | seek =>
        simp only [custodyAfter]
        split_ifs
        · exact le_rfl
        · exact Nat.zero_le _
      | _ => exact absurd ⟨id, id⟩ hkeeps

/-- A puller with this cap has no headroom; the cap 0 stands for none. -/
def AtCap (a : SubscriptionActor) (cap : UInt16) : Prop :=
  cap ≠ 0 ∧ cap.toNat ≤ a.outstanding.len % 2 ^ 16

/-- An event that leaves something deliverable signals it, or it was there before and
the cap was not reached before unless it is reached now. -/
lemma announces_or_deliverable {a : SubscriptionActor} (hs : a.Sound) {e : Env × ActorEvent}
    (hmiss : ¬ a.MissesWakeup e) {cap : UInt16} (hlive : (a.step e).Serving)
    (hfreed : cap ≠ 0 → (a.step e).observer.outstandingFreed = a.observer.outstandingFreed)
    (hdeliverable : ∃ m, (a.step e).Deliverable m) :
    a.observer.newMessagesAvailable < (a.step e).observer.newMessagesAvailable ∨
      ((∃ m, a.Deliverable m) ∧ (a.AtCap cap → (a.step e).AtCap cap)) := by
  by_cases hsent :
      a.observer.newMessagesAvailable < (a.step e).observer.newMessagesAvailable
  · exact .inl hsent
  obtain ⟨m, hm⟩ := hdeliverable
  have hbefore : a.Deliverable m := by
    by_contra hnew
    exact hsent (announces_step hs.fresh hmiss hm hnew)
  refine .inr ⟨⟨m, hbefore⟩, fun hcap => ⟨hcap.1, ?_⟩⟩
  have hle : a.outstanding.len ≤ (a.step e).outstanding.len := by
    by_contra hlt
    have hnotified : Notified a (a.step e) :=
      wakes_of_not_missesWakeup hs.fresh hmiss ⟨m, hm⟩ (.inr (Nat.lt_of_not_le hlt))
    rcases hnotified with h | h
    · exact hsent h
    · rw [hfreed hcap.1] at h
      exact lt_irrefl _ h
  have hnone : a.pulled e = [] := by
    by_contra hsome
    obtain ⟨env, event⟩ := e
    cases event with
    | expired | retryReady => exact hsome rfl
    | request r =>
      cases r with
      | pullMessages maxCount maxOutstanding =>
        have hcapacity : a.effectiveMax maxCount maxOutstanding ≠ 0 := by
          have hlength := a.length_pulled_le env maxCount maxOutstanding
          have hpos := List.length_pos_iff.mpr hsome
          omega
        have hbefore := Serving.of_step hs hlive
        exact hsent (pullPassesOn_of_capacity hbefore.deleted hbefore.detached hcapacity ⟨m, hm⟩)
      | _ => exact hsome rfl
  have hge := len_step_le hs.fresh hnone
  rw [show (a.step e).outstanding.len = a.outstanding.len by omega]
  exact hcap.2

/-- A pull signals what it leaves behind, or it takes nothing and changes nothing. -/
lemma pull_announces_or_eq {a : SubscriptionActor} (hlive : a.Serving) (now : Instant)
    (maxCount cap : UInt16)
    (hdeliverable : ∃ m, (a.pullMessages now maxCount cap).2.Deliverable m) :
    a.observer.newMessagesAvailable <
        (a.pullMessages now maxCount cap).2.observer.newMessagesAvailable ∨
      (maxCount = 0 ∨ a.AtCap cap) ∧ (a.pullMessages now maxCount cap).2 = a := by
  by_cases hcapacity : a.effectiveMax maxCount cap = 0
  · refine .inr ⟨(a.effectiveMax_eq_zero_iff maxCount cap).mp hcapacity, ?_⟩
    unfold pullMessages
    rw [if_neg (ne_true_of_eq_false hlive.deleted),
      if_neg (ne_true_of_eq_false hlive.detached), if_pos hcapacity]
  · exact .inl (pullPassesOn_of_capacity hlive.deleted hlive.detached hcapacity hdeliverable)

end SubscriptionActor

/-- A call that pulls in a loop: the Pull handler, or the loop of a stream. -/
inductive PullCall where
  | unary (maxMessages : UInt16) (returnImmediately : Bool)
  | streaming (maxOutstanding : UInt16)
deriving DecidableEq

namespace PullCall

def request : PullCall → SubscriptionRequest
  | .unary maxMessages _ => .pullMessages maxMessages 0
  | .streaming maxOutstanding => streamPull maxOutstanding

def cap : PullCall → UInt16
  | .unary _ _ => 0
  | .streaming maxOutstanding => maxOutstanding

def count : PullCall → UInt16
  | .unary maxMessages _ => maxMessages
  | .streaming maxOutstanding =>
    if maxOutstanding = 0 then UInt16.ofNat (2 ^ 16 - 1) else maxOutstanding

lemma request_eq (c : PullCall) : c.request = .pullMessages c.count c.cap := by
  cases c <;> rfl

/-- Only a stream waits for the second signal and for the deletion. -/
def isStreaming : PullCall → Bool
  | .unary _ _ => false
  | .streaming _ => true

/-- Whether the call goes on to wait after the answer to its pull.  A Pull call returns what
it got; a stream hands it to its client and waits for more. -/
def waitsAfter : PullCall → Except PullMessagesError (List PulledMessage) → Bool
  | .unary _ returnImmediately, .ok pulled => pulled.isEmpty && !returnImmediately
  | .streaming _, .ok _ => true
  | _, .error _ => false

end PullCall

/-- A pull of the call takes nothing: it asks for nothing, or its cap is reached. -/
def SubscriptionActor.Sated (a : SubscriptionActor) (c : PullCall) : Prop :=
  c.count = 0 ∨ a.AtCap c.cap

/-- What the two signals of a call had counted when the call subscribed to them. -/
structure Signals where
  calls : ℕ
  freed : ℕ
deriving DecidableEq

/-- Where a call is in its loop.  An abandoned call is gone, but its pull is still in the
mailbox of the actor. -/
inductive PullPhase where
  | idle
  | subscribed (signals : Signals)
  | requested (signals : Signals)
  | answered (signals : Signals)
  | parked (signals : Signals)
  | abandoned
  | returned
deriving DecidableEq

namespace PullPhase

/-- The signals of a call between its pull and its next one. -/
def waiting : PullPhase → Option Signals
  | .answered signals | .parked signals => some signals
  | _ => none

def signals : PullPhase → Option Signals
  | .subscribed signals | .requested signals | .answered signals | .parked signals => some signals
  | _ => none

@[simp] lemma signals_abandoned : signals .abandoned = none := rfl

@[simp] lemma signals_returned : signals .returned = none := rfl

lemma signals_of_waiting {p : PullPhase} {signals : Signals} (h : p.waiting = some signals) :
    p.signals = some signals := by
  cases p with
  | answered | parked => exact h
  | _ => cases h

/-- The actor has yet to handle a pull of the call. -/
def aboutToPull : PullPhase → Bool
  | .subscribed _ | .requested _ | .abandoned => true
  | _ => false

end PullPhase

structure LongPolls (ι : Type*) where
  actor : SubscriptionActor
  available : Notify ι
  phase : ι → PullPhase

inductive PollEvent (ι : Type*) where
  | other (e : Env × ActorEvent)
  | call (i : ι)
  | send (i : ι)
  | handle (i : ι) (env : Env)
  | poll (i : ι)
  | resume (i : ι)
  | freed (i : ι)
  | ended (i : ι)
  | closed (i : ι)
  | cancel (i : ι)

namespace LongPolls

open SubscriptionActor

variable {ι : Type*}

def start (actor : SubscriptionActor) : LongPolls ι := ⟨actor, .new, fun _ => .idle⟩

def advance (s : LongPolls ι) (b : SubscriptionActor) : LongPolls ι :=
  let sent := b.observer.newMessagesAvailable - s.actor.observer.newMessagesAvailable
  let available := Notify.notifyOne^[sent] s.available
  { s with
    actor := b
    available :=
      if b.observer.deleted && !s.actor.observer.deleted then available.notifyWaiters
      else available }

section Step

variable [DecidableEq ι]

def enter (s : LongPolls ι) (i : ι) (p : PullPhase) : LongPolls ι :=
  { s with phase := Function.update s.phase i p }

@[simp] lemma phase_enter_self (s : LongPolls ι) (i : ι) (p : PullPhase) :
    (s.enter i p).phase i = p := by
  unfold enter
  exact Function.update_self ..

lemma phase_enter_of_ne (s : LongPolls ι) {i j : ι} (hne : j ≠ i) (p : PullPhase) :
    (s.enter i p).phase j = s.phase j := by
  unfold enter
  exact Function.update_of_ne hne ..

/-- The head of the loop: the call subscribes to the signals before it pulls. -/
def subscribe (s : LongPolls ι) (i : ι) : LongPolls ι :=
  s.enter i (.subscribed ⟨s.available.calls, s.actor.observer.outstandingFreed⟩)

def interrupted (s : LongPolls ι) (c : PullCall) (signals : Signals) : Bool :=
  c.isStreaming &&
    (decide (signals.freed ≠ s.actor.observer.outstandingFreed) || s.actor.observer.deleted)

def step (calls : ι → PullCall) (s : LongPolls ι) : PollEvent ι → Option (LongPolls ι)
  | .other e => some (s.advance (s.actor.step e))
  | .call i => if s.phase i = .idle then some (s.subscribe i) else none
  | .send i =>
    match s.phase i with
    | .subscribed signals => some (s.enter i (.requested signals))
    | _ => none
  | .handle i env =>
    let r := s.actor.pullMessages env.now (calls i).count (calls i).cap
    match s.phase i with
    | .requested signals =>
      some ((s.advance r.2).enter i
        (if (calls i).waitsAfter r.1 then .answered signals else .returned))
    | .abandoned => some ((s.advance r.2).enter i .returned)
    | _ => none
  | .poll i =>
    match s.phase i with
    | .answered signals =>
      let r := s.available.poll i signals.calls
      if r.1 then some ({ s with available := r.2 }.subscribe i)
      else if s.interrupted (calls i) signals then none
      else some ({ s with available := r.2 }.enter i (.parked signals))
    | _ => none
  | .resume i =>
    match s.phase i with
    | .parked signals =>
      if i ∈ s.available.woken ∨ signals.calls ≠ s.available.calls then
        some ({ s with available := s.available.leave i }.subscribe i)
      else none
    | _ => none
  | .freed i =>
    match (s.phase i).waiting with
    | some signals =>
      if (calls i).isStreaming ∧ signals.freed ≠ s.actor.observer.outstandingFreed then
        some ({ s with available := s.available.drop i }.subscribe i)
      else none
    | none => none
  | .ended i =>
    if (s.phase i).waiting.isSome ∧ (calls i).isStreaming ∧ s.actor.observer.deleted then
      some ({ s with available := s.available.drop i }.enter i .returned)
    else none
  | .closed i =>
    -- the actor has stopped, and with it its mailbox
    if (s.phase i).aboutToPull ∧ s.actor.observer.deleted then some (s.enter i .returned) else none
  | .cancel i =>
    match s.phase i with
    | .subscribed _ => some (s.enter i .returned)
    | .requested _ => some (s.enter i .abandoned)
    | .answered _ | .parked _ =>
      some ({ s with available := s.available.drop i }.enter i .returned)
    | _ => none

/-- The call was woken, or its pull is on its way to the actor. -/
def OnTheWay (s : LongPolls ι) (i : ι) : Prop :=
  i ∈ s.available.woken ∨ (s.phase i).aboutToPull = true

/-- A message can be delivered, and there is a call that waits and could take it. -/
def Waited (calls : ι → PullCall) (s : LongPolls ι) : Prop :=
  (∃ m, s.actor.Deliverable m) ∧
    ∃ i signals, (s.phase i).waiting = some signals ∧ ¬ s.actor.Sated (calls i)

/-- The condition on a step: a nack or an expired deadline misses no wake-up, and a call that is
about to pull takes a message, or stays, if another call waits for one and nobody else is on the
way. -/
def Keeps (calls : ι → PullCall) (s : LongPolls ι) : PollEvent ι → Prop
  | .other e => ¬ s.actor.MissesWakeup e
  | .handle i _ => s.Waited calls → s.actor.Sated (calls i) → ∃ j, j ≠ i ∧ s.OnTheWay j
  | .cancel i => s.Waited calls → (∃ signals, s.phase i = .subscribed signals) →
    ∃ j, j ≠ i ∧ s.OnTheWay j
  | _ => True

end Step

/-- The calls in the notifier are those that are parked, unless a call of `notifyWaiters` let
them go.  If a call waits that no later signal of its own will wake, and something can be
delivered, then a wake-up is under way, some call is about to pull, or the call could not take
it. -/
structure Covered (calls : ι → PullCall) (s : LongPolls ι) : Prop where
  sound : s.actor.Sound
  deleted : s.actor.observer.deleted = true → s.actor.deleted = true
  seen : ∀ i signals, (s.phase i).signals = some signals →
    signals.calls ≤ s.available.calls ∧ signals.freed ≤ s.actor.observer.outstandingFreed
  parked : ∀ i, s.available.Registered i → ∃ signals, s.phase i = .parked signals
  registered : ∀ i signals, s.phase i = .parked signals →
    s.available.Registered i ∨ signals.calls < s.available.calls
  covered : ∀ i signals, (s.phase i).waiting = some signals →
    ((calls i).isStreaming = true → signals.freed = s.actor.observer.outstandingFreed) →
    s.actor.Serving → (∃ m, s.actor.Deliverable m) →
    s.available.Pending ∨ (∃ j, (s.phase j).aboutToPull = true) ∨ s.actor.Sated (calls i)

section

variable {calls : ι → PullCall} {s : LongPolls ι}

/-- What a new state of the actor does to the notifier. -/
lemma advance_spec (s : LongPolls ι) (b : SubscriptionActor) :
    s.available.calls ≤ (s.advance b).available.calls ∧
      (∀ j, (s.advance b).available.Registered j → s.available.Registered j) ∧
      (∀ j, s.available.Registered j → (s.advance b).available.Registered j ∨
        s.available.calls < (s.advance b).available.calls) ∧
      (s.available.Pending → (s.advance b).available.Pending) ∧
      (s.actor.observer.newMessagesAvailable < b.observer.newMessagesAvailable →
        (s.advance b).available.Pending) := by
  unfold advance
  dsimp only
  set sent := b.observer.newMessagesAvailable - s.actor.observer.newMessagesAvailable with hsent
  have hcalls := s.available.calls_notifyOne_iterate sent
  have hreg : ∀ j, (Notify.notifyOne^[sent] s.available).Registered j ↔ s.available.Registered j :=
    fun j => Notify.registered_notifyOne_iterate sent
  have hpending : s.actor.observer.newMessagesAvailable < b.observer.newMessagesAvailable →
      (Notify.notifyOne^[sent] s.available).Pending := by
    intro hlt
    obtain ⟨k, hk⟩ : ∃ k, sent = k + 1 := ⟨sent - 1, by omega⟩
    rw [hk, Function.iterate_succ_apply']
    exact Notify.pending_notifyOne _
  split_ifs
  · refine ⟨?_, fun j hj => (hreg j).mp (Notify.registered_of_notifyWaiters hj), fun j _ => .inr ?_,
      fun h => (h.notifyOne_iterate sent).notifyWaiters, fun h => (hpending h).notifyWaiters⟩
    · exact hcalls.ge.trans (Nat.le_succ _)
    · exact hcalls.ge.trans_lt (Nat.lt_succ_self _)
  · exact ⟨hcalls.ge, fun j => (hreg j).mp, fun j hj => .inl ((hreg j).mpr hj),
      fun h => h.notifyOne_iterate sent, hpending⟩

/-- The calls stay in order while the actor moves on. -/
lemma Covered.advance (h : s.Covered calls) {e : Env × ActorEvent}
    (hcovered : ∀ i signals, (s.phase i).waiting = some signals →
      ((calls i).isStreaming = true →
        signals.freed = (s.actor.step e).observer.outstandingFreed) →
      (s.actor.step e).Serving → (∃ m, (s.actor.step e).Deliverable m) →
      (s.advance (s.actor.step e)).available.Pending ∨
        (∃ j, (s.phase j).aboutToPull = true) ∨ (s.actor.step e).Sated (calls i)) :
    (s.advance (s.actor.step e)).Covered calls := by
  obtain ⟨hcalls, hback, hforth, -, -⟩ := s.advance_spec (s.actor.step e)
  refine ⟨h.sound.step e, deleted_of_observer_step h.sound e h.deleted, ?_, ?_, ?_, hcovered⟩
  · intro i signals hi
    obtain ⟨hseen, hfreed⟩ := h.seen i signals hi
    exact ⟨hseen.trans hcalls, hfreed.trans (s.actor.outstandingFreed_le_step e)⟩
  · exact fun i hi => h.parked i (hback i hi)
  · intro i signals hi
    have hseen := (h.seen i signals (by rw [show s.phase i = _ from hi]; rfl)).1
    rcases h.registered i signals hi with hreg | hlt
    · exact (hforth i hreg).imp_right hseen.trans_lt
    · exact .inr (hlt.trans_le hcalls)

/-- A call that is not parked is not in the notifier. -/
lemma Covered.registered_iff (h : s.Covered calls) {i : ι}
    (hi : ∀ signals, s.phase i ≠ .parked signals) (j : ι) :
    s.available.Registered j ↔ s.available.Registered j ∧ j ≠ i := by
  refine (and_iff_left_of_imp ?_).symm
  rintro hj rfl
  obtain ⟨signals, hparked⟩ := h.parked j hj
  exact hi signals hparked

/-- An event of the actor that misses no wake-up keeps the calls covered. -/
lemma Covered.other (h : s.Covered calls) {e : Env × ActorEvent} (hmiss : ¬ s.actor.MissesWakeup e) :
    (s.advance (s.actor.step e)).Covered calls := by
  obtain ⟨-, -, -, hpending, hsent⟩ := s.advance_spec (s.actor.step e)
  apply h.advance
  intro i signals hi hfreed hlive hdeliverable
  have hsignals := PullPhase.signals_of_waiting hi
  have hle := s.actor.outstandingFreed_le_step e
  have hseen := (h.seen i signals hsignals).2
  have hstream : (calls i).cap ≠ 0 → (calls i).isStreaming = true := by
    cases calls i with
    | unary => exact fun hne => absurd rfl hne
    | streaming => exact fun _ => rfl
  have hsame : (calls i).cap ≠ 0 → (s.actor.step e).observer.outstandingFreed =
      s.actor.observer.outstandingFreed := by
    intro hne
    have hfreed := hfreed (hstream hne)
    omega
  rcases announces_or_deliverable h.sound hmiss hlive hsame hdeliverable with hnew | ⟨hold, hkeep⟩
  · exact .inl (hsent hnew)
  · have hbefore : (calls i).isStreaming = true →
        signals.freed = s.actor.observer.outstandingFreed := by
      intro hs
      have hfreed := hfreed hs
      omega
    exact (h.covered i signals hi hbefore (Serving.of_step h.sound hlive) hold).imp hpending
      (Or.imp_right (Or.imp_right hkeep))

variable [DecidableEq ι]

lemma Covered.park (h : s.Covered calls) {i : ι} {signals : Signals}
    (hi : s.phase i = .answered signals)
    (hpoll : (s.available.poll i signals.calls).1 = false) :
    ({ s with available := (s.available.poll i signals.calls).2 }.enter i
      (.parked signals)).Covered calls := by
  obtain ⟨hcalls, hpending, hregistered⟩ := Notify.poll_of_eq_false hpoll
  refine ⟨h.sound, h.deleted, ?_, ?_, ?_, ?_⟩
  · intro j signals' hj
    refine (h.seen j signals' ?_).imp_left fun hle => le_of_le_of_eq hle hcalls.symm
    by_cases hji : j = i
    · subst hji
      rw [phase_enter_self] at hj
      rw [hi]
      exact hj
    · rwa [phase_enter_of_ne _ hji] at hj
  · intro j hj
    by_cases hji : j = i
    · subst hji
      exact ⟨signals, phase_enter_self _ _ _⟩
    · obtain ⟨signals', hparked⟩ := h.parked j (((hregistered j).mp hj).resolve_right hji)
      exact ⟨signals', (phase_enter_of_ne _ hji _).trans hparked⟩
  · intro j signals' hj
    change (s.available.poll i signals.calls).2.Registered j ∨ _
    rw [hregistered j]
    by_cases hji : j = i
    · exact .inl (.inr hji)
    · have hold : s.phase j = .parked signals' := (phase_enter_of_ne _ hji _).symm.trans hj
      exact (h.registered j signals' hold).imp .inl fun hlt => lt_of_lt_of_eq hlt hcalls.symm
  · intro j signals' hj hfreed hlive hdeliverable
    have hold : (s.phase j).waiting = some signals' := by
      by_cases hji : j = i
      · subst hji
        rw [phase_enter_self] at hj
        rw [hi]
        exact hj
      · rwa [phase_enter_of_ne _ hji] at hj
    refine (h.covered j signals' hold hfreed hlive hdeliverable).imp hpending (Or.imp_left ?_)
    rintro ⟨k, hk⟩
    refine ⟨k, ?_⟩
    have hki : k ≠ i := by
      rintro rfl
      rw [hi] at hk
      cases hk
    rwa [phase_enter_of_ne _ hki]

/-- A call goes to a phase in which it is not in the notifier.  It is about to pull there, or it
was not about to pull before and takes no wake-up with it, or nobody else needs it. -/
lemma Covered.move (h : s.Covered calls) {i : ι} {n : Notify ι} {p : PullPhase}
    (hcalls : n.calls = s.available.calls)
    (hregistered : ∀ j, n.Registered j ↔ s.available.Registered j ∧ j ≠ i)
    (hseen : ∀ signals, p.signals = some signals →
      signals.calls ≤ n.calls ∧ signals.freed ≤ s.actor.observer.outstandingFreed)
    (hparked : ∀ signals, p ≠ .parked signals)
    (hcover : s.actor.Serving → (∃ m, s.actor.Deliverable m) → p.aboutToPull = true ∨
      (p.waiting = none ∧ (s.phase i).aboutToPull = false ∧ (s.available.Pending → n.Pending)) ∨
      (p.waiting = none ∧ n = s.available ∧ (s.Waited calls → ∃ j, j ≠ i ∧ s.OnTheWay j))) :
    ({ s with available := n }.enter i p).Covered calls := by
  refine ⟨h.sound, h.deleted, ?_, ?_, ?_, ?_⟩
  · intro j signals hj
    by_cases hji : j = i
    · subst hji
      rw [phase_enter_self] at hj
      exact hseen signals hj
    · rw [phase_enter_of_ne _ hji] at hj
      exact (h.seen j signals hj).imp_left fun hle => le_of_le_of_eq hle hcalls.symm
  · intro j hj
    obtain ⟨hj, hji⟩ := (hregistered j).mp hj
    obtain ⟨signals, hold⟩ := h.parked j hj
    exact ⟨signals, (phase_enter_of_ne _ hji _).trans hold⟩
  · intro j signals hj
    by_cases hji : j = i
    · subst hji
      rw [phase_enter_self] at hj
      exact absurd hj (hparked signals)
    · have hold : s.phase j = .parked signals := (phase_enter_of_ne _ hji _).symm.trans hj
      exact (h.registered j signals hold).imp (fun hreg => (hregistered j).mpr ⟨hreg, hji⟩)
        fun hlt => lt_of_lt_of_eq hlt hcalls.symm
  · intro j signals hj hfreed hlive hdeliverable
    rcases hcover hlive hdeliverable with
      hpull | ⟨hwaiting, hbefore, hpending⟩ | ⟨hwaiting, rfl, hothers⟩
    · exact .inr (.inl ⟨i, by rwa [phase_enter_self]⟩)
    · have hji : j ≠ i := by
        rintro rfl
        rw [phase_enter_self, hwaiting] at hj
        cases hj
      rw [phase_enter_of_ne _ hji] at hj
      refine (h.covered j signals hj hfreed hlive hdeliverable).imp hpending (Or.imp_left ?_)
      rintro ⟨k, hk⟩
      refine ⟨k, ?_⟩
      have hki : k ≠ i := by
        rintro rfl
        rw [hbefore] at hk
        cases hk
      rwa [phase_enter_of_ne _ hki]
    · have hji : j ≠ i := by
        rintro rfl
        rw [phase_enter_self, hwaiting] at hj
        cases hj
      rw [phase_enter_of_ne _ hji] at hj
      by_cases hsated : s.actor.Sated (calls j)
      · exact .inr (.inr hsated)
      · obtain ⟨k, hki, hk⟩ := hothers ⟨hdeliverable, j, signals, hj, hsated⟩
        rcases hk with hwoken | hpull
        · exact .inl (.inr (List.ne_nil_of_mem hwoken))
        · exact .inr (.inl ⟨k, by rwa [phase_enter_of_ne _ hki]⟩)

lemma Covered.subscribe (h : s.Covered calls) {i : ι} {n : Notify ι}
    (hcalls : n.calls = s.available.calls)
    (hregistered : ∀ j, n.Registered j ↔ s.available.Registered j ∧ j ≠ i) :
    ({ s with available := n }.subscribe i).Covered calls := by
  refine h.move hcalls hregistered ?_ (by simp) fun _ _ => .inl rfl
  rintro signals ⟨⟩
  exact ⟨le_rfl, le_rfl⟩

lemma step_request (a : SubscriptionActor) (c : PullCall) (env : Env) :
    a.step (env, .request c.request) = (a.pullMessages env.now c.count c.cap).2 := by
  rw [c.request_eq]
  rfl

/-- Once the actor has answered a pull, what is left is signalled, or the pull took nothing and
somebody else is on the way. -/
lemma Covered.handle (h : s.Covered calls) {i : ι} (env : Env) {p : PullPhase}
    (hkeeps : s.Waited calls → s.actor.Sated (calls i) → ∃ j, j ≠ i ∧ s.OnTheWay j)
    (hi : (s.phase i).aboutToPull = true)
    (hseen : ∀ signals, p.signals = some signals → (s.phase i).signals = some signals)
    (hparked : ∀ signals, p ≠ .parked signals) :
    ((s.advance (s.actor.pullMessages env.now (calls i).count (calls i).cap).2).enter i p).Covered
      calls := by
  rw [← step_request]
  set e : Env × ActorEvent := (env, .request (calls i).request) with he
  obtain ⟨-, -, -, hpending, hsent⟩ := s.advance_spec (s.actor.step e)
  have hadvance : (s.advance (s.actor.step e)).Covered calls :=
    h.advance fun _ _ _ _ _ _ => .inr (.inl ⟨i, hi⟩)
  refine ⟨hadvance.sound, hadvance.deleted, ?_, ?_, ?_, ?_⟩
  · intro j signals hj
    apply hadvance.seen j signals
    by_cases hji : j = i
    · subst hji
      rw [phase_enter_self] at hj
      exact hseen signals hj
    · rwa [phase_enter_of_ne _ hji] at hj
  · intro j hj
    obtain ⟨signals, hold⟩ := hadvance.parked j hj
    have hji : j ≠ i := by
      rintro rfl
      rw [show s.phase j = .parked signals from hold] at hi
      cases hi
    exact ⟨signals, (phase_enter_of_ne _ hji _).trans hold⟩
  · intro j signals hj
    by_cases hji : j = i
    · subst hji
      rw [phase_enter_self] at hj
      exact absurd hj (hparked signals)
    · exact hadvance.registered j signals ((phase_enter_of_ne _ hji _).symm.trans hj)
  · intro j signals hj hfreed hlive hdeliverable
    have hbefore := Serving.of_step (e := e) h.sound hlive
    have hpull := pull_announces_or_eq hbefore env.now (calls i).count (calls i).cap
    rw [← step_request] at hpull
    rcases hpull hdeliverable with hnew | ⟨hsated, hsame⟩
    · exact .inl (hsent hnew)
    · change (s.advance (s.actor.step e)).available.Pending ∨ _ ∨ (s.actor.step e).Sated (calls j)
      rw [show (s.actor.step e).Sated (calls j) = s.actor.Sated (calls j) by rw [hsame]]
      by_cases hji : j = i
      · subst hji
        exact .inr (.inr hsated)
      · rw [phase_enter_of_ne _ hji] at hj
        by_cases hsated' : s.actor.Sated (calls j)
        · exact .inr (.inr hsated')
        · have hdeliverable' : ∃ m, s.actor.Deliverable m := by
            obtain ⟨m, hm⟩ := hdeliverable
            exact ⟨m, hsame ▸ hm⟩
          obtain ⟨k, hki, hk⟩ := hkeeps ⟨hdeliverable', j, signals, hj, hsated'⟩ hsated
          rcases hk with hwoken | haboutToPull
          · exact .inl (hpending (.inr (List.ne_nil_of_mem hwoken)))
          · exact .inr (.inl ⟨k, by rwa [phase_enter_of_ne _ hki]⟩)

lemma Covered.step (h : s.Covered calls) {event : PollEvent ι} {t : LongPolls ι}
    (hkeeps : s.Keeps calls event) (hstep : s.step calls event = some t) : t.Covered calls := by
  cases event with
  | other e =>
    cases hstep
    exact h.other hkeeps
  | call i =>
    simp only [LongPolls.step] at hstep
    split_ifs at hstep with hidle
    cases hstep
    exact h.subscribe rfl (h.registered_iff (by rw [hidle]; simp))
  | send i =>
    simp only [LongPolls.step] at hstep
    split at hstep
    · next signals hi =>
      cases hstep
      refine h.move rfl (h.registered_iff (by rw [hi]; simp)) ?_ (by simp) fun _ _ => .inl rfl
      rintro signals' ⟨⟩
      exact h.seen i signals (by rw [hi]; rfl)
    · cases hstep
  | handle i env =>
    simp only [LongPolls.step] at hstep
    split at hstep
    · next signals hi =>
      cases hstep
      apply h.handle env hkeeps (by rw [hi]; rfl)
      · rw [hi]
        split_ifs
        · exact fun _ => id
        · simp
      · split_ifs <;> simp
    · next hi =>
      cases hstep
      exact h.handle env hkeeps (by rw [hi]; rfl) (by simp) (by simp)
    · cases hstep
  | poll i =>
    simp only [LongPolls.step] at hstep
    split at hstep
    · next signals hi =>
      split_ifs at hstep with hready hinterrupted
      · cases hstep
        obtain ⟨hcalls, hregistered⟩ := Notify.poll_of_eq_true hready
        refine h.subscribe hcalls fun j => (hregistered j).trans ?_
        exact h.registered_iff (by rw [hi]; simp) j
      · cases hstep
        exact h.park hi (Bool.not_eq_true _ ▸ hready)
    · cases hstep
  | resume i =>
    simp only [LongPolls.step] at hstep
    split at hstep
    · split_ifs at hstep
      cases hstep
      exact h.subscribe rfl fun j => Notify.registered_leave
    · cases hstep
  | freed i =>
    simp only [LongPolls.step] at hstep
    split at hstep
    · split_ifs at hstep
      cases hstep
      exact h.subscribe (Notify.calls_drop _ _) fun j => Notify.registered_drop
    · cases hstep
  | ended i =>
    simp only [LongPolls.step] at hstep
    split_ifs at hstep with hended
    cases hstep
    refine h.move (Notify.calls_drop _ _) (fun j => Notify.registered_drop) (by simp) (by simp)
      fun hlive _ => ?_
    exact absurd (hlive.deleted.symm.trans (h.deleted hended.2.2)) Bool.false_ne_true
  | closed i =>
    simp only [LongPolls.step] at hstep
    split_ifs at hstep with hclosed
    cases hstep
    refine h.move rfl (h.registered_iff fun signals hi => ?_) (by simp) (by simp) fun hlive _ => ?_
    · rw [hi] at hclosed
      cases hclosed.1
    · exact absurd (hlive.deleted.symm.trans (h.deleted hclosed.2)) Bool.false_ne_true
  | cancel i =>
    simp only [LongPolls.step] at hstep
    split at hstep
    · next signals hi =>
      cases hstep
      refine h.move rfl (h.registered_iff (by rw [hi]; simp)) (by simp) (by simp) fun _ _ => ?_
      exact .inr (.inr ⟨rfl, rfl, fun hwaited => hkeeps hwaited ⟨signals, hi⟩⟩)
    · next signals hi =>
      cases hstep
      exact h.move rfl (h.registered_iff (by rw [hi]; simp)) (by simp) (by simp) fun _ _ => .inl rfl
    · next signals hi =>
      cases hstep
      refine h.move (Notify.calls_drop _ _) (fun j => Notify.registered_drop) (by simp) (by simp)
        fun _ _ => .inr (.inl ⟨rfl, by rw [hi]; rfl, fun hp => hp.drop i⟩)
    · next signals hi =>
      cases hstep
      refine h.move (Notify.calls_drop _ _) (fun j => Notify.registered_drop) (by simp) (by simp)
        fun _ _ => .inr (.inl ⟨rfl, by rw [hi]; rfl, fun hp => hp.drop i⟩)
    · cases hstep

end

end LongPolls

namespace Sample

end Sample

namespace LongPolls

end LongPolls

end Deltio
