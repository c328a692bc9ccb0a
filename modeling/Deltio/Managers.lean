import Deltio.Attachment
import Deltio.TopicManager
import Deltio.TopicRuns

namespace Deltio

open Lib

/-- The server, the topic manager, and the handles that the managers have created so
far. -/
structure Managers where
  topicManager : TopicManager
  server : Server
  createdTopics : List Topic
  createdSubscriptions : List Subscription

/-- A topic is created, its actor takes a `Delete` out of its mailbox, a subscription
that is being deleted finds that its topic is gone, or something happens in the server. -/
inductive ManagersEvent where
  | createTopic (info : TopicInfo)
  | deleteTopic (t : Topic)
  | topicGone (s : Subscription)
  | server (e : ServerEvent)
deriving DecidableEq

def ServerEvent.topic? : ServerEvent → Option Topic
  | .create _ t | .topicRequest t _ | .topicReceive t _ _ | .posting t _ => some t
  | _ => none

def Server.created (sv : Server) : ServerEvent → List Subscription
  | .create name topic =>
    match sv.manager.createSubscription name topic with
    | .ok (s, _) => [s]
    | .error _ => []
  | _ => []

namespace Managers

def start : Managers where
  topicManager := .new
  server := .start .new fun t => ⟨t.name, ∅, none⟩
  createdTopics := []
  createdSubscriptions := []

def topicDeleted (w : Managers) (t : Topic) : Bool := (w.server.topics t).actor.deleted

def topicActor (w : Managers) (t : Topic) : TopicActor :=
  { (w.server.topics t).actor with delegate := w.topicManager }

/-- One event, if it can happen.  Handles only come from the managers, and an actor that
is publishing does not look at its mailbox. -/
def step (w : Managers) : ManagersEvent → Option Managers
  | .createTopic info =>
    match w.topicManager.createTopic info.name with
    | .ok (t, topicManager) =>
      some { w with
        topicManager := topicManager
        server := w.server.setTopic t ⟨.start topicManager info t.internalId, [], none⟩
        createdTopics := w.createdTopics ++ [t] }
    | .error _ => none
  | .deleteTopic t =>
    let side := w.server.topics t
    if t ∈ w.createdTopics ∧ side.posting.isNone then
      let actor := (w.topicActor t).delete
      some { w with
        topicManager := actor.delegate
        server := w.server.setTopic t { side with actor := actor } }
    else none
  | .topicGone s =>
    if w.server.phase s = .removing ∧ w.topicDeleted s.topic = true then
      some { w with server := w.server.setPhase s .answered }
    else none
  | .server e =>
    if ∀ t ∈ e.topic?, t ∈ w.createdTopics then
      (w.server.step e).map fun server => { w with
        server := server
        createdSubscriptions := w.createdSubscriptions ++ w.server.created e }
    else none

def run (w : Managers) (es : List ManagersEvent) : Option Managers := Machine.run step w es

inductive Transition (w : Managers) : ManagersEvent → Managers → Prop where
  | createTopic {info : TopicInfo} {t : Topic} {topicManager : TopicManager}
      (hcreate : w.topicManager.createTopic info.name = .ok (t, topicManager)) :
      Transition w (.createTopic info) { w with
        topicManager := topicManager
        server := w.server.setTopic t ⟨.start topicManager info t.internalId, [], none⟩
        createdTopics := w.createdTopics ++ [t] }
  | deleteTopic {t : Topic} {actor : TopicActor} (ht : t ∈ w.createdTopics)
      (hidle : (w.server.topics t).posting = none)
      (hactor : actor = (w.topicActor t).delete) :
      Transition w (.deleteTopic t) { w with
        topicManager := actor.delegate
        server := w.server.setTopic t { w.server.topics t with actor := actor } }
  | topicGone {s : Subscription} (hphase : w.server.phase s = .removing) :
      Transition w (.topicGone s) { w with server := w.server.setPhase s .answered }
  | server {e : ServerEvent} {sv : Server} (ht : ∀ t ∈ e.topic?, t ∈ w.createdTopics)
      (hstep : w.server.step e = some sv) :
      Transition w (.server e) { w with
        server := sv
        createdSubscriptions := w.createdSubscriptions ++ w.server.created e }

lemma transition_of_step {w w' : Managers} {e : ManagersEvent} (h : w.step e = some w') :
    Transition w e w' := by
  cases e with
  | createTopic info =>
    simp only [step] at h
    split at h
    · next t topicManager hcreate =>
      cases h
      exact .createTopic hcreate
    · cases h
  | deleteTopic t =>
    simp only [step, Option.ite_none_right_eq_some, Option.some.injEq] at h
    obtain ⟨⟨ht, hidle⟩, rfl⟩ := h
    exact .deleteTopic ht (Option.isNone_iff_eq_none.mp hidle) rfl
  | topicGone s =>
    simp only [step, Option.ite_none_right_eq_some, Option.some.injEq] at h
    obtain ⟨⟨hphase, -⟩, rfl⟩ := h
    exact .topicGone hphase
  | server e =>
    simp only [step, Option.ite_none_right_eq_some, Option.map_eq_some_iff] at h
    obtain ⟨ht, sv, hstep, rfl⟩ := h
    exact .server ht hstep

end Managers

namespace TopicActor

structure IsOf (a : TopicActor) (t : Topic) : Prop where
  name : a.info.name = t.name
  topicInternalId : a.topicInternalId = t.internalId

lemma IsOf.delete {a : TopicActor} {t : Topic} (h : a.IsOf t) : a.delete.IsOf t := by
  rw [TopicActor.delete]
  split_ifs
  · exact h
  · exact ⟨h.name, h.topicInternalId⟩

/-- What no request changes. -/
structure SameTopic (t t' : TopicActor) : Prop where
  name : t'.info.name = t.info.name
  topicInternalId : t'.topicInternalId = t.topicInternalId
  deleted : t'.deleted = t.deleted

lemma SameTopic.isOf {a a' : TopicActor} (h : SameTopic a a') {t : Topic} (ha : a.IsOf t) :
    a'.IsOf t :=
  ⟨h.name.trans ha.name, h.topicInternalId.trans ha.topicInternalId⟩

lemma sameTopic_receive (t : TopicActor) (publishTime : SystemTime) (publishInstant : Instant)
    (r : TopicRequest) : SameTopic t (t.receive publishTime publishInstant r) := by
  refine ⟨?_, ?_, deleted_receive t publishTime publishInstant r⟩
  all_goals
    cases r with
    | attachSubscription subscription =>
      simp only [receive, attachSubscription]
      split <;> rfl
    | _ => rfl

lemma delete_eq_self {t : TopicActor} (h : t.deleted = true) : t.delete = t := if_pos h

lemma delegate_delete {t : TopicActor} (h : t.deleted = false) :
    t.delete.delegate = { t.delegate with topics := t.delegate.topics.remove t.info.name } := by
  rw [delete, if_neg (Bool.eq_false_iff.mp h)]

end TopicActor

lemma Server.sameTopic_of_step {sv sv' : Server} {e : ServerEvent} (hstep : sv.step e = some sv')
    (t : Topic) : TopicActor.SameTopic (sv.topics t).actor (sv'.topics t).actor := by
  rcases actor_of_step hstep t with hactor | ⟨publishTime, publishInstant, r, _, -, -, hactor⟩
  · rw [hactor]
    exact ⟨rfl, rfl, rfl⟩
  · rw [hactor]
    exact TopicActor.sameTopic_receive _ publishTime publishInstant r

namespace Managers

variable {w w' : Managers}

structure LiveTopics (w : Managers) : Prop where
  names : Names Topic.name (fun t => t ∈ w.createdTopics ∧ w.topicDeleted t = false)
    w.topicManager.topics
  counted : Counted Topic.internalId w.createdTopics w.topicManager.nextId
  actor : ∀ t ∈ w.createdTopics, (w.server.topics t).actor.IsOf t

namespace LiveTopics

/-- A step that neither creates nor deletes a topic. -/
lemma of_same (h : w.LiveTopics) (hmanager : w'.topicManager = w.topicManager)
    (hcreated : w'.createdTopics = w.createdTopics)
    (hsame : ∀ t, TopicActor.SameTopic (w.server.topics t).actor (w'.server.topics t).actor) :
    w'.LiveTopics where
  names := by
    rw [hmanager]
    refine h.names.congr fun t => ?_
    rw [hcreated, topicDeleted, (hsame t).deleted]
    rfl
  counted := by
    rw [hmanager, hcreated]
    exact h.counted
  actor t ht := by
    rw [hcreated] at ht
    exact (hsame t).isOf (h.actor t ht)

/-- A new topic is numbered above all others, and its name was free. -/
lemma createTopic (h : w.LiveTopics) {info : TopicInfo} {t : Topic} {topicManager : TopicManager}
    (hcreate : w.topicManager.createTopic info.name = .ok (t, topicManager)) :
    LiveTopics { w with
      topicManager := topicManager
      server := w.server.setTopic t ⟨.start topicManager info t.internalId, [], none⟩
      createdTopics := w.createdTopics ++ [t] } := by
  obtain ⟨hfree, ht, rfl⟩ := TopicManager.createTopic_eq_ok hcreate
  have hid : t.internalId = w.topicManager.nextId + 1 := by rw [ht]
  have hname : t.name = info.name := by rw [ht]
  rw [← hname] at hfree ⊢
  refine ⟨(h.names.insert hfree).congr fun t' => ?_, h.counted.append hid, fun t' ht' => ?_⟩
  · simp only [topicDeleted, Server.topics_setTopic, List.mem_append, List.mem_singleton]
    split_ifs with he
    · exact iff_of_true ⟨.inr he, rfl⟩ (.inl he)
    · simp only [he, or_false, false_or]
  · rw [Server.topics_setTopic]
    split_ifs with he
    · rw [he]
      exact ⟨hname.symm, rfl⟩
    · refine h.actor t' ((List.mem_append.mp ht').resolve_right fun hn => ?_)
      exact he (List.mem_singleton.mp hn)

/-- The first `Delete` takes out the topic's own entry, and another one does nothing. -/
lemma deleteTopic (h : w.LiveTopics) {t : Topic} {actor : TopicActor} (ht : t ∈ w.createdTopics)
    (hactor : actor = (w.topicActor t).delete) :
    LiveTopics { w with
      topicManager := actor.delegate
      server := w.server.setTopic t { w.server.topics t with actor := actor } } := by
  have hisOf : (w.topicActor t).IsOf t := ⟨(h.actor t ht).name, (h.actor t ht).topicInternalId⟩
  have hside : ∀ t',
      ((w.server.setTopic t { w.server.topics t with actor := actor }).topics t').actor =
        if t' = t then actor else (w.server.topics t').actor := by
    intro t'
    rw [Server.topics_setTopic]
    split_ifs <;> rfl
  have hdeleted : actor.deleted = true := by
    rw [hactor]
    exact TopicActor.deleted_delete _
  refine ⟨?_, ?_, fun t' ht' => ?_⟩
  · by_cases hd : w.topicDeleted t = true
    · have hdelegate : actor.delegate = w.topicManager := by
        rw [hactor, TopicActor.delete_eq_self (t := w.topicActor t) hd]
        rfl
      rw [hdelegate]
      refine h.names.congr fun t' => ?_
      rw [topicDeleted, hside]
      split_ifs with he
      · rw [he, hdeleted, hd]
      · rfl
    · have hlive : w.topicDeleted t = false := Bool.eq_false_iff.mpr hd
      have hdelegate : actor.delegate.topics = w.topicManager.topics.remove t.name := by
        rw [hactor, TopicActor.delegate_delete (t := w.topicActor t) hlive, hisOf.name]
        rfl
      rw [hdelegate]
      refine (h.names.remove ⟨ht, hlive⟩).congr fun t' => ?_
      rw [topicDeleted, hside]
      split_ifs with he
      · exact iff_of_false (fun hd' => Bool.noConfusion (hd'.2.symm.trans hdeleted))
          fun hd' => hd'.1 he
      · exact (and_iff_right he).symm
  · have hnext : actor.delegate.nextId = w.topicManager.nextId := by
      rw [hactor, TopicActor.delete]
      split_ifs <;> rfl
    rw [hnext]
    exact h.counted
  · rw [hside]
    split_ifs with he
    · rw [he, hactor]
      exact hisOf.delete
    · exact h.actor t' ht'

lemma step (h : w.LiveTopics) {e : ManagersEvent} (hstep : w.step e = some w') :
    w'.LiveTopics := by
  cases transition_of_step hstep with
  | createTopic hcreate => exact h.createTopic hcreate
  | deleteTopic ht _ hactor => exact h.deleteTopic ht hactor
  | topicGone => exact h.of_same rfl rfl fun t => ⟨rfl, rfl, rfl⟩
  | server _ hserver => exact h.of_same rfl rfl (Server.sameTopic_of_step hserver)

lemma deleted_step (h : w.LiveTopics) {e : ManagersEvent} (hstep : w.step e = some w')
    (t : Topic) : (t ∈ w'.createdTopics ∧ w'.topicDeleted t = true) ↔
      (t ∈ w.createdTopics ∧ w.topicDeleted t = true) ∨ .deleteTopic t = e := by
  cases transition_of_step hstep with
  | @createTopic info t' topicManager hcreate =>
    obtain ⟨-, ht', rfl⟩ := TopicManager.createTopic_eq_ok hcreate
    have hnew := h.counted.not_mem (r := t') (by rw [ht'])
    simp only [topicDeleted, Server.topics_setTopic, List.mem_append, List.mem_singleton,
      reduceCtorEq, or_false]
    split_ifs with he
    · refine iff_of_false (fun hd => Bool.noConfusion hd.2) fun hd => ?_
      rw [he] at hd
      exact hnew hd.1
    · rw [or_iff_left he]
  | @deleteTopic t' actor ht' hidle hactor =>
    simp only [topicDeleted, Server.topics_setTopic, ManagersEvent.deleteTopic.injEq]
    split_ifs with he
    · refine iff_of_true ⟨by rw [he]; exact ht', ?_⟩ (.inr he)
      rw [hactor]
      exact TopicActor.deleted_delete _
    · exact (or_iff_left he).symm
  | topicGone => exact (or_iff_left (by simp)).symm
  | server _ hserver =>
    rw [topicDeleted, (Server.sameTopic_of_step hserver t).deleted]
    exact (or_iff_left (by simp)).symm

end LiveTopics

end Managers

namespace Phase

/-- Phases with the same entry in the manager's map. -/
structure SameEntry (p q : Phase) : Prop where
  absent : p = .absent ↔ q = .absent
  isRegistered : p.isRegistered = q.isRegistered

lemma SameEntry.refl (p : Phase) : SameEntry p p := ⟨Iff.rfl, rfl⟩

def isDeleted : Phase → Bool
  | deleted | stopped => true
  | _ => false

lemma isRegistered_iff (p : Phase) :
    p.isRegistered = true ↔ p ≠ .absent ∧ p.isDeleted = false := by
  cases p <;> decide

lemma SameEntry.isDeleted {p q : Phase} (h : SameEntry p q) : p.isDeleted = q.isDeleted := by
  have heq : ∀ p : Phase, p.isDeleted = (decide (p ≠ .absent) && !p.isRegistered) := by
    intro p
    cases p <;> rfl
  rw [heq, heq, h.isRegistered, decide_eq_decide.mpr (not_congr h.absent)]

end Phase

namespace Server

variable {sv sv' : Server}

/-- A step creates a subscription, or takes one out of the map, or changes nothing that
the map shows. -/
lemma registry_of_step {e : ServerEvent} (hstep : sv.step e = some sv') :
    (∃ name topic, e = .create name topic ∧ sv.manager.subscriptions.get name = none ∧
      sv.created e = [⟨name, sv.manager.nextId + 1, topic⟩] ∧
      sv' = { sv with manager :=
          ⟨sv.manager.subscriptions.insert name ⟨name, sv.manager.nextId + 1, topic⟩,
            sv.manager.nextId + 1⟩ }.setSubscription ⟨name, sv.manager.nextId + 1, topic⟩
        ⟨.serving, false, []⟩) ∨
    (∃ s, e = .finishDelete s ∧ sv.phase s = .answered ∧ sv.created e = [] ∧
      sv' = { sv with manager := sv.manager.delete s.name }.setPhase s .deleted) ∨
    ((∀ s, .finishDelete s ≠ e) ∧ sv.created e = [] ∧ sv'.manager = sv.manager ∧
      ∀ s, Phase.SameEntry (sv'.phase s) (sv.phase s)) := by
  have hset : ∀ {s : Subscription} {side : SubscriptionSide},
      Phase.SameEntry side.phase (sv.phase s) →
      ∀ s', Phase.SameEntry ((sv.setSubscription s side).phase s') (sv.phase s') := by
    intro s side hside s'
    rw [phase_setSubscription]
    split_ifs with hs
    · rw [hs]
      exact hside
    · exact .refl _
  cases transition_of_step hstep with
  | @create name topic hfree =>
    refine .inl ⟨name, topic, rfl, hfree, ?_, rfl⟩
    simp only [created, SubscriptionManagerState.createSubscription, hfree]
  | @finishDelete s hphase => exact .inr (.inl ⟨s, rfl, hphase, rfl, rfl⟩)
  | sendAttach => exact .inr (.inr ⟨by simp, rfl, rfl, hset (.refl _)⟩)
  | request => exact .inr (.inr ⟨by simp, rfl, rfl, hset (.refl _)⟩)
  | topicRequest => exact .inr (.inr ⟨by simp, rfl, rfl, fun s => .refl _⟩)
  | @topicReceive t publishTime publishInstant r rest =>
    refine .inr (.inr ⟨by simp, rfl, manager_answer sv r, fun s => ?_⟩)
    change Phase.SameEntry ((sv.answer r).phase s) _
    rcases phase_answer sv s r with hs | ⟨hs, hs'⟩
    · rw [hs]
      exact .refl _
    · rw [hs, hs']
      exact ⟨by decide, rfl⟩
  | @posting t e p =>
    refine .inr (.inr ⟨by simp, rfl, manager_deliver sv p.batch e, fun s => ?_⟩)
    change Phase.SameEntry ((sv.deliver p.batch e).phase s) _
    rw [phase_deliver]
    exact .refl _
  | @receive s r rest hphase =>
    refine .inr (.inr ⟨by simp, rfl, rfl, hset ?_⟩)
    have halike := alike_phaseAfter hphase r
    exact ⟨halike.absent, halike.isRegistered⟩
  | @sendRemove s hphase =>
    refine .inr (.inr ⟨by simp, rfl, rfl, hset ?_⟩)
    rw [hphase]
    exact ⟨iff_of_false (by simp) (by simp), rfl⟩
  | @stop s hphase =>
    refine .inr (.inr ⟨by simp, rfl, rfl, hset ?_⟩)
    rw [hphase]
    exact ⟨iff_of_false (by simp) (by simp), rfl⟩

end Server

namespace Managers

/-- The manager's map names the registered subscriptions, and those that were created are
no longer absent. -/
structure LiveSubscriptions (w : Managers) : Prop where
  names : w.server.Registers
  counted : Counted Subscription.internalId w.createdSubscriptions w.server.manager.nextId
  created : ∀ s, s ∈ w.createdSubscriptions ↔ w.server.phase s ≠ .absent

namespace LiveSubscriptions

variable {w w' : Managers}

/-- A step that the manager's map does not show. -/
lemma of_sameEntry (h : w.LiveSubscriptions)
    (hcreated : w'.createdSubscriptions = w.createdSubscriptions)
    (hmanager : w'.server.manager = w.server.manager)
    (hphase : ∀ s, Phase.SameEntry (w'.server.phase s) (w.server.phase s)) :
    w'.LiveSubscriptions where
  names := by
    unfold Server.Registers
    rw [hmanager]
    refine Names.congr h.names fun s => ?_
    rw [(hphase s).isRegistered]
  counted := by
    rw [hcreated, hmanager]
    exact h.counted
  created s := by
    rw [hcreated, Ne, (hphase s).absent]
    exact h.created s

lemma sameEntry_topicGone {s : Subscription} (hphase : w.server.phase s = .removing)
    (s' : Subscription) :
    Phase.SameEntry ((w.server.setPhase s .answered).phase s') (w.server.phase s') := by
  rw [Server.phase_setPhase]
  split_ifs with hs
  · rw [hs, hphase]
    exact ⟨by decide, rfl⟩
  · exact .refl _

lemma step (h : w.LiveSubscriptions) {e : ManagersEvent} (hstep : w.step e = some w') :
    w'.LiveSubscriptions := by
  cases transition_of_step hstep with
  | createTopic => exact h.of_sameEntry rfl rfl fun s => .refl _
  | deleteTopic => exact h.of_sameEntry rfl rfl fun s => .refl _
  | topicGone hphase => exact h.of_sameEntry rfl rfl (sameEntry_topicGone hphase)
  | @server e sv _ hserver =>
    rcases Server.registry_of_step hserver with ⟨name, topic, -, hfree, hcreated, rfl⟩ |
      ⟨s, -, hphase, hcreated, rfl⟩ | ⟨-, hcreated, hmanager, hphase⟩
    · refine ⟨Server.Registers.create h.names hfree, ?_, fun s => ?_⟩
      · rw [hcreated]
        exact h.counted.append rfl
      · rw [hcreated, List.mem_append, List.mem_singleton, Server.phase_setSubscription, h.created]
        split_ifs with hs
        · exact iff_of_true (.inr hs) (by simp)
        · exact or_iff_left hs
    · refine ⟨Server.Registers.finishDelete h.names hphase, ?_, fun s' => ?_⟩
      · rw [hcreated, List.append_nil]
        exact h.counted
      · rw [hcreated, List.append_nil, Server.phase_setPhase, h.created]
        split_ifs with hs
        · rw [hs, hphase]
          decide
        · rfl
    · exact h.of_sameEntry (by rw [hcreated, List.append_nil]) hmanager hphase

lemma deleted_step (h : w.LiveSubscriptions) {e : ManagersEvent} (hstep : w.step e = some w')
    (s : Subscription) : (w'.server.phase s).isDeleted = true ↔
      (w.server.phase s).isDeleted = true ∨ .server (.finishDelete s) = e := by
  cases transition_of_step hstep with
  | createTopic => exact (or_iff_left (by simp)).symm
  | deleteTopic => exact (or_iff_left (by simp)).symm
  | topicGone hphase =>
    rw [(sameEntry_topicGone hphase s).isDeleted]
    exact (or_iff_left (by simp)).symm
  | @server e sv _ hserver =>
    rw [ManagersEvent.server.injEq]
    rcases Server.registry_of_step hserver with ⟨name, topic, rfl, -, -, rfl⟩ |
      ⟨s', rfl, -, -, rfl⟩ | ⟨hother, -, -, hphase⟩
    · simp only [reduceCtorEq, or_false]
      rw [Server.phase_setSubscription]
      split_ifs with hs
      · -- nobody has the new number yet
        have habsent : w.server.phase s = .absent := by
          by_contra hne
          rw [hs] at hne
          exact h.counted.not_mem rfl ((h.created _).mpr hne)
        rw [habsent]
        decide
      · rfl
    · rw [Server.phase_setPhase, ServerEvent.finishDelete.injEq]
      split_ifs with hs
      · exact iff_of_true rfl (.inr hs)
      · exact (or_iff_left hs).symm
    · rw [(hphase s).isDeleted]
      exact (or_iff_left (hother s)).symm

end LiveSubscriptions

structure Live (w : Managers) : Prop where
  topics : w.LiveTopics
  subscriptions : w.LiveSubscriptions

namespace Live

variable {w w' : Managers}

lemma start : Managers.start.Live where
  topics := ⟨.empty fun _ ht => List.not_mem_nil ht.1, .nil _,
    fun _ ht => absurd ht List.not_mem_nil⟩
  subscriptions := ⟨.empty fun _ => Bool.false_ne_true, .nil _,
    fun _ => iff_of_false List.not_mem_nil fun h => h rfl⟩

lemma step (h : w.Live) {e : ManagersEvent} (hstep : w.step e = some w') : w'.Live :=
  ⟨h.topics.step hstep, h.subscriptions.step hstep⟩

lemma run (h : w.Live) {es : List ManagersEvent} (hrun : w.run es = some w') : w'.Live :=
  Machine.run_preserves hrun h fun _ _ _ hw hstep => hw.step hstep

/-- A topic keeps its entry until its own `Delete`. -/
lemma get_topic_step (h : w.Live) {e : ManagersEvent} (hstep : w.step e = some w') {n : TopicName}
    {t : Topic} (hget : w.topicManager.topics.get n = some t) (he : .deleteTopic t ≠ e) :
    w'.topicManager.topics.get n = some t := by
  obtain ⟨hname, hcreated, hlive⟩ := (h.topics.names n t).mp hget
  have hcreated' : t ∈ w'.createdTopics := by
    cases transition_of_step hstep with
    | createTopic => exact List.mem_append_left _ hcreated
    | _ => exact hcreated
  refine ((h.step hstep).topics.names n t).mpr
    ⟨hname, hcreated', Bool.eq_false_iff.mpr fun hd => ?_⟩
  rcases (h.topics.deleted_step hstep t).mp ⟨hcreated', hd⟩ with ⟨-, hd⟩ | hdelete
  · rw [hlive] at hd
    cases hd
  · exact he hdelete

/-- A subscription keeps its entry until the end of its own `delete`. -/
lemma get_subscription_step (h : w.Live) {e : ManagersEvent} (hstep : w.step e = some w')
    {n : SubscriptionName} {s : Subscription}
    (hget : w.server.manager.subscriptions.get n = some s) (he : .server (.finishDelete s) ≠ e) :
    w'.server.manager.subscriptions.get n = some s := by
  obtain ⟨hname, hregistered⟩ := (h.subscriptions.names n s).mp hget
  obtain ⟨hcreated, hlive⟩ := (Phase.isRegistered_iff _).mp hregistered
  have hcreated' : w'.server.phase s ≠ .absent := by
    rw [← (h.step hstep).subscriptions.created]
    rw [← h.subscriptions.created] at hcreated
    cases transition_of_step hstep with
    | server => exact List.mem_append_left _ hcreated
    | _ => exact hcreated
  refine ((h.step hstep).subscriptions.names n s).mpr ⟨hname, (Phase.isRegistered_iff _).mpr
    ⟨hcreated', Bool.eq_false_iff.mpr fun hd => ?_⟩⟩
  rcases (h.subscriptions.deleted_step hstep s).mp hd with hd | hfinish
  · rw [hlive] at hd
    cases hd
  · exact he hfinish

end Live

lemma get_topic_run {es : List ManagersEvent} {w : Managers} (hrun : start.run es = some w)
    (n : TopicName) (t : Topic) : w.topicManager.topics.get n = some t ↔
      t ∈ w.createdTopics ∧ t.name = n ∧ .deleteTopic t ∉ es := by
  have hdeleted : (t ∈ w.createdTopics ∧ w.topicDeleted t = true) ↔
      (t ∈ start.createdTopics ∧ start.topicDeleted t = true) ∨ .deleteTopic t ∈ es :=
    Machine.run_iff_mem (J := Live) (D := fun w => t ∈ w.createdTopics ∧ w.topicDeleted t = true)
      (fun _ _ _ hw hstep => hw.step hstep) (fun _ _ _ hw hstep => hw.topics.deleted_step hstep t)
      hrun .start
  have hstart : ¬ (t ∈ start.createdTopics ∧ start.topicDeleted t = true) :=
    fun h => List.not_mem_nil h.1
  rw [or_iff_right hstart] at hdeleted
  rw [(Live.start.run hrun).topics.names n t, ← hdeleted, and_left_comm]
  refine and_congr_right fun hcreated => and_congr_right fun _ => ?_
  rw [and_iff_right hcreated, Bool.not_eq_true]

lemma get_subscription_run {es : List ManagersEvent} {w : Managers} (hrun : start.run es = some w)
    (n : SubscriptionName) (s : Subscription) :
    w.server.manager.subscriptions.get n = some s ↔
      s ∈ w.createdSubscriptions ∧ s.name = n ∧ .server (.finishDelete s) ∉ es := by
  have hdeleted : (w.server.phase s).isDeleted = true ↔
      (start.server.phase s).isDeleted = true ∨ .server (.finishDelete s) ∈ es :=
    Machine.run_iff_mem (J := Live) (D := fun w => (w.server.phase s).isDeleted = true)
      (fun _ _ _ hw hstep => hw.step hstep)
      (fun _ _ _ hw hstep => hw.subscriptions.deleted_step hstep s) hrun .start
  have hstart : ¬ (start.server.phase s).isDeleted = true := Bool.false_ne_true
  rw [or_iff_right hstart] at hdeleted
  have hlive := (Live.start.run hrun).subscriptions
  have hregistered : w.server.manager.subscriptions.get n = some s ↔
      s.name = n ∧ (w.server.phase s).isRegistered = true := hlive.names n s
  rw [hregistered, Phase.isRegistered_iff, hlive.created, ← hdeleted, Bool.not_eq_true,
    and_left_comm]

/-- The managers' maps name exactly the live resources.  The numbers grow in the order of
creation, no two live resources have the same name, and an entry is only taken out by the
`delete` of its own actor, whoever else had the name before. -/
theorem managers_name_live_resources {es : List ManagersEvent} {w : Managers}
    (hrun : start.run es = some w) :
    (∀ n t, w.topicManager.topics.get n = some t ↔
      t ∈ w.createdTopics ∧ t.name = n ∧ .deleteTopic t ∉ es) ∧
    (∀ n s, w.server.manager.subscriptions.get n = some s ↔
      s ∈ w.createdSubscriptions ∧ s.name = n ∧ .server (.finishDelete s) ∉ es) ∧
    (∀ t ∈ w.createdTopics, ∀ t' ∈ w.createdTopics, t.name = t'.name →
      .deleteTopic t ∉ es → .deleteTopic t' ∉ es → t = t') ∧
    (∀ s ∈ w.createdSubscriptions, ∀ s' ∈ w.createdSubscriptions, s.name = s'.name →
      .server (.finishDelete s) ∉ es → .server (.finishDelete s') ∉ es → s = s') ∧
    (w.createdTopics.Pairwise fun t t' => t.internalId < t'.internalId) ∧
    (∀ t ∈ w.createdTopics, t.internalId ≤ w.topicManager.nextId) ∧
    (w.createdSubscriptions.Pairwise fun s s' => s.internalId < s'.internalId) ∧
    (∀ s ∈ w.createdSubscriptions, s.internalId ≤ w.server.manager.nextId) ∧
    ∀ e w', w.step e = some w' →
      (∀ n t, w.topicManager.topics.get n = some t → .deleteTopic t ≠ e →
        w'.topicManager.topics.get n = some t) ∧
      ∀ n s, w.server.manager.subscriptions.get n = some s → .server (.finishDelete s) ≠ e →
        w'.server.manager.subscriptions.get n = some s := by
  have hlive := Live.start.run hrun
  have htopics := get_topic_run hrun
  have hsubscriptions := get_subscription_run hrun
  refine ⟨htopics, hsubscriptions, fun t ht t' ht' hname hd hd' => ?_,
    fun s hs s' hs' hname hd hd' => ?_, hlive.topics.counted.pairwise,
    fun t ht => (hlive.topics.counted.bounds ht).2, hlive.subscriptions.counted.pairwise,
    fun s hs => (hlive.subscriptions.counted.bounds hs).2, fun e w' hstep =>
    ⟨fun n t => hlive.get_topic_step hstep, fun n s => hlive.get_subscription_step hstep⟩⟩
  · have hget := (htopics t'.name t).mpr ⟨ht, hname, hd⟩
    rw [(htopics t'.name t').mpr ⟨ht', rfl, hd'⟩] at hget
    exact (Option.some.inj hget).symm
  · have hget := (hsubscriptions s'.name s).mpr ⟨hs, hname, hd⟩
    rw [(hsubscriptions s'.name s').mpr ⟨hs', rfl, hd'⟩] at hget
    exact (Option.some.inj hget).symm

namespace Sample

def info : TopicInfo := ⟨⟨"project", "topic"⟩, ∅, none⟩

def topic (id : ℕ) : Topic := ⟨info.name, id⟩

def name : SubscriptionName := ⟨"project", "subscription"⟩

def subscription (id : ℕ) : Subscription := ⟨name, id, topic 2⟩

/-- A subscription is deleted and created again, and so is its topic.  Then the old
handles are used to delete once more. -/
def recreate : List ManagersEvent :=
  [.createTopic info, .server (.create name (topic 2)), .server (.sendAttach (subscription 2)),
    .server (.topicReceive (topic 2) 0 0), .server (.request (subscription 2) .delete),
    .server (.receive (subscription 2)), .server (.sendRemove (subscription 2)),
    .server (.topicReceive (topic 2) 0 0), .server (.finishDelete (subscription 2)),
    .server (.create name (topic 2)), .deleteTopic (topic 2), .createTopic info,
    .server (.request (subscription 2) .delete), .server (.receive (subscription 2)),
    .deleteTopic (topic 2)]

end Sample

/-- The new topic and the new subscription keep their names. -/
theorem recreated_resources_stay : ∃ w, start.run Sample.recreate = some w ∧
    w.createdTopics = [Sample.topic 2, Sample.topic 3] ∧
    w.createdSubscriptions = [Sample.subscription 2, Sample.subscription 3] ∧
    w.topicManager.topics.get Sample.info.name = some (Sample.topic 3) ∧
    w.server.manager.subscriptions.get Sample.name = some (Sample.subscription 3) := by
  have hcreated :
      (start.run Sample.recreate).map (fun w => (w.createdTopics, w.createdSubscriptions)) =
        some ([Sample.topic 2, Sample.topic 3],
          [Sample.subscription 2, Sample.subscription 3]) := by
    decide +kernel
  obtain ⟨w, hrun, hw⟩ := Option.map_eq_some_iff.mp hcreated
  obtain ⟨htopics, hsubscriptions⟩ := Prod.mk.inj hw
  obtain ⟨hgetTopic, hgetSubscription, -⟩ := managers_name_live_resources hrun
  refine ⟨w, hrun, htopics, hsubscriptions, (hgetTopic _ _).mpr ?_, (hgetSubscription _ _).mpr ?_⟩
  · rw [htopics]
    decide +kernel
  · rw [hsubscriptions]
    decide +kernel

end Managers

end Deltio
