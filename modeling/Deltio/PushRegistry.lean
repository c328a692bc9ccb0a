import Deltio.Runs

namespace Deltio.SubscriptionActor

open Lib

/-- The registry has the push config of the subscription, and no entry once the
subscription is deleted. -/
def Mirrors (a : SubscriptionActor) : Prop :=
  a.pushRegistry.get a.info.name = if a.deleted then none else a.info.pushConfig

/-- The changes of the push config that the registry follows: to no push, from no
push or to the same config before a delete, and only to no push after it.  A
delete the topic does not answer must find no push config. -/
def KeepsRegistry (a : SubscriptionActor) (e : Env × ActorEvent) : Prop :=
  match e.2 with
  | .request (.modifyPushConfig pushConfig) =>
    pushConfig = none ∨
      (a.deleted = false ∧ (a.info.pushConfig = none ∨ pushConfig = a.info.pushConfig))
  | .request .delete =>
    a.deleted = true ∨ e.1.topicAnswer ≠ .closed ∨ a.info.pushConfig = none
  | _ => True

/-- What the registry has for a name after a write. -/
lemma get_set (r : PushSubscriptionsRegistry) (name : SubscriptionName) (config : Option PushConfig) :
    HashMap.get (r.set name config) name =
      match config with
      | none => none
      | some c => some ((r.get name).getD c) := by
  cases config with
  | none => exact HashMap.get_remove_self r name
  | some c =>
    unfold PushSubscriptionsRegistry.set
    cases hget : r.get name with
    | none => simp
    | some c' => simp [hget]

lemma mirrors_of_config {a b : SubscriptionActor} (h : b.config = a.config) :
    b.Mirrors ↔ a.Mirrors := by
  unfold Mirrors
  rw [show b.pushRegistry = a.pushRegistry from congrArg Config.pushRegistry h,
    show b.deleted = a.deleted from congrArg Config.deleted h, info_of_config h]

lemma mirrors_modifyPushConfig_iff {a : SubscriptionActor} (h : a.Mirrors)
    (pushConfig : Option PushConfig) :
    (a.modifyPushConfig pushConfig).Mirrors ↔ pushConfig = none ∨
      (a.deleted = false ∧ (a.info.pushConfig = none ∨ pushConfig = a.info.pushConfig)) := by
  unfold Mirrors at h ⊢
  unfold modifyPushConfig
  dsimp only
  rw [get_set, h]
  cases pushConfig with
  | none => simp
  | some c =>
    cases a.deleted with
    | true => simp
    | false => cases a.info.pushConfig <;> simp [eq_comm]

lemma mirrors_delete_iff {a : SubscriptionActor} (h : a.Mirrors) (topicAnswer : TopicAnswer) :
    (a.delete topicAnswer).2.Mirrors ↔
      a.deleted = true ∨ topicAnswer ≠ .closed ∨ a.info.pushConfig = none := by
  unfold delete
  split_ifs with hd
  · exact iff_of_true h (.inl hd)
  · have hmirrors : a.pushRegistry.get a.info.name = a.info.pushConfig := by
      rw [h, if_neg hd]
    cases topicAnswer with
    | closed =>
      unfold Mirrors
      simp [hd, hmirrors]
    | gone | removed =>
      refine iff_of_true ?_ (.inr (.inl (by simp)))
      unfold Mirrors clearMessages
      dsimp only
      rw [get_set, if_pos rfl]

lemma mirrors_step_iff {a : SubscriptionActor} (hs : a.Sound) (h : a.Mirrors)
    (e : Env × ActorEvent) : (a.step e).Mirrors ↔ a.KeepsRegistry e := by
  obtain ⟨env, event⟩ := e
  rcases config_step_cases hs env event with
    ⟨hr, hconfig⟩ | ⟨update, rfl⟩ | ⟨pushConfig, rfl⟩ | rfl | rfl
  · rw [mirrors_of_config hconfig]
    refine iff_of_true h ?_
    cases event with
    | expired | retryReady => trivial
    | request r =>
      cases r with
      | modifyPushConfig | delete => exact absurd trivial hr
      | _ => trivial
  · exact iff_of_true h trivial
  · exact mirrors_modifyPushConfig_iff h pushConfig
  · exact mirrors_delete_iff h env.topicAnswer
  · refine iff_of_true ?_ trivial
    change a.detach.Mirrors
    unfold detach
    split_ifs <;> exact h

/-- The registry mirrors the push config in every state of a run exactly if every
step keeps it so. -/
theorem registry_mirrors_iff (info : SubscriptionInfo) (topic : Topic)
    (delegate : SubscriptionManagerState) (topicManager : Option TopicManagerRef)
    (es : List (Env × ActorEvent)) :
    (∀ n, ((start info topic ∅ delegate topicManager).run (es.take n)).Mirrors) ↔
      Along KeepsRegistry (start info topic ∅ delegate topicManager) es := by
  apply forall_run_take_iff fun b e hs h => mirrors_step_iff hs h e
  · exact sound_start info topic ∅ delegate topicManager
  · unfold Mirrors start
    cases hc : info.pushConfig with
    | none => simp
    | some config => simp [get_set]

/-- The endpoint of a push subscription is changed: the registry keeps the old
one. -/
theorem registry_keeps_first_endpoint :
    let a := (Sample.start { Sample.info with pushConfig := some (Sample.pushTo "a") }).run
      (Sample.events [.modifyPushConfig (some (Sample.pushTo "b"))])
    ¬ a.Mirrors ∧ a.info.pushConfig = some (Sample.pushTo "b") ∧
      a.pushRegistry.get a.info.name = some (Sample.pushTo "a") := by
  unfold Mirrors
  decide +kernel

end Deltio.SubscriptionActor
