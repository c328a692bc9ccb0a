import Deltio.Managers
import Deltio.Paging

namespace Deltio

open Lib

inductive TopicOp where
  | create (name : TopicName)
  | delete (name : TopicName)
deriving DecidableEq

/-- A call that is refused changes nothing. -/
def TopicManager.applyOp (m : TopicManager) : TopicOp → TopicManager
  | .create name =>
    match m.createTopic name with
    | .ok (_, m') => m'
    | .error _ => m
  | .delete name => m.delete name

inductive SubscriptionOp where
  | create (name : SubscriptionName) (topic : Topic)
  | delete (name : SubscriptionName)
deriving DecidableEq

def SubscriptionManagerState.applyOp (m : SubscriptionManagerState) :
    SubscriptionOp → SubscriptionManagerState
  | .create name topic =>
    match m.createSubscription name topic with
    | .ok (_, m') => m'
    | .error _ => m
  | .delete name => m.delete name

lemma TopicManager.grows_create (m : TopicManager) (name : TopicName) :
    Grows Topic.name Topic.internalId m.topics m.nextId (m.applyOp (.create name)).topics
      (m.applyOp (.create name)).nextId := by
  simp only [applyOp]
  split
  · next t m' h =>
    obtain ⟨hfree, rfl, rfl⟩ := createTopic_eq_ok h
    exact Grows.insert (r := (⟨name, m.nextId + 1⟩ : Topic)) rfl hfree
  · exact .same le_rfl

lemma SubscriptionManagerState.grows_create (m : SubscriptionManagerState)
    (name : SubscriptionName) (topic : Topic) :
    Grows Subscription.name Subscription.internalId m.subscriptions m.nextId
      (m.applyOp (.create name topic)).subscriptions (m.applyOp (.create name topic)).nextId := by
  simp only [applyOp]
  split
  · next s m' h =>
    obtain ⟨hfree, rfl, rfl⟩ := createSubscription_eq_ok h
    exact Grows.insert (r := (⟨name, m.nextId + 1, topic⟩ : Subscription)) rfl hfree
  · exact .same le_rfl

lemma TopicManager.changes_applyOp (m : TopicManager) (op : TopicOp) :
    Changes Topic.name Topic.internalId m.topics m.nextId (m.applyOp op).topics
      (m.applyOp op).nextId := by
  cases op with
  | create name => exact .grows (m.grows_create name)
  | delete name => exact .remove m.topics m.nextId name

lemma SubscriptionManagerState.changes_applyOp (m : SubscriptionManagerState)
    (op : SubscriptionOp) :
    Changes Subscription.name Subscription.internalId m.subscriptions m.nextId
      (m.applyOp op).subscriptions (m.applyOp op).nextId := by
  cases op with
  | create name topic => exact .grows (m.grows_create name topic)
  | delete name => exact .remove m.subscriptions m.nextId name

section

variable {R : Type} (engine : Base64Engine) (list : ℕ → Paging → Page R) (pageSize : ℤ)
  (id : R → ℕ) (resources : R → Prop)

end

section

variable {N R : Type} [DecidableEq N] {engine : Base64Engine} {pageSize : ℤ} {id : R → ℕ}

variable {name : R → N}

variable {W C : Type} {apply : W → C → W} {entries : W → HashMap N R} {nextId : W → ℕ}

/-- As long as nothing goes that the client has seen, it sees all that stays. -/
lemma survivors_of_changes (hsize : 0 ≤ pageSize) (wanted : R → Bool)
    (hchanges : ∀ w c,
      Changes name id (entries w) (nextId w) (entries (apply w c)) (nextId (apply w c)))
    {w : W} (h : Numbered name id (entries w) (nextId w)) {ops : ℕ → List C}
    (hlen : ∀ i, (entries (afterOps apply w ops i)).len < 2 ^ 64) :
    let list := fun i paging =>
      paging.apply (listing id wanted (entries (afterOps apply w ops i)))
    (∃ pages, Follows engine list pageSize pages) ∧
      ∀ pages, Follows engine list pageSize pages →
        (∀ j < pages.length, ∀ r ∈ (pages.take j).flatten,
          ∃ n, (entries (afterOps apply w ops j)).get n = some r) →
        ∀ r, wanted r = true →
          (∀ j < pages.length, ∃ n, (entries (afterOps apply w ops j)).get n = some r) →
          r ∈ pages.flatten := by
  set T := registryTimeline wanted hchanges
  have hshort : ∀ i, (listing id wanted (entries (afterOps apply w ops i))).length < 2 ^ 64 :=
    fun i => (length_listing_le id wanted _).trans_lt (hlen i)
  have hfollows : ∀ pages, Follows engine _ pageSize pages ↔ OffsetWalk (fullPage pageSize)
      (fun i => listing id wanted (entries (afterOps apply w ops i))) 0 0 pages :=
    fun pages => follows_iff hsize hshort
  constructor
  · obtain ⟨pages, hwalk⟩ := exists_offsetWalk (fun i => (hshort i).le) 0 0
    exact ⟨pages, (hfollows pages).mpr hwalk⟩
  · intro pages hpages hkept r hwanted hr
    have hwalk := (hfollows pages).mp hpages
    have hpos : 0 < pages.length := by
      cases hwalk <;> exact Nat.succ_pos _
    have hflatten := T.flatten_eq h (fullPage_pos pageSize) hwalk fun j hj r' hr' => ?_
    · rw [hflatten]
      exact mem_listing.mpr ⟨hwanted, hr (pages.length - 1) (Nat.sub_lt hpos Nat.one_pos)⟩
    · obtain ⟨k, -, hmem⟩ := hwalk.exists_of_mem hr'
      exact mem_listing.mpr ⟨(mem_listing.mp hmem).1, hkept j hj r' hr'⟩

end

namespace Sample

def engine : Base64Engine := .standard

def firstTopic : Topic := ⟨⟨"project", "first"⟩, 2⟩

def secondTopic : Topic := ⟨⟨"project", "second"⟩, 3⟩

def thirdTopic : Topic := ⟨⟨"project", "third"⟩, 4⟩

def twoTopics : TopicManager :=
  [TopicOp.create firstTopic.name, .create secondTopic.name].foldl TopicManager.applyOp .new

lemma numbered_twoTopics : twoTopics.Numbered := by
  have hfirst := (TopicManager.changes_applyOp .new (.create firstTopic.name)).numbered
    TopicManager.numbered_new
  exact (TopicManager.changes_applyOp _ (.create secondTopic.name)).numbered hfirst

def once {C : Type} (cs : List C) : ℕ → List C
  | 0 => cs
  | _ + 1 => []

lemma afterOps_once {W C : Type} (apply : W → C → W) (w : W) (cs : List C) (i : ℕ) :
    afterOps apply w (once cs) (i + 1) = cs.foldl apply w := by
  induction i with
  | zero => rfl
  | succ i ih => rw [afterOps, ih]; rfl

def topicsAfter (cs : List TopicOp) : ℕ → TopicManager :=
  afterOps TopicManager.applyOp twoTopics (once cs)

lemma topicsAfter_cases {P : TopicManager → Prop} {cs : List TopicOp} (hbefore : P twoTopics)
    (hafter : P (cs.foldl TopicManager.applyOp twoTopics)) (i : ℕ) : P (topicsAfter cs i) := by
  cases i with
  | zero => exact hbefore
  | succ i =>
    unfold topicsAfter
    rw [afterOps_once]
    exact hafter

end Sample

/-- A client that follows the tokens finds every resource that exists at all its requests,
if at each request everything that it has found before still exists. -/
theorem survivors_listed (engine : Base64Engine) {pageSize : ℤ} (hsize : 0 ≤ pageSize) :
    (∀ (m : TopicManager) (projectId : String) (ops : ℕ → List TopicOp), m.Numbered →
      let ms := afterOps TopicManager.applyOp m ops
      (∀ i, (ms i).topics.len < 2 ^ 64) →
      (∃ pages, Follows engine (fun i => (ms i).listTopics projectId) pageSize pages) ∧
      ∀ pages, Follows engine (fun i => (ms i).listTopics projectId) pageSize pages →
        (∀ j < pages.length, ∀ t ∈ (pages.take j).flatten, ∃ n, (ms j).topics.get n = some t) →
        ∀ t, t.name.isInProject projectId = true →
          (∀ j < pages.length, ∃ n, (ms j).topics.get n = some t) → t ∈ pages.flatten) ∧
    (∀ (m : SubscriptionManagerState) (projectId : String) (ops : ℕ → List SubscriptionOp),
      m.Numbered →
      let ms := afterOps SubscriptionManagerState.applyOp m ops
      (∀ i, (ms i).subscriptions.len < 2 ^ 64) →
      (∃ pages, Follows engine (fun i => (ms i).listSubscriptionsInProject projectId) pageSize
        pages) ∧
      ∀ pages, Follows engine (fun i => (ms i).listSubscriptionsInProject projectId) pageSize
        pages →
        (∀ j < pages.length, ∀ s ∈ (pages.take j).flatten,
          ∃ n, (ms j).subscriptions.get n = some s) →
        ∀ s, s.name.isInProject projectId = true →
          (∀ j < pages.length, ∃ n, (ms j).subscriptions.get n = some s) →
          s ∈ pages.flatten) := by
  constructor
  · intro m projectId ops hm ms hlen
    exact survivors_of_changes hsize _ TopicManager.changes_applyOp hm hlen
  · intro m projectId ops hm ms hlen
    exact survivors_of_changes hsize _ SubscriptionManagerState.changes_applyOp hm hlen

/-- The client asks for pages of one topic.  The first topic is deleted after its page,
and the second, which is there all the time, is on no page. -/
theorem deleted_topic_hides_next :
    let ms := Sample.topicsAfter [.delete Sample.firstTopic.name]
    let pages := [[Sample.firstTopic], []]
    Sample.twoTopics.Numbered ∧
      Follows Sample.engine (fun i => (ms i).listTopics "project") 1 pages ∧
      Sample.secondTopic.name.isInProject "project" = true ∧
      (∀ i, (ms i).topics.get Sample.secondTopic.name = some Sample.secondTopic) ∧
      Sample.secondTopic ∉ pages.flatten := by
  refine ⟨Sample.numbered_twoTopics, ⟨2, by decide +kernel⟩, rfl, ?_, by decide⟩
  refine Sample.topicsAfter_cases (P := fun m =>
    m.topics.get Sample.secondTopic.name = some Sample.secondTopic) ?_ ?_
  all_goals decide +kernel

/-- A topic that the client has not seen may go. -/
theorem survivor_listed_after_delete :
    let ms := Sample.topicsAfter [.delete Sample.secondTopic.name, .create Sample.thirdTopic.name]
    let pages := [[Sample.firstTopic], [Sample.thirdTopic], []]
    Follows Sample.engine (fun i => (ms i).listTopics "project") 1 pages ∧
      (∀ j < pages.length, ∀ t ∈ (pages.take j).flatten, ∃ n, (ms j).topics.get n = some t) ∧
      (∀ i, (ms i).topics.get Sample.firstTopic.name = some Sample.firstTopic) ∧
      Sample.firstTopic ∈ pages.flatten := by
  intro ms pages
  have hfollows : Follows Sample.engine (fun i => (ms i).listTopics "project") 1 pages :=
    ⟨3, by decide +kernel⟩
  have hlen : ∀ i, (ms i).topics.len < 2 ^ 64 := by
    refine Sample.topicsAfter_cases (P := fun m => m.topics.len < 2 ^ 64) ?_ ?_
    all_goals decide +kernel
  have hfirst : ∀ i, (ms i).topics.get Sample.firstTopic.name = some Sample.firstTopic := by
    refine Sample.topicsAfter_cases (P := fun m =>
      m.topics.get Sample.firstTopic.name = some Sample.firstTopic) ?_ ?_
    all_goals decide +kernel
  have hkept : ∀ j < pages.length, ∀ t ∈ (pages.take j).flatten,
      (ms j).topics.get t.name = some t := by
    decide +kernel
  obtain ⟨htopics, -⟩ := survivors_listed Sample.engine (show (0 : ℤ) ≤ 1 by decide)
  obtain ⟨-, hlisted⟩ := htopics Sample.twoTopics "project" _ Sample.numbered_twoTopics hlen
  have hexists : ∀ j < pages.length, ∀ t ∈ (pages.take j).flatten,
      ∃ n, (ms j).topics.get n = some t := fun j hj t ht => ⟨t.name, hkept j hj t ht⟩
  exact ⟨hfollows, hexists, hfirst, hlisted pages hfollows hexists Sample.firstTopic rfl
    fun j _ => ⟨_, hfirst j⟩⟩

end Deltio
