import Deltio.Lib.Utf8
import Deltio.Message

namespace Deltio

open Lib Utf8

def projectPrefix : String := "projects/"

def topicPrefix : String := "/topics/"

def subscriptionPrefix : String := "/subscriptions/"

/-- The project and the resource in a name; both parsers have this body. -/
def tryParseIds (resourcePrefix unparsed : String) : Option (String × String) :=
  -- Check that the length of the input is at least as long as a valid name.
  if len unparsed.toList ≤ len projectPrefix.toList + len resourcePrefix.toList + 2 then none
  else if !projectPrefix.toList.isPrefixOf unparsed.toList then none
  else do
    let projectId ← getFrom (len projectPrefix.toList) unparsed.toList
    let projectId ← getTo (← find '/' projectId) projectId
    let start := len projectPrefix.toList + len projectId + len resourcePrefix.toList
    let resourceId ← (getFrom start unparsed.toList).map (trimMatches '/')
    some (String.ofList projectId, String.ofList resourceId)

namespace TopicName

def new (projectId topicId : String) : TopicName := ⟨projectId, topicId⟩

def deleted : TopicName := ⟨"", "_deleted_topic_"⟩

def tryParse (unparsed : String) : Option TopicName :=
  (tryParseIds topicPrefix unparsed).map fun ids => ⟨ids.1, ids.2⟩

def toString (n : TopicName) : String := projectPrefix ++ n.projectId ++ topicPrefix ++ n.topicId

end TopicName

namespace SubscriptionName

def new (projectId subscriptionId : String) : SubscriptionName := ⟨projectId, subscriptionId⟩

def tryParse (unparsed : String) : Option SubscriptionName :=
  (tryParseIds subscriptionPrefix unparsed).map fun ids => ⟨ids.1, ids.2⟩

def toString (n : SubscriptionName) : String :=
  projectPrefix ++ n.projectId ++ subscriptionPrefix ++ n.subscriptionId

end SubscriptionName

/-- The text is the project prefix, a project, a middle segment as long as the
resource prefix, and the rest. -/
structure Cut (resourcePrefix unparsed : String) (p mid t : List Char) : Prop where
  text : unparsed.toList = projectPrefix.toList ++ (p ++ (mid ++ t))
  project : '/' ∉ p
  slash : (mid ++ t).head? = some '/'
  length : len mid = len resourcePrefix.toList

section

variable {resourcePrefix unparsed : String} {p mid t : List Char}

lemma Cut.find (h : Cut resourcePrefix unparsed p mid t) :
    find '/' (p ++ (mid ++ t)) = some (len p) := by
  obtain ⟨u, hu⟩ := List.head?_eq_some_iff.mp h.slash
  exact find_eq_some.mpr ⟨p, u, by rw [hu], h.project, rfl⟩

lemma Cut.rest (h : Cut resourcePrefix unparsed p mid t) :
    getFrom (len projectPrefix.toList + len p + len resourcePrefix.toList) unparsed.toList =
      some t := by
  refine getFrom_eq_some.mpr ⟨projectPrefix.toList ++ (p ++ mid), ?_, ?_⟩
  · rw [h.text, List.append_assoc, List.append_assoc]
  · rw [len_append, len_append, h.length, Nat.add_assoc]

def LongEnough (resourcePrefix unparsed : String) : Prop :=
  len projectPrefix.toList + len resourcePrefix.toList + 2 < len unparsed.toList

lemma tryParseIds_eq_some {ids : String × String} :
    tryParseIds resourcePrefix unparsed = some ids ↔ LongEnough resourcePrefix unparsed ∧
      ∃ p mid t, Cut resourcePrefix unparsed p mid t ∧
        ids = (String.ofList p, String.ofList (trimMatches '/' t)) := by
  unfold tryParseIds LongEnough
  constructor
  · intro h
    split_ifs at h with hlen hstart
    refine ⟨by omega, ?_⟩
    simp only [Option.bind_eq_bind, Option.bind_eq_some_iff, Option.map_eq_some_iff] at h
    obtain ⟨tail, htail, n, hn, p, hp, _, ⟨t, ht, rfl⟩, hids⟩ := h
    obtain ⟨pre, hpre, hprelen⟩ := getFrom_eq_some.mp htail
    obtain ⟨p', u, rfl, hp', rfl⟩ := find_eq_some.mp hn
    rw [getTo_append, Option.some.injEq] at hp
    subst hp
    have hstart' : projectPrefix.toList <+: unparsed.toList := by
      rwa [Bool.not_eq_true', Bool.not_eq_false, List.isPrefixOf_iff_prefix] at hstart
    obtain ⟨w, hw⟩ := hstart'
    obtain ⟨rfl, -⟩ := eq_of_append_eq (hpre.symm.trans hw.symm) hprelen
    obtain ⟨q, hq, hqlen⟩ := getFrom_eq_some.mp ht
    -- The rest starts after the project, as the middle segment is not empty in bytes.
    have hsplit : (projectPrefix.toList ++ p') ++ '/' :: u = q ++ t := by
      rw [List.append_assoc, ← hpre, hq]
    have hle : len (projectPrefix.toList ++ p') ≤ len q := by
      rw [hqlen, len_append]
      exact Nat.le_add_right _ _
    obtain ⟨mid, rfl, hmid⟩ := exists_of_append_eq hsplit hle
    refine ⟨p', mid, t, ⟨?_, hp', ?_, ?_⟩, (Option.some.inj hids).symm⟩
    · rw [hpre, hmid]
    · rw [← hmid, List.head?_cons]
    · rw [len_append, len_append] at hqlen
      omega
  · rintro ⟨hlen, p, mid, t, hcut, rfl⟩
    have hstart : projectPrefix.toList.isPrefixOf unparsed.toList = true :=
      List.isPrefixOf_iff_prefix.mpr ⟨_, hcut.text.symm⟩
    have htail : getFrom (len projectPrefix.toList) unparsed.toList = some (p ++ (mid ++ t)) := by
      rw [hcut.text, getFrom_append]
    rw [if_neg (by omega), hstart, Bool.not_true, if_neg Bool.false_ne_true, htail]
    simp only [Option.bind_eq_bind, Option.bind_some, hcut.find, getTo_append, hcut.rest,
      Option.map_some]

end

lemma toList_name (resourcePrefix p r : String) :
    (projectPrefix ++ p ++ resourcePrefix ++ r).toList =
      projectPrefix.toList ++ (p.toList ++ (resourcePrefix.toList ++ r.toList)) := by
  simp only [String.toList_append, List.append_assoc]

lemma cut_name {resourcePrefix p r : String} (hseg : resourcePrefix.toList.head? = some '/')
    (hp : '/' ∉ p.toList) : Cut resourcePrefix (projectPrefix ++ p ++ resourcePrefix ++ r)
      p.toList resourcePrefix.toList r.toList where
  text := toList_name resourcePrefix p r
  project := hp
  slash := by rw [List.head?_append, hseg, Option.some_or]
  length := rfl

lemma longEnough_name {resourcePrefix p r : String} :
    LongEnough resourcePrefix (projectPrefix ++ p ++ resourcePrefix ++ r) ↔
      2 < len p.toList + len r.toList := by
  unfold LongEnough
  rw [toList_name, len_append, len_append, len_append]
  omega

lemma tryParseIds_name {resourcePrefix p r : String}
    (hseg : resourcePrefix.toList.head? = some '/') (hp : '/' ∉ p.toList)
    (hr : '/' ∉ r.toList) :
    tryParseIds resourcePrefix (projectPrefix ++ p ++ resourcePrefix ++ r) = some (p, r) ↔
      2 < len p.toList + len r.toList := by
  rw [tryParseIds_eq_some, longEnough_name]
  refine and_iff_left ⟨_, _, _, cut_name hseg hp, ?_⟩
  rw [trimMatches_of_notMem hr, String.ofList_toList, String.ofList_toList]

lemma map_tryParseIds_name {α : Type*} {f : String × String → α} (hf : Function.Injective f)
    {resourcePrefix p r : String} (hseg : resourcePrefix.toList.head? = some '/')
    (hp : '/' ∉ p.toList) (hr : '/' ∉ r.toList) :
    (tryParseIds resourcePrefix (projectPrefix ++ p ++ resourcePrefix ++ r)).map f =
      some (f (p, r)) ↔ 2 < len p.toList + len r.toList := by
  rw [← tryParseIds_name hseg hp hr, ← Option.map_some, (Option.map_injective hf).eq_iff]

lemma topicName_round_trip {p r : String} (hp : '/' ∉ p.toList) (hr : '/' ∉ r.toList) :
    TopicName.tryParse (TopicName.new p r).toString = some (TopicName.new p r) ↔
      2 < len p.toList + len r.toList := by
  have hinj : Function.Injective fun ids : String × String => (⟨ids.1, ids.2⟩ : TopicName) := by
    rintro ⟨p, r⟩ ⟨p', r'⟩ ⟨⟩
    rfl
  have hseg : topicPrefix.toList.head? = some '/' := rfl
  exact map_tryParseIds_name hinj hseg hp hr

lemma subscriptionName_round_trip {p r : String} (hp : '/' ∉ p.toList) (hr : '/' ∉ r.toList) :
    SubscriptionName.tryParse (SubscriptionName.new p r).toString =
        some (SubscriptionName.new p r) ↔ 2 < len p.toList + len r.toList := by
  have hinj : Function.Injective
      fun ids : String × String => (⟨ids.1, ids.2⟩ : SubscriptionName) := by
    rintro ⟨p, r⟩ ⟨p', r'⟩ ⟨⟩
    rfl
  have hseg : subscriptionPrefix.toList.head? = some '/' := rfl
  exact map_tryParseIds_name hinj hseg hp hr

lemma two_lt_len_add {p r : String} (hp : p ≠ "") (hr : r ≠ "") :
    2 < len p.toList + len r.toList ↔ ¬ (len p.toList = 1 ∧ len r.toList = 1) := by
  have hp' : 0 < len p.toList := len_pos (by simpa using hp)
  have hr' : 0 < len r.toList := len_pos (by simpa using hr)
  omega

/-- A name with non-empty ids without slashes is read back unless both ids are one
byte long. -/
theorem names_round_trip_iff (p r : String) (hp : p ≠ "") (hr : r ≠ "")
    (hpslash : '/' ∉ p.toList) (hrslash : '/' ∉ r.toList) :
    (TopicName.tryParse (TopicName.new p r).toString = some (TopicName.new p r) ↔
      ¬ (len p.toList = 1 ∧ len r.toList = 1)) ∧
    (SubscriptionName.tryParse (SubscriptionName.new p r).toString =
        some (SubscriptionName.new p r) ↔ ¬ (len p.toList = 1 ∧ len r.toList = 1)) := by
  rw [← two_lt_len_add hp hr]
  exact ⟨topicName_round_trip hpslash hrslash, subscriptionName_round_trip hpslash hrslash⟩

theorem names_round_trip_iff_short :
    (TopicName.tryParse (TopicName.new "p" "té").toString = some (TopicName.new "p" "té") ↔
      ¬ (len "p".toList = 1 ∧ len "té".toList = 1)) ∧
    (SubscriptionName.tryParse (SubscriptionName.new "p" "té").toString =
        some (SubscriptionName.new "p" "té") ↔ ¬ (len "p".toList = 1 ∧ len "té".toList = 1)) :=
  names_round_trip_iff "p" "té" (by decide) (by decide) (by decide) (by decide)

theorem one_byte_names_rejected :
    "a" ≠ "" ∧ "b" ≠ "" ∧ '/' ∉ "a".toList ∧ '/' ∉ "b".toList ∧
      TopicName.tryParse (TopicName.new "a" "b").toString = none ∧
      SubscriptionName.tryParse (SubscriptionName.new "a" "b").toString = none := by
  decide

/-- Accepted by the parser although the middle segment is not the resource prefix. -/
def Misnamed (resourcePrefix unparsed : String) : Prop :=
  LongEnough resourcePrefix unparsed ∧
    ∃ p mid t, Cut resourcePrefix unparsed p mid t ∧ mid ≠ resourcePrefix.toList

/-- An accepted text is a name exactly when its middle segment is the resource prefix. -/
lemma tryParseIds_sound_iff (resourcePrefix s : String) :
    (∀ ids, tryParseIds resourcePrefix s = some ids →
      ∃ t : String, s = projectPrefix ++ ids.1 ++ resourcePrefix ++ t ∧ '/' ∉ ids.1.toList ∧
        ids.2.toList = trimMatches '/' t.toList) ↔ ¬ Misnamed resourcePrefix s := by
  constructor
  · rintro h ⟨hlen, p, mid, t, hcut, hne⟩
    obtain ⟨t', hs, -, -⟩ := h _ (tryParseIds_eq_some.mpr ⟨hlen, p, mid, t, hcut, rfl⟩)
    have htext := hcut.text
    rw [hs, toList_name, String.toList_ofList] at htext
    have hrest := List.append_cancel_left (List.append_cancel_left htext)
    exact hne (eq_of_append_eq hrest hcut.length.symm).1.symm
  · intro h ids hids
    obtain ⟨hlen, p, mid, t, hcut, rfl⟩ := tryParseIds_eq_some.mp hids
    have hmid : mid = resourcePrefix.toList := by
      by_contra hne
      exact h ⟨hlen, p, mid, t, hcut, hne⟩
    subst hmid
    refine ⟨String.ofList t, ?_, ?_, ?_⟩
    · apply String.toList_injective
      rw [toList_name, String.toList_ofList, String.toList_ofList, hcut.text]
    · rw [String.toList_ofList]
      exact hcut.project
    · rw [String.toList_ofList, String.toList_ofList]

/-- What each parser accepts is a name of its kind exactly when the text is not misnamed. -/
theorem names_sound_iff (s : String) :
    ((∀ n, TopicName.tryParse s = some n →
      ∃ t : String, s = projectPrefix ++ n.projectId ++ topicPrefix ++ t ∧
        '/' ∉ n.projectId.toList ∧ n.topicId.toList = trimMatches '/' t.toList) ↔
      ¬ Misnamed topicPrefix s) ∧
    ((∀ n, SubscriptionName.tryParse s = some n →
      ∃ t : String, s = projectPrefix ++ n.projectId ++ subscriptionPrefix ++ t ∧
        '/' ∉ n.projectId.toList ∧ n.subscriptionId.toList = trimMatches '/' t.toList) ↔
      ¬ Misnamed subscriptionPrefix s) := by
  rw [← tryParseIds_sound_iff, ← tryParseIds_sound_iff]
  unfold TopicName.tryParse SubscriptionName.tryParse
  simp only [Option.map_eq_some_iff, forall_exists_index, and_imp, forall_apply_eq_imp_iff₂,
    and_self]

theorem subscription_name_read_as_topic :
    TopicName.tryParse "projects/lets-go/subscriptions/deltio" =
        some (TopicName.new "lets-go" "ptions/deltio") ∧
      ¬ ∃ t : String, "projects/lets-go/subscriptions/deltio" =
        projectPrefix ++ "lets-go" ++ topicPrefix ++ t := by
  refine ⟨by decide, ?_⟩
  rintro ⟨t, ht⟩
  have htext := (congrArg String.toList ht).trans (toList_name topicPrefix "lets-go" t)
  -- the first letter after the second slash
  have hletter : some 's' = some 't' := congrArg (fun l => l[17]?) htext
  exact absurd hletter (by decide)

end Deltio
