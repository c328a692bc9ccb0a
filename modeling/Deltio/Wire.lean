import Deltio.Parser
import Deltio.PullBounds
import Deltio.World

namespace Deltio

open Lib SubscriptionActor

inductive CallFailure where
  | failure (f : Failure)
  | notFound (message : String)
deriving DecidableEq

structure PublishRequest where
  topic : String
  messages : List PubsubMessage

structure PublishResponse where
  messageIds : List String

/-- Parses a message; an empty map and an empty key are left out. -/
def parseTopicMessage (messageProto : PubsubMessage) (now : Instant) : TopicMessage :=
  let attributes :=
    if messageProto.attributes.len = 0 then none else some messageProto.attributes
  let message := TopicMessage.new messageProto.data attributes now
  if messageProto.orderingKey.isEmpty then message
  else { message with orderingKey := some messageProto.orderingKey }

namespace Publisher

def parseMessages (messages : List PubsubMessage) (clock : ℕ → Instant) : List TopicMessage :=
  messages.mapIdx fun i m => parseTopicMessage m (clock i)

def topicNotFound (name : TopicName) : CallFailure :=
  .notFound ("Resource not found (resource=" ++ name.topicId ++ ").")

/-- What the Publish handler sends, and to which topic. -/
def publish (topics : TopicManager) (request : PublishRequest) (clock : ℕ → Instant) :
    Except CallFailure (Topic × TopicRequest) := do
  let topicName ← (Parser.parseTopicName request.topic).mapError .failure
  match topics.getTopic topicName with
  | none => .error (topicNotFound topicName)
  | some topic => .ok (topic, .publishMessages (parseMessages request.messages clock))

def publishResponse (messageIds : List MessageId) : PublishResponse :=
  ⟨messageIds.map fun id => toString id.value⟩

/-- The handler sends the parsed messages to the topic that the request names. -/
lemma publish_eq_ok {topics : TopicManager} {request : PublishRequest} {clock : ℕ → Instant}
    {topic : Topic} {r : TopicRequest} :
    publish topics request clock = .ok (topic, r) ↔
      ∃ name, Parser.parseTopicName request.topic = .ok name ∧
        topics.getTopic name = some topic ∧
        .publishMessages (parseMessages request.messages clock) = r := by
  unfold publish
  cases Parser.parseTopicName request.topic with
  | error f => exact iff_of_false (fun h => by cases h) fun ⟨name, h, _⟩ => by cases h
  | ok name =>
    change (match topics.getTopic name with
      | none => Except.error (topicNotFound name)
      | some topic => .ok (topic, _)) = _ ↔ _
    cases htopic : topics.getTopic name with
    | none =>
      refine iff_of_false (fun h => by cases h) ?_
      rintro ⟨name', ⟨⟩, hsome, -⟩
      rw [htopic] at hsome
      cases hsome
    | some topic' =>
      constructor
      · rintro ⟨⟩
        exact ⟨name, rfl, htopic, rfl⟩
      · rintro ⟨name', ⟨⟩, hsome, rfl⟩
        rw [htopic] at hsome
        cases hsome
        rfl

end Publisher

namespace PubsubMessage

/-- The message as a subscriber sees it: the publisher's, with the values of the topic. -/
def published (m : PubsubMessage) (id : MessageId) (publishedAt : SystemTime) : PubsubMessage :=
  { m with messageId := toString id.value, publishTime := some (.ofSystemTime publishedAt) }

end PubsubMessage

section

variable (m : PubsubMessage) (now : Instant)

lemma data_parseTopicMessage : (parseTopicMessage m now).data = m.data := by
  unfold parseTopicMessage
  dsimp only
  split_ifs <;> rfl

lemma attributes_parseTopicMessage :
    (parseTopicMessage m now).attributes.getD ∅ = m.attributes := by
  have hattributes : (parseTopicMessage m now).attributes =
      if m.attributes.len = 0 then none else some m.attributes := by
    unfold parseTopicMessage
    dsimp only
    split_ifs <;> rfl
  rw [hattributes]
  split_ifs with hlen
  · exact AList.ext (List.length_eq_zero_iff.mp hlen).symm
  · rfl

lemma orderingKey_parseTopicMessage :
    (parseTopicMessage m now).orderingKey.getD "" = m.orderingKey := by
  by_cases hkey : m.orderingKey.isEmpty = true
  · unfold parseTopicMessage
    rw [if_pos hkey]
    exact (String.isEmpty_iff.mp hkey).symm
  · unfold parseTopicMessage
    rw [if_neg hkey]
    rfl

/-- Parsing a message and publishing it keeps all that the publisher has set. -/
lemma message_of_parsed {p : PulledMessage}
    (hp : p.message = (parseTopicMessage m now).publish p.message.id p.message.publishedAt
      p.message.publishedAtInstant) :
    (Subscriber.mapToReceivedMessage p).message =
      some (m.published p.message.id p.message.publishedAt) := by
  have hdata : p.message.data = m.data := by
    rw [hp]
    exact data_parseTopicMessage m now
  have hattributes : p.message.attributes.getD ∅ = m.attributes := by
    rw [hp]
    exact attributes_parseTopicMessage m now
  have hkey : p.message.orderingKey.getD "" = m.orderingKey := by
    rw [hp]
    exact orderingKey_parseTopicMessage m now
  unfold Subscriber.mapToReceivedMessage PubsubMessage.published
  rw [hdata, hattributes, hkey]

end

namespace World

variable {w : World}

/-- What an actor hands out was published while the subscription was attached. -/
lemma mem_batch_of_pulled (births : Subscription → Birth) (h : w.Handed) {s : Subscription}
    {pull : Env × ActorEvent} {p : PulledMessage} (hp : p ∈ (w.actor births s).pulled pull) :
    ∃ q ∈ w.log.publishes, s ∈ q.attached ∧ p.message ∈ q.batch := by
  have hreceived : p.message ∈ (w.log.received s).flatten :=
    (h.begun s).subset (mem_posted_of_pulled births hp)
  obtain ⟨batch, hbatch, hmem⟩ := List.mem_flatten.mp hreceived
  have hdue : batch ∈ w.log.due s :=
    (h.underway.received s).subset (List.mem_append_left _ hbatch)
  obtain ⟨q, hq, rfl⟩ := List.mem_map.mp hdue
  rw [List.mem_filter, decide_eq_true_iff] at hq
  exact ⟨q, hq.1, hq.2, hmem⟩

/-- Two published messages with one ID are one message. -/
lemma eq_of_id_eq (h : w.Handed) (htopics : w.log.managers.createdTopics.length < 2 ^ 32)
    (hmessages : ∀ t, (w.log.assignedTo t).length < 2 ^ 32) {q q' : Publish}
    (hq : q ∈ w.log.publishes) (hq' : q' ∈ w.log.publishes) {m m' : TopicMessage}
    (hm : m ∈ q.batch) (hm' : m' ∈ q'.batch) (hid : m.id = m'.id) : m = m' := by
  have hnodup := h.underway.assigns.nodup_assigned htopics hmessages
  have hall : w.log.assigned = (w.log.publishes.flatMap (·.batch)).map (·.id) := by
    rw [PublishLog.assigned, List.map_flatMap]
  rw [hall, List.map_map] at hnodup
  refine List.inj_on_of_nodup_map hnodup ?_ ?_ (congrArg MessageId.toUInt64 hid)
  · exact List.mem_flatMap.mpr ⟨q, hq, hm⟩
  · exact List.mem_flatMap.mpr ⟨q', hq', hm'⟩

end World

/-- The decimal digits of a number determine it. -/
lemma toString_nat_injective {n n' : ℕ} (h : toString n = toString n') : n = n' := by
  have hdigits : Nat.toDigits 10 n = Nat.toDigits 10 n' := by
    have hchars := congrArg String.toList h
    rwa [Nat.toString_eq_ofList_toDigits, Nat.toString_eq_ofList_toDigits, String.toList_ofList,
      String.toList_ofList] at hchars
  have hvalue := congrArg (fun digits => Nat.ofDigitChars 10 digits 0) hdigits
  simpa only [Nat.ofDigitChars_ten_toDigits] using hvalue

namespace Subscriber

/-- The message in a response is one that a publisher has sent to the topic while the
subscription was attached, with the ID that the publisher was told for it: it is the message at
that place of the Publish request.  The same message ID always comes with the same message. -/
theorem received_as_published (births : Subscription → Birth) (es : List WorldEvent) (w : World)
    (hrun : World.start.run es = some w) (s : Subscription) (pull : Env × ActorEvent)
    (p : PulledMessage) (hp : p ∈ (w.actor births s).pulled pull) :
    (∃ q ∈ w.log.publishes, q.topic = s.topic ∧ s ∈ q.attached ∧ ∃ i : ℕ,
      (∀ ids, (q, ids) ∈ w.log.answers →
        (Publisher.publishResponse ids).messageIds[i]? = some (toString p.message.id.value)) ∧
      (∀ messages clock, q.messages = Publisher.parseMessages messages clock →
        ∃ m : PubsubMessage, messages[i]? = some m ∧ (mapToReceivedMessage p).message =
          some (m.published p.message.id p.message.publishedAt)) ∧
      ∀ topics request clock,
        Publisher.publish topics request clock = .ok (q.topic, .publishMessages q.messages) →
        ∃ name m, Parser.parseTopicName request.topic = .ok name ∧
          topics.getTopic name = some s.topic ∧ request.messages[i]? = some m ∧
          (mapToReceivedMessage p).message =
            some (m.published p.message.id p.message.publishedAt)) ∧
    (w.log.managers.createdTopics.length < 2 ^ 32 →
      (∀ t, (w.log.assignedTo t).length < 2 ^ 32) →
      ∀ s' pull', ∀ p' ∈ (w.actor births s').pulled pull',
        (mapToReceivedMessage p').message.map (·.messageId) =
          (mapToReceivedMessage p).message.map (·.messageId) →
        (mapToReceivedMessage p').message = (mapToReceivedMessage p).message) := by
  have h : w.Handed := World.Handed.start.run hrun
  obtain ⟨q, hq, hs, hm⟩ := World.mem_batch_of_pulled births h hp
  have htopic : q.topic = s.topic := (h.underway.attached q hq s hs).symm
  refine ⟨⟨q, hq, htopic, hs, ?_⟩, ?_⟩
  · obtain ⟨i, hi⟩ := List.mem_iff_getElem?.mp hm
    have hsent : ∀ messages clock, q.messages = Publisher.parseMessages messages clock →
        ∃ m : PubsubMessage, messages[i]? = some m ∧ (mapToReceivedMessage p).message =
          some (m.published p.message.id p.message.publishedAt) := by
      intro messages clock hmessages
      have hinOrder := h.underway.assigns.inOrder q hq
      unfold Publish.InOrder at hinOrder
      rw [hmessages, List.forall₂_iff_get] at hinOrder
      obtain ⟨hlength, hget⟩ := hinOrder
      obtain ⟨hlt, hi⟩ := List.getElem?_eq_some_iff.mp hi
      have hlt' : i < messages.length := by
        rwa [← hlength, Publisher.parseMessages, List.length_mapIdx] at hlt
      refine ⟨messages[i], List.getElem?_eq_getElem hlt', ?_⟩
      apply message_of_parsed _ (clock i)
      have hpublished := hget i (hlength ▸ hlt) hlt
      simp only [List.get_eq_getElem, hi, Publisher.parseMessages, List.getElem_mapIdx] at hpublished
      exact hpublished
    refine ⟨i, fun ids hids => ?_, hsent, fun topics request clock hpublish => ?_⟩
    · have hbatch : ids = q.batch.map (·.id) := (h.underway.returns.answers _ hids).2
      simp only [Publisher.publishResponse, List.getElem?_map]
      rw [hbatch, List.getElem?_map, hi]
      rfl
    · obtain ⟨name, hname, hget, hrequest⟩ := Publisher.publish_eq_ok.mp hpublish
      obtain ⟨m, hm, hmessage⟩ := hsent _ _ (TopicRequest.publishMessages.inj hrequest).symm
      exact ⟨name, m, hname, htopic ▸ hget, hm, hmessage⟩
  · intro htopics hmessages s' pull' p' hp' hids
    obtain ⟨q', hq', -, hm'⟩ := World.mem_batch_of_pulled births h hp'
    have htext : toString p'.message.id.value = toString p.message.id.value :=
      Option.some.inj hids
    have hid : p'.message.id = p.message.id :=
      congrArg MessageId.mk (toString_nat_injective htext)
    have hsame := World.eq_of_id_eq h htopics hmessages hq' hq hm' hm hid
    unfold mapToReceivedMessage
    rw [hsame]

namespace Sample

open Managers.Sample

def order : PubsubMessage where
  data := [1, 2, 3]
  attributes := (∅ : Attributes).insert "kind" "order"
  messageId := ""
  publishTime := none
  orderingKey := "k"

def request : PublishRequest := ⟨"projects/project/topics/topic", [order]⟩

def topics : TopicManager := ⟨HashMap.insert ∅ info.name (topic 2), 3⟩

def events : List WorldEvent :=
  ([.createTopic info, .server (.create name (topic 2)), .server (.sendAttach (subscription 2)),
    .server (.topicReceive (topic 2) 0 0),
    .server (.topicRequest (topic 2)
      (.publishMessages (Publisher.parseMessages request.messages fun _ => 0))),
    .server (.topicReceive (topic 2) 5 0), .server (.posting (topic 2) (.post (subscription 2))),
    .server (.posting (topic 2) (.join (subscription 2))), .server (.posting (topic 2) .finish),
    .server (.receive (subscription 2))] : List ManagersEvent).map
    fun e => .managers e 0 .identity

def pull : Env × ActorEvent := (Deltio.Sample.env 0, .request (.pullMessages 10 0))

end Sample

/-- The order comes back with the ID that its publisher was told. -/
theorem order_received_as_published : ∃ w, World.start.run Sample.events = some w ∧
    w.log.answers.map (fun a => (Publisher.publishResponse a.2).messageIds) = [["8589934593"]] ∧
    ∃ p ∈ (w.actor World.Sample.births (Managers.Sample.subscription 2)).pulled Sample.pull,
      (mapToReceivedMessage p).message = some { Sample.order with
        messageId := "8589934593", publishTime := some ⟨0, 5⟩ } := by
  have hpublished : (World.start.run Sample.events).map (fun w =>
      (w.log.publishes.map (·.messages), w.log.answers.map (·.2))) =
      some ([Publisher.parseMessages [Sample.order] fun _ => 0], [[⟨8589934593⟩]]) := by
    rfl
  have hpulled : (World.start.run Sample.events).map (fun w =>
      ((w.actor World.Sample.births (Managers.Sample.subscription 2)).pulled Sample.pull).map
        fun p => (p.message.id, p.message.publishedAt)) = some [(⟨8589934593⟩, 5)] := by
    decide +kernel
  obtain ⟨w, hrun, hw⟩ := Option.map_eq_some_iff.mp hpublished
  obtain ⟨hpublishes, hanswers⟩ := Prod.mk.inj hw
  rw [hrun, Option.map_some, Option.some_inj] at hpulled
  obtain ⟨p, hp, hpid⟩ := List.mem_map.mp (hpulled.symm ▸ List.mem_cons_self)
  obtain ⟨⟨q, hq, htopic, -, i, -, -, hmessage⟩, -⟩ := received_as_published World.Sample.births
    Sample.events w hrun (Managers.Sample.subscription 2) Sample.pull p hp
  have hsent : q.messages = Publisher.parseMessages [Sample.order] fun _ => 0 :=
    List.mem_singleton.mp (hpublishes ▸ List.mem_map_of_mem hq)
  have hcall : Publisher.publish Sample.topics Sample.request (fun _ => 0) =
      .ok (q.topic, .publishMessages q.messages) := by
    rw [htopic, hsent]
    have hname : TopicName.tryParse Sample.request.topic = some Managers.Sample.info.name := by
      decide +kernel
    exact Publisher.publish_eq_ok.mpr
      ⟨_, Parser.parseTopicName_eq_ok.mpr hname, HashMap.get_insert_self _ _ _, rfl⟩
  obtain ⟨name, m, -, -, hm, hreceived⟩ := hmessage _ _ _ hcall
  have hresponses := congrArg (List.map fun ids => (Publisher.publishResponse ids).messageIds)
    hanswers
  rw [List.map_map] at hresponses
  refine ⟨w, hrun, hresponses.trans (by decide +kernel), p, hp, ?_⟩
  rw [hreceived, List.mem_singleton.mp (List.mem_of_getElem? hm), (Prod.mk.inj hpid).1,
    (Prod.mk.inj hpid).2]
  rfl

end Subscriber

end Deltio
