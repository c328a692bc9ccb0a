import Deltio.Parser

namespace Deltio

open Lib Utf8 Deltio.Parser

namespace Subscriber

def parseFilter (rawValue : String) : Except Failure (Option String) :=
  let f := trim rawValue
  if f = "" then .ok none
  else
    match Filter.parse f with
    | .error e => .error (.invalidFilter e)
    | .ok _ => .ok (some f)

def parseSubscriptionInfo (request : SubscriptionProto) : Except Failure SubscriptionInfo := do
  let subscriptionName ← parseSubscriptionName request.name
  let ackDeadline := parseCreateAckDeadline request.ackDeadlineSeconds
  let pushConfig ← parseOptional parsePushConfig request.pushConfig
  let retryPolicy ← parseOptional parseRetryPolicy request.retryPolicy
  let deadLetterPolicy ← parseOptional parseDeadLetterPolicy request.deadLetterPolicy
  let messageRetentionDuration ←
    parseOptional parseMessageRetentionDuration request.messageRetentionDuration
  let filter ← parseFilter request.filter
  .ok { SubscriptionInfo.new subscriptionName ackDeadline pushConfig retryPolicy
          deadLetterPolicy with
        messageRetentionDuration := messageRetentionDuration
        enableMessageOrdering := request.enableMessageOrdering
        enableExactlyOnceDelivery := request.enableExactlyOnceDelivery
        filter := filter }

/-- CreateSubscription up to the look-up of the topic. -/
def parseCreateSubscription (request : SubscriptionProto) :
    Except Failure (TopicName × SubscriptionInfo) := do
  let topicName ← parseTopicName request.topic
  let info ← parseSubscriptionInfo request
  .ok (topicName, info)

def pushConfigResource (config : PushConfig) : PushConfigProto where
  attributes := config.attributes.getD ∅
  pushEndpoint := config.endpoint
  authenticationMethod := config.oidcToken.map fun token =>
    .oidcToken ⟨token.serviceAccountEmail, token.audience⟩

def deadLetterPolicyResource (policy : DeadLetterPolicy) : DeadLetterPolicyProto where
  deadLetterTopic := policy.deadLetterTopic.toString
  maxDeliveryAttempts := Int32.ofInt policy.maxDeliveryAttempts

def retryPolicyResource (policy : RetryPolicy) : RetryPolicyProto where
  minimumBackoff := some policy.minimumBackoff.toProto
  maximumBackoff := some policy.maximumBackoff.toProto

/-- The subscription as it is sent back; without a topic the topic was deleted. -/
def mapToSubscriptionResource (name : SubscriptionName) (topic : Option TopicName)
    (info : SubscriptionInfo) : SubscriptionProto where
  name := name.toString
  topic := (topic.map TopicName.toString).getD "_deleted_topic_"
  pushConfig := info.pushConfig.map pushConfigResource
  ackDeadlineSeconds := Int32.ofNat info.ackDeadline.asSecs
  messageRetentionDuration := info.messageRetentionDuration.map Duration.toProto
  enableMessageOrdering := info.enableMessageOrdering
  filter := info.filter.getD ""
  deadLetterPolicy := info.deadLetterPolicy.map deadLetterPolicyResource
  retryPolicy := info.retryPolicy.map retryPolicyResource
  detached := info.detached
  enableExactlyOnceDelivery := info.enableExactlyOnceDelivery

def Exact (d : Duration) : Prop :=
  d.toProto.seconds.toInt = d.asSecs ∧ d.toProto.nanos.toInt = d.subsecNanos

lemma exact_of_le {d : Duration} {n : ℕ} (h : d ≤ Duration.fromSecs n) (hn : n < 2 ^ 63) :
    Exact d := by
  have hsecs : d.asSecs ≤ n := Nat.div_le_of_le_mul (h.trans_eq (Nat.mul_comm _ _))
  have hnanos : d.subsecNanos < 1000000000 := Nat.mod_lt _ (by decide)
  exact ⟨Int64.toInt_ofNat_of_lt (by omega), Int32.toInt_ofNat_of_lt (by omega)⟩

lemma Exact.new {d : Duration} (h : Exact d) :
    Duration.new d.toProto.seconds.toInt.toNat d.toProto.nanos.toInt.toNat = .ok d := by
  have hnew := new_of_proto d.toProto
  rw [h.1, h.2, max_eq_left (Int.natCast_nonneg _), max_eq_left (Int.natCast_nonneg _),
    Int.toNat_natCast, Int.toNat_natCast] at hnew
  rw [h.1, h.2, Int.toNat_natCast, Int.toNat_natCast, hnew, Duration.asSecs, Duration.subsecNanos,
    Nat.div_add_mod']

lemma Exact.parseBackoff {d : Duration} (h : Exact d) (default : Duration) :
    parseBackoff default (some d.toProto) = .ok d := by
  have hseconds : 0 ≤ d.toProto.seconds.toInt := h.1 ▸ Int.natCast_nonneg _
  have hnanos : 0 ≤ d.toProto.nanos.toInt := h.2 ▸ Int.natCast_nonneg _
  rw [Parser.parseBackoff, max_eq_left hseconds, max_eq_left hnanos, h.new]

lemma parseCreateAckDeadline_resource (rawValue : Int32) :
    (Int32.ofNat (parseCreateAckDeadline rawValue).asSecs).toInt =
        (parseCreateAckDeadline rawValue).asSecs ∧
      parseCreateAckDeadline (Int32.ofNat (parseCreateAckDeadline rawValue).asSecs) =
        parseCreateAckDeadline rawValue := by
  have hsecs : ∃ n : ℕ, 10 ≤ n ∧ n < 2 ^ 31 ∧
      parseCreateAckDeadline rawValue = Duration.fromSecs n := by
    have hlt := rawValue.toInt_lt
    unfold parseCreateAckDeadline
    split_ifs with hle
    · exact ⟨10, le_rfl, by decide, rfl⟩
    · exact ⟨rawValue.toInt.toNat, by omega, by omega, rfl⟩
  obtain ⟨n, hmin, hmax, hparsed⟩ := hsecs
  have hcut : (Duration.fromSecs n).asSecs = n := Nat.mul_div_cancel n (by decide)
  have hcast : (Int32.ofNat n).toInt = n := Int32.toInt_ofNat_of_lt hmax
  rw [hparsed, hcut]
  refine ⟨hcast, ?_⟩
  unfold parseCreateAckDeadline
  rw [hcast, Int.toNat_natCast]
  split_ifs with hle
  · rw [show n = 10 by omega]
  · rfl

lemma trim_trim (s : String) : trim (trim s) = trim s := by
  unfold trim
  rw [String.toList_ofList, trimEnds_trimEnds]

lemma parsePushConfig_resource {proto : PushConfigProto} {config : PushConfig}
    (h : parsePushConfig proto = .ok config) :
    parsePushConfig (pushConfigResource config) = .ok config := by
  unfold parsePushConfig at h
  dsimp only at h
  split at h
  · cases h
  rename_i hhttp
  cases h
  unfold parsePushConfig pushConfigResource
  dsimp only
  rw [trim_trim, if_neg hhttp]
  congr 2
  · cases proto.authenticationMethod with
    | none => rfl
    | some method => cases method with | oidcToken token => rfl
  · split_ifs with hempty hlen
    · rfl
    · exact absurd rfl hlen
    · exact absurd ‹_› hempty
    · rfl

lemma parseRetryPolicy_resource {policy : RetryPolicy}
    (hle : policy.minimumBackoff ≤ policy.maximumBackoff)
    (hmax : policy.maximumBackoff ≤ Duration.fromSecs 600) :
    parseRetryPolicy (retryPolicyResource policy) = .ok policy := by
  have hmin' := (exact_of_le (hle.trans hmax) (by decide)).parseBackoff (Duration.fromSecs 10)
  have hmax' := (exact_of_le hmax (by decide)).parseBackoff (Duration.fromSecs 600)
  refine Result.bind_eq_ok.mpr ⟨_, hmin', Result.bind_eq_ok.mpr ⟨_, hmax', ?_⟩⟩
  dsimp only
  rw [min_eq_left (hle.trans hmax), min_eq_left hmax, if_neg (not_lt.mpr hle)]

lemma parseMaxDeliveryAttempts_spec {v : Int32} {attempts : ℤ}
    (h : parseMaxDeliveryAttempts v = .ok attempts) : 5 ≤ attempts ∧ attempts ≤ 100 := by
  unfold parseMaxDeliveryAttempts at h
  split_ifs at h
  · cases h
    decide
  · cases h
    omega

lemma parseMaxDeliveryAttempts_resource {attempts : ℤ} (hmin : 5 ≤ attempts)
    (hmax : attempts ≤ 100) :
    (Int32.ofInt attempts).toInt = attempts ∧
      parseMaxDeliveryAttempts (Int32.ofInt attempts) = .ok attempts := by
  have hcast : (Int32.ofInt attempts).toInt = attempts :=
    Int32.toInt_ofInt_of_le (by omega) (by omega)
  refine ⟨hcast, ?_⟩
  unfold parseMaxDeliveryAttempts
  rw [hcast, if_neg (by omega), if_neg (by omega), if_neg (by omega)]

lemma parseDeadLetterPolicy_spec {proto : DeadLetterPolicyProto} {policy : DeadLetterPolicy}
    (h : parseDeadLetterPolicy proto = .ok policy) :
    5 ≤ policy.maxDeliveryAttempts ∧ policy.maxDeliveryAttempts ≤ 100 := by
  obtain ⟨deadLetterTopic, -, h⟩ := Result.bind_eq_ok.mp h
  obtain ⟨maxDeliveryAttempts, hattempts, h⟩ := Result.bind_eq_ok.mp h
  cases h
  exact parseMaxDeliveryAttempts_spec hattempts

lemma parseDeadLetterPolicy_resource {policy : DeadLetterPolicy}
    (hattempts : 5 ≤ policy.maxDeliveryAttempts ∧ policy.maxDeliveryAttempts ≤ 100)
    (hname : TopicName.tryParse policy.deadLetterTopic.toString = some policy.deadLetterTopic) :
    parseDeadLetterPolicy (deadLetterPolicyResource policy) = .ok policy :=
  Result.bind_eq_ok.mpr ⟨_, parseTopicName_eq_ok.mpr hname, Result.bind_eq_ok.mpr
    ⟨_, (parseMaxDeliveryAttempts_resource hattempts.1 hattempts.2).2, rfl⟩⟩

lemma clamp_mem {d lo hi : Duration} (h : lo ≤ hi) :
    lo ≤ d.clamp lo hi ∧ d.clamp lo hi ≤ hi := by
  unfold Duration.clamp
  split_ifs with hlo hhi
  · exact ⟨le_rfl, h⟩
  · exact ⟨h, le_rfl⟩
  · exact ⟨not_lt.mp hlo, not_lt.mp hhi⟩

lemma parseMessageRetentionDuration_spec {proto : DurationProto} {d : Duration}
    (h : parseMessageRetentionDuration proto = .ok d) :
    Duration.fromSecs (10 * 60) ≤ d ∧ d ≤ Duration.fromSecs (7 * 24 * 60 * 60) := by
  unfold parseMessageRetentionDuration at h
  split_ifs at h
  obtain ⟨raw, -, h⟩ := Result.bind_eq_ok.mp h
  cases h
  exact clamp_mem (by decide)

lemma parseMessageRetentionDuration_resource {d : Duration}
    (hmin : Duration.fromSecs (10 * 60) ≤ d) (hmax : d ≤ Duration.fromSecs (7 * 24 * 60 * 60)) :
    parseMessageRetentionDuration d.toProto = .ok d := by
  have hexact : Exact d := exact_of_le hmax (by decide)
  unfold parseMessageRetentionDuration
  rw [if_neg (by rw [hexact.1, hexact.2]; omega), hexact.new]
  refine congrArg Except.ok ?_
  rw [Duration.clamp, if_neg (not_lt.mpr hmin), if_neg (not_lt.mpr hmax)]

lemma parseFilter_resource {rawValue : String} {filter : Option String}
    (h : parseFilter rawValue = .ok filter) : parseFilter (filter.getD "") = .ok filter := by
  unfold parseFilter at h
  dsimp only at h
  split at h
  · cases h
    decide
  rename_i hne
  split at h
  · cases h
  rename_i parsed hparsed
  cases h
  unfold parseFilter
  dsimp only [Option.getD_some]
  rw [trim_trim, if_neg hne, hparsed]

lemma answered_parseFilter (rawValue : String) : Answered (parseFilter rawValue) := by
  unfold parseFilter
  dsimp only
  split
  · exact answered_ok _
  · split
    · rintro ⟨⟩
    · exact answered_ok _

/-- An optional field that was parsed is restored when its value is. -/
lemma parseOptional_resource {α β : Type} {parse : α → Except Failure β} {render : β → α}
    {field : Option α} {parsed : Option β} (h : parseOptional parse field = .ok parsed)
    (hrestored : ∀ a b, parse a = .ok b → parsed = some b → parse (render b) = .ok b) :
    parseOptional parse (parsed.map render) = .ok parsed := by
  cases field with
  | none =>
    cases h
    rfl
  | some a =>
    obtain ⟨b, hb, hsome⟩ := Result.bind_eq_ok.mp h
    cases hsome
    exact Result.bind_eq_ok.mpr ⟨b, hrestored a b hb rfl, rfl⟩

/-- Every field but the name parses to the one of the info. -/
structure ParsedFields (request : SubscriptionProto) (info : SubscriptionInfo) : Prop where
  ackDeadline : parseCreateAckDeadline request.ackDeadlineSeconds = info.ackDeadline
  pushConfig : parseOptional parsePushConfig request.pushConfig = .ok info.pushConfig
  retryPolicy : parseOptional parseRetryPolicy request.retryPolicy = .ok info.retryPolicy
  deadLetterPolicy :
    parseOptional parseDeadLetterPolicy request.deadLetterPolicy = .ok info.deadLetterPolicy
  messageRetentionDuration :
    parseOptional parseMessageRetentionDuration request.messageRetentionDuration =
      .ok info.messageRetentionDuration
  filter : parseFilter request.filter = .ok info.filter
  enableMessageOrdering : request.enableMessageOrdering = info.enableMessageOrdering
  enableExactlyOnceDelivery : request.enableExactlyOnceDelivery = info.enableExactlyOnceDelivery
  detached : info.detached = false

lemma parseSubscriptionInfo_eq_ok {request : SubscriptionProto} {info : SubscriptionInfo} :
    parseSubscriptionInfo request = .ok info ↔
      SubscriptionName.tryParse request.name = some info.name ∧ ParsedFields request info := by
  rw [← parseSubscriptionName_eq_ok]
  constructor
  · intro h
    obtain ⟨name, hname, h⟩ := Result.bind_eq_ok.mp h
    obtain ⟨pushConfig, hpush, h⟩ := Result.bind_eq_ok.mp h
    obtain ⟨retryPolicy, hretry, h⟩ := Result.bind_eq_ok.mp h
    obtain ⟨deadLetterPolicy, hletter, h⟩ := Result.bind_eq_ok.mp h
    obtain ⟨messageRetentionDuration, hretention, h⟩ := Result.bind_eq_ok.mp h
    obtain ⟨filter, hfilter, h⟩ := Result.bind_eq_ok.mp h
    cases h
    exact ⟨hname, rfl, hpush, hretry, hletter, hretention, hfilter, rfl, rfl, rfl⟩
  · rintro ⟨hname, h⟩
    refine Result.bind_eq_ok.mpr ⟨_, hname, Result.bind_eq_ok.mpr ⟨_, h.pushConfig,
      Result.bind_eq_ok.mpr ⟨_, h.retryPolicy, Result.bind_eq_ok.mpr ⟨_, h.deadLetterPolicy,
        Result.bind_eq_ok.mpr ⟨_, h.messageRetentionDuration,
          Result.bind_eq_ok.mpr ⟨_, h.filter, ?_⟩⟩⟩⟩⟩⟩
    rw [h.ackDeadline, h.enableMessageOrdering, h.enableExactlyOnceDelivery]
    cases info
    cases h.detached
    rfl

lemma answered_parseSubscriptionInfo (request : SubscriptionProto) :
    Answered (parseSubscriptionInfo request) := by
  refine (answered_parseSubscriptionName _).bind fun name => ?_
  refine (Answered.parseOptional answered_parsePushConfig _).bind fun pushConfig => ?_
  refine (Answered.parseOptional answered_parseRetryPolicy _).bind fun retryPolicy => ?_
  refine (Answered.parseOptional answered_parseDeadLetterPolicy _).bind fun letter => ?_
  refine (Answered.parseOptional answered_parseMessageRetentionDuration _).bind fun _ => ?_
  exact (answered_parseFilter _).bind fun filter => answered_ok _

lemma answered_parseCreateSubscription (request : SubscriptionProto) :
    Answered (parseCreateSubscription request) :=
  (answered_parseTopicName _).bind fun _ =>
    (answered_parseSubscriptionInfo request).bind fun _ => answered_ok _

def DeadLetterTopicReadBack (info : SubscriptionInfo) : Prop :=
  ∀ policy, info.deadLetterPolicy = some policy →
    TopicName.tryParse policy.deadLetterTopic.toString = some policy.deadLetterTopic

lemma ParsedFields.resource {request : SubscriptionProto} {info : SubscriptionInfo}
    (h : ParsedFields request info) (hletter : DeadLetterTopicReadBack info)
    (name : SubscriptionName) (topic : Option TopicName) :
    ParsedFields (mapToSubscriptionResource name topic info) info where
  ackDeadline := by
    have hack := (parseCreateAckDeadline_resource request.ackDeadlineSeconds).2
    rwa [h.ackDeadline] at hack
  pushConfig := parseOptional_resource h.pushConfig fun _ _ hparsed _ =>
    parsePushConfig_resource hparsed
  retryPolicy := parseOptional_resource h.retryPolicy fun _ _ hparsed _ =>
    parseRetryPolicy_resource (parseRetryPolicy_spec hparsed).1 (parseRetryPolicy_spec hparsed).2
  deadLetterPolicy := parseOptional_resource h.deadLetterPolicy fun _ policy hparsed hpolicy =>
    parseDeadLetterPolicy_resource (parseDeadLetterPolicy_spec hparsed) (hletter policy hpolicy)
  messageRetentionDuration :=
    parseOptional_resource h.messageRetentionDuration fun _ _ hparsed _ =>
      parseMessageRetentionDuration_resource (parseMessageRetentionDuration_spec hparsed).1
        (parseMessageRetentionDuration_spec hparsed).2
  filter := parseFilter_resource h.filter
  enableMessageOrdering := rfl
  enableExactlyOnceDelivery := rfl
  detached := h.detached

/-- A parsed optional field has a value only if its parser gave it. -/
lemma exists_parsed {α β : Type} {parse : α → Except Failure β} {field : Option α} {b : β}
    (h : parseOptional parse field = .ok (some b)) : ∃ a, parse a = .ok b := by
  cases field with
  | none => cases h
  | some a =>
    obtain ⟨b', hb, hsome⟩ := Result.bind_eq_ok.mp h
    cases hsome
    exact ⟨a, hb⟩

structure ExactCasts (info : SubscriptionInfo) : Prop where
  ackDeadline : (Int32.ofNat info.ackDeadline.asSecs).toInt = info.ackDeadline.asSecs
  retryPolicy : ∀ policy, info.retryPolicy = some policy →
    Exact policy.minimumBackoff ∧ Exact policy.maximumBackoff
  deadLetterPolicy : ∀ policy, info.deadLetterPolicy = some policy →
    (Int32.ofInt policy.maxDeliveryAttempts).toInt = policy.maxDeliveryAttempts
  messageRetentionDuration : ∀ d, info.messageRetentionDuration = some d → Exact d

lemma ParsedFields.exactCasts {request : SubscriptionProto} {info : SubscriptionInfo}
    (h : ParsedFields request info) : ExactCasts info where
  ackDeadline := by
    have hack := (parseCreateAckDeadline_resource request.ackDeadlineSeconds).1
    rwa [h.ackDeadline] at hack
  retryPolicy policy hpolicy := by
    obtain ⟨proto, hproto⟩ := exists_parsed (hpolicy ▸ h.retryPolicy)
    obtain ⟨hle, hmax⟩ := parseRetryPolicy_spec hproto
    exact ⟨exact_of_le (hle.trans hmax) (by decide), exact_of_le hmax (by decide)⟩
  deadLetterPolicy policy hpolicy := by
    obtain ⟨proto, hproto⟩ := exists_parsed (hpolicy ▸ h.deadLetterPolicy)
    obtain ⟨hmin, hmax⟩ := parseDeadLetterPolicy_spec hproto
    exact (parseMaxDeliveryAttempts_resource hmin hmax).1
  messageRetentionDuration d hd := by
    obtain ⟨proto, hproto⟩ := exists_parsed (hd ▸ h.messageRetentionDuration)
    exact exact_of_le (parseMessageRetentionDuration_spec hproto).2 (by decide)

/-- The project and the subscription that are cut out of the name have two bytes at most. -/
def ShortIds (name : String) : Prop :=
  ∃ p mid t, Cut subscriptionPrefix name p mid t ∧ len p + len (trimMatches '/' t) ≤ 2

/-- The name of an accepted subscription fails the length check if its ids are short. -/
lemma tryParse_toString_of_shortIds {text : String} {name : SubscriptionName}
    (h : SubscriptionName.tryParse text = some name) (hshort : ShortIds text) :
    SubscriptionName.tryParse name.toString = none := by
  obtain ⟨ids, hids, rfl⟩ := Option.map_eq_some_iff.mp h
  obtain ⟨hlong, p, mid, t, hcut, rfl⟩ := tryParseIds_eq_some.mp hids
  obtain ⟨p', mid', t', hcut', hle⟩ := hshort
  -- The text can be cut in one way only.
  have hsame := hids.symm.trans (tryParseIds_eq_some.mpr ⟨hlong, p', mid', t', hcut', rfl⟩)
  rw [Option.some.injEq, Prod.mk.injEq, String.ofList_inj, String.ofList_inj] at hsame
  rw [← hsame.1, ← hsame.2] at hle
  refine Option.map_eq_none_iff.mpr (Option.eq_none_iff_forall_ne_some.mpr fun ids hsome => ?_)
  have hlen := longEnough_name.mp (tryParseIds_eq_some.mp hsome).1
  rw [String.toList_ofList, String.toList_ofList] at hlen
  omega

/-- Otherwise it is read back, as the id has no outer slashes left. -/
lemma tryParse_toString {text : String} {name : SubscriptionName}
    (h : SubscriptionName.tryParse text = some name) (hshort : ¬ ShortIds text) :
    SubscriptionName.tryParse name.toString = some name := by
  obtain ⟨ids, hids, rfl⟩ := Option.map_eq_some_iff.mp h
  obtain ⟨-, p, mid, t, hcut, rfl⟩ := tryParseIds_eq_some.mp hids
  have hlen : 2 < len p + len (trimMatches '/' t) :=
    not_le.mp fun hle => hshort ⟨p, mid, t, hcut, hle⟩
  have hrendered : Cut subscriptionPrefix
      (projectPrefix ++ String.ofList p ++ subscriptionPrefix ++ String.ofList (trimMatches '/' t))
      (String.ofList p).toList subscriptionPrefix.toList
      (String.ofList (trimMatches '/' t)).toList :=
    cut_name rfl (by simpa using hcut.project)
  refine Option.map_eq_some_iff.mpr ⟨_, tryParseIds_eq_some.mpr ⟨longEnough_name.mpr ?_, _, _, _,
    hrendered, rfl⟩, ?_⟩
  · rwa [String.toList_ofList, String.toList_ofList]
  · rw [String.toList_ofList, String.toList_ofList]
    unfold trimMatches
    rw [trimEnds_trimEnds]

/-- The settings of two subscriptions agree, except where dead letters go. -/
structure SameSettings (info info' : SubscriptionInfo) : Prop where
  ackDeadline : info'.ackDeadline = info.ackDeadline
  pushConfig : info'.pushConfig = info.pushConfig
  retryPolicy : info'.retryPolicy = info.retryPolicy
  maxDeliveryAttempts : info'.deadLetterPolicy.map DeadLetterPolicy.maxDeliveryAttempts =
    info.deadLetterPolicy.map DeadLetterPolicy.maxDeliveryAttempts
  messageRetentionDuration : info'.messageRetentionDuration = info.messageRetentionDuration
  filter : info'.filter = info.filter
  enableMessageOrdering : info'.enableMessageOrdering = info.enableMessageOrdering
  enableExactlyOnceDelivery : info'.enableExactlyOnceDelivery = info.enableExactlyOnceDelivery
  detached : info'.detached = info.detached

/-- The resource of a subscription that was accepted builds the same subscription again
exactly when the ids in its name have more than two bytes together.  Whatever the name, the
other fields parse to the same values, no cast loses anything and nothing panics. -/
theorem create_from_resource_iff (request : SubscriptionProto) (topicName : TopicName)
    (info : SubscriptionInfo) (topic : Option TopicName)
    (haccepted : parseCreateSubscription request = .ok (topicName, info))
    (hletter : DeadLetterTopicReadBack info) :
    let resource := mapToSubscriptionResource info.name topic info
    ((∃ info', parseSubscriptionInfo resource = .ok info' ∧ SameSettings info info') ↔
        ¬ ShortIds request.name) ∧
      ParsedFields resource info ∧ ExactCasts info ∧
      parseSubscriptionInfo resource ≠ .error .panic ∧
      ∀ request', parseCreateSubscription request' ≠ .error .panic := by
  intro resource
  obtain ⟨_, -, h⟩ := Result.bind_eq_ok.mp haccepted
  obtain ⟨_, hparsed, h⟩ := Result.bind_eq_ok.mp h
  cases h
  obtain ⟨hname, hfields⟩ := parseSubscriptionInfo_eq_ok.mp hparsed
  have hresource := hfields.resource hletter info.name topic
  refine ⟨⟨?_, ?_⟩, hresource, hfields.exactCasts, answered_parseSubscriptionInfo resource,
    answered_parseCreateSubscription⟩
  · rintro ⟨info', hinfo', -⟩ hshort
    have hname' := (parseSubscriptionInfo_eq_ok.mp hinfo').1
    exact Option.some_ne_none _ (hname'.symm.trans (tryParse_toString_of_shortIds hname hshort))
  · intro hlong
    have hname' := tryParse_toString hname hlong
    exact ⟨info, parseSubscriptionInfo_eq_ok.mpr ⟨hname', hresource⟩,
      rfl, rfl, rfl, rfl, rfl, rfl, rfl, rfl, rfl⟩

def Sample.createRequest (name topic : String) : SubscriptionProto where
  name := name
  topic := topic
  pushConfig := some ⟨" http://localhost ", ∅, some (.oidcToken ⟨"a@b", "c"⟩)⟩
  ackDeadlineSeconds := -1
  messageRetentionDuration := some ⟨9223372036854775807, 2147483647⟩
  enableMessageOrdering := true
  filter := " attributes:a "
  deadLetterPolicy := some ⟨"projects/deltio/topics/letters", 0⟩
  retryPolicy := some ⟨some ⟨-3, 1500000000⟩, none⟩
  detached := false
  enableExactlyOnceDelivery := false

def Sample.createdInfo (name : SubscriptionName) : SubscriptionInfo where
  name := name
  ackDeadline := Duration.fromSecs 10
  pushConfig := some ⟨"http://localhost", some ⟨"c", "a@b"⟩, none⟩
  retryPolicy := some ⟨1500000000, Duration.fromSecs 600⟩
  deadLetterPolicy := some ⟨⟨"deltio", "letters"⟩, 5⟩
  messageRetentionDuration := some (Duration.fromSecs 604800)
  enableMessageOrdering := true
  enableExactlyOnceDelivery := false
  filter := some "attributes:a"
  detached := false

theorem subscription_restored_from_resource :
    let info := Sample.createdInfo ⟨"deltio", "sub"⟩
    let resource := mapToSubscriptionResource info.name none info
    ((∃ info', parseSubscriptionInfo resource = .ok info' ∧ SameSettings info info') ↔
        ¬ ShortIds "projects/deltio/subscriptions/sub") ∧
      ParsedFields resource info ∧ ExactCasts info ∧
      parseSubscriptionInfo resource ≠ .error .panic ∧
      ∀ request', parseCreateSubscription request' ≠ .error .panic :=
  create_from_resource_iff
    (Sample.createRequest "projects/deltio/subscriptions/sub" "projects/deltio/topics/orders")
    ⟨"deltio", "orders"⟩ (Sample.createdInfo ⟨"deltio", "sub"⟩) none (by decide +kernel)
    (by rintro _ ⟨⟩; decide +kernel)

/-- The slashes before the id make the name long enough, and are not sent back. -/
theorem short_name_not_accepted_again :
    let info := Sample.createdInfo ⟨"a", "b"⟩
    let resource := mapToSubscriptionResource info.name (some ⟨"a", "orders"⟩) info
    parseCreateSubscription
        (Sample.createRequest "projects/a/subscriptions///b" "projects/a/topics/orders") =
        .ok (⟨"a", "orders"⟩, info) ∧
      TopicName.tryParse (TopicName.toString ⟨"deltio", "letters"⟩) =
        some ⟨"deltio", "letters"⟩ ∧
      resource.name = "projects/a/subscriptions/b" ∧
      parseSubscriptionInfo resource =
        .error (.invalidArgument "Invalid subscription name 'projects/a/subscriptions/b'") := by
  decide +kernel

end Subscriber

end Deltio
