import Deltio.Filter
import Deltio.Lib.Result
import Deltio.Names
import Deltio.StreamingPull

namespace Deltio

open Lib

/-- How a handler fails: with a status, with the status that quotes an error in a filter, or
by a panic. -/
inductive Failure where
  | status (s : Status)
  -- "invalid filter expression: " and the text of the error
  | invalidFilter (e : FilterParseError)
  | panic
deriving DecidableEq

def Failure.invalidArgument (message : String) : Failure := .status (.invalidArgument message)

structure DurationProto where
  seconds : Int64
  nanos : Int32
deriving DecidableEq

structure OidcToken where
  serviceAccountEmail : String
  audience : String
deriving DecidableEq

inductive AuthenticationMethod where
  | oidcToken (token : OidcToken)
deriving DecidableEq

structure PushConfigProto where
  pushEndpoint : String
  attributes : Attributes
  authenticationMethod : Option AuthenticationMethod
deriving DecidableEq

structure RetryPolicyProto where
  minimumBackoff : Option DurationProto
  maximumBackoff : Option DurationProto
deriving DecidableEq

structure DeadLetterPolicyProto where
  deadLetterTopic : String
  maxDeliveryAttempts : Int32
deriving DecidableEq

/-- A subscription without the fields that no handler reads and that are always sent back
with their default. -/
structure SubscriptionProto where
  name : String
  topic : String
  pushConfig : Option PushConfigProto
  ackDeadlineSeconds : Int32
  messageRetentionDuration : Option DurationProto
  enableMessageOrdering : Bool
  filter : String
  deadLetterPolicy : Option DeadLetterPolicyProto
  retryPolicy : Option RetryPolicyProto
  detached : Bool
  enableExactlyOnceDelivery : Bool
deriving DecidableEq

/-- A topic, likewise. -/
structure TopicProto where
  name : String
  labels : HashMap String String
  messageRetentionDuration : Option DurationProto
deriving DecidableEq

namespace Duration

def asSecs (d : Duration) : ℕ := d / 1000000000

def subsecNanos (d : Duration) : ℕ := d % 1000000000

/-- `Duration::new`: whole seconds in the nanoseconds are carried over, and the sum must fit
64 bits. -/
def new (secs nanos : ℕ) : Except Failure Duration :=
  if secs + nanos / 1000000000 < 2 ^ 64 then .ok (secs * 1000000000 + nanos) else .error .panic

def clamp (d lo hi : Duration) : Duration := if d < lo then lo else if hi < d then hi else d

def toProto (d : Duration) : DurationProto := ⟨Int64.ofNat d.asSecs, Int32.ofNat d.subsecNanos⟩

end Duration

namespace Parser

def parseTopicName (rawValue : String) : Except Failure TopicName :=
  match TopicName.tryParse rawValue with
  | some name => .ok name
  | none => .error (.invalidArgument ("Invalid topic name '" ++ rawValue ++ "'"))

def parseSubscriptionName (rawValue : String) : Except Failure SubscriptionName :=
  match SubscriptionName.tryParse rawValue with
  | some name => .ok name
  | none => .error (.invalidArgument ("Invalid subscription name '" ++ rawValue ++ "'"))

/-- `char::is_whitespace`. -/
def isWhitespace (c : Char) : Bool :=
  let n := c.toNat
  (9 ≤ n && n ≤ 13) || n == 0x20 || n == 0x85 || n == 0xA0 || n == 0x1680 ||
    (0x2000 ≤ n && n ≤ 0x200A) || n == 0x2028 || n == 0x2029 || n == 0x202F || n == 0x205F ||
    n == 0x3000

/-- `str::trim`. -/
def trim (s : String) : String :=
  String.ofList ((s.toList.dropWhile isWhitespace).rdropWhile isWhitespace)

def parsePushConfig (proto : PushConfigProto) : Except Failure PushConfig :=
  let endpoint := trim proto.pushEndpoint
  if !"http".toList.isPrefixOf endpoint.toList then
    .error (.invalidArgument "Unsupported push_endpoint")
  else
    let oidcToken := proto.authenticationMethod.map fun
      | .oidcToken token => ⟨token.audience, token.serviceAccountEmail⟩
    let attributes := if proto.attributes.len = 0 then none else some proto.attributes
    .ok ⟨endpoint, oidcToken, attributes⟩

/-- A backoff as it was sent, negative numbers counting as zero. -/
def parseBackoff (default : Duration) : Option DurationProto → Except Failure Duration
  | some d => Duration.new (max d.seconds.toInt 0).toNat (max d.nanos.toInt 0).toNat
  | none => .ok default

def parseRetryPolicy (proto : RetryPolicyProto) : Except Failure RetryPolicy := do
  let minBackoff ← parseBackoff (Duration.fromSecs 10) proto.minimumBackoff
  let maxBackoff ← parseBackoff (Duration.fromSecs 600) proto.maximumBackoff
  let maxAllowed := Duration.fromSecs 600
  let minBackoff := min minBackoff maxAllowed
  let maxBackoff := min maxBackoff maxAllowed
  if maxBackoff < minBackoff then
    .error (.invalidArgument "minimum_backoff must not be greater than maximum_backoff")
  else .ok ⟨minBackoff, maxBackoff⟩

def parseMaxDeliveryAttempts (v : Int32) : Except Failure ℤ :=
  if v.toInt = 0 then .ok 5
  else if v.toInt < 5 then
    .error (.invalidArgument "max_delivery_attempts must be between 5 and 100")
  else if 100 < v.toInt then
    .error (.invalidArgument "max_delivery_attempts must be between 5 and 100")
  else .ok v.toInt

def parseDeadLetterPolicy (proto : DeadLetterPolicyProto) : Except Failure DeadLetterPolicy := do
  let deadLetterTopic ← parseTopicName proto.deadLetterTopic
  let maxDeliveryAttempts ← parseMaxDeliveryAttempts proto.maxDeliveryAttempts
  .ok ⟨deadLetterTopic, maxDeliveryAttempts⟩

/-- Out of 10 minutes to 7 days the nearest end is taken. -/
def parseMessageRetentionDuration (proto : DurationProto) : Except Failure Duration := do
  if proto.seconds.toInt < 0 ∨ proto.nanos.toInt < 0 then
    .error (.invalidArgument "message_retention_duration must be non-negative")
  else
    let raw ← Duration.new proto.seconds.toInt.toNat proto.nanos.toInt.toNat
    .ok (raw.clamp (Duration.fromSecs (10 * 60)) (Duration.fromSecs (7 * 24 * 60 * 60)))

def parseCreateAckDeadline (rawValue : Int32) : Duration :=
  if rawValue.toInt ≤ 10 then Duration.fromSecs 10 else Duration.fromSecs rawValue.toInt.toNat

/-- `field.as_ref().map(parse).transpose()`. -/
def parseOptional {α β : Type} (parse : α → Except Failure β) :
    Option α → Except Failure (Option β)
  | some a => (parse a).map some
  | none => .ok none

lemma parseTopicName_eq_ok {rawValue : String} {name : TopicName} :
    parseTopicName rawValue = .ok name ↔ TopicName.tryParse rawValue = some name := by
  unfold parseTopicName
  cases TopicName.tryParse rawValue with
  | none => exact iff_of_false (by rintro ⟨⟩) (by rintro ⟨⟩)
  | some n => rw [Except.ok.injEq, Option.some.injEq]

lemma parseSubscriptionName_eq_ok {rawValue : String} {name : SubscriptionName} :
    parseSubscriptionName rawValue = .ok name ↔ SubscriptionName.tryParse rawValue = some name := by
  unfold parseSubscriptionName
  cases SubscriptionName.tryParse rawValue with
  | none => exact iff_of_false (by rintro ⟨⟩) (by rintro ⟨⟩)
  | some n => rw [Except.ok.injEq, Option.some.injEq]

lemma parseRetryPolicy_spec {proto : RetryPolicyProto} {policy : RetryPolicy}
    (h : parseRetryPolicy proto = .ok policy) :
    policy.minimumBackoff ≤ policy.maximumBackoff ∧
      policy.maximumBackoff ≤ Duration.fromSecs 600 := by
  obtain ⟨minBackoff, -, h⟩ := Result.bind_eq_ok.mp h
  obtain ⟨maxBackoff, -, h⟩ := Result.bind_eq_ok.mp h
  dsimp only at h
  split_ifs at h with hle
  cases h
  exact ⟨not_lt.mp hle, min_le_right _ _⟩

/-- Seconds of 63 bits leave room for what the nanoseconds carry over. -/
lemma new_of_proto (d : DurationProto) :
    Duration.new (max d.seconds.toInt 0).toNat (max d.nanos.toInt 0).toNat =
      .ok ((max d.seconds.toInt 0).toNat * 1000000000 + (max d.nanos.toInt 0).toNat) := by
  have hseconds := d.seconds.toInt_lt
  have hnanos := d.nanos.toInt_lt
  unfold Duration.new
  rw [if_pos (by omega)]

def Answered {α : Type} (x : Except Failure α) : Prop := x ≠ .error .panic

section

variable {α β : Type}

lemma answered_ok (a : α) : Answered (.ok a) := by rintro ⟨⟩

lemma answered_invalidArgument (message : String) :
    Answered (.error (.invalidArgument message) : Except Failure α) := by rintro ⟨⟩

lemma Answered.bind {x : Except Failure α} {f : α → Except Failure β} (hx : Answered x)
    (hf : ∀ a, Answered (f a)) : Answered (x >>= f) := by
  cases x with
  | error e => exact fun h => hx (congrArg Except.error (Except.error.inj h))
  | ok a => exact hf a

lemma Answered.parseOptional {parse : α → Except Failure β} (h : ∀ a, Answered (parse a))
    (field : Option α) : Answered (parseOptional parse field) := by
  cases field with
  | none => exact answered_ok none
  | some a => exact (h a).bind fun b => answered_ok (some b)

end

lemma answered_parseTopicName (rawValue : String) : Answered (parseTopicName rawValue) := by
  unfold parseTopicName
  split
  · exact answered_ok _
  · exact answered_invalidArgument _

lemma answered_parseSubscriptionName (rawValue : String) :
    Answered (parseSubscriptionName rawValue) := by
  unfold parseSubscriptionName
  split
  · exact answered_ok _
  · exact answered_invalidArgument _

lemma answered_parsePushConfig (proto : PushConfigProto) : Answered (parsePushConfig proto) := by
  unfold parsePushConfig
  dsimp only
  split_ifs
  · exact answered_invalidArgument _
  · exact answered_ok _
  · exact answered_ok _

lemma answered_parseBackoff (default : Duration) (field : Option DurationProto) :
    Answered (parseBackoff default field) := by
  cases field with
  | none => exact answered_ok default
  | some d =>
    rw [parseBackoff, new_of_proto]
    exact answered_ok _

lemma answered_parseRetryPolicy (proto : RetryPolicyProto) : Answered (parseRetryPolicy proto) := by
  refine (answered_parseBackoff _ _).bind fun minBackoff => ?_
  refine (answered_parseBackoff _ _).bind fun maxBackoff => ?_
  dsimp only
  split_ifs
  · exact answered_invalidArgument _
  · exact answered_ok _

lemma answered_parseDeadLetterPolicy (proto : DeadLetterPolicyProto) :
    Answered (parseDeadLetterPolicy proto) := by
  refine (answered_parseTopicName _).bind fun deadLetterTopic => ?_
  refine Answered.bind ?_ fun maxDeliveryAttempts => answered_ok _
  unfold parseMaxDeliveryAttempts
  split_ifs
  · exact answered_ok _
  · exact answered_invalidArgument _
  · exact answered_invalidArgument _
  · exact answered_ok _

lemma answered_parseMessageRetentionDuration (proto : DurationProto) :
    Answered (parseMessageRetentionDuration proto) := by
  unfold parseMessageRetentionDuration
  split_ifs with hnegative
  · exact answered_invalidArgument _
  · have hnew := new_of_proto proto
    rw [not_or, not_lt, not_lt] at hnegative
    rw [max_eq_left hnegative.1, max_eq_left hnegative.2] at hnew
    rw [hnew]
    exact answered_ok _

end Parser

end Deltio
