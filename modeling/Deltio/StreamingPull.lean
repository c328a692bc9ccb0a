import Deltio.Lib.Result
import Deltio.Runs

namespace Deltio

open Lib

inductive StatusCode where
  | invalidArgument
  | failedPrecondition
deriving DecidableEq

structure Status where
  code : StatusCode
  message : String
deriving DecidableEq

def Status.invalidArgument (message : String) : Status := ⟨.invalidArgument, message⟩

def conflict : Status := ⟨.failedPrecondition, "The operation resulted in a conflict."⟩

/-- `str::parse::<u64>`: an optional plus sign, then digits only and at least one, with a
value below 2^64. -/
def parseU64 (raw : String) : Option ℕ :=
  let digits := match raw.toList with
    | '+' :: digits => digits
    | digits => digits
  if digits.isEmpty || !digits.all Char.isDigit then none
  else
    let value := digits.foldl (fun n c => 10 * n + (c.toNat - '0'.toNat)) 0
    if value < 2 ^ 64 then some value else none

inductive AckIdParseError where
  | malformed
deriving DecidableEq

def AckId.parse (rawValue : String) : Except AckIdParseError AckId :=
  match parseU64 rawValue with
  | some value => .ok ⟨value⟩
  | none => .error .malformed

def parseAckId (rawValue : String) : Except Status AckId :=
  (AckId.parse rawValue).mapError fun
    | .malformed => .invalidArgument ("Invalid ack ID '" ++ rawValue ++ "'")

/-- Parses a deadline extension; zero is a nack. -/
def parseDeadlineExtensionDuration (rawValue : ℤ) : Except Status (Option Duration) :=
  if rawValue < 0 then .error (.invalidArgument "Seconds must not be less than zero")
  -- Max is 600 seconds (10 minutes)
  else if 600 ≤ rawValue then .ok (some (Duration.fromSecs 600))
  else if rawValue = 0 then .ok none
  else .ok (some (Duration.fromSecs rawValue.toNat))

def parseDeadlineModification (now : Instant) (ackId : String) (seconds : ℤ) :
    Except Status DeadlineModification := do
  let ackId ← parseAckId ackId
  let seconds ← parseDeadlineExtensionDuration seconds
  match seconds with
  | some seconds => .ok ⟨ackId, some (AckDeadline.new (now + seconds))⟩
  | none => .ok (.nack ackId)

/-- Parses a list of deadline modifications; the first error is the result. -/
def parseDeadlineModifications (now : Instant) (ackIds : List String)
    (modifyDeadlineSeconds : List ℤ) : Except Status (List DeadlineModification) :=
  (ackIds.zip modifyDeadlineSeconds).mapM fun e => parseDeadlineModification now e.1 e.2

structure StreamingPullRequest where
  subscription : String
  ackIds : List String
  modifyDeadlineSeconds : List ℤ
  modifyDeadlineAckIds : List String
  maxOutstandingMessages : ℤ
  maxOutstandingBytes : ℤ
  protocolVersion : ℤ

structure AcknowledgeConfirmation where
  ackIds : List String
  invalidAckIds : List String
  unorderedAckIds : List String
  temporaryFailedAckIds : List String
deriving DecidableEq

structure ModifyAckDeadlineConfirmation where
  ackIds : List String
  invalidAckIds : List String
  temporaryFailedAckIds : List String
deriving DecidableEq

/-- The response to a control message; it carries no messages and no properties. -/
structure StreamingPullResponse where
  acknowledgeConfirmation : Option AcknowledgeConfirmation
  modifyAckDeadlineConfirmation : Option ModifyAckDeadlineConfirmation
deriving DecidableEq

/-- What the handler meets on its way: whether the subscription's mailbox is open at each
of its two calls, what the actor handles between them, and the clock. -/
structure Exchange where
  acknowledgeOpen : Bool
  between : List (Env × ActorEvent)
  now : Instant
  modifyOpen : Bool
  modifyEnv : Env

def StreamingPullRequest.check (request : StreamingPullRequest) : Except Status Unit :=
  if request.subscription ≠ "" then
    .error (.invalidArgument "subscription must only be specified in the initial request.")
  else if 0 < request.maxOutstandingBytes then
    .error (.invalidArgument "max_outstanding_bytes must only be specified in the initial request.")
  else if 0 < request.maxOutstandingMessages then
    .error (.invalidArgument
      "max_outstanding_messages must only be specified in the initial request.")
  else if request.protocolVersion ≠ 0 then
    .error (.invalidArgument "protocol_version must only be specified in the initial request.")
  else if request.modifyDeadlineSeconds.length ≠ request.modifyDeadlineAckIds.length then
    .error (.invalidArgument
      "modify_deadline_seconds and modify_deadline_ack_ids must be the same length")
  else .ok ()

def parsedAckIds (raws : List String) : List (String × AckId) :=
  raws.filterMap fun raw => (parseAckId raw).toOption.map fun id => (raw, id)

def parseFailed (raws : List String) : List String :=
  raws.filter fun raw => (parseAckId raw).toOption.isNone

def confirmAcks (raws : List String) (a : SubscriptionActor) (isOpen exactlyOnceEnabled : Bool) :
    Except Status (Option AcknowledgeConfirmation) × SubscriptionActor :=
  if raws.isEmpty then (.ok none, a)
  else if !isOpen then (.error conflict, a)
  else
    let parsed := parsedAckIds raws
    let r := a.acknowledgeMessages (parsed.map Prod.snd)
    if exactlyOnceEnabled then
      let validStrs := (parsed.filter fun e => r.1.valid.contains e.2).map Prod.fst
      let invalidStrs := (parsed.filter fun e => r.1.invalid.contains e.2).map Prod.fst
      (.ok (some {
        ackIds := validStrs
        invalidAckIds := invalidStrs ++ parseFailed raws
        unorderedAckIds := []
        temporaryFailedAckIds := [] }), r.2)
    else (.ok none, r.2)

def rawToId (raws : List String) : HashMap String AckId :=
  (parsedAckIds raws).foldl (fun m e => m.insert e.1 e.2) ∅

/-- The modifications to make, and the texts that count as not parsed. -/
def readModifications (now : Instant) (raws : List String) (seconds : List ℤ) :
    List String × List DeadlineModification :=
  match parseDeadlineModifications now raws seconds with
  | .ok mods => ([], mods)
  -- Treat all of them as invalid for the confirmation.
  | .error _ => (raws, [])

/-- The confirmation of deadline changes.  Texts that do not parse are not in the mapping. -/
def modifyConfirmation (raws : List String) (outcome : AckOutcome) (parseFailed : List String) :
    ModifyAckDeadlineConfirmation :=
  let known := raws.filter fun raw => ((rawToId raws).get raw).isSome
  let isValid := fun raw => ((rawToId raws).get raw).any outcome.valid.contains
  let validStrs := known.filter isValid
  let invalidStrs := known.filter fun raw => !isValid raw
  { ackIds := validStrs
    invalidAckIds := invalidStrs ++ parseFailed
    temporaryFailedAckIds := [] }

def confirmModifications (raws : List String) (seconds : List ℤ) (a : SubscriptionActor)
    (env : Env) (now : Instant) (isOpen exactlyOnceEnabled : Bool) :
    Except Status (Option ModifyAckDeadlineConfirmation) × SubscriptionActor :=
  if raws.isEmpty then (.ok none, a)
  else if !isOpen then (.error conflict, a)
  else
    let read := readModifications now raws seconds
    let r := a.modifyDeadline env read.2
    if exactlyOnceEnabled then (.ok (some (modifyConfirmation raws r.1 read.1)), r.2)
    else (.ok none, r.2)

def handleStreamingPullRequest (request : StreamingPullRequest) (a : SubscriptionActor)
    (x : Exchange) (exactlyOnceEnabled serverKeepalives : Bool) :
    Except Status (Option StreamingPullResponse) × SubscriptionActor :=
  match request.check with
  | .error status => (.error status, a)
  | .ok () =>
    let acked := confirmAcks request.ackIds a x.acknowledgeOpen exactlyOnceEnabled
    match acked.1 with
    | .error status => (.error status, acked.2)
    | .ok ackConfirmation =>
      let modified := confirmModifications request.modifyDeadlineAckIds request.modifyDeadlineSeconds
        (acked.2.run x.between) x.modifyEnv x.now x.modifyOpen exactlyOnceEnabled
      match modified.1 with
      | .error status => (.error status, modified.2)
      | .ok modifyConfirmation =>
        if ackConfirmation.isSome || modifyConfirmation.isSome then
          (.ok (some ⟨ackConfirmation, modifyConfirmation⟩), modified.2)
        -- an empty response proves that the stream is alive
        else if serverKeepalives then (.ok (some ⟨none, none⟩), modified.2)
        else (.ok none, modified.2)

def IsAckId (raw : String) : Prop := (parseAckId raw).toOption.isSome = true

instance (raw : String) : Decidable (IsAckId raw) := inferInstanceAs (Decidable (_ = true))

/-- The IDs that parse and pass a test, as the client wrote them. -/
lemma map_fst_filter_parsedAckIds (raws : List String) (p : AckId → Bool) :
    ((parsedAckIds raws).filter fun e => p e.2).map Prod.fst =
      raws.filter fun raw => (parseAckId raw).toOption.any p := by
  induction raws with
  | nil => rfl
  | cons raw raws ih =>
    unfold parsedAckIds at ih ⊢
    rw [List.filterMap_cons]
    cases h : (parseAckId raw).toOption with
    | none => rw [List.filter_cons_of_neg (by simp [h])]; exact ih
    | some id =>
      cases hp : p id with
      | false =>
        rw [List.filter_cons_of_neg (by simp [h, hp])]
        simpa [hp] using ih
      | true =>
        rw [List.filter_cons_of_pos (by simp [h, hp])]
        simpa [hp] using ih

lemma mem_map_snd_parsedAckIds {raws : List String} {raw : String} {id : AckId}
    (hraw : raw ∈ raws) (h : (parseAckId raw).toOption = some id) :
    id ∈ (parsedAckIds raws).map Prod.snd := by
  refine List.mem_map.mpr ⟨(raw, id), ?_, rfl⟩
  exact List.mem_filterMap.mpr ⟨raw, hraw, by rw [h]; rfl⟩

/-- The mapping knows the texts that parse. -/
lemma get_rawToId {raws : List String} {raw : String} (hraw : raw ∈ raws) :
    (rawToId raws).get raw = (parseAckId raw).toOption := by
  have hpairs : ∀ e ∈ parsedAckIds raws, (parseAckId e.1).toOption = some e.2 := by
    intro e he
    obtain ⟨raw', -, hraw'⟩ := List.mem_filterMap.mp he
    obtain ⟨id, hid, rfl⟩ := Option.map_eq_some_iff.mp hraw'
    exact hid
  unfold rawToId
  rw [HashMap.get_foldl_insert (f := fun raw => (parseAckId raw).toOption) hpairs]
  split_ifs with hmem
  · rfl
  · cases h : (parseAckId raw).toOption with
    | none => rfl
    | some id =>
      refine absurd (List.mem_map.mpr ⟨(raw, id), ?_, rfl⟩) hmem
      exact List.mem_filterMap.mpr ⟨raw, hraw, by rw [h]; rfl⟩

lemma isAckId_iff {raw : String} : IsAckId raw ↔ ∃ id, parseAckId raw = .ok id := by
  unfold IsAckId
  cases parseAckId raw with
  | error status => exact iff_of_false Bool.false_ne_true (by rintro ⟨id, ⟨⟩⟩)
  | ok id => exact iff_of_true rfl ⟨id, rfl⟩

lemma parseDeadlineExtensionDuration_ok {seconds : ℤ} :
    (∃ d, parseDeadlineExtensionDuration seconds = .ok d) ↔ 0 ≤ seconds := by
  unfold parseDeadlineExtensionDuration
  split_ifs with hneg hmax hzero
  · exact iff_of_false (by rintro ⟨d, ⟨⟩⟩) (not_le.mpr hneg)
  · exact iff_of_true ⟨_, rfl⟩ (not_lt.mp hneg)
  · exact iff_of_true ⟨_, rfl⟩ (not_lt.mp hneg)
  · exact iff_of_true ⟨_, rfl⟩ (not_lt.mp hneg)

lemma parseDeadlineModification_ok (now : Instant) (raw : String) (seconds : ℤ) :
    (∃ d, parseDeadlineModification now raw seconds = .ok d) ↔ IsAckId raw ∧ 0 ≤ seconds := by
  rw [isAckId_iff, ← parseDeadlineExtensionDuration_ok]
  constructor
  · rintro ⟨d, hd⟩
    obtain ⟨id, hid, hd⟩ := Result.bind_eq_ok.mp hd
    obtain ⟨duration, hduration, -⟩ := Result.bind_eq_ok.mp hd
    exact ⟨⟨id, hid⟩, duration, hduration⟩
  · rintro ⟨⟨id, hid⟩, duration, hduration⟩
    unfold parseDeadlineModification
    rw [hid, hduration]
    cases duration with
    | none => exact ⟨_, rfl⟩
    | some d => exact ⟨_, rfl⟩

/-- A batch parses exactly when each of its IDs does and no number of seconds is
negative. -/
lemma parseDeadlineModifications_ok (now : Instant) {raws : List String} {seconds : List ℤ}
    (hlen : seconds.length = raws.length) :
    (∃ mods, parseDeadlineModifications now raws seconds = .ok mods) ↔
      (∀ raw ∈ raws, IsAckId raw) ∧ ∀ s ∈ seconds, 0 ≤ s := by
  induction raws generalizing seconds with
  | nil =>
    have hnil : seconds = [] := List.length_eq_zero_iff.mp hlen
    subst hnil
    exact iff_of_true ⟨[], rfl⟩ ⟨by simp, by simp⟩
  | cons raw raws ih =>
    cases seconds with
    | nil => cases hlen
    | cons s seconds =>
      have hhead := parseDeadlineModification_ok now raw s
      have htail := ih (Nat.succ.inj hlen)
      have hcons : (∃ mods, parseDeadlineModifications now (raw :: raws) (s :: seconds) = .ok mods) ↔
          (∃ d, parseDeadlineModification now raw s = .ok d) ∧
            ∃ mods, parseDeadlineModifications now raws seconds = .ok mods := by
        unfold parseDeadlineModifications
        rw [List.zip_cons_cons, List.mapM_cons]
        constructor
        · rintro ⟨mods, hmods⟩
          obtain ⟨d, hd, hmods⟩ := Result.bind_eq_ok.mp hmods
          obtain ⟨rest, hrest, -⟩ := Result.bind_eq_ok.mp hmods
          exact ⟨⟨d, hd⟩, rest, hrest⟩
        · rintro ⟨⟨d, hd⟩, rest, hrest⟩
          rw [hd, hrest]
          exact ⟨d :: rest, rfl⟩
      rw [hcons, hhead, htail, List.forall_mem_cons, List.forall_mem_cons]
      tauto

/-- The two lists of a confirmation account for every ID once.  There is no confirmation
only if there are no IDs. -/
def Confirms (ids : List String) : Option (List String × List String) → Prop
  | none => ids = []
  | some lists => (lists.1 ++ lists.2).Perm ids ∧ ∀ id ∈ lists.1, id ∉ lists.2

def ackLists (response : Option StreamingPullResponse) : Option (List String × List String) :=
  (response.bind (·.acknowledgeConfirmation)).map fun c => (c.ackIds, c.invalidAckIds)

def modifyLists (response : Option StreamingPullResponse) : Option (List String × List String) :=
  (response.bind (·.modifyAckDeadlineConfirmation)).map fun c => (c.ackIds, c.invalidAckIds)

/-- Three tests of which exactly one holds split a list. -/
lemma perm_filter_three {l : List String} {p q r : String → Bool}
    (h : ∀ x ∈ l, (p x = true ∧ q x = false ∧ r x = false) ∨
      (p x = false ∧ q x = true ∧ r x = false) ∨ (p x = false ∧ q x = false ∧ r x = true)) :
    (l.filter p ++ (l.filter q ++ l.filter r)).Perm l := by
  rw [List.perm_iff_count]
  intro x
  by_cases hx : x ∈ l
  · rw [List.count_append, List.count_append, Places.count_filter_ite, Places.count_filter_ite,
      Places.count_filter_ite]
    rcases h x hx with ⟨hp, hq, hr⟩ | ⟨hp, hq, hr⟩ | ⟨hp, hq, hr⟩ <;> simp [hp, hq, hr]
  · have hzero : ∀ f : String → Bool, (l.filter f).count x = 0 := fun f =>
      List.count_eq_zero.mpr fun hmem => hx (List.mem_filter.mp hmem).1
    rw [List.count_append, List.count_append, hzero, hzero, hzero, List.count_eq_zero.mpr hx]

/-- The outcome of an acknowledgement tells the IDs apart by whether they are
outstanding. -/
lemma contains_outcome {a : SubscriptionActor} (hd : a.deleted = false) {ids : List AckId}
    {id : AckId} (hid : id ∈ ids) :
    (a.acknowledgeMessages ids).1.valid.contains id = a.outstanding.contains id ∧
      (a.acknowledgeMessages ids).1.invalid.contains id = !a.outstanding.contains id := by
  have houtcome : (a.acknowledgeMessages ids).1 = ⟨ids.filter a.outstanding.contains,
      ids.filter fun id => !a.outstanding.contains id⟩ := by
    unfold SubscriptionActor.acknowledgeMessages
    rw [if_neg (ne_true_of_eq_false hd)]
  rw [houtcome]
  constructor
  · rw [Bool.eq_iff_iff, List.contains_iff_mem, List.mem_filter]
    exact and_iff_right hid
  · rw [Bool.eq_iff_iff, List.contains_iff_mem, List.mem_filter]
    exact and_iff_right hid

/-- The IDs that parse and pass the test, the other ones that parse, and those that do
not parse account for every ID once. -/
lemma confirms_of_test {raws : List String} (valid : AckId → Bool) {v i f : String → Bool}
    (hv : ∀ raw ∈ raws, v raw = (parseAckId raw).toOption.any valid)
    (hi : ∀ raw ∈ raws, i raw = (parseAckId raw).toOption.any fun id => !valid id)
    (hf : ∀ raw ∈ raws, f raw = (parseAckId raw).toOption.isNone) :
    Confirms raws (some (raws.filter v, raws.filter i ++ raws.filter f)) := by
  constructor
  · refine perm_filter_three fun raw hraw => ?_
    rw [hv raw hraw, hi raw hraw, hf raw hraw]
    cases (parseAckId raw).toOption with
    | none => exact .inr (.inr ⟨rfl, rfl, rfl⟩)
    | some id =>
      cases h : valid id with
      | false => exact .inr (.inl ⟨h, by simp [h], rfl⟩)
      | true => exact .inl ⟨h, by simp [h], rfl⟩
  · intro raw hraw hmem
    obtain ⟨hraw, hpass⟩ := List.mem_filter.mp hraw
    rw [hv raw hraw] at hpass
    rcases List.mem_append.mp hmem with hmem | hmem
    · have hfail := (List.mem_filter.mp hmem).2
      rw [hi raw hraw] at hfail
      cases hid : (parseAckId raw).toOption with
      | none => simp [hid] at hpass
      | some id =>
        rw [hid] at hpass hfail
        simp only [Option.any_some] at hpass hfail
        rw [hpass] at hfail
        cases hfail
    · have hnone := (List.mem_filter.mp hmem).2
      rw [hf raw hraw, Option.isNone_iff_eq_none] at hnone
      rw [hnone] at hpass
      cases hpass

/-- The confirmation of acks accounts for every ID, as long as the subscription is not
deleted. -/
lemma confirms_acks {raws : List String} {a : SubscriptionActor} (hd : a.deleted = false)
    {isOpen : Bool} {c : Option AcknowledgeConfirmation}
    (h : (confirmAcks raws a isOpen true).1 = .ok c) :
    Confirms raws (c.map fun c => (c.ackIds, c.invalidAckIds)) := by
  unfold confirmAcks at h
  split_ifs at h with hempty hclosed honce
  · cases h
    exact List.isEmpty_iff.mp hempty
  · cases h
    set ids := (parsedAckIds raws).map Prod.snd with hids
    have houtcome : ∀ raw ∈ raws, ∀ id, (parseAckId raw).toOption = some id →
        (a.acknowledgeMessages ids).1.valid.contains id = a.outstanding.contains id ∧
        (a.acknowledgeMessages ids).1.invalid.contains id = !a.outstanding.contains id :=
      fun raw hraw id hid => contains_outcome hd (mem_map_snd_parsedAckIds hraw hid)
    dsimp only [Option.map_some]
    rw [map_fst_filter_parsedAckIds raws (a.acknowledgeMessages ids).1.valid.contains,
      map_fst_filter_parsedAckIds raws (a.acknowledgeMessages ids).1.invalid.contains]
    refine confirms_of_test a.outstanding.contains (fun raw hraw => ?_)
      (fun raw hraw => ?_) fun _ _ => rfl
    · cases hid : (parseAckId raw).toOption with
      | none => rfl
      | some id => exact (houtcome raw hraw id hid).1
    · cases hid : (parseAckId raw).toOption with
      | none => rfl
      | some id => exact (houtcome raw hraw id hid).2
  · exact absurd rfl honce

/-- The two lists of a modify confirmation, by what the texts parse to. -/
lemma modifyConfirmation_lists (raws : List String) (outcome : AckOutcome)
    (parseFailed : List String) :
    (modifyConfirmation raws outcome parseFailed).ackIds =
      raws.filter (fun raw => (parseAckId raw).toOption.any outcome.valid.contains) ∧
    (modifyConfirmation raws outcome parseFailed).invalidAckIds =
      raws.filter (fun raw => (parseAckId raw).toOption.any fun id => !outcome.valid.contains id) ++
        parseFailed := by
  unfold modifyConfirmation
  dsimp only
  rw [List.filter_filter, List.filter_filter]
  constructor
  · refine List.filter_congr fun raw hraw => ?_
    rw [get_rawToId hraw]
    cases (parseAckId raw).toOption with
    | none => rfl
    | some id => exact Bool.and_true _
  · congr 1
    refine List.filter_congr fun raw hraw => ?_
    rw [get_rawToId hraw]
    cases (parseAckId raw).toOption with
    | none => rfl
    | some id => exact Bool.and_true _

/-- When every text parses, none is listed as not parsed. -/
lemma confirms_modifyConfirmation_of_parsed {raws : List String}
    (h : ∀ raw ∈ raws, IsAckId raw) (outcome : AckOutcome) :
    Confirms raws (some ((modifyConfirmation raws outcome []).ackIds,
      (modifyConfirmation raws outcome []).invalidAckIds)) := by
  obtain ⟨hvalid, hinvalid⟩ := modifyConfirmation_lists raws outcome []
  have hnone : raws.filter (fun raw => (parseAckId raw).toOption.isNone) = [] := by
    rw [List.filter_eq_nil_iff]
    intro raw hraw hnone
    have hsome := h raw hraw
    rw [IsAckId, Option.isNone_iff_eq_none.mp hnone] at hsome
    cases hsome
  rw [hvalid, hinvalid, ← hnone]
  exact confirms_of_test _ (fun _ _ => rfl) (fun _ _ => rfl) fun _ _ => rfl

/-- When all texts count as not parsed, those that do parse are listed twice. -/
lemma confirms_modifyConfirmation_of_failed (raws : List String) (invalid : List AckId) :
    Confirms raws (some ((modifyConfirmation raws ⟨[], invalid⟩ raws).ackIds,
      (modifyConfirmation raws ⟨[], invalid⟩ raws).invalidAckIds)) ↔
      ∀ raw ∈ raws, ¬ IsAckId raw := by
  obtain ⟨hvalid, hinvalid⟩ := modifyConfirmation_lists raws ⟨[], invalid⟩ raws
  have hempty : raws.filter (fun raw => (parseAckId raw).toOption.any
      (⟨[], invalid⟩ : AckOutcome).valid.contains) = [] := by
    rw [List.filter_eq_nil_iff]
    intro raw hraw
    cases (parseAckId raw).toOption <;> simp
  have hparsed : raws.filter (fun raw => (parseAckId raw).toOption.any fun id =>
      !(⟨[], invalid⟩ : AckOutcome).valid.contains id) =
      raws.filter fun raw => (parseAckId raw).toOption.isSome := by
    refine List.filter_congr fun raw hraw => ?_
    cases (parseAckId raw).toOption <;> rfl
  rw [hvalid, hinvalid, hempty, hparsed]
  constructor
  · rintro ⟨hperm, -⟩
    have hlen := hperm.length_eq
    rw [List.nil_append, List.length_append] at hlen
    exact List.filter_eq_nil_iff.mp (List.length_eq_zero_iff.mp (by omega))
  · intro h
    rw [List.filter_eq_nil_iff.mpr h]
    exact ⟨List.Perm.refl _, fun id hid => absurd hid List.not_mem_nil⟩

/-- The confirmation of deadline changes accounts for every ID exactly if the batch
parses or nothing in it does. -/
lemma confirms_modifications_iff {raws : List String} {seconds : List ℤ}
    (hlen : seconds.length = raws.length) {a : SubscriptionActor} {env : Env} {now : Instant}
    {isOpen : Bool} {c : Option ModifyAckDeadlineConfirmation}
    (h : (confirmModifications raws seconds a env now isOpen true).1 = .ok c) :
    Confirms raws (c.map fun c => (c.ackIds, c.invalidAckIds)) ↔
      ((∀ raw ∈ raws, IsAckId raw) ∧ ∀ s ∈ seconds, 0 ≤ s) ∨ ∀ raw ∈ raws, ¬ IsAckId raw := by
  have hok := parseDeadlineModifications_ok now hlen
  unfold confirmModifications at h
  split_ifs at h with hempty hclosed honce
  · cases h
    have hnil := List.isEmpty_iff.mp hempty
    subst hnil
    exact iff_of_true rfl (.inr (by simp))
  · cases h
    dsimp only [Option.map_some]
    cases hparse : parseDeadlineModifications now raws seconds with
    | ok mods =>
      have hparsed := hok.mp ⟨mods, hparse⟩
      have hread : readModifications now raws seconds = ([], mods) := by
        rw [readModifications, hparse]
      rw [hread]
      exact iff_of_true (confirms_modifyConfirmation_of_parsed hparsed.1 _) (.inl hparsed)
    | error status =>
      have hread : readModifications now raws seconds = (raws, []) := by
        rw [readModifications, hparse]
      have houtcome : (a.modifyDeadline env []).1 = ⟨[], []⟩ := by
        unfold SubscriptionActor.modifyDeadline
        split_ifs <;> rfl
      have hfailed : ¬ ((∀ raw ∈ raws, IsAckId raw) ∧ ∀ s ∈ seconds, 0 ≤ s) := by
        intro hparsed
        obtain ⟨mods, hmods⟩ := hok.mpr hparsed
        rw [hparse] at hmods
        cases hmods
      rw [hread, houtcome, or_iff_right hfailed]
      exact confirms_modifyConfirmation_of_failed raws []
  · exact absurd rfl honce

lemma check_ok {request : StreamingPullRequest} (h : request.check = .ok ()) :
    request.modifyDeadlineSeconds.length = request.modifyDeadlineAckIds.length := by
  unfold StreamingPullRequest.check at h
  split_ifs at h with _ _ _ _ hlen
  exact not_not.mp hlen

/-- An accepted request passed the checks and both parts, and the response carries what
they confirm. -/
lemma handleStreamingPullRequest_ok {request : StreamingPullRequest} {a : SubscriptionActor}
    {x : Exchange} {exactlyOnceEnabled serverKeepalives : Bool}
    {response : Option StreamingPullResponse}
    (h : (handleStreamingPullRequest request a x exactlyOnceEnabled serverKeepalives).1 =
      .ok response) :
    request.check = .ok () ∧ ∃ c d,
      (confirmAcks request.ackIds a x.acknowledgeOpen exactlyOnceEnabled).1 = .ok c ∧
      (confirmModifications request.modifyDeadlineAckIds request.modifyDeadlineSeconds
        ((confirmAcks request.ackIds a x.acknowledgeOpen exactlyOnceEnabled).2.run x.between)
        x.modifyEnv x.now x.modifyOpen exactlyOnceEnabled).1 = .ok d ∧
      ackLists response = c.map (fun c => (c.ackIds, c.invalidAckIds)) ∧
      modifyLists response = d.map (fun d => (d.ackIds, d.invalidAckIds)) := by
  unfold handleStreamingPullRequest at h
  split at h
  · cases h
  · next hcheck =>
    dsimp only at h
    split at h
    · cases h
    · next c hc =>
      split at h
      · cases h
      · next d hd =>
        refine ⟨hcheck, c, d, hc, hd, ?_⟩
        split_ifs at h with hsome halive
        · cases h
          exact ⟨rfl, rfl⟩
        · rw [Bool.or_eq_true, not_or, Option.not_isSome_iff_eq_none,
            Option.not_isSome_iff_eq_none] at hsome
          obtain ⟨rfl, rfl⟩ := hsome
          cases h
          exact ⟨rfl, rfl⟩
        · rw [Bool.or_eq_true, not_or, Option.not_isSome_iff_eq_none,
            Option.not_isSome_iff_eq_none] at hsome
          obtain ⟨rfl, rfl⟩ := hsome
          cases h
          exact ⟨rfl, rfl⟩

/-- The confirmations of an accepted request account for every ID once exactly if its
deadline changes all parse or none of their IDs does. -/
theorem confirmations_account_iff (request : StreamingPullRequest) (a : SubscriptionActor)
    (x : Exchange) (serverKeepalives : Bool) (response : Option StreamingPullResponse)
    (hd : a.deleted = false)
    (h : (handleStreamingPullRequest request a x true serverKeepalives).1 = .ok response) :
    (Confirms request.ackIds (ackLists response) ∧
      Confirms request.modifyDeadlineAckIds (modifyLists response)) ↔
      ((∀ raw ∈ request.modifyDeadlineAckIds, IsAckId raw) ∧
        ∀ s ∈ request.modifyDeadlineSeconds, 0 ≤ s) ∨
      ∀ raw ∈ request.modifyDeadlineAckIds, ¬ IsAckId raw := by
  obtain ⟨hcheck, c, d, hc, hmodified, hacks, hmods⟩ := handleStreamingPullRequest_ok h
  rw [hacks, hmods, and_iff_right (confirms_acks hd hc)]
  exact confirms_modifications_iff (check_ok hcheck) hmodified

namespace Sample

def exchange : Exchange := ⟨true, [], 0, true, env 0⟩

def controlMessage (ackIds modifyIds : List String) (seconds : List ℤ) : StreamingPullRequest :=
  ⟨"", ackIds, seconds, modifyIds, 0, 0, 0⟩

def onePulled : SubscriptionActor :=
  (start info).run (events [.postMessages [message 1 none], .pullMessages 10 0])

end Sample

/-- An ack, a malformed and an unknown ID, and then an alias of the ID just acked. -/
theorem confirmations_account_for_alias :
    let request := Sample.controlMessage ["1", "x", "999"] ["+1", "7"] [10, 0]
    ∃ response, (handleStreamingPullRequest request Sample.onePulled Sample.exchange true false).1 =
        .ok response ∧
      ((Confirms request.ackIds (ackLists response) ∧
        Confirms request.modifyDeadlineAckIds (modifyLists response)) ↔
        ((∀ raw ∈ request.modifyDeadlineAckIds, IsAckId raw) ∧
          ∀ s ∈ request.modifyDeadlineSeconds, 0 ≤ s) ∨
        ∀ raw ∈ request.modifyDeadlineAckIds, ¬ IsAckId raw) := by
  intro request
  have h : (handleStreamingPullRequest request Sample.onePulled Sample.exchange true false).1 =
      .ok (some ⟨some ⟨["1"], ["999", "x"], [], []⟩, some ⟨[], ["+1", "7"], []⟩⟩) := by
    rfl
  exact ⟨_, h, confirmations_account_iff request Sample.onePulled Sample.exchange false _ rfl h⟩

/-- One malformed ID in a batch, and the other one is listed twice. -/
theorem mixed_batch_lists_id_twice :
    let request := Sample.controlMessage [] ["1", "x"] [10, 10]
    let response : Option StreamingPullResponse := some ⟨none, some ⟨[], ["1", "1", "x"], []⟩⟩
    Sample.onePulled.deleted = false ∧
      (handleStreamingPullRequest request Sample.onePulled Sample.exchange true false).1 =
        .ok response ∧
      ¬ Confirms request.modifyDeadlineAckIds (modifyLists response) := by
  intro request response
  refine ⟨rfl, rfl, ?_⟩
  rintro ⟨hperm, -⟩
  exact absurd hperm.length_eq (by decide)

end Deltio
