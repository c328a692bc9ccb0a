import Deltio.Parser
import Deltio.TopicActor

namespace Deltio

open Lib

namespace Parser

section

variable {U : Type} (immutablePaths updatablePaths : List String)
  (setField : U → String → Except Failure U)

def parsePath (update : U) (path : String) : Except Failure U :=
  if path ∈ immutablePaths then
    .error (.invalidArgument ("Field '" ++ path ++ "' is not modifiable after creation"))
  else if path ∉ updatablePaths then
    .error (.invalidArgument ("Field '" ++ path ++ "' is not a valid update path"))
  else setField update path

def parseUpdate (default : U) (paths : List String) : Except Failure U :=
  if paths.isEmpty then .error (.invalidArgument "update_mask must be specified and non-empty")
  else paths.foldlM (parsePath immutablePaths updatablePaths setField) default

def ReadsField (path : String) : Prop :=
  ∃ (α : Type) (parsed : Except Failure α) (put : U → α → U),
    Answered parsed ∧ ∀ update, setField update path = parsed.map (put update)

variable {immutablePaths updatablePaths setField}

lemma ReadsField.answered {path : String} (h : ReadsField setField path) (update : U) :
    Answered (setField update path) := by
  obtain ⟨α, parsed, put, hanswered, hset⟩ := h
  rw [hset]
  exact hanswered.bind fun v => answered_ok (put update v)

lemma ReadsField.exists_ok {path : String} (h : ReadsField setField path) {v v' : U}
    (hv : setField v path = .ok v') (update : U) :
    ∃ update', setField update path = .ok update' := by
  obtain ⟨α, parsed, put, -, hset⟩ := h
  rw [hset] at hv ⊢
  cases parsed with
  | error e => cases hv
  | ok x => exact ⟨put update x, rfl⟩

lemma parsePath_eq_ok {update update' : U} {path : String} :
    parsePath immutablePaths updatablePaths setField update path = .ok update' ↔
      (path ∉ immutablePaths ∧ path ∈ updatablePaths) ∧ setField update path = .ok update' := by
  unfold parsePath
  split_ifs with himmutable hupdatable
  · exact iff_of_false (by rintro ⟨⟩) fun h => h.1.1 himmutable
  · exact (and_iff_right ⟨himmutable, hupdatable⟩).symm
  · exact iff_of_false (by rintro ⟨⟩) fun h => hupdatable h.1.2

lemma answered_parseUpdate (h : ∀ path ∈ updatablePaths, ReadsField setField path) (default : U)
    (paths : List String) :
    Answered (parseUpdate immutablePaths updatablePaths setField default paths) := by
  have hpath : ∀ update path,
      Answered (parsePath immutablePaths updatablePaths setField update path) := by
    intro update path
    unfold parsePath
    split_ifs with himmutable hupdatable
    · exact answered_invalidArgument _
    · exact (h path hupdatable).answered update
    · exact answered_invalidArgument _
  unfold parseUpdate
  split_ifs
  · exact answered_invalidArgument _
  · induction paths generalizing default with
    | nil => exact answered_ok default
    | cons path paths ih =>
      rw [List.foldlM_cons]
      refine (hpath default path).bind fun update => ?_
      cases paths with
      | nil => exact answered_ok update
      | cons path' paths => exact ih update (by simp)

/-- What a path sets stays set. -/
lemma foldlM_preserves {Masks : List String → U → Prop}
    (hstep : ∀ seen update path update', path ∈ updatablePaths → Masks seen update →
      setField update path = .ok update' → Masks (seen ++ [path]) update')
    {paths seen : List String} {update update' : U} (hseen : Masks seen update)
    (h : paths.foldlM (parsePath immutablePaths updatablePaths setField) update = .ok update') :
    Masks (seen ++ paths) update' ∧
      ∀ path ∈ paths, (path ∉ immutablePaths ∧ path ∈ updatablePaths) ∧
        ∃ v v', setField v path = .ok v' := by
  induction paths generalizing seen update with
  | nil =>
    cases h
    rw [List.append_nil]
    exact ⟨hseen, by simp⟩
  | cons path paths ih =>
    rw [List.foldlM_cons] at h
    obtain ⟨next, hnext, hrest⟩ := Result.bind_eq_ok.mp h
    obtain ⟨hvalid, hset⟩ := parsePath_eq_ok.mp hnext
    obtain ⟨hmasks, hall⟩ := ih (hstep seen update path next hvalid.2 hseen hset) hrest
    rw [List.append_assoc] at hmasks
    refine ⟨hmasks, List.forall_mem_cons.mpr ⟨⟨hvalid, update, next, hset⟩, hall⟩⟩

lemma foldlM_succeeds {paths : List String}
    (h : ∀ path ∈ paths, (path ∉ immutablePaths ∧ path ∈ updatablePaths) ∧
      ∀ update, ∃ update', setField update path = .ok update') (update : U) :
    ∃ update',
      paths.foldlM (parsePath immutablePaths updatablePaths setField) update = .ok update' := by
  induction paths generalizing update with
  | nil => exact ⟨update, rfl⟩
  | cons path paths ih =>
    obtain ⟨⟨hvalid, hset⟩, hrest⟩ := List.forall_mem_cons.mp h
    obtain ⟨next, hnext⟩ := hset update
    obtain ⟨update', hupdate⟩ := ih hrest next
    refine ⟨update', ?_⟩
    rw [List.foldlM_cons]
    exact Result.bind_eq_ok.mpr ⟨next, parsePath_eq_ok.mpr ⟨hvalid, hnext⟩, hupdate⟩

/-- The update is determined by the set of the paths, provided that what the paths set is. -/
lemma parseUpdate_spec {Masks : List String → U → Prop} {default : U} (hnone : Masks [] default)
    (hstep : ∀ seen update path update', path ∈ updatablePaths → Masks seen update →
      setField update path = .ok update' → Masks (seen ++ [path]) update')
    (hreads : ∀ path ∈ updatablePaths, ReadsField setField path)
    (hset : ∀ paths paths' update update', (∀ path, path ∈ paths ↔ path ∈ paths') →
      Masks paths update → Masks paths' update' → update' = update)
    {paths : List String} {update : U}
    (h : parseUpdate immutablePaths updatablePaths setField default paths = .ok update) :
    Masks paths update ∧ ∀ paths', (∀ path, path ∈ paths ↔ path ∈ paths') →
      parseUpdate immutablePaths updatablePaths setField default paths' = .ok update := by
  unfold parseUpdate at h
  split_ifs at h with hempty
  obtain ⟨hmasks, hall⟩ := foldlM_preserves hstep hnone h
  rw [List.nil_append] at hmasks
  refine ⟨hmasks, fun paths' hsame => ?_⟩
  have hsucceeds : ∀ path ∈ paths', (path ∉ immutablePaths ∧ path ∈ updatablePaths) ∧
      ∀ v, ∃ v', setField v path = .ok v' := by
    intro path hpath
    obtain ⟨hvalid, v, v', hv⟩ := hall path ((hsame path).mpr hpath)
    exact ⟨hvalid, (hreads path hvalid.2).exists_ok hv⟩
  obtain ⟨update', hupdate⟩ := foldlM_succeeds hsucceeds default
  obtain ⟨hmasks', -⟩ := foldlM_preserves hstep hnone hupdate
  rw [List.nil_append] at hmasks'
  have hempty' : ¬ paths'.isEmpty = true := by
    rw [List.isEmpty_iff] at hempty ⊢
    rintro rfl
    exact hempty (List.eq_nil_iff_forall_not_mem.mpr fun path hpath =>
      List.not_mem_nil ((hsame path).mp hpath))
  unfold parseUpdate
  rw [if_neg hempty', hupdate, hset paths paths' update update' hsame hmasks hmasks']

end

/-- The field has the parsed value if it is named, and else its old one. -/
def Updated {α : Type} (named : Prop) (parsed : Except Failure α) (old new : α) : Prop :=
  (named → parsed = .ok new) ∧ (¬ named → new = old)

section

variable {α : Type} {named named' : Prop} {parsed : Except Failure α}

/-- A sparse field that is set when its path is named, applied to an old value. -/
lemma Updated.getD {field : Option α} (h : Updated named (parsed.map some) none field) (old : α) :
    Updated named parsed old (field.getD old) := by
  constructor
  · intro hnamed
    have hmap := h.1 hnamed
    cases parsed with
    | error e => cases hmap
    | ok v =>
      cases hmap
      rfl
  · intro hnot
    rw [h.2 hnot]
    rfl

lemma Updated.unique {old new new' : α} (h : Updated named parsed old new)
    (h' : Updated named' parsed old new') (hsame : named ↔ named') : new' = new := by
  by_cases hnamed : named
  · exact Except.ok.inj ((h'.1 (hsame.mp hnamed)).symm.trans (h.1 hnamed))
  · rw [h.2 hnamed, h'.2 (fun hnamed' => hnamed (hsame.mpr hnamed'))]

/-- Another path does not touch the field. -/
lemma Updated.other {seen : List String} {path name : String} {old new : α}
    (h : Updated (name ∈ seen) parsed old new) (hne : name ≠ path) :
    Updated (name ∈ seen ++ [path]) parsed old new := by
  rwa [List.mem_append, List.mem_singleton, or_iff_left hne]

lemma updated_self {seen : List String} {name : String} {old new : α} (h : parsed = .ok new) :
    Updated (name ∈ seen ++ [name]) parsed old new :=
  ⟨fun _ => h, fun hnot => absurd (List.mem_append_right seen List.mem_cons_self) hnot⟩

lemma updated_nil {name : String} (old : α) : Updated (name ∈ []) parsed old old :=
  ⟨fun h => absurd h List.not_mem_nil, fun _ => rfl⟩

end

def updatablePaths : List String :=
  ["ack_deadline_seconds", "retry_policy", "dead_letter_policy", "message_retention_duration",
    "enable_exactly_once_delivery"]

def immutablePaths : List String :=
  ["name", "topic", "enable_message_ordering", "filter", "detached", "labels",
    "expiration_policy", "push_config", "bigquery_config", "retain_acked_messages",
    "topic_message_retention_duration", "state"]

def setSubscriptionField (subscription : SubscriptionProto) (update : SubscriptionUpdate)
    (path : String) : Except Failure SubscriptionUpdate :=
  match path with
  | "ack_deadline_seconds" =>
    .ok { update with ackDeadline := some (parseCreateAckDeadline subscription.ackDeadlineSeconds) }
  | "retry_policy" => do
    let retryPolicy ← parseOptional parseRetryPolicy subscription.retryPolicy
    .ok { update with retryPolicy := some retryPolicy }
  | "dead_letter_policy" => do
    let deadLetterPolicy ← parseOptional parseDeadLetterPolicy subscription.deadLetterPolicy
    .ok { update with deadLetterPolicy := some deadLetterPolicy }
  | "message_retention_duration" => do
    let messageRetentionDuration ←
      parseOptional parseMessageRetentionDuration subscription.messageRetentionDuration
    .ok { update with messageRetentionDuration := some messageRetentionDuration }
  | "enable_exactly_once_delivery" =>
    .ok { update with enableExactlyOnceDelivery := some subscription.enableExactlyOnceDelivery }
  -- path validated above
  | _ => .error .panic

def parseSubscriptionUpdate (subscription : SubscriptionProto) (paths : List String) :
    Except Failure SubscriptionUpdate :=
  parseUpdate immutablePaths updatablePaths (setSubscriptionField subscription) {} paths

/-- The update holds the parsed values of the paths and nothing else. -/
structure SubscriptionMask (subscription : SubscriptionProto) (paths : List String)
    (update : SubscriptionUpdate) : Prop where
  ackDeadline : Updated ("ack_deadline_seconds" ∈ paths)
    (.map some (.ok (parseCreateAckDeadline subscription.ackDeadlineSeconds))) none
    update.ackDeadline
  retryPolicy : Updated ("retry_policy" ∈ paths)
    (.map some (parseOptional parseRetryPolicy subscription.retryPolicy)) none update.retryPolicy
  deadLetterPolicy : Updated ("dead_letter_policy" ∈ paths)
    (.map some (parseOptional parseDeadLetterPolicy subscription.deadLetterPolicy)) none
    update.deadLetterPolicy
  messageRetentionDuration : Updated ("message_retention_duration" ∈ paths)
    (.map some (parseOptional parseMessageRetentionDuration subscription.messageRetentionDuration))
    none update.messageRetentionDuration
  enableExactlyOnceDelivery : Updated ("enable_exactly_once_delivery" ∈ paths)
    (.map some (.ok subscription.enableExactlyOnceDelivery)) none update.enableExactlyOnceDelivery

section

variable {subscription : SubscriptionProto}

lemma subscriptionMask_nil : SubscriptionMask subscription [] {} :=
  ⟨updated_nil _, updated_nil _, updated_nil _, updated_nil _, updated_nil _⟩

lemma SubscriptionMask.step {seen : List String} {update update' : SubscriptionUpdate}
    {path : String} (hpath : path ∈ updatablePaths) (h : SubscriptionMask subscription seen update)
    (hset : setSubscriptionField subscription update path = .ok update') :
    SubscriptionMask subscription (seen ++ [path]) update' := by
  simp only [updatablePaths, List.mem_cons, List.not_mem_nil, or_false] at hpath
  rcases hpath with rfl | rfl | rfl | rfl | rfl
  · cases hset
    exact ⟨updated_self rfl, h.retryPolicy.other (by decide), h.deadLetterPolicy.other (by decide),
      h.messageRetentionDuration.other (by decide), h.enableExactlyOnceDelivery.other (by decide)⟩
  · obtain ⟨v, hv, hupdate⟩ := Result.bind_eq_ok.mp hset
    cases hupdate
    exact ⟨h.ackDeadline.other (by decide), updated_self (by rw [hv]; rfl),
      h.deadLetterPolicy.other (by decide), h.messageRetentionDuration.other (by decide),
      h.enableExactlyOnceDelivery.other (by decide)⟩
  · obtain ⟨v, hv, hupdate⟩ := Result.bind_eq_ok.mp hset
    cases hupdate
    exact ⟨h.ackDeadline.other (by decide), h.retryPolicy.other (by decide),
      updated_self (by rw [hv]; rfl), h.messageRetentionDuration.other (by decide),
      h.enableExactlyOnceDelivery.other (by decide)⟩
  · obtain ⟨v, hv, hupdate⟩ := Result.bind_eq_ok.mp hset
    cases hupdate
    exact ⟨h.ackDeadline.other (by decide), h.retryPolicy.other (by decide),
      h.deadLetterPolicy.other (by decide), updated_self (by rw [hv]; rfl),
      h.enableExactlyOnceDelivery.other (by decide)⟩
  · cases hset
    exact ⟨h.ackDeadline.other (by decide), h.retryPolicy.other (by decide),
      h.deadLetterPolicy.other (by decide), h.messageRetentionDuration.other (by decide),
      updated_self rfl⟩

lemma SubscriptionMask.unique {paths paths' : List String} {update update' : SubscriptionUpdate}
    (hsame : ∀ path, path ∈ paths ↔ path ∈ paths') (h : SubscriptionMask subscription paths update)
    (h' : SubscriptionMask subscription paths' update') : update' = update := by
  have hack := h.ackDeadline.unique h'.ackDeadline (hsame _)
  have hretry := h.retryPolicy.unique h'.retryPolicy (hsame _)
  have hletter := h.deadLetterPolicy.unique h'.deadLetterPolicy (hsame _)
  have hretention := h.messageRetentionDuration.unique h'.messageRetentionDuration (hsame _)
  have honce := h.enableExactlyOnceDelivery.unique h'.enableExactlyOnceDelivery (hsame _)
  cases update
  cases update'
  subst hack hretry hletter hretention honce
  rfl

/-- No path in the table reaches the last arm. -/
lemma readsField_subscription {path : String} (hpath : path ∈ updatablePaths) :
    ReadsField (setSubscriptionField subscription) path := by
  simp only [updatablePaths, List.mem_cons, List.not_mem_nil, or_false] at hpath
  rcases hpath with rfl | rfl | rfl | rfl | rfl
  · exact ⟨_, _, fun update v => { update with ackDeadline := some v },
      answered_ok (parseCreateAckDeadline subscription.ackDeadlineSeconds), fun _ => rfl⟩
  · exact ⟨_, _, fun update v => { update with retryPolicy := some v },
      Answered.parseOptional answered_parseRetryPolicy _, fun _ => rfl⟩
  · exact ⟨_, _, fun update v => { update with deadLetterPolicy := some v },
      Answered.parseOptional answered_parseDeadLetterPolicy _, fun _ => rfl⟩
  · exact ⟨_, _, fun update v => { update with messageRetentionDuration := some v },
      Answered.parseOptional answered_parseMessageRetentionDuration _, fun _ => rfl⟩
  · exact ⟨_, _, fun update v => { update with enableExactlyOnceDelivery := some v },
      answered_ok subscription.enableExactlyOnceDelivery, fun _ => rfl⟩

lemma parseSubscriptionUpdate_spec {paths : List String} {update : SubscriptionUpdate}
    (h : parseSubscriptionUpdate subscription paths = .ok update) :
    SubscriptionMask subscription paths update ∧
      ∀ paths', (∀ path, path ∈ paths ↔ path ∈ paths') →
        parseSubscriptionUpdate subscription paths' = .ok update :=
  parseUpdate_spec subscriptionMask_nil (fun _ _ _ _ hpath hmask hset => hmask.step hpath hset)
    (fun _ hpath => readsField_subscription hpath)
    (fun _ _ _ _ hsame hmask hmask' => hmask.unique hsame hmask') h

end

def topicUpdatablePaths : List String := ["labels", "message_retention_duration"]

def topicImmutablePaths : List String :=
  ["name", "kms_key_name", "schema_settings", "message_storage_policy", "satisfies_pzs"]

def setTopicField (topic : TopicProto) (update : TopicUpdate) (path : String) :
    Except Failure TopicUpdate :=
  match path with
  | "labels" => .ok { update with labels := some topic.labels }
  | "message_retention_duration" => do
    let messageRetentionDuration ←
      parseOptional parseMessageRetentionDuration topic.messageRetentionDuration
    .ok { update with messageRetentionDuration := some messageRetentionDuration }
  -- path validated above
  | _ => .error .panic

def parseTopicUpdate (topic : TopicProto) (paths : List String) : Except Failure TopicUpdate :=
  parseUpdate topicImmutablePaths topicUpdatablePaths (setTopicField topic) {} paths

structure TopicMask (topic : TopicProto) (paths : List String) (update : TopicUpdate) : Prop where
  labels : Updated ("labels" ∈ paths) (.map some (.ok topic.labels)) none update.labels
  messageRetentionDuration : Updated ("message_retention_duration" ∈ paths)
    (.map some (parseOptional parseMessageRetentionDuration topic.messageRetentionDuration)) none
    update.messageRetentionDuration

section

variable {topic : TopicProto}

lemma TopicMask.step {seen : List String} {update update' : TopicUpdate} {path : String}
    (hpath : path ∈ topicUpdatablePaths) (h : TopicMask topic seen update)
    (hset : setTopicField topic update path = .ok update') :
    TopicMask topic (seen ++ [path]) update' := by
  simp only [topicUpdatablePaths, List.mem_cons, List.not_mem_nil, or_false] at hpath
  rcases hpath with rfl | rfl
  · cases hset
    exact ⟨updated_self rfl, h.messageRetentionDuration.other (by decide)⟩
  · obtain ⟨v, hv, hupdate⟩ := Result.bind_eq_ok.mp hset
    cases hupdate
    exact ⟨h.labels.other (by decide), updated_self (by rw [hv]; rfl)⟩

lemma TopicMask.unique {paths paths' : List String} {update update' : TopicUpdate}
    (hsame : ∀ path, path ∈ paths ↔ path ∈ paths') (h : TopicMask topic paths update)
    (h' : TopicMask topic paths' update') : update' = update := by
  have hlabels := h.labels.unique h'.labels (hsame _)
  have hretention := h.messageRetentionDuration.unique h'.messageRetentionDuration (hsame _)
  cases update
  cases update'
  subst hlabels hretention
  rfl

lemma readsField_topic {path : String} (hpath : path ∈ topicUpdatablePaths) :
    ReadsField (setTopicField topic) path := by
  simp only [topicUpdatablePaths, List.mem_cons, List.not_mem_nil, or_false] at hpath
  rcases hpath with rfl | rfl
  · exact ⟨_, _, fun update v => { update with labels := some v }, answered_ok topic.labels,
      fun _ => rfl⟩
  · exact ⟨_, _, fun update v => { update with messageRetentionDuration := some v },
      Answered.parseOptional answered_parseMessageRetentionDuration _, fun _ => rfl⟩

lemma parseTopicUpdate_spec {paths : List String} {update : TopicUpdate}
    (h : parseTopicUpdate topic paths = .ok update) :
    TopicMask topic paths update ∧ ∀ paths', (∀ path, path ∈ paths ↔ path ∈ paths') →
      parseTopicUpdate topic paths' = .ok update :=
  parseUpdate_spec ⟨updated_nil _, updated_nil _⟩
    (fun _ _ _ _ hpath hmask hset => hmask.step hpath hset)
    (fun _ hpath => readsField_topic hpath)
    (fun _ _ _ _ hsame hmask hmask' => hmask.unique hsame hmask') h

end

end Parser

open Deltio.Parser

structure UpdateRequest (R : Type) where
  resource : Option R
  updateMask : Option (List String)

def specified {α : Type} (message : String) : Option α → Except Failure α
  | some a => .ok a
  | none => .error (.invalidArgument message)

def Subscriber.updateSubscription (request : UpdateRequest SubscriptionProto)
    (a : SubscriptionActor) : Except Failure SubscriptionInfo × SubscriptionActor :=
  let parsed := do
    let subscription ← specified "subscription must be specified" request.resource
    let paths ← specified "update_mask must be specified" request.updateMask
    let _ ← parseSubscriptionName subscription.name
    parseSubscriptionUpdate subscription paths
  match parsed with
  | .error e => (.error e, a)
  | .ok update => (.ok (a.updateInfo update).info, a.updateInfo update)

def Publisher.updateTopic (request : UpdateRequest TopicProto) (t : TopicActor) :
    Except Failure TopicInfo × TopicActor :=
  let parsed := do
    let topic ← specified "topic must be specified" request.resource
    let paths ← specified "update_mask must be specified" request.updateMask
    let _ ← parseTopicName topic.name
    parseTopicUpdate topic paths
  match parsed with
  | .error e => (.error e, t)
  | .ok update => (.ok (t.info.applyUpdate update), { t with info := t.info.applyUpdate update })

lemma Subscriber.updateSubscription_of_error {subscription : SubscriptionProto}
    {paths : List String} {e : Failure}
    (h : parseSubscriptionUpdate subscription paths = .error e) (a : SubscriptionActor) :
    (updateSubscription ⟨some subscription, some paths⟩ a).2 = a := by
  unfold updateSubscription
  dsimp only [specified, bind, Except.bind]
  rw [h]
  cases parseSubscriptionName subscription.name <;> rfl

lemma Publisher.updateTopic_of_error {topic : TopicProto} {paths : List String} {e : Failure}
    (h : parseTopicUpdate topic paths = .error e) (t : TopicActor) :
    (updateTopic ⟨some topic, some paths⟩ t).2 = t := by
  unfold updateTopic
  dsimp only [specified, bind, Except.bind]
  rw [h]
  cases parseTopicName topic.name <;> rfl

/-- An update that is rejected changes nothing.  One that is accepted sets each field named in
the mask to what the parsers of the create handlers give for it, and leaves the others; it
depends on the set of the paths only.  No list of paths leads to a panic. -/
theorem update_touches_named_fields (subscription : SubscriptionProto) (topic : TopicProto)
    (paths : List String) (a : SubscriptionActor) (t : TopicActor) :
    (parseSubscriptionUpdate subscription paths ≠ .error .panic ∧
      (∀ e, parseSubscriptionUpdate subscription paths = .error e →
        (Subscriber.updateSubscription ⟨some subscription, some paths⟩ a).2 = a) ∧
      ∀ update, parseSubscriptionUpdate subscription paths = .ok update →
        let info := a.info.applyUpdate update
        Updated ("ack_deadline_seconds" ∈ paths)
          (.ok (parseCreateAckDeadline subscription.ackDeadlineSeconds)) a.info.ackDeadline
          info.ackDeadline ∧
        Updated ("retry_policy" ∈ paths) (parseOptional parseRetryPolicy subscription.retryPolicy)
          a.info.retryPolicy info.retryPolicy ∧
        Updated ("dead_letter_policy" ∈ paths)
          (parseOptional parseDeadLetterPolicy subscription.deadLetterPolicy)
          a.info.deadLetterPolicy info.deadLetterPolicy ∧
        Updated ("message_retention_duration" ∈ paths)
          (parseOptional parseMessageRetentionDuration subscription.messageRetentionDuration)
          a.info.messageRetentionDuration info.messageRetentionDuration ∧
        Updated ("enable_exactly_once_delivery" ∈ paths)
          (.ok subscription.enableExactlyOnceDelivery) a.info.enableExactlyOnceDelivery
          info.enableExactlyOnceDelivery ∧
        (info.name = a.info.name ∧ info.pushConfig = a.info.pushConfig ∧
          info.enableMessageOrdering = a.info.enableMessageOrdering ∧
          info.filter = a.info.filter ∧ info.detached = a.info.detached) ∧
        ∀ paths', (∀ path, path ∈ paths ↔ path ∈ paths') →
          parseSubscriptionUpdate subscription paths' = .ok update) ∧
    (parseTopicUpdate topic paths ≠ .error .panic ∧
      (∀ e, parseTopicUpdate topic paths = .error e →
        (Publisher.updateTopic ⟨some topic, some paths⟩ t).2 = t) ∧
      ∀ update, parseTopicUpdate topic paths = .ok update →
        let info := t.info.applyUpdate update
        Updated ("labels" ∈ paths) (.ok topic.labels) t.info.labels info.labels ∧
        Updated ("message_retention_duration" ∈ paths)
          (parseOptional parseMessageRetentionDuration topic.messageRetentionDuration)
          t.info.messageRetentionDuration info.messageRetentionDuration ∧
        info.name = t.info.name ∧
        ∀ paths', (∀ path, path ∈ paths ↔ path ∈ paths') →
          parseTopicUpdate topic paths' = .ok update) := by
  refine ⟨⟨?_, ?_, ?_⟩, ?_, ?_, ?_⟩
  · exact answered_parseUpdate (fun _ hpath => readsField_subscription hpath) _ _
  · exact fun e he => Subscriber.updateSubscription_of_error he a
  · intro update hupdate info
    obtain ⟨hmask, hsame⟩ := parseSubscriptionUpdate_spec hupdate
    exact ⟨hmask.ackDeadline.getD _, hmask.retryPolicy.getD _, hmask.deadLetterPolicy.getD _,
      hmask.messageRetentionDuration.getD _, hmask.enableExactlyOnceDelivery.getD _,
      ⟨rfl, rfl, rfl, rfl, rfl⟩, hsame⟩
  · exact answered_parseUpdate (fun _ hpath => readsField_topic hpath) _ _
  · exact fun e he => Publisher.updateTopic_of_error he t
  · intro update hupdate info
    obtain ⟨hmask, hsame⟩ := parseTopicUpdate_spec hupdate
    exact ⟨hmask.labels.getD _, hmask.messageRetentionDuration.getD _, rfl, hsame⟩

/-- A named field that was not sent is cleared, which is not the same as left alone. -/
example (subscription : SubscriptionProto) (h : subscription.retryPolicy = none) :
    parseSubscriptionUpdate subscription ["retry_policy", "retry_policy"] =
      .ok { retryPolicy := some none } := by
  cases subscription
  cases h
  rfl

end Deltio
