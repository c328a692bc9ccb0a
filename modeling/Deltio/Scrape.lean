import Deltio.Conservation
import Deltio.Detachment
import Deltio.Lib.Rfc3339
import Deltio.Metrics
import Deltio.Names
import Deltio.PushMetrics
import Deltio.TopicRuns

namespace Deltio

open Lib Exposition Histogram

structure TopicStats where
  topicName : TopicName
  messageCount : ℕ
  subscriptionCount : ℕ
  publishedCount : ℕ
  publishedBytes : ℕ

def TopicActor.getStats (a : TopicActor) : TopicStats where
  topicName := a.info.name
  messageCount := a.messages.length
  subscriptionCount := a.subscriptions.len
  publishedCount := a.publishedCount
  publishedBytes := a.publishedBytes

/-- A metric family with one sample for each of some resources. -/
structure Family (σ : Type) where
  name : String
  metricType : String
  help : String
  labels : σ → List (String × String)
  value : σ → String

namespace Family

variable {σ : Type}

def sample (f : Family σ) (stats : σ) : Sample := ⟨f.name, f.labels stats, f.value stats⟩

def calls (f : Family σ) (stats : List σ) : List PromCall :=
  .family f.name f.metricType f.help ::
    stats.map fun s => .labeled f.name (f.labels s) (f.value s)

end Family

def topicFamily (name metricType help : String) (get : TopicStats → ℕ) : Family TopicStats where
  name := name
  metricType := metricType
  help := help
  labels t := [("topic", t.topicName.toString)]
  value t := toString (get t)

def retainedGauge : Family TopicStats :=
  topicFamily "deltio_topic_retained_messages" "gauge"
    "Number of messages currently retained on the topic." TopicStats.messageCount

def publishedCounter : Family TopicStats :=
  topicFamily "deltio_topic_messages_published_total" "counter"
    "Total number of messages published to the topic." TopicStats.publishedCount

def publishedBytesCounter : Family TopicStats :=
  topicFamily "deltio_topic_messages_published_bytes_total" "counter"
    "Total number of message data bytes published to the topic." TopicStats.publishedBytes

def topicFamilies : List (Family TopicStats) :=
  [retainedGauge,
    topicFamily "deltio_topic_subscriptions" "gauge"
      "Number of subscriptions attached to the topic." TopicStats.subscriptionCount,
    publishedCounter, publishedBytesCounter]

/-- A gauge of a subscription is labelled with the subscription and its topic. -/
def subscriptionGauge (name help : String) (value : SubscriptionStats → String) :
    Family SubscriptionStats where
  name := name
  metricType := "gauge"
  help := help
  labels s := [("subscription", s.subscriptionName.toString), ("topic", s.topicName.toString)]
  value := value

/-- A counter of a subscription is labelled with the subscription alone. -/
def subscriptionCounter (name help : String) (get : SubscriptionCounters → ℕ) :
    Family SubscriptionStats where
  name := name
  metricType := "counter"
  help := help
  labels s := [("subscription", s.subscriptionName.toString)]
  value s := toString (get s.counters)

def backlogGauge : Family SubscriptionStats :=
  subscriptionGauge "deltio_subscription_backlog_messages"
    "Number of messages in the subscription backlog waiting to be delivered."
    fun s => toString s.backlogMessagesCount

def outstandingGauge : Family SubscriptionStats :=
  subscriptionGauge "deltio_subscription_outstanding_messages"
    "Number of messages delivered but not yet acknowledged."
    fun s => toString s.outstandingMessagesCount

def retryGauge : Family SubscriptionStats :=
  subscriptionGauge "deltio_subscription_retry_messages"
    "Number of messages waiting on retry backoff before redelivery."
    fun s => toString s.retryMessagesCount

def subscriptionFamilies (formatAge : Duration → String) : List (Family SubscriptionStats) :=
  [backlogGauge, outstandingGauge, retryGauge,
    subscriptionGauge "deltio_subscription_oldest_unacked_message_age_seconds"
      "Age in seconds of the oldest unacknowledged message." fun s => formatAge s.oldestUnackedAge,
    subscriptionCounter "deltio_subscription_messages_pulled_total"
      "Total number of messages delivered to consumers." SubscriptionCounters.pulled,
    subscriptionCounter "deltio_subscription_messages_acked_total"
      "Total number of messages acknowledged." SubscriptionCounters.acked,
    subscriptionCounter "deltio_subscription_messages_nacked_total"
      "Total number of messages explicitly nacked." SubscriptionCounters.nacked,
    subscriptionCounter "deltio_subscription_messages_expired_total"
      "Total number of messages redelivered after their ack deadline expired."
      SubscriptionCounters.expired,
    subscriptionCounter "deltio_subscription_messages_dead_lettered_total"
      "Total number of messages forwarded to a dead letter topic."
      SubscriptionCounters.deadLettered]

def dispatchTotal : String := "deltio_push_dispatch_total"

def durationSeconds : String := "deltio_push_dispatch_duration_seconds"

def durationBucket : String := "deltio_push_dispatch_duration_seconds_bucket"

def durationSum : String := "deltio_push_dispatch_duration_seconds_sum"

def durationCount : String := "deltio_push_dispatch_duration_seconds_count"

structure Collected where
  topicsTotal : ℕ
  subscriptionsTotal : ℕ
  topicStats : List TopicStats
  subscriptionStats : List SubscriptionStats
  push : PushMetricsSnapshot
  startTimeSeconds : ℕ

section

variable (version : String) (formatAge formatSum : ℕ → String)

def bucketCalls (push : PushMetricsSnapshot) : List PromCall :=
  (durationBuckets.zip (runningTotals (2 ^ 64) 0 push.durationBuckets)).map fun b =>
    .labeled durationBucket [("le", b.1.le)] (toString b.2)

/-- The calls of `render_text`, in order.  The age and the sum of durations, which the source
formats as floats with a fixed number of digits, are whatever texts the formats give. -/
def renderCalls (c : Collected) : List PromCall :=
  [.family "deltio_build_info" "gauge" "Build information; the value is always 1.",
    .labeled "deltio_build_info" [("version", version)] "1",
    .family "deltio_start_time_seconds" "gauge"
      "Unix timestamp at which the metrics service started.",
    .sample "deltio_start_time_seconds" (toString c.startTimeSeconds),
    .family "deltio_topics" "gauge" "Number of topics.",
    .sample "deltio_topics" (toString c.topicsTotal),
    .family "deltio_subscriptions" "gauge" "Number of subscriptions.",
    .sample "deltio_subscriptions" (toString c.subscriptionsTotal)] ++
  topicFamilies.flatMap (·.calls c.topicStats) ++
  (subscriptionFamilies formatAge).flatMap (·.calls c.subscriptionStats) ++
  [.family dispatchTotal "counter" "Total number of HTTP push dispatches, by result.",
    .labeled dispatchTotal [("result", "success")] (toString c.push.dispatchSuccess),
    .labeled dispatchTotal [("result", "failure")] (toString c.push.dispatchFailure),
    .family durationSeconds "histogram" "Duration of HTTP push dispatches in seconds."] ++
  bucketCalls c.push ++
  [.sample durationSum (formatSum c.push.durationSumMicros),
    .sample durationCount (toString c.push.durationCount)]

def renderText (c : Collected) : String :=
  ((renderCalls version formatAge formatSum c).foldl PromCall.write .new).intoString

end

/-- What a scrape collects: how many topics and subscriptions there are, and the stats of the
actors that answer.  A subscription answers at a time of its own, at which its topic is there or
not. -/
def collect (topics : List (Option TopicActor))
    (subscriptions : List (Option (SubscriptionActor × SystemTime × Bool)))
    (push : PushMetricsSnapshot) (startTimeSeconds : ℕ) : Collected where
  topicsTotal := topics.length
  subscriptionsTotal := subscriptions.length
  topicStats := topics.filterMap fun t => t.map TopicActor.getStats
  subscriptionStats := subscriptions.filterMap fun s => s.map fun (a, now, topicAlive) =>
    a.getStats now topicAlive
  push := push
  startTimeSeconds := startTimeSeconds

lemma notMem_toString (n : ℕ) : '\n' ∉ (toString n).toList := by
  intro hmem
  have hdigit : Char.isDigit '\n' = true := by
    apply Nat.isDigit_of_mem_toDigits (b := 10) (n := n) (by decide) (by decide)
    simpa using hmem
  exact absurd hdigit (by decide)

/-- A text that is written out: its characters are compared, not its bytes. -/
lemma all_of_literal {p : Char → Bool} {text : String} {chars : List Char}
    (htext : text = String.ofList chars) (hall : chars.all p = true) : text.toList.all p = true := by
  rw [htext, String.toList_ofList]
  exact hall

lemma notMem_of_literal {text : String} {chars : List Char} (htext : text = String.ofList chars)
    (hall : chars.all (· != '\n') = true) : '\n' ∉ text.toList := by
  have hne := List.all_eq_true.mp (all_of_literal htext hall)
  exact fun hmem => absurd (hne _ hmem) (by decide)

namespace Family

variable {σ : Type} {f : Family σ}

structure Readable (f : Family σ) : Prop where
  name : f.name.toList.all isNameChar = true
  metricType : '\n' ∉ f.metricType.toList
  help : '\n' ∉ f.help.toList
  keys : ∀ s, ∀ label ∈ f.labels s, label.1.toList.all isNameChar = true
  value : ∀ s, '\n' ∉ (f.value s).toList

lemma Readable.wellFormed (h : f.Readable) (s : σ) : (f.sample s).WellFormed :=
  ⟨List.all_eq_true.mp h.name, fun label hlabel => List.all_eq_true.mp (h.keys s label hlabel),
    h.value s⟩

lemma Readable.calls (h : f.Readable) (stats : List σ) :
    ∀ call ∈ f.calls stats, call.WellFormed := by
  rw [Family.calls, List.forall_mem_cons]
  refine ⟨⟨notMem_of_isNameChar (List.all_eq_true.mp h.name), h.metricType, h.help⟩, ?_⟩
  intro call hcall
  obtain ⟨s, -, rfl⟩ := List.mem_map.mp hcall
  exact h.wellFormed s

lemma sample_mem {samples : List Sample} {stats : List σ} {s : σ}
    (h : samples.filter (fun sample => sample.name == f.name) = stats.map f.sample)
    (hs : s ∈ stats) : f.sample s ∈ samples := by
  have hmem := List.mem_map_of_mem (f := f.sample) hs
  rw [← h] at hmem
  exact (List.mem_filter.mp hmem).1

lemma samples_calls (f : Family σ) (stats : List σ) :
    (f.calls stats).flatMap PromCall.samples = stats.map f.sample := by
  rw [Family.calls, List.flatMap_cons, List.flatMap_map, PromCall.samples, List.nil_append]
  exact List.flatMap_pure_eq_map f.sample stats

end Family

section

variable {name help : String} {chars texts : List Char} (hname : name = String.ofList chars)
  (hchars : chars.all isNameChar = true) (hhelp : help = String.ofList texts)
  (htexts : texts.all (· != '\n') = true)

include hname hchars hhelp htexts

lemma readable_topicFamily {metricType : String} {types : List Char} {get : TopicStats → ℕ}
    (htype : metricType = String.ofList types) (htypes : types.all (· != '\n') = true) :
    (topicFamily name metricType help get).Readable where
  name := all_of_literal hname hchars
  metricType := notMem_of_literal htype htypes
  help := notMem_of_literal hhelp htexts
  keys s label hlabel := by
    rw [List.mem_singleton.mp hlabel]
    exact all_of_literal rfl rfl
  value s := notMem_toString _

lemma readable_subscriptionGauge {value : SubscriptionStats → String}
    (hvalue : ∀ s, '\n' ∉ (value s).toList) : (subscriptionGauge name help value).Readable where
  name := all_of_literal hname hchars
  metricType := notMem_of_literal rfl rfl
  help := notMem_of_literal hhelp htexts
  keys s label hlabel := by
    rcases List.mem_pair.mp hlabel with rfl | rfl
    · exact all_of_literal rfl rfl
    · exact all_of_literal rfl rfl
  value := hvalue

lemma readable_subscriptionCounter {get : SubscriptionCounters → ℕ} :
    (subscriptionCounter name help get).Readable where
  name := all_of_literal hname hchars
  metricType := notMem_of_literal rfl rfl
  help := notMem_of_literal hhelp htexts
  keys s label hlabel := by
    rw [List.mem_singleton.mp hlabel]
    exact all_of_literal rfl rfl
  value s := notMem_toString _

end

lemma readable_topicFamilies : ∀ f ∈ topicFamilies, f.Readable := by
  intro f hf
  simp only [topicFamilies, List.mem_cons, List.not_mem_nil, or_false] at hf
  rcases hf with rfl | rfl | rfl | rfl <;> exact readable_topicFamily rfl rfl rfl rfl rfl rfl

lemma readable_subscriptionFamilies {formatAge : ℕ → String}
    (hage : ∀ age, '\n' ∉ (formatAge age).toList) :
    ∀ f ∈ subscriptionFamilies formatAge, f.Readable := by
  intro f hf
  simp only [subscriptionFamilies, List.mem_cons, List.not_mem_nil, or_false] at hf
  rcases hf with rfl | rfl | rfl | rfl | rfl | rfl | rfl | rfl | rfl
  · exact readable_subscriptionGauge rfl rfl rfl rfl fun s => notMem_toString _
  · exact readable_subscriptionGauge rfl rfl rfl rfl fun s => notMem_toString _
  · exact readable_subscriptionGauge rfl rfl rfl rfl fun s => notMem_toString _
  · exact readable_subscriptionGauge rfl rfl rfl rfl fun s => hage _
  · exact readable_subscriptionCounter rfl rfl rfl rfl
  · exact readable_subscriptionCounter rfl rfl rfl rfl
  · exact readable_subscriptionCounter rfl rfl rfl rfl
  · exact readable_subscriptionCounter rfl rfl rfl rfl
  · exact readable_subscriptionCounter rfl rfl rfl rfl

lemma wellFormed_family {name metricType help : String} {chars types texts : List Char}
    (hname : name = String.ofList chars) (hchars : chars.all (· != '\n') = true)
    (htype : metricType = String.ofList types) (htypes : types.all (· != '\n') = true)
    (hhelp : help = String.ofList texts) (htexts : texts.all (· != '\n') = true) :
    (PromCall.family name metricType help).WellFormed :=
  ⟨notMem_of_literal hname hchars, notMem_of_literal htype htypes, notMem_of_literal hhelp htexts⟩

lemma wellFormed_labeled {name key label value : String}
    (hname : name.toList.all isNameChar = true) (hkey : key.toList.all isNameChar = true)
    (hvalue : '\n' ∉ value.toList) : (PromCall.labeled name [(key, label)] value).WellFormed := by
  refine ⟨List.all_eq_true.mp hname, fun l hl => ?_, hvalue⟩
  rw [List.mem_singleton.mp hl]
  exact List.all_eq_true.mp hkey

lemma wellFormed_sample {name value : String} (hname : name.toList.all isNameChar = true)
    (hvalue : '\n' ∉ value.toList) : (PromCall.sample name value).WellFormed :=
  ⟨List.all_eq_true.mp hname, fun _ hl => absurd hl List.not_mem_nil, hvalue⟩

lemma wellFormed_bucketCalls (push : PushMetricsSnapshot) :
    ∀ call ∈ bucketCalls push, call.WellFormed := by
  intro call hcall
  obtain ⟨b, -, rfl⟩ := List.mem_map.mp hcall
  exact wellFormed_labeled (all_of_literal rfl rfl) (all_of_literal rfl rfl) (notMem_toString _)

section

variable {version : String} {formatAge formatSum : ℕ → String}

lemma wellFormed_renderCalls (hage : ∀ age, '\n' ∉ (formatAge age).toList)
    (hsum : ∀ micros, '\n' ∉ (formatSum micros).toList) (c : Collected) :
    ∀ call ∈ renderCalls version formatAge formatSum c, call.WellFormed := by
  unfold renderCalls
  simp only [List.forall_mem_append, List.forall_mem_cons, List.mem_flatMap]
  refine ⟨⟨⟨⟨⟨?_, ?_⟩, ?_⟩, ?_⟩, wellFormed_bucketCalls c.push⟩, ?_⟩
  · exact ⟨wellFormed_family rfl rfl rfl rfl rfl rfl,
      wellFormed_labeled (all_of_literal rfl rfl) (all_of_literal rfl rfl)
        (notMem_of_literal rfl rfl),
      wellFormed_family rfl rfl rfl rfl rfl rfl,
      wellFormed_sample (all_of_literal rfl rfl) (notMem_toString _),
      wellFormed_family rfl rfl rfl rfl rfl rfl,
      wellFormed_sample (all_of_literal rfl rfl) (notMem_toString _),
      wellFormed_family rfl rfl rfl rfl rfl rfl,
      wellFormed_sample (all_of_literal rfl rfl) (notMem_toString _),
      fun _ hcall => absurd hcall List.not_mem_nil⟩
  · rintro call ⟨f, hf, hcall⟩
    exact (readable_topicFamilies f hf).calls _ call hcall
  · rintro call ⟨f, hf, hcall⟩
    exact (readable_subscriptionFamilies hage f hf).calls _ call hcall
  · exact ⟨wellFormed_family rfl rfl rfl rfl rfl rfl,
      wellFormed_labeled (all_of_literal rfl rfl) (all_of_literal rfl rfl) (notMem_toString _),
      wellFormed_labeled (all_of_literal rfl rfl) (all_of_literal rfl rfl) (notMem_toString _),
      wellFormed_family rfl rfl rfl rfl rfl rfl, fun _ hcall => absurd hcall List.not_mem_nil⟩
  · exact ⟨wellFormed_sample (all_of_literal rfl rfl) (hsum _),
      wellFormed_sample (all_of_literal rfl rfl) (notMem_toString _),
      fun _ hcall => absurd hcall List.not_mem_nil⟩

end

/-- Samples in blocks that have one name each, and no two the same: the samples of a name are
those of its block. -/
lemma filter_blocks {blocks : List (String × List Sample)} (hnames : (blocks.map Prod.fst).Nodup)
    (hblocks : ∀ b ∈ blocks, ∀ s ∈ b.2, s.name = b.1) {b : String × List Sample}
    (hb : b ∈ blocks) :
    (blocks.flatMap Prod.snd).filter (fun s => s.name == b.1) = b.2 := by
  induction blocks with
  | nil => cases hb
  | cons b' blocks ih =>
    rw [List.map_cons, List.nodup_cons] at hnames
    rw [List.forall_mem_cons] at hblocks
    rw [List.flatMap_cons, List.filter_append]
    rcases List.mem_cons.mp hb with rfl | hb
    · have hown : b.2.filter (fun s => s.name == b.1) = b.2 :=
        List.filter_eq_self.mpr fun s hs => by simp [hblocks.1 s hs]
      have hrest : (blocks.flatMap Prod.snd).filter (fun s => s.name == b.1) = [] := by
        rw [List.filter_eq_nil_iff]
        intro s hs hname
        obtain ⟨b', hb', hs⟩ := List.mem_flatMap.mp hs
        refine hnames.1 (List.mem_map.mpr ⟨b', hb', ?_⟩)
        rw [← hblocks.2 b' hb' s hs]
        exact beq_iff_eq.mp hname
      rw [hown, hrest, List.append_nil]
    · have hother : b'.2.filter (fun s => s.name == b.1) = [] := by
        rw [List.filter_eq_nil_iff]
        intro s hs hname
        refine hnames.1 (List.mem_map.mpr ⟨b, hb, ?_⟩)
        rw [← hblocks.1 s hs]
        exact (beq_iff_eq.mp hname).symm
      rw [hother, List.nil_append, ih hnames.2 hblocks.2 hb]

section

variable (version : String) (formatAge formatSum : ℕ → String)

def bucketSamples (push : PushMetricsSnapshot) : List Sample :=
  (durationBuckets.zip (runningTotals (2 ^ 64) 0 push.durationBuckets)).map fun b =>
    ⟨durationBucket, [("le", b.1.le)], toString b.2⟩

def pushBlocks (push : PushMetricsSnapshot) : List (String × List Sample) :=
  [(dispatchTotal,
      [⟨dispatchTotal, [("result", "success")], toString push.dispatchSuccess⟩,
        ⟨dispatchTotal, [("result", "failure")], toString push.dispatchFailure⟩]),
    (durationBucket, bucketSamples push),
    (durationSum, [⟨durationSum, [], formatSum push.durationSumMicros⟩]),
    (durationCount, [⟨durationCount, [], toString push.durationCount⟩])]

def blocks (c : Collected) : List (String × List Sample) :=
  [("deltio_build_info", [⟨"deltio_build_info", [("version", version)], "1"⟩]),
    ("deltio_start_time_seconds",
      [⟨"deltio_start_time_seconds", [], toString c.startTimeSeconds⟩]),
    ("deltio_topics", [⟨"deltio_topics", [], toString c.topicsTotal⟩]),
    ("deltio_subscriptions", [⟨"deltio_subscriptions", [], toString c.subscriptionsTotal⟩])] ++
  topicFamilies.map (fun f => (f.name, c.topicStats.map f.sample)) ++
  (subscriptionFamilies formatAge).map (fun f => (f.name, c.subscriptionStats.map f.sample)) ++
  pushBlocks formatSum c.push

lemma samples_renderCalls (c : Collected) :
    (renderCalls version formatAge formatSum c).flatMap PromCall.samples =
      (blocks version formatAge formatSum c).flatMap Prod.snd := by
  have hbuckets : (bucketCalls c.push).flatMap PromCall.samples = bucketSamples c.push := by
    rw [bucketCalls, List.flatMap_map]
    exact List.flatMap_pure_eq_map _ _
  unfold renderCalls blocks pushBlocks
  simp only [List.flatMap_append, List.flatMap_assoc, Family.samples_calls, List.flatMap_map,
    hbuckets, List.flatMap_cons, List.flatMap_nil, PromCall.samples, List.nil_append,
    List.append_nil, List.cons_append, List.append_assoc]

lemma nodup_blocks (c : Collected) :
    ((blocks version formatAge formatSum c).map Prod.fst).Nodup := by
  simp [blocks, pushBlocks, topicFamilies, retainedGauge, publishedCounter, publishedBytesCounter,
    topicFamily, subscriptionFamilies, backlogGauge, outstandingGauge, retryGauge,
    subscriptionGauge, subscriptionCounter, dispatchTotal, durationBucket, durationSum,
    durationCount]

lemma name_of_mem_blocks (c : Collected) : ∀ b ∈ blocks version formatAge formatSum c,
    ∀ s ∈ b.2, s.name = b.1 := by
  have hfamily : ∀ {σ : Type} (families : List (Family σ)) (stats : List σ),
      ∀ b ∈ families.map fun f => (f.name, stats.map f.sample), ∀ s ∈ b.2, s.name = b.1 := by
    intro σ families stats b hb s hs
    obtain ⟨f, -, rfl⟩ := List.mem_map.mp hb
    obtain ⟨t, -, rfl⟩ := List.mem_map.mp hs
    rfl
  have hbuckets : ∀ s ∈ bucketSamples c.push, s.name = durationBucket := by
    intro s hs
    obtain ⟨b, -, rfl⟩ := List.mem_map.mp hs
    rfl
  unfold blocks pushBlocks
  rw [List.forall_mem_append, List.forall_mem_append, List.forall_mem_append]
  refine ⟨⟨⟨by simp, hfamily _ _⟩, hfamily _ _⟩, ?_⟩
  simpa using hbuckets

variable {formatAge formatSum}

/-- A page reads back as its blocks. -/
lemma readText_renderText (hage : ∀ age, '\n' ∉ (formatAge age).toList)
    (hsum : ∀ micros, '\n' ∉ (formatSum micros).toList) (c : Collected) :
    ∃ samples, readText (renderText version formatAge formatSum c).toList = some samples ∧
      ∀ b ∈ blocks version formatAge formatSum c,
        samples.filter (fun s => s.name == b.1) = b.2 := by
  refine ⟨_, PromCall.readText_page _ (wellFormed_renderCalls hage hsum c), fun b hb => ?_⟩
  rw [samples_renderCalls]
  exact filter_blocks (nodup_blocks version formatAge formatSum c)
    (name_of_mem_blocks version formatAge formatSum c) hb

end

namespace SubscriptionActor

def settledCount (a : SubscriptionActor) : ℕ :=
  a.ledger.acked.length + a.ledger.deadLettered.length + a.ledger.retentionDropped.length +
    a.ledger.seekDropped.length

/-- The three gauges count the messages that were accepted and are not settled. -/
lemma gauges_add_up (info : SubscriptionInfo) (topic : Topic)
    (pushRegistry : PushSubscriptionsRegistry) (delegate : SubscriptionManagerState)
    (topicManager : Option TopicManagerRef) {es : List (Env × ActorEvent)}
    (hes : ∀ e ∈ es, ¬ e.2.discards) (now : SystemTime) (topicAlive : Bool) :
    let a := (start info topic pushRegistry delegate topicManager).run es
    let stats := a.getStats now topicAlive
    stats.backlogMessagesCount + stats.outstandingMessagesCount + stats.retryMessagesCount +
      a.settledCount = ((posted es).filter a.accepts).length := by
  intro a stats
  have hsound : a.Sound := (sound_start info topic pushRegistry delegate topicManager).run es
  have hperm : (a.backlog ++ a.orderedQueues.values.flatten ++ a.outstanding.held ++
      a.retryQueue.held ++ (a.ledger.acked ++ a.ledger.deadLettered ++ a.ledger.retentionDropped ++
        a.ledger.seekDropped)).Perm ((posted es).filter a.accepts) := by
    rw [List.perm_iff_count]
    intro m
    have hocc : a.places.occ a.route m = ((posted es).filter a.accepts).count m :=
      occ_run info topic pushRegistry delegate topicManager hes m
    rw [← hocc]
    simp only [List.count_append, count_flatten_orderedQueues hsound.keyed, Places.occ, placesWith,
      Multiset.coe_count, List.nil_append]
  have hlength := hperm.length_eq
  have hheld : a.outstanding.held.length = a.outstanding.len := by
    rw [OutstandingMessageTracker.len, HashMap.len_eq_length_values]
    exact List.length_map _
  have hwaiting : a.retryQueue.held.length = a.retryQueue.len := by
    rw [RetryQueue.len, HashMap.len_eq_length_values]
    rfl
  rw [← hlength]
  simp only [List.length_append, List.length_flatten, hheld, hwaiting, settledCount, stats,
    getStats]

end SubscriptionActor

section

variable (version : String) {formatAge formatSum : ℕ → String}
  (hage : ∀ age, '\n' ∉ (formatAge age).toList)
  (hsum : ∀ micros, '\n' ∉ (formatSum micros).toList) (c : Collected)

include hage hsum

/-- A page reads back with one sample for each resource in each of its families, whatever the
resources are called.  The counters of a topic say what has been published to it, all of which it
retains until it is deleted, and the gauges of a subscription account for every message that it
has accepted and that is not settled. -/
theorem scrape_accounts_for_messages :
    ∃ samples, readText (renderText version formatAge formatSum c).toList = some samples ∧
      (∀ f ∈ topicFamilies,
        samples.filter (fun s => s.name == f.name) = c.topicStats.map f.sample) ∧
      (∀ f ∈ subscriptionFamilies formatAge,
        samples.filter (fun s => s.name == f.name) = c.subscriptionStats.map f.sample) ∧
      (∀ (delegate : TopicManager) (info : TopicInfo) (topicInternalId : ℕ)
        (es : List TopicEvent) (task : TopicTask),
        (TopicTask.start delegate info topicInternalId).run es = some task →
        task.actor.getStats ∈ c.topicStats →
        let published := TopicTask.published es
        let labels := [("topic", info.name.toString)]
        ⟨publishedCounter.name, labels, toString published.length⟩ ∈ samples ∧
          ⟨publishedBytesCounter.name, labels,
            toString (published.map fun m => m.data.length).sum⟩ ∈ samples ∧
          (.delete ∉ es →
            ⟨retainedGauge.name, labels, toString published.length⟩ ∈ samples)) ∧
      ∀ (info : SubscriptionInfo) (topic : Topic) (pushRegistry : PushSubscriptionsRegistry)
        (delegate : SubscriptionManagerState) (topicManager : Option TopicManagerRef)
        (es : List (Env × ActorEvent)) (now : SystemTime) (topicAlive : Bool),
        (∀ e ∈ es, ¬ e.2.discards) →
        let a := (SubscriptionActor.start info topic pushRegistry delegate topicManager).run es
        a.getStats now topicAlive ∈ c.subscriptionStats →
        ∃ backlog outstanding retry : ℕ,
          ⟨backlogGauge.name, backlogGauge.labels (a.getStats now topicAlive),
            toString backlog⟩ ∈ samples ∧
          ⟨outstandingGauge.name, outstandingGauge.labels (a.getStats now topicAlive),
            toString outstanding⟩ ∈ samples ∧
          ⟨retryGauge.name, retryGauge.labels (a.getStats now topicAlive),
            toString retry⟩ ∈ samples ∧
          backlog + outstanding + retry + a.settledCount =
            ((SubscriptionActor.posted es).filter a.accepts).length := by
  obtain ⟨samples, hread, hblocks⟩ := readText_renderText version hage hsum c
  have htopics : ∀ f ∈ topicFamilies,
      samples.filter (fun s => s.name == f.name) = c.topicStats.map f.sample := by
    intro f hf
    refine hblocks (f.name, c.topicStats.map f.sample) ?_
    unfold blocks
    simp only [List.mem_append]
    exact .inl (.inl (.inr (List.mem_map_of_mem hf)))
  have hsubscriptions : ∀ f ∈ subscriptionFamilies formatAge,
      samples.filter (fun s => s.name == f.name) = c.subscriptionStats.map f.sample := by
    intro f hf
    refine hblocks (f.name, c.subscriptionStats.map f.sample) ?_
    unfold blocks
    simp only [List.mem_append]
    exact .inl (.inr (List.mem_map_of_mem hf))
  refine ⟨samples, hread, htopics, hsubscriptions, ?_, ?_⟩
  · intro delegate info topicInternalId es task hrun hstats
    have hsample : ∀ f ∈ topicFamilies, f.sample task.actor.getStats ∈ samples :=
      fun f hf => Family.sample_mem (htopics f hf) hstats
    have hcounted := TopicTask.counted_run
      (TopicActor.counted_start delegate info topicInternalId) hrun
    rw [List.nil_append] at hcounted
    intro published labels
    have hlabels : labels = [("topic", task.actor.getStats.topicName.toString)] := by
      change [("topic", info.name.toString)] = [("topic", task.actor.info.name.toString)]
      rw [hcounted.name]
    rw [hlabels]
    refine ⟨?_, ?_, fun hdelete => ?_⟩
    · rw [← hcounted.count]
      exact hsample publishedCounter (by simp [topicFamilies])
    · rw [← hcounted.bytes]
      exact hsample publishedBytesCounter (by simp [topicFamilies])
    · have hdeleted : task.actor.deleted = false := by
        rw [Bool.eq_false_iff, Ne, TopicTask.deleted_run hrun, not_or]
        exact ⟨Bool.false_ne_true, hdelete⟩
      rw [← hcounted.retained hdeleted]
      exact hsample retainedGauge (by simp [topicFamilies])
  · intro info topic pushRegistry delegate topicManager es now topicAlive hes a hstats
    have hsample : ∀ f ∈ subscriptionFamilies formatAge,
        f.sample (a.getStats now topicAlive) ∈ samples :=
      fun f hf => Family.sample_mem (hsubscriptions f hf) hstats
    exact ⟨_, _, _, hsample backlogGauge (by simp [subscriptionFamilies]),
      hsample outstandingGauge (by simp [subscriptionFamilies]),
      hsample retryGauge (by simp [subscriptionFamilies]),
      SubscriptionActor.gauges_add_up info topic pushRegistry delegate topicManager hes now
        topicAlive⟩

/-- On a page that is written while dispatches are recorded, the last bucket of the histogram
has the value of the count.  Once all of them are recorded, in whichever order their additions
happened, each bucket says how many dispatches took no longer than its bound. -/
theorem scrape_histogram_exact :
    (∀ seen, c.push = PushMetrics.snapshot seen →
      ∃ samples total, readText (renderText version formatAge formatSum c).toList = some samples ∧
        ⟨durationBucket, [("le", "+Inf")], total⟩ ∈ samples ∧
        samples.filter (fun s => s.name == durationCount) = [⟨durationCount, [], total⟩]) ∧
    ∀ dispatches ops, ops.Perm (PushMetrics.recordAll dispatches) →
      c.push = PushMetrics.snapshot (fun _ => PushMetrics.afterOps ops) →
      ∃ samples, readText (renderText version formatAge formatSum c).toList = some samples ∧
        samples.filter (fun s => s.name == durationBucket) =
          (durationBuckets.map fun bucket => ⟨durationBucket, [("le", bucket.le)],
            toString (dispatches.countP (fun d =>
              decide ((d.2 : WithTop Duration) ≤ bucket.bound)) % 2 ^ 64)⟩) ∧
        samples.filter (fun s => s.name == durationCount) =
          [⟨durationCount, [], toString (dispatches.length % 2 ^ 64)⟩] ∧
        samples.filter (fun s => s.name == durationSum) =
          [⟨durationSum, [], formatSum ((dispatches.map fun d => d.2 / 1000).sum % 2 ^ 64)⟩] ∧
        samples.filter (fun s => s.name == dispatchTotal) =
          [⟨dispatchTotal, [("result", "success")],
              toString (dispatches.countP Prod.fst % 2 ^ 64)⟩,
            ⟨dispatchTotal, [("result", "failure")],
              toString ((dispatches.countP fun d => !d.1) % 2 ^ 64)⟩] := by
  obtain ⟨samples, hread, hblocks⟩ := readText_renderText version hage hsum c
  have hpushed : ∀ b ∈ pushBlocks formatSum c.push,
      samples.filter (fun s => s.name == b.1) = b.2 :=
    fun b hb => hblocks b (List.mem_append_right _ hb)
  simp only [pushBlocks, List.forall_mem_cons] at hpushed
  obtain ⟨htotal, hbuckets, hdurations, hcount, -⟩ := hpushed
  refine ⟨fun seen hpush => ⟨samples, _, hread, ?_, hcount⟩, fun dispatches ops hops hpush => ?_⟩
  · have hlast : (durationBuckets.zip (runningTotals (2 ^ 64) 0 c.push.durationBuckets))[11]? =
        some (⟨⊤, "+Inf"⟩, c.push.durationCount) := by
      rw [List.getElem?_zip_eq_some, hpush]
      exact ⟨rfl, PushMetrics.runningTotals_durationCount seen⟩
    have hmem : ⟨durationBucket, [("le", "+Inf")], toString c.push.durationCount⟩ ∈
        bucketSamples c.push :=
      List.mem_map.mpr ⟨_, List.mem_of_getElem? hlast, rfl⟩
    rw [← hbuckets] at hmem
    exact (List.mem_filter.mp hmem).1
  · obtain ⟨hsuccess, hfailure⟩ := PushMetrics.outcomes_snapshot hops
    refine ⟨samples, hread, ?_, ?_, ?_, ?_⟩
    · rw [hbuckets, bucketSamples, hpush, PushMetrics.runningTotals_snapshot hops]
      rfl
    · rw [hcount, hpush, PushMetrics.durationCount_snapshot hops]
    · rw [hdurations, hpush, PushMetrics.durationSumMicros_snapshot hops]
    · rw [htotal, hpush, hsuccess, hfailure]

end

namespace Sample

def fixedPoint (digits unit n : ℕ) : String :=
  let scaled := (n * 10 ^ digits + unit / 2) / unit
  toString (scaled / 10 ^ digits) ++ "." ++
    String.ofList (Rfc3339.pad digits (scaled % 10 ^ digits))

lemma notMem_fixedPoint (digits unit n : ℕ) : '\n' ∉ (fixedPoint digits unit n).toList := by
  have hpad : '\n' ∉ Rfc3339.pad digits ((n * 10 ^ digits + unit / 2) / unit % 10 ^ digits) :=
    fun hmem => absurd (Rfc3339.isDigit_of_mem_pad hmem) (by decide)
  simp only [fixedPoint, String.toList_append, String.toList_ofList, List.mem_append, not_or]
  exact ⟨⟨notMem_toString _, notMem_of_literal rfl rfl⟩, hpad⟩

def requests : List SubscriptionRequest :=
  [.postMessages [message 1 none, message 2 none], .pullMessages 1 0]

/-- The additions of a dispatch of 3 ms and of a failed one of 4.5 s, interleaved. -/
def pushOps : List MetricsOp := [.success, .bucket 0, .failure, .sum 3000, .bucket 9, .sum 4500000]

def topicEvents : List TopicEvent :=
  [.receive 0 0 (.publishMessages [.new [1, 2, 3] none 0]), .posting .finish true]

def topicTask : TopicTask := TopicTask.start ⟨∅, 1⟩ ⟨topic.name, ∅, none⟩ topic.internalId

def collected : Collected :=
  collect [(topicTask.run topicEvents).map TopicTask.actor, none]
    [some ((start info).run (events requests), 1000000000, true)]
    (PushMetrics.snapshot fun _ => PushMetrics.afterOps pushOps) 7

end Sample

theorem scrape_accounts_for_two_messages :
    let a := (Sample.start Sample.info).run (Sample.events Sample.requests)
    ∃ samples, readText (renderText "0.7.0" (Sample.fixedPoint 3 1000000000)
        (Sample.fixedPoint 6 1000000) Sample.collected).toList = some samples ∧
      ⟨publishedBytesCounter.name, [("topic", Sample.topic.name.toString)], "3"⟩ ∈ samples ∧
      ∃ backlog outstanding retry : ℕ,
        ⟨backlogGauge.name, backlogGauge.labels (a.getStats 1000000000 true),
          toString backlog⟩ ∈ samples ∧
        ⟨outstandingGauge.name, outstandingGauge.labels (a.getStats 1000000000 true),
          toString outstanding⟩ ∈ samples ∧
        ⟨retryGauge.name, retryGauge.labels (a.getStats 1000000000 true),
          toString retry⟩ ∈ samples ∧
        backlog + outstanding + retry + a.settledCount =
          ((SubscriptionActor.posted (Sample.events Sample.requests)).filter a.accepts).length := by
  obtain ⟨samples, hread, -, -, htopics, hactors⟩ := scrape_accounts_for_messages "0.7.0"
    (Sample.notMem_fixedPoint 3 1000000000) (Sample.notMem_fixedPoint 6 1000000) Sample.collected
  refine ⟨samples, hread, ?_, hactors Sample.info Sample.topic ∅ .new none
    (Sample.events Sample.requests) 1000000000 true ?_ ?_⟩
  · exact (htopics _ _ _ Sample.topicEvents _ rfl (List.mem_singleton_self _)).2.1
  · exact ActorEvent.not_discards_of_all rfl
  · exact List.mem_singleton_self _

theorem scrape_histogram_of_two_dispatches :
    ∃ samples, readText (renderText "0.7.0" (Sample.fixedPoint 3 1000000000)
        (Sample.fixedPoint 6 1000000) Sample.collected).toList = some samples ∧
      samples.filter (fun s => s.name == durationCount) = [⟨durationCount, [], "2"⟩] := by
  obtain ⟨samples, hread, -, hcount, -⟩ := (scrape_histogram_exact "0.7.0"
    (Sample.notMem_fixedPoint 3 1000000000) (Sample.notMem_fixedPoint 6 1000000)
    Sample.collected).2 [(true, 3000000), (false, 4500000000)] Sample.pushOps (by decide) rfl
  exact ⟨samples, hread, hcount⟩

end Deltio
