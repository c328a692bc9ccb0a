import Deltio.AckCalls
import Deltio.Attachment
import Deltio.AttemptRuns
import Deltio.Attempts
import Deltio.Backoff
import Deltio.Batching
import Deltio.CircularWait
import Deltio.Conservation
import Deltio.Counters
import Deltio.CreateRoundTrip
import Deltio.Dates
import Deltio.DeadLetter
import Deltio.Delays
import Deltio.DeliveryLimit
import Deltio.Detachment
import Deltio.EventLoop
import Deltio.Exclusivity
import Deltio.FailedCalls
import Deltio.FieldMasks
import Deltio.Filter
import Deltio.FilterGrammar
import Deltio.FilterKeys
import Deltio.FilterLiterals
import Deltio.FilterPrinter
import Deltio.FlowControl
import Deltio.FlowGate
import Deltio.Frames
import Deltio.KeyOrder
import Deltio.Leases
import Deltio.Lib.Base64
import Deltio.Lib.Calendar
import Deltio.Lib.DelayQueue
import Deltio.Lib.Delivery
import Deltio.Lib.Exposition
import Deltio.Lib.HashMap
import Deltio.Lib.Histogram
import Deltio.Lib.Jobs
import Deltio.Lib.LeaseMap
import Deltio.Lib.Listing
import Deltio.Lib.Machine
import Deltio.Lib.Notify
import Deltio.Lib.OffsetWalk
import Deltio.Lib.Ordering
import Deltio.Lib.Registry
import Deltio.Lib.Result
import Deltio.Lib.Rfc3339
import Deltio.Lib.SortedSet
import Deltio.Lib.Utf8
import Deltio.Listings
import Deltio.LongPolling
import Deltio.Managers
import Deltio.Message
import Deltio.MessageIds
import Deltio.Metrics
import Deltio.Names
import Deltio.Outstanding
import Deltio.Paging
import Deltio.Parser
import Deltio.PublishLog
import Deltio.PullBounds
import Deltio.PullReference
import Deltio.PushExclusivity
import Deltio.PushLoop
import Deltio.PushMetrics
import Deltio.PushRegistry
import Deltio.Redelivery
import Deltio.Refinement
import Deltio.RetryQueue
import Deltio.RetryRuns
import Deltio.Runs
import Deltio.Scrape
import Deltio.Seek
import Deltio.Server
import Deltio.ServerRuns
import Deltio.StreamingPull
import Deltio.Subscription
import Deltio.SubscriptionActor
import Deltio.SubscriptionManager
import Deltio.Time
import Deltio.TopicActor
import Deltio.TopicManager
import Deltio.TopicRuns
import Deltio.TrackerMap
import Deltio.Wakeups
import Deltio.Wire
import Deltio.World
