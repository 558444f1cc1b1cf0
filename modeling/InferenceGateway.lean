import InferenceGateway.Api.Routes
import InferenceGateway.Backends.Registry
import InferenceGateway.Fleet.Refinement
import InferenceGateway.Lib.Clock
import InferenceGateway.Lib.History
import InferenceGateway.Lib.Tally
import InferenceGateway.Lib.Transition
import InferenceGateway.Lib.Ranking
import InferenceGateway.Fleet.Slots
import InferenceGateway.Guarantees.Slots
import InferenceGateway.Fleet.Turns
import InferenceGateway.Fleet.Breaker
import InferenceGateway.Fleet.Probes
import InferenceGateway.Guarantees.Breaker
import InferenceGateway.Guarantees.Verdicts
import InferenceGateway.Guarantees.ErrorRate
import InferenceGateway.Fleet.Records
import InferenceGateway.Guarantees.ClientErrors
import InferenceGateway.Backends.Writes
import InferenceGateway.Proxy.Writes
import InferenceGateway.Scheduler.Lifecycle
import InferenceGateway.Guarantees.Admission
import InferenceGateway.Guarantees.Handoff
import InferenceGateway.Lib.EventLoop
import InferenceGateway.Scheduler.Tasks
import InferenceGateway.Guarantees.Queue
import InferenceGateway.Scheduler.Rounds
import InferenceGateway.Guarantees.Rejections
import InferenceGateway.Proxy.Stream
import InferenceGateway.Guarantees.Streams
import InferenceGateway.Guarantees.Retries
import InferenceGateway.Lib.Binary64
import InferenceGateway.Lib.Dict
import InferenceGateway.Lib.Json
import InferenceGateway.Core.Codec
import InferenceGateway.Proxy.Requests
import InferenceGateway.Guarantees.Headers
import InferenceGateway.Guarantees.Bodies
import InferenceGateway.Guarantees.Codings
import InferenceGateway.Lib.JsonScanner
import InferenceGateway.Lib.JsonWriter
import InferenceGateway.Lib.JsonNumbers
import InferenceGateway.Lib.JsonRoundTrip
import InferenceGateway.Lib.JsonProgress
import InferenceGateway.Lib.JsonLimits
import InferenceGateway.Lib.JsonStrict
import InferenceGateway.Lib.Python
import InferenceGateway.Scheduler.Classifier
import InferenceGateway.Api.Validation
import InferenceGateway.Guarantees.Totality
import InferenceGateway.Lib.Ring
import InferenceGateway.Lib.Selection
import InferenceGateway.Scheduler.Choice
import InferenceGateway.Guarantees.Balance
import InferenceGateway.Guarantees.Routing
import InferenceGateway.Guarantees.Shares
import InferenceGateway.Guarantees.Classes
import InferenceGateway.Lib.ServerSentEvents
import InferenceGateway.Guarantees.Framing
import InferenceGateway.Guarantees.Merging
import InferenceGateway.Guarantees.ThreadIds
import InferenceGateway.Guarantees.Attempts
import InferenceGateway.Fleet.Samples
import InferenceGateway.Guarantees.Samples
import InferenceGateway.Lib.Averages
import InferenceGateway.Guarantees.Averages
import InferenceGateway.Guarantees.Resends
import InferenceGateway.Fleet.Circuit
import InferenceGateway.Lib.Gather
import InferenceGateway.Backends.Probe
import InferenceGateway.Guarantees.Readiness
import InferenceGateway.Guarantees.Completion
import InferenceGateway.Guarantees.Accounting
import InferenceGateway.Guarantees.Ticks
import InferenceGateway.Backends.Laws
import InferenceGateway.Guarantees.Rows
import InferenceGateway.Lib.JsonLines
import InferenceGateway.Core.Logging
import InferenceGateway.Guarantees.LogLines
import InferenceGateway.Guarantees.Conversations
import InferenceGateway.Lib.Spacing
import InferenceGateway.Scheduler.Loop
import InferenceGateway.Guarantees.Throughput
