import Mosschat.Library.HashMap
import Mosschat.Library.Machine
import Mosschat.Core.Event.Ingest
import Mosschat.Core.Event.IngestRules
import Mosschat.Core.Event.BodyRules
import Mosschat.Core.Recording.Run
import Mosschat.Core.View
import Mosschat.Core.Recording.WellFormed
import Mosschat.Core.Recording.Tombstones
import Mosschat.Core.Recording.Strangers
import Mosschat.Core.Recording.Honouring
import Mosschat.Core.Recording.Alike
import Mosschat.Core.Recording.Redelivery
import Mosschat.Core.Recording.Isolation
import Mosschat.Core.Recording.Authorisation
import Mosschat.Core.Store
import Mosschat.Core.View.Replay
import Mosschat.Core.View.House
import Mosschat.Core.View.Restart
import Mosschat.Core.View.Dropped
import Mosschat.Core.Event.BodyCodec
import Mosschat.Library.SortedMap
import Mosschat.Core.View.Pages
import Mosschat.Core.View.DropFrame
import Mosschat.Net.Gate
import Mosschat.Net.Addr
import Mosschat.Net.Gate.Seal
import Mosschat.Net.Gate.Client
import Mosschat.Net.Gate.Knocks
import Mosschat.Library.Fifo
import Mosschat.Net.Discovery
import Mosschat.Net.Discovery.Replay
import Mosschat.Net.Path
import Mosschat.Library.Log
import Mosschat.Net.Gate.Server
import Mosschat.Net.Gate.Sessions
import Mosschat.Net.Gate.Relay
import Mosschat.Net.Liveness
import Mosschat.Net.Liveness.Runs
import Mosschat.Net.Path.Shaper
import Mosschat.Net.Discovery.Soundness
import Mosschat.Net.Gate.FrameCodec
import Mosschat.Library.Links
import Mosschat.Net.Gate.Tables
import Mosschat.Net.Gate.TablePlaces
import Mosschat.Net.Gate.TableTeardown
import Mosschat.Net.Gate.TableOpening
import Mosschat.Net.Gate.TableRuns
import Mosschat.Library.Oneshot
import Mosschat.Net.Gate.SessionMap
import Mosschat.Net.Gate.Visits
import Mosschat.Net.Gate.StartReader
import Mosschat.Net.Gate.Starts
import Mosschat.Net.Gate.Introductions
import Mosschat.Net.Porch
import Mosschat.Net.Doorbell
import Mosschat.Net.Doorbell.Path
import Mosschat.Net.Doorbell.Stream
import Mosschat.Net.Doorbell.FrameCodec
import Mosschat.Net.Callers
import Mosschat.Net.HouseRun
import Mosschat.Library.Numeral
import Mosschat.Library.Json
import Mosschat.Library.TextCut
import Mosschat.Net.AddrText
import Mosschat.Net.Diag
import Mosschat.Net.Diag.RoundTrip
import Mosschat.Core.Recording.Grants
import Mosschat.Core.Recording.Ownership
import Mosschat.Library.InPlace
import Mosschat.Core.Recording.InPlace
import Mosschat.Library.Cbor.WellFormed
import Mosschat.Core.Event.BodyCarrier
import Mosschat.Core.View.Retry
import Mosschat.Net.Gate.Answers
import Mosschat.Library.TokenBucket
import Mosschat.Net.Gate.Buckets
import Mosschat.Net.Gate.SeenCap
import Mosschat.Net.Gate.Sends
import Mosschat.Net.Gate.HourlyCaps
import Mosschat.Net.Gate.Announce
import Mosschat.Net.Gate.Newest
import Mosschat.Net.Gate.StartBudget
import Mosschat.Net.Doorbell.PongLimiter
import Mosschat.Net.Gate.Attempts
import Mosschat.Net.Doorbell.Attempt
import Mosschat.Net.Doorbell.Candidates
import Mosschat.Net.Doorbell.Streak
import Mosschat.Net.Doorbell.Upgrade
import Mosschat.Net.Doorbell.Ending
import Mosschat.Net.Doorbell.Completeness
import Mosschat.Net.Doorbell.Watching
import Mosschat.Net.Doorbell.Detection
import Mosschat.Library.Leases
import Mosschat.Net.Porch.Sources
import Mosschat.Net.Porch.Gates
import Mosschat.Net.Doorbell.ProbeCodec
import Mosschat.Net.Gate.ControlStream
import Mosschat.Net.Path.Entries
import Mosschat.Net.Path.Rate
import Mosschat.Library.Strides
import Mosschat.Net.Porch.Segments
import Mosschat.Net.Porch.Receive
import Mosschat.Net.Porch.Probes
import Mosschat.Net.Path.Wakeups
import Mosschat.Net.Diag.Recorder
import Mosschat.Net.Doorbell.Visit
import Mosschat.Net.Live.Cache
import Mosschat.Net.Gate.Returns
import Mosschat.Net.Gate.Invites
import Mosschat.Library.Collect
import Mosschat.Net.Doorbell.Gather
import Mosschat.Net.HouseRun.Introductions
import Mosschat.Net.Discovery.Gap
import Mosschat.Net.Discovery.Silence
import Mosschat.Library.Ranked
import Mosschat.Library.TextFile
import Mosschat.Net.Diag.Files
import Mosschat.Net.Diag.Writer
import Mosschat.Net.Diag.Reader
import Mosschat.Net.Diag.Durability
import Mosschat.Net.Diag.Parts
import Mosschat.Net.Diag.Reopen
import Mosschat.Net.Diag.Caps
import Mosschat.Net.Diag.Latest
import Mosschat.Library.Restart
import Mosschat.Net.Path.Congestion
import Mosschat.Library.Semaphore
import Mosschat.Net.Gate.Members
import Mosschat.Net.Gate.Admission
