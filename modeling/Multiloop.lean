import Multiloop.Framework.Transition
import Multiloop.Framework.Counting
import Multiloop.Framework.Conveyor
import Multiloop.Framework.Usize
import Multiloop.Framework.Ledger
import Multiloop.Framework.Bins
import Multiloop.Framework.Agenda
import Multiloop.Asyncio
import Multiloop.Channel.Raw
import Multiloop.Channel.Consistent
import Multiloop.Channel.Capacity
import Multiloop.Channel.History
import Multiloop.Channel.Tasks
import Multiloop.Channel.Moves
import Multiloop.Channel.Wiring
import Multiloop.Channel.Conservation
import Multiloop.Channel.Putters
import Multiloop.Channel.Overtaking
import Multiloop.Channel.Select
import Multiloop.Channel.Announced
import Multiloop.RWLock.Raw
import Multiloop.RWLock.Tasks
import Multiloop.RWLock.Moves
import Multiloop.RWLock.Queues
import Multiloop.RWLock.Wiring
import Multiloop.RWLock.Permits
import Multiloop.Sync.Event
import Multiloop.Sync.Pool
import Multiloop.Sync.Semaphore
import Multiloop.Sync.CapacityLimiter
import Multiloop.Sync.Lock
import Multiloop.Sync.Ownership
import Multiloop.Sync.Frames
import Multiloop.Sync.Condition
import Multiloop.Sync.Wait
import Multiloop.Sync.Notification
import Multiloop.Sync.Barrier
import Multiloop.Sync.Rounds
import Multiloop.Sync.OneShot
import Multiloop.WaitGroup.Raw
import Multiloop.WaitGroup.Tracked
import Multiloop.WaitGroup.Handover
import Multiloop.Nursery.Group
import Multiloop.Nursery.Exit
import Multiloop.Nursery.Collecting
import Multiloop.Nursery.Reports
import Multiloop.Pool.Native
import Multiloop.Pool.Places
import Multiloop.Pool.Drain
import Multiloop.Pool.Affinity
import Multiloop.Pool.EventLoops
import Multiloop.Pool.Shutdown
import Multiloop.Context.AsyncContext
import Multiloop.Context.Cancellation
import Multiloop.Context.CancelScope
import Multiloop.Context.Timeouts
import Multiloop.Context.Balance
import Multiloop.Http.Text
import Multiloop.Http.Request
import Multiloop.Http.Connection
import Multiloop.Http.WebSocket
import Multiloop.Http.Engine
import Multiloop.Http.Decoder
import Multiloop.Http.Bounds
import Multiloop.Http.Segmentation
import Multiloop.Http.Observer
import Multiloop.Http.Phases
import Multiloop.Http.Grammar
import Multiloop.Http.Fields
import Multiloop.Http.Framing
import Multiloop.Http.Response
import Multiloop.Http.Client
import Multiloop.Http.Wire
import Multiloop.Http.Chunks
import Multiloop.Http.Protocol
import Multiloop.Http.Steps
import Multiloop.Http.KeepAlive
import Multiloop.Http.Cycles
import Multiloop.Http.Steady
import Multiloop.Http.Closing
import Multiloop.Http.Serving
import Multiloop.Http.Advertised
import Multiloop.Http.SelfDelimiting
import Multiloop.Http.Draining
import Multiloop.Http.Frozen
import Multiloop.Http.Progress
import Multiloop.Http.Sequence
import Multiloop.Http.InSequence
import Multiloop.Http.Bodies
import Multiloop.Http.Delivery
import Multiloop.Http.Delivered
import Multiloop.Http.Frames
import Multiloop.Http.Absorbing
import Multiloop.Http.Reassembly
import Multiloop.Http.Messages
import Multiloop.Http.Buffered
import Multiloop.Http.BodyLimit
import Multiloop.Http.Parser
import Multiloop.Http.Heads
import Multiloop.Http.Reader
import Multiloop.Http.Reading
import Multiloop.Http.Disconnect
import Multiloop.Http.Decoders
import Multiloop.Http.Outbound
import Multiloop.Http.SyncStreamReader
import Multiloop.Http.ChunkedCoding
import Multiloop.Http.Accepted
import Multiloop.Http.Twins
import Multiloop.Http.ContentLength
import Multiloop.Http.ReadChunkedBody
import Multiloop.Http.TwoDecoders
import Multiloop.Http.Unmasking
import Multiloop.Http.Serializers
import Multiloop.Http.FrameHeaders
import Multiloop.Http.Completeness
import Multiloop.Lifespan.Truthful
import Multiloop.Sync.Outcome
import Multiloop.Context.Armed
import Multiloop.Context.Outdated
import Multiloop.Pool.Wakeups
import Multiloop.Http.Intake
import Multiloop.Http.Admission
import Multiloop.RWLock.Preference
import Multiloop.RWLock.Quiescence
import Multiloop.Server.Orderly
