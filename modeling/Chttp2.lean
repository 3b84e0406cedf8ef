import Chttp2.Lib.KeyedTable
import Chttp2.Lib.Machine
import Chttp2.Lib.PrefixCode
import Chttp2.Lib.PriorityQueue
import Chttp2.Lib.BitString
import Chttp2.Lib.MachineArith
import Chttp2.Buffer
import Chttp2.Flow
import Chttp2.FlowCredit
import Chttp2.Frame
import Chttp2.Padding
import Chttp2.Hpack.HuffmanCorrect
import Chttp2.Hpack.TableHistory
import Chttp2.Hpack.RoundTrip
import Chttp2.Hpack.PrefixInteger
import Chttp2.Hpack.Refinement
import Chttp2.Protocol.Api
import Chttp2.Protocol.Safety
import Chttp2.Protocol.Lifetime
import Chttp2.Protocol.StreamTable
import Chttp2.Protocol.DeadStreams
import Chttp2.Protocol.Delivery
import Chttp2.Protocol.ReceiveWindow
import Chttp2.Protocol.Reassembly
import Chttp2.Protocol.FrameFormat
import Chttp2.Protocol.HeaderValidation
import Chttp2.Protocol.FieldOrder
import Chttp2.Protocol.RequestHeaders
import Chttp2.Protocol.Isolation
import Chttp2.Protocol.Closing
import Chttp2.Session.Agreement
import Chttp2.Session.Reading
import Chttp2.Protocol.SettingsLoop
import Chttp2.Session.Submission
import Chttp2.Session.Writing
import Chttp2.Session.Outbound
import Chttp2.Lib.Lockstep
import Chttp2.Protocol.Twins
import Chttp2.Protocol.Reset
import Chttp2.Protocol.Verdicts
import Chttp2.Protocol.PeerSettings
import Chttp2.Protocol.HeldBlocks
import Chttp2.Protocol.IdleStreams
import Chttp2.Protocol.GoAway
import Chttp2.Protocol.ContentLength
import Chttp2.Reactor.Timers
import Chttp2.Pool.Targets
import Chttp2.Lib.Ensures
import Chttp2.Pool.Holding
import Chttp2.Pool.Registration
import Chttp2.Pool.CallStack
import Chttp2.Pool.Handover
import Chttp2.Pool.Retention
import Chttp2.Pool.Safety
import Chttp2.Lib.Channels
import Chttp2.Protocol.Server
import Chttp2.Protocol.Replies
import Chttp2.Hpack.Peer
import Chttp2.Protocol.Arrival
import Chttp2.Protocol.Written
import Chttp2.Protocol.ByteStream
import Chttp2.Lib.Interleaving
import Chttp2.Pool.Callbacks
import Chttp2.Pool.Lifecycle
import Chttp2.Pool.ExactlyOnce
import Chttp2.Session.Wire
import Chttp2.Client
