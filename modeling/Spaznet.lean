import Spaznet.Quic.Verify.Replay
import Spaznet.Quic.Verify.Amplification
import Spaznet.Quic.Verify.FlowControl
import Spaznet.Quic.Verify.Closing
import Spaznet.Quic.Verify.FinDelivery
import Spaznet.Quic.Verify.KeyAgreement
import Spaznet.Quic.Verify.AckValidation
import Spaznet.Quic.Verify.CryptoReassembly
import Spaznet.Quic.Verify.InFlight
import Spaznet.Quic.Connection.RoundTrip
import Spaznet.Quic.Verify.Coalesced
import Spaznet.Quic.Verify.StreamCount
import Spaznet.Quic.Verify.SendLimits
import Spaznet.Quic.Verify.FrameRoundTrip
import Spaznet.Quic.Verify.AckRoundTrip
import Spaznet.Quic.Verify.ParamsRoundTrip
import Spaznet.Quic.Verify.Timing
import Spaznet.Quic.Verify.Confirmation
import Spaznet.Quic.Verify.DatagramSize
import Spaznet.Quic.Verify.WindowUpdate
import Spaznet.Quic.Verify.Reflection
import Spaznet.Quic.Verify.Routing
import Spaznet.Lib.Machine
import Spaznet.Quic.Recovery
import Spaznet.Quic.Frame
import Spaznet.Http.Verify.Incremental
import Spaznet.Http.Verify.FieldLines
import Spaznet.Http.Verify.SelfDelimiting
import Spaznet.Http.Verify.InputBound
import Spaznet.Http.Verify.Equivalence
import Spaznet.Http2.Verify.Assembly
import Spaznet.Server.Verify.Gauge
import Spaznet.Http2.Verify.ReceiveCredit
import Spaznet.Http2.Verify.Reset
import Spaznet.Http2.Verify.Equivalence
import Spaznet.Http2.Verify.HeaderFaults
import Spaznet.Http3.Verify.Dispatch
import Spaznet.Http3.Verify.Segmentation
import Spaznet.Http3.Verify.Retention
import Spaznet.Reactor.Verify.Output
import Spaznet.Reactor.ResponseWriter
import Spaznet.Platform.Resume
import Spaznet.Platform.Timer
import Spaznet.Quic.Verify.Receiving
import Spaznet.Http.Verify.RequestLine
import Spaznet.Http2.Session
import Spaznet.Http2.Verify.FrameCodec
import Spaznet.Http2.Hpack
import Spaznet.Http2.Conduct
import Spaznet.Http2.Verify.Concurrency
import Spaznet.Codec.PrefixInts
import Spaznet.Http3.Frame
import Spaznet.WebSocket.Frame
import Spaznet.WebSocket.WriteGate
