import ZxProto.Library.ByteMemory
import ZxProto.Library.Transducer
import ZxProto.Library.ReadLog
import ZxProto.Library.Z80
import ZxProto.Library.Z80Accumulator
import ZxProto.Library.BlockHeap
import ZxProto.Library.LinkedChain
import ZxProto.Library.BucketTable
import ZxProto.Library.Simulation
import ZxProto.Objects
import ZxProto.ObjectRead
import ZxProto.ObjectReadAsm
import ZxProto.Decoder
import ZxProto.ObjectReadLog
import ZxProto.ObjectBuild
import ZxProto.ObjectCopy
import ZxProto.ObjectHeap
import ZxProto.ObjectAllocation
import ZxProto.Send
import ZxProto.Encoders
import ZxProto.ObjectRoundTrip
import ZxProto.Copies
import ZxProto.Serialize
import ZxProto.PartialSend
import ZxProto.Process
import ZxProto.Accessors
import ZxProto.AccessorsAsm
import ZxProto.AccessorsAgreement
import ZxProto.StringProperty
import ZxProto.FrameMachine
import ZxProto.Stream
import ZxProto.BufferInvariant
import ZxProto.ParseLoop
import ZxProto.Callbacks
import ZxProto.Segmentation
import ZxProto.Boundary
import ZxProto.RoundTrip
import ZxProto.Dissector
import ZxProto.DissectorCapture
import ZxProto.Req
import ZxProto.Endpoint
import ZxProto.Processor
import ZxProto.Output
import ZxProto.Handlers
import ZxProto.Network
import ZxProto.Channel
import ZxProto.ReplyToReply
import ZxProto.Answers
import ZxProto.ClientSide
import ZxProto.ClientReceive
import ZxProto.ServerSide
import ZxProto.Correlation
import ZxProto.StaleReplies
import ZxProto.Silence
import ZxProto.LocalCall
import ZxProto.CallPhases
import ZxProto.RemoteCall
import ZxProto.CallReturn
import ZxProto.Terminal
import ZxProto.TerminalRuns
import ZxProto.Discipline
import ZxProto.ErrorReply
import ZxProto.ErrorReplyBuffer
import ZxProto.Responses
import ZxProto.ServerObjects
import ZxProto.ResponseChain
import ZxProto.RequestComplete
import ZxProto.ResponseRelease
import ZxProto.ResponseRuns
import ZxProto.ServerMemory
import ZxProto.HeapServer
import ZxProto.Uthash
import ZxProto.UthashRuns
import ZxProto.HandlerLookup
import ZxProto.Disconnect
import ZxProto.Reconnect
import ZxProto.Liveness
import ZxProto.Lookup
import ZxProto.LookupAsm
