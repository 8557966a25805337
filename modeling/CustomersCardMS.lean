import CustomersCardMS.CircularArc
import CustomersCardMS.RecvSock
import CustomersCardMS.RingFifo
import CustomersCardMS.FrameFormat
import CustomersCardMS.FrameDecoder
import CustomersCardMS.DecodeOutcome
import CustomersCardMS.DecoderSafety
import CustomersCardMS.DeliveryLoop
import CustomersCardMS.FramingRoundTrip
import CustomersCardMS.ClientConn
import CustomersCardMS.RefCount
import CustomersCardMS.SendQueue
import CustomersCardMS.ConnStep
import CustomersCardMS.ConnInvariant
import CustomersCardMS.ConnFaults
import CustomersCardMS.RefcountSafety
import CustomersCardMS.SendDiscipline
import CustomersCardMS.StreamGap
import CustomersCardMS.DbMysql
import CustomersCardMS.DbPool
import CustomersCardMS.Listener
import CustomersCardMS.PendingMap
import CustomersCardMS.ReferenceDecoder
import CustomersCardMS.RingStall
import CustomersCardMS.CommandOrder
import CustomersCardMS.NcCheck
import CustomersCardMS.NcConn
import CustomersCardMS.NcLeftovers
import CustomersCardMS.Rejection
import CustomersCardMS.CompletionDispatch
import CustomersCardMS.ConnLeak
import CustomersCardMS.StrayClose
import CustomersCardMS.PushAssembly
import CustomersCardMS.ListenSetup
import CustomersCardMS.PoolSafety
import CustomersCardMS.PostAccept
import CustomersCardMS.AcceptLoop
import CustomersCardMS.ConnAlone
import CustomersCardMS.ConnLeftovers
import CustomersCardMS.HandlerTermination
import CustomersCardMS.ListenHandles
import CustomersCardMS.PooledProcess
import CustomersCardMS.PooledSafety
import CustomersCardMS.SweepAccount
import CustomersCardMS.SweepSafety
import CustomersCardMS.WorkerTermination
import CustomersCardMS.NcAnswer
import CustomersCardMS.UniqueInstance
import CustomersCardMS.ConnIsolation
import CustomersCardMS.RestAccount
import CustomersCardMS.Sessions
import CustomersCardMS.SendRace
