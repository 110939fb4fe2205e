import Hohnor.Pipelines
import Hohnor.SearchRange
import Hohnor.CrossThreadWrite
import Hohnor.DispatchLifetime
import Hohnor.FdReuse
import Hohnor.Framing
import Hohnor.LoopCleanUp
import Hohnor.PendingQueue
import Hohnor.ReadUntil
import Hohnor.WakeUp
import Hohnor.SignalHandler
import Hohnor.TCPConnector
import Hohnor.TimerArming
import Hohnor.EnabledCallbacks
import Hohnor.DisableRace
import Hohnor.CloseOnce
import Hohnor.ConnectorCallbacks
import Hohnor.RetryBudget
import Hohnor.PoolShutdown
import Hohnor.LogFile
import Hohnor.TCPAcceptor
import Hohnor.ConnectOutcome
import Hohnor.RetryBackoff
import Hohnor.WriteNotifications
import Hohnor.TimerBatch
import Hohnor.MutexHolder
import Hohnor.AsyncLogging
import Hohnor.FatalRecord
import Hohnor.StringConverter
import Hohnor.LogStream
import Hohnor.LogRecord
import Hohnor.CheckedInt
import Hohnor.GregorianCalendar
import Hohnor.Date
import Hohnor.PriorityQueue
import Hohnor.BoundedQueue
import Hohnor.LogContents
import Hohnor.Numerals
import Hohnor.IntegerTypes
import Hohnor.EchoService
import Hohnor.CountDownLatch
import Hohnor.ThreadStart
import Hohnor.FixedWidth
import Hohnor.Timestamp
import Hohnor.LogTime
import Hohnor.LogNames
import Hohnor.SnakeGame
import Hohnor.FileUtils
import Hohnor.StringPiece
import Hohnor.Keyboard
import Hohnor.InetAddress
import Hohnor.UDPEcho
import Hohnor.IPerf3
import Hohnor.WrkBenchmark
