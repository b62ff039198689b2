import TinyWS.Framework.Machine
import TinyWS.Framework.Lines
import TinyWS.Framework.Monitor
import TinyWS.Framework.ByteOrder
import TinyWS.Framework.Decimal
import TinyWS.Framework.RoundRobin
import TinyWS.Framework.Descriptors
import TinyWS.Framework.Backlog
import TinyWS.Base.BoundedBlockingQueue
import TinyWS.Base.BlockingQueue
import TinyWS.Base.CountDownLatch
import TinyWS.Base.MutexLock
import TinyWS.Base.LogStream
import TinyWS.Base.CircularBuffer
import TinyWS.Base.ThreadPool
import TinyWS.Base.AsyncLogging
import TinyWS.Base.DoubleBuffer
import TinyWS.Base.PartialWrites
import TinyWS.Net.Buffer
import TinyWS.Net.BufferQueue
import TinyWS.Net.ReadFd
import TinyWS.Net.BufferInts
import TinyWS.Net.Epoll
import TinyWS.Net.Poll
import TinyWS.Net.AcceptQueue
import TinyWS.Net.Registration
import TinyWS.Net.TcpConnection
import TinyWS.Net.OutputStream
import TinyWS.Net.Shutdown
import TinyWS.Net.Notification
import TinyWS.Net.ChannelEvents
import TinyWS.Net.HalfClose
import TinyWS.Net.Duplex
import TinyWS.Net.EventLoop
import TinyWS.Net.Wakeup
import TinyWS.Net.PendingFunctors
import TinyWS.Net.EventLoopThread
import TinyWS.Net.TimerQueue
import TinyWS.Net.TimerSets
import TinyWS.Net.TimerArmed
import TinyWS.Net.TimerFired
import TinyWS.Net.TimerCancel
import TinyWS.Net.TimerLoop
import TinyWS.Net.DueTimers
import TinyWS.Net.TimerArithmetic
import TinyWS.Net.CrossCancel
import TinyWS.Net.TcpServer
import TinyWS.Net.Socket
import TinyWS.Net.Balance
import TinyWS.Net.LifeCycle
import TinyWS.Net.LateSend
import TinyWS.Net.Teardown
import TinyWS.Net.Connector
import TinyWS.Net.ConnectAttempts
import TinyWS.Net.BackOff
import TinyWS.Net.TcpClient
import TinyWS.Net.ClientLife
import TinyWS.Net.ChannelOwners
import TinyWS.Net.ChannelMoves
import TinyWS.Net.Deregistered
import TinyWS.MultiProcess.Channel
import TinyWS.MultiProcess.Registration
import TinyWS.MultiProcess.Fork
import TinyWS.MultiProcess.TcpConnection
import TinyWS.MultiProcess.OutputStream
import TinyWS.MultiProcess.TimerQueue
import TinyWS.MultiProcess.TimerSets
import TinyWS.MultiProcess.TimerRefinement
import TinyWS.MultiProcess.ProcessPool
import TinyWS.MultiProcess.SocketPair
import TinyWS.MultiProcess.TcpServer
import TinyWS.MultiProcess.AcceptLock
import TinyWS.MultiProcess.Termination
import TinyWS.MultiProcess.SharedEpoll
import TinyWS.MultiProcess.Replacement
import TinyWS.MultiProcess.KillAll
import TinyWS.MultiProcess.Service
import TinyWS.MultiProcess.OwnHandler
import TinyWS.MultiProcess.Prefork
import TinyWS.MultiProcess.Workers
import TinyWS.MultiProcess.Dispatch
import TinyWS.MultiProcess.Orphans
import TinyWS.Http.HttpServer
import TinyWS.Http.Answered
import TinyWS.Http.Rejected
import TinyWS.Http.Termination
import TinyWS.Http.Incremental
import TinyWS.Http.Framing
import TinyWS.Http.RoundTrip
import TinyWS.Http.RequestLine
import TinyWS.Http.Responses
import TinyWS.Http.Session
import TinyWS.Http.Wire
import TinyWS.WebBench.Request
import TinyWS.WebBench.Totals
import TinyWS.WebBench.Served
import TinyWS.WebBench.KeepAlive
import TinyWS.WebBench.Counts
import TinyWS.WebBench.Refused
