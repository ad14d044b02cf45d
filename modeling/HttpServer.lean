import HttpServer.AdminPage
import HttpServer.BatchResults
import HttpServer.BufferOwners
import HttpServer.BufferResize
import HttpServer.CommitReceive
import HttpServer.ConcurrentSaves
import HttpServer.ConnectionIsolation
import HttpServer.ConnectionNotices
import HttpServer.ConnectionOwnership
import HttpServer.ConnectionRead
import HttpServer.ConnectionSend
import HttpServer.ConnectionStart
import HttpServer.Database
import HttpServer.DispatchLossless
import HttpServer.DispatchShutdown
import HttpServer.EventDispatcher
import HttpServer.Exceptions
import HttpServer.Exchange
import HttpServer.FailedConnect
import HttpServer.FormData
import HttpServer.FrameSafety
import HttpServer.Growth
import HttpServer.HeaderCase
import HttpServer.HttpParser
import HttpServer.IncompleteRequest
import HttpServer.JsonAnswers
import HttpServer.LateCallbacks
import HttpServer.LifeEvents
import HttpServer.MemoryPool
import HttpServer.NetAddress
import HttpServer.OneShotTimers
import HttpServer.OperationWait
import HttpServer.ParserFraming
import HttpServer.Pausing
import HttpServer.PingPong
import HttpServer.Pipelining
import HttpServer.Poller
import HttpServer.PoolLimit
import HttpServer.PoolRegions
import HttpServer.PoolReturns
import HttpServer.PromiseOperation
import HttpServer.ProtocolSwitch
import HttpServer.PublishCounters
import HttpServer.ReceiveBuffer
import HttpServer.Reentrancy
import HttpServer.RingBuffer
import HttpServer.RingSearch
import HttpServer.RouteConfig
import HttpServer.Routing
import HttpServer.SaveRecord
import HttpServer.SchedulerConfig
import HttpServer.SchedulerTasks
import HttpServer.SendQueue
import HttpServer.ServerLife
import HttpServer.SessionClose
import HttpServer.SessionSegmentation
import HttpServer.ShrinkToFit
import HttpServer.SocketOwnership
import HttpServer.Sockets
import HttpServer.SyncDispatch
import HttpServer.TcpDuplex
import HttpServer.TcpReceive
import HttpServer.TcpSend
import HttpServer.TimerSpin
import HttpServer.Timers
import HttpServer.TwoSendQueues
import HttpServer.UrlDecode
import HttpServer.WakeUp
import HttpServer.WebsocketAccept
import HttpServer.WebsocketFragments
