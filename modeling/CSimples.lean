import CSimples.Lib.Block
import CSimples.Lib.ByteStream
import CSimples.Lib.Circular
import CSimples.Lib.Keyed
import CSimples.Lib.Run
import CSimples.Lib.CondVar
import CSimples.Lib.SlotTable
import CSimples.Lib.CString
import CSimples.Lib.Decimal
import CSimples.Lib.Binary64
import CSimples.Lib.Calendar
import CSimples.Lib.TextFile
import CSimples.Lib.CTokens
import CSimples.Lib.LinkedList
import CSimples.Lib.Heap
import CSimples.Shared.Protocol
import CSimples.Shared.NetUtils
import CSimples.Shared.MessageTransfer
import CSimples.Shared.UniqueId
import CSimples.Shared.Logger
import CSimples.Shared.RingBuffer
import CSimples.Shared.RingThreads
import CSimples.Shared.RingSignals
import CSimples.Shared.RingDestroy
import CSimples.Central.WorkerRegistry
import CSimples.Central.RegistryMap
import CSimples.Central.TaskManager
import CSimples.Central.TaskQueue
import CSimples.Central.CentralServer
import CSimples.Central.Handlers
import CSimples.Central.TaskTracking
import CSimples.Central.TaskResults
import CSimples.Central.TaskIds
import CSimples.Central.StatusAgreement
import CSimples.Central.HeartbeatStatus
import CSimples.Central.ResultHandling
import CSimples.Central.MessageBoundaries
import CSimples.Central.Handshake
import CSimples.Central.WireRegistration
import CSimples.Central.TaskLife
import CSimples.Central.TaskCopies
import CSimples.Central.StalePointer
import CSimples.Central.Descriptors
import CSimples.Central.TaskClaims
import CSimples.Central.ClaimSafety
import CSimples.Worker.WorkerServer
import CSimples.Worker.Deadlock
import CSimples.Worker.TaskDelivery
import CSimples.Worker.TaskWire
import CSimples.Worker.JobProcessing
import CSimples.Server.JobHandler
import CSimples.Server.JobCalls
import CSimples.Server.JobStatistics
import CSimples.Server.JobRetries
import CSimples.Server.JobSections
import CSimples.Server.JobResults
import CSimples.Server.JobIndex
import CSimples.Server.JobOrder
import CSimples.Server.JobCapacity
import CSimples.Server.JobTimeouts
import CSimples.Server.JobMemory
import CSimples.Server.MemoryRefinement
import CSimples.Server.WorkerManager
import CSimples.Server.WorkerDirectory
import CSimples.Server.ServerMessages
import CSimples.Server.WorkerCounts
import CSimples.Server.Assignees
import CSimples.Server.Connections
import CSimples.Server.StaleWorkers
import CSimples.Worker.Requests
import CSimples.Worker.Registration
import CSimples.Worker.Process
import CSimples.Worker.Sockets
import CSimples.Worker.Pipeline
import CSimples.Client.JobResult
import CSimples.Client.Session
import CSimples.Heartbeat.HeartbeatServer
import CSimples.Heartbeat.FormFields
import CSimples.Heartbeat.History
import CSimples.Heartbeat.Responses
import CSimples.Heartbeat.Segmentation
import CSimples.Heartbeat.Routing
import CSimples.Heartbeat.UrlDecode
import CSimples.Heartbeat.Records
import CSimples.NetTraffic.Report
import CSimples.NetTraffic.DailyReport
import CSimples.NetTraffic.Cleanup
import CSimples.NetTraffic.TimeZones
import CSimples.NetTraffic.Config
import CSimples.NetTraffic.ConfigBounds
import CSimples.SysInfo.JsonField
import CSimples.ClientServer.IpFilter
import CSimples.ClientServer.IpStats
import CSimples.ClientServer.TrafficAccounts
import CSimples.ClientServer.ServerLives
import CSimples.ClientServer.StatsFile
import CSimples.Bin2Arr.Bin2Arr
import CSimples.Heartbeat.Client
