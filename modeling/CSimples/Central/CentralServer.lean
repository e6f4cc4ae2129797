import CSimples.Central.TaskManager
import CSimples.Central.WorkerRegistry
import CSimples.Shared.NetUtils

/-!
# The central server (central_server/central_server.c)

The handlers that run in a worker's thread and the timeout checker, over the
state they share: the registry and the task manager. Messages that were written
completely are collected in `sent`, closed descriptors in `closed`. Whether a
`send_message` succeeds is a parameter of each call.
-/

namespace CSimples.CentralServer
open Block Keyed ByteStream Protocol NetUtils WorkerRegistry TaskManager

def workerTimeoutSec : ℕ := 30
def taskTimeoutSec : ℕ := 60

structure Server where
  host : Endian
  registry : Registry
  manager : Manager
  sent : List (ℤ × Message)
  closed : List ℤ

def maxWorkers : ℕ := 100
def maxTasks : ℕ := 1000
def taskQueueSize : ℕ := 500

def initializeServer (host : Endian) (workers : Slots WorkerInfo maxWorkers)
    (tasks : Slots TaskInfo maxTasks) (queue : Slots Task taskQueueSize) : Option Server := do
  let registry ← workerRegistryCreate maxWorkers (by decide) workers
  let manager ← taskManagerCreate maxTasks taskQueueSize (by decide) tasks queue
  some ⟨host, registry, manager, [], []⟩

def blankTask : Task :=
  ⟨0, List.replicate maxDataSize 0, List.replicate maxDataSize 0, 0, 0⟩
def blankWorkers : Slots WorkerInfo maxWorkers :=
  some ⟨List.replicate maxWorkers (newWorker 0 0 0 0), List.length_replicate⟩
def blankTasks : Slots TaskInfo maxTasks :=
  some ⟨List.replicate maxTasks (newInfo blankTask 0), List.length_replicate⟩
def blankQueue : Slots Task taskQueueSize :=
  some ⟨List.replicate taskQueueSize blankTask, List.length_replicate⟩
def blankServer : Server :=
  (initializeServer .little blankWorkers blankTasks blankQueue).get rfl

/-! ### Messages (central_server.c:131-134, 153-155, 195-197, 233-239) -/

def bodyOf (bs : List UInt8) : MessageBody :=
  ⟨(bs ++ List.replicate bodySize 0).take bodySize, by simp⟩

def messageOf (type : MessageType) (clientId : ℕ) (body : List UInt8) : Message :=
  ⟨⟨type.code, .ofNat clientId⟩, bodyOf body⟩

def registerResponse (host : Endian) (workerId : ℕ) : Message :=
  messageOf .registerResponse workerId (bytesOf host 1)

def heartbeatResponse (workerId : ℕ) : Message := messageOf .heartbeatResponse workerId []

def resultAck (taskId : ℕ) : Message := messageOf .resultAck taskId []

/-- The TASK message: `submit_job` with `data_size`
set, `job_type` zero and the whole `input_data` copied in. -/
def taskMessage (host : Endian) (task : Task) : Message :=
  messageOf .task task.taskId
    (bytesOf host 0 ++ memcpy (List.replicate maxDataSize 0) task.inputData maxDataSize ++
      bytesOf host (.ofNat maxDataSize))

/-- `send_message` as its callers see it: 0 with the message written, or -1. -/
def Server.send (s : Server) (sockfd : ℤ) (m : Message) (ok : Bool) : ℤ × Server :=
  if ok then (0, { s with sent := s.sent ++ [(sockfd, m)] }) else (-1, s)

/-! ### Handlers (central_server.c:118-249, 346-352) -/

/-- The slot a pointer `worker` points to. Pointers come from
`worker_registry_get`, so the slot is one of the block. -/
def deref (r : Registry) (worker : ℕ) : WorkerInfo := r.workers.getD worker (newWorker 0 0 0 0)

def Server.removeWorker (s : Server) (workerId : ℕ) : Server :=
  let removed := workerRegistryRemove s.registry workerId
  { s with registry := removed.registry, closed := s.closed ++ removed.closed }

def handleWorkerRegistration (s : Server) (sockfd : ℤ) (threadId : ℕ) (now : ℤ) (sent : Bool) :
    ℕ × Server :=
  let added := workerRegistryAdd s.registry sockfd threadId now
  if added.1 = 0 then (0, s)
  else
    let r := Server.send { s with registry := added.2 } sockfd
      (registerResponse s.host added.1) sent
    if r.1 < 0 then (0, r.2.removeWorker added.1) else (added.1, r.2)

def handleWorkerHeartbeat (s : Server) (workerId : ℕ) (sockfd : ℤ) (now : ℤ) (sent : Bool) :
    Server :=
  let updated := workerRegistryUpdateHeartbeat s.registry workerId now
  if updated.1 ≠ 0 then s
  else (Server.send { s with registry := updated.2 } sockfd (heartbeatResponse workerId) sent).2

def countResult (status : ℕ) (w : WorkerInfo) : WorkerInfo :=
  if status = statusSuccess then { w with tasksCompleted := (w.tasksCompleted + 1) % 2^32 }
  else { w with tasksFailed := (w.tasksFailed + 1) % 2^32 }

/-- `handle_task_result` (central_server.c:162-201). The `int` that
`recv_payload` returns is compared with a `size_t`, so it is taken modulo 2^64;
`status` is passed on as a `uint8_t`. -/
def handleTaskResult (s : Server) (workerId : ℕ) (sockfd : ℤ) (conn : Source UInt8) (now : ℤ)
    (sent : Bool) : Server × Source UInt8 :=
  let received := recvPayload taskResultSize conn
  if received.1 % 2^64 ≠ taskResultSize then (s, received.2.2)
  else
    let result := taskResultOf s.host received.2.1
    let taskId := result.taskId.toNat
    let processed := taskManagerProcessResult s.manager taskId (result.status.toNat % 2^8)
      result.execTimeMs.toNat now
    let registry := match workerRegistryGet s.registry workerId with
      | none => s.registry
      | some worker =>
        (workerRegistryUpdateStatus s.registry workerId .idle).2.store worker
          (countResult result.status.toNat)
    (({ s with manager := processed.2, registry := registry }.send sockfd (resultAck taskId)
      sent).2, received.2.2)

def assignTaskToWorker (s : Server) (workerId : ℕ) (now : ℤ) (sent : Bool) : ℤ × Server :=
  match workerRegistryGet s.registry workerId with
  | none => (-1, s)
  | some worker =>
    if (deref s.registry worker).status ≠ .idle then (-1, s)
    else match (taskManagerGetNextTask s.manager).1 with
    | none => (-1, s)
    | some task =>
      let popped := (taskManagerGetNextTask s.manager).2
      let assigned := taskManagerAssignTask popped task.taskId workerId now
      if assigned.1 ≠ 0 then (-1, { s with manager := assigned.2 })
      else
        let busy := (workerRegistryUpdateStatus s.registry workerId .busy).2
        let r := Server.send { s with manager := assigned.2, registry := busy }
          (deref busy worker).sockfd (taskMessage s.host task) sent
        if r.1 < 0 then
          (-1, { r.2 with registry := (workerRegistryUpdateStatus r.2.registry workerId .idle).2 })
        else (0, r.2)

/-- "Check if there are pending tasks to assign" (central_server.c:305-307, 314-316). -/
def assignPending (s : Server) (workerId : ℕ) (now : ℤ) (sent : Bool) : Server :=
  if taskManagerPendingCount s.manager > 0 then (assignTaskToWorker s workerId now sent).2 else s

def checkWorkerTimeouts (s : Server) (now : ℤ) : Server :=
  { s with registry := (workerRegistryCheckTimeouts s.registry now workerTimeoutSec).2 }
def checkTaskTimeouts (s : Server) (now : ℤ) : Server :=
  { s with manager := (taskManagerCheckTimeouts s.manager now taskTimeoutSec).2 }

/-! ### Steps -/

/-- What can happen to the shared state, each step one completed piece of work
of one thread. -/
inductive Step where
  | createTask (inputData : Option (List UInt8)) (inputSize : ℕ) (mem : Option Task) (now : ℤ)
  | register (sockfd : ℤ) (threadId : ℕ) (now : ℤ) (sent : Bool)
  | heartbeat (workerId : ℕ) (sockfd : ℤ) (now : ℤ) (sent taskSent : Bool)
  | taskResult (workerId : ℕ) (sockfd : ℤ) (conn : Source UInt8) (now : ℤ) (sent taskSent : Bool)
  | disconnect (workerId : ℕ)
  | workerTimeouts (now : ℤ)
  | taskTimeouts (now : ℤ)

def step (s : Server) : Step → Server
  | .createTask inputData inputSize mem now =>
    { s with manager := (taskManagerCreateTask s.manager inputData inputSize mem now).2 }
  | .register sockfd threadId now sent => (handleWorkerRegistration s sockfd threadId now sent).2
  | .heartbeat workerId sockfd now sent taskSent =>
    assignPending (handleWorkerHeartbeat s workerId sockfd now sent) workerId now taskSent
  | .taskResult workerId sockfd conn now sent taskSent =>
    assignPending (handleTaskResult s workerId sockfd conn now sent).1 workerId now taskSent
  | .disconnect workerId => s.removeWorker workerId
  | .workerTimeouts now => checkWorkerTimeouts s now
  | .taskTimeouts now => checkTaskTimeouts s now

end CSimples.CentralServer
