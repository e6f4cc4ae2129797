import CSimples.Shared.NetUtils

/-!
# A worker process and its handler (worker_server/worker_server.c)

The main loop and the heartbeat thread of a registered worker share one socket
under `socket_mutex`; on the other side one `worker_handler_thread` answers.
Three threads take turns here, at the level of whole messages: a receive takes
one message off its direction of the connection, and waits when there is none.
The connection ends when the handler does; from then on a receive that finds
nothing left fails. Signals, which end the process, are left out.

`pthread_mutex_unlock` on this default mutex frees it, whoever holds it.
-/

namespace CSimples.WorkerServer
open Protocol

inductive Thread where
  | main
  | heartbeat
  deriving DecidableEq

/-- What the worker sends. The number is not part of the message; it tells the
requests of one run apart. -/
inductive Request where
  | heartbeat (serial : ℕ)
  | taskResult (serial : ℕ)
  deriving DecidableEq

/-- What the handler sends: HEARTBEAT_RESPONSE or RESULT_ACK to a request, or a
TASK. -/
inductive Message where
  | reply (request : Request)
  | task (taskId : ℕ)
  deriving DecidableEq

/-- Where the main loop is (worker_server.c:314-368); from `resultLock` to
`resultUnlock` it is in `send_task_result` (worker_server.c:158-191). -/
inductive MainPc where
  | lock
  | recv
  | handle (m : Message)
  | unlock
  | process (taskId : ℕ)
  | resultLock (taskId : ℕ)
  | resultSend (taskId : ℕ)
  | resultRecv (request : Request)
  | resultUnlock
  | stopped
  deriving DecidableEq

/-- Where the heartbeat thread is (worker_server.c:117-155, 230-247); with
`unlock` goes what was received, `none` when a call failed. -/
inductive HeartbeatPc where
  | sleep
  | lock
  | send
  | recv (request : Request)
  | unlock (m : Option Message)
  | unlockAgain
  deriving DecidableEq

/-- Where `worker_handler_thread` is (central_server.c:285-323). -/
inductive HandlerPc where
  | wait
  | reply (request : Request)
  | assign
  | stopped
  deriving DecidableEq

/-- The threads, `socket_mutex`, the messages in flight, and what has happened:
TASKs taken off the connection by the worker process, tasks handed to
`process_task`, and for each finished exchange the request and what was received
for it. -/
structure Session where
  main : MainPc
  heartbeat : HeartbeatPc
  handler : HandlerPc
  owner : Option Thread
  toServer : List Request
  toWorker : List Message
  serial : ℕ
  received : List ℕ
  processed : List ℕ
  exchanges : List (Request × Message)
  deriving DecidableEq

def start : Session := ⟨.lock, .sleep, .wait, none, [], [], 0, [], [], []⟩

def Message.tasks : Message → List ℕ
  | .task taskId => [taskId]
  | .reply _ => []

def taskSize : ℕ := 4 + maxDataSize + maxDataSize + 4 + 4

/-- The test on what `recv_payload` returned (worker_server.c:328), an `int`
compared with a `size_t`. -/
def payloadComplete (ret : ℤ) : Bool := decide (ret % 2^64 = taskSize)

/-- `recv_payload` returns 0 when it succeeds and -1 when it fails. -/
def payloadReturn (ok : Bool) : ℤ := if ok then 0 else -1

/-! ### Steps -/

/-- A step of one thread. `ok` is the outcome of the call it makes, if that can
fail either way; `task` is what the handler assigns after an answer. -/
inductive Act where
  | main (ok : Bool)
  | heartbeat (ok : Bool)
  | handler (ok : Bool) (task : Option ℕ)

def Session.pushed (s : Session) (r : Request) : List Request :=
  if s.handler = .stopped then s.toServer else s.toServer ++ [r]

def mainStep (s : Session) (ok : Bool) : Session :=
  match s.main with
  | .lock => if s.owner = none then { s with owner := some .main, main := .recv } else s
  | .recv => match s.toWorker with
    | m :: rest =>
      { s with main := .handle m, toWorker := rest, received := s.received ++ m.tasks }
    | [] => if s.handler = .stopped then { s with main := .unlock } else s
  | .handle m => match m with
    | .task taskId =>
      if payloadComplete (payloadReturn ok) then { s with owner := none, main := .process taskId }
      else { s with owner := none, main := .lock }
    | .reply _ => { s with owner := none, main := .lock }
  | .unlock => { s with owner := none, main := .stopped }
  | .process taskId => { s with main := .resultLock taskId, processed := s.processed ++ [taskId] }
  | .resultLock taskId =>
    if s.owner = none then { s with owner := some .main, main := .resultSend taskId } else s
  | .resultSend _ =>
    if ok then { s with
      main := .resultRecv (.taskResult s.serial)
      toServer := s.pushed (.taskResult s.serial)
      serial := s.serial + 1 }
    else { s with main := .resultUnlock }
  | .resultRecv r => match s.toWorker with
    | m :: rest =>
      { s with
        main := .resultUnlock
        toWorker := rest
        received := s.received ++ m.tasks
        exchanges := s.exchanges ++ [(r, m)] }
    | [] => if s.handler = .stopped then { s with main := .resultUnlock } else s
  | .resultUnlock => { s with owner := none, main := .lock }
  | .stopped => s

def heartbeatStep (s : Session) (ok : Bool) : Session :=
  match s.heartbeat with
  | .sleep => { s with heartbeat := .lock }
  | .lock => if s.owner = none then { s with owner := some .heartbeat, heartbeat := .send } else s
  | .send =>
    if ok then { s with
      heartbeat := .recv (.heartbeat s.serial)
      toServer := s.pushed (.heartbeat s.serial)
      serial := s.serial + 1 }
    else { s with heartbeat := .unlock none }
  | .recv r => match s.toWorker with
    | m :: rest =>
      { s with
        heartbeat := .unlock (some m)
        toWorker := rest
        received := s.received ++ m.tasks
        exchanges := s.exchanges ++ [(r, m)] }
    | [] => if s.handler = .stopped then { s with heartbeat := .unlock none } else s
  | .unlock (some (.task _)) => { s with owner := none, heartbeat := .unlockAgain }
  | .unlock _ => { s with owner := none, heartbeat := .sleep }
  | .unlockAgain => { s with owner := none, heartbeat := .sleep }

def handlerStep (s : Session) (ok : Bool) (task : Option ℕ) : Session :=
  match s.handler with
  | .wait =>
    if ok then match s.toServer with
      | r :: rest => { s with handler := .reply r, toServer := rest }
      | [] => s
    else { s with handler := .stopped, toServer := [] }
  | .reply r =>
    { s with
      handler := .assign
      toWorker := if ok then s.toWorker ++ [.reply r] else s.toWorker }
  | .assign => { s with handler := .wait, toWorker := s.toWorker ++ task.toList.map .task }
  | .stopped => s

def next (s : Session) : Act → Session
  | .main ok => mainStep s ok
  | .heartbeat ok => heartbeatStep s ok
  | .handler ok task => handlerStep s ok task

/-- The main loop takes every TASK for incomplete. -/
theorem payload_never_complete (ok : Bool) : payloadComplete (payloadReturn ok) = false := by
  cases ok <;> rfl

theorem recvPayload_payloadReturn (len : ℕ) (conn : ByteStream.Source UInt8) :
    ∃ ok, (NetUtils.recvPayload len conn).1 = payloadReturn ok := by
  rcases NetUtils.recvPayload_ret len conn with h | h
  · exact ⟨true, h⟩
  · exact ⟨false, h⟩

end CSimples.WorkerServer
