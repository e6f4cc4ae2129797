import CSimples.Worker.Requests

/-!
# The worker process (worker/worker.c:36-435, 516-709)

The main thread in `worker_start` and `worker_stop`, the heartbeat thread and the job
thread of one worker, and the descriptors of its sockets. A section under `lock` is one
step, but for `worker_disconnect_from_server`, which keeps the lock over an exchange. A
message is sent on the number that was copied under the lock: by then it may be closed,
or be that of a later connection. Connections are of an arbitrary type.
-/

namespace CSimples.WorkerProcess
open JobHandler ServerMessages Requests

variable {κ : Type}

inductive Role where
  | main
  | heartbeat
  | job
  deriving Repr, DecidableEq

inductive Wire where
  | connect
  | message (workerId : ℤ) (body : Body)
  deriving Repr, DecidableEq

inductive Reply where
  | connectAck
  | answer (a : Answer)
  deriving Repr, DecidableEq

/-- Where a thread goes on after `worker_disconnect_from_server`. -/
inductive After where
  | redial
  | retry
  | refused
  | stopped
  deriving Repr, DecidableEq

/-- In front of which step a thread stands. From `goodbye` to `closing` it has the lock. -/
inductive Point where
  | rest
  | top
  | dial
  | dialing (fd : ℤ)
  | before (body : Body)
  | ready (fd : ℤ) (m : Wire)
  | waiting (fd : ℤ) (m : Wire)
  | connected (fd : ℤ)
  | registered (workerId : ℤ)
  | leaving (next : After)
  | goodbye (fd workerId : ℤ) (next : After)
  | drained (fd : ℤ) (next : After)
  | closing (next : After)
  | creatingHeartbeat
  | creatingJob
  | cancelling
  | refusing
  | joining
  | over
  deriving Repr, DecidableEq

/-- `ipAddress` is what `strncpy` leaves of the configured one. -/
structure Config where
  ipAddress : List UInt8
  port : ℤ
  jobTypes : List ℤ
  numJobTypes : ℤ
  maxJobTypes : ℤ
  errJobProcessingFailed : ℤ

/-- `sockets` are the open descriptors and what they are connected to; `lost` are those
that a cancelled thread was holding. -/
structure Process (κ : Type) where
  isRunning : Bool
  isConnected : Bool
  serverSocket : ℤ
  workerId : ℤ
  lock : Option Role
  points : Role → Point
  sockets : ℤ → Option (Option κ)
  lost : List ℤ

/-- After `worker_init`. -/
def workerInit : Process κ := ⟨false, false, -1, -1, none, fun _ => .rest, fun _ => none, []⟩

def Process.goto (p : Process κ) (r : Role) (q : Point) : Process κ :=
  { p with points := Function.update p.points r q }

@[simp] theorem goto_self {p : Process κ} {r : Role} {q : Point} : (p.goto r q).points r = q :=
  Function.update_self ..

theorem goto_other {p : Process κ} {r u : Role} {q : Point} (h : u ≠ r) :
    (p.goto r q).points u = p.points u := Function.update_of_ne h ..

def Process.hold (p : Process κ) (fd : ℤ) (conn : Option κ) : Process κ :=
  { p with sockets := Function.update p.sockets fd (some conn) }

def Process.shut (p : Process κ) (fd : ℤ) : Process κ :=
  { p with sockets := Function.update p.sockets fd none }

/-! ### What follows a call -/

def registration (cfg : Config) : Body :=
  let num := min cfg.numJobTypes cfg.maxJobTypes
  .workerRegister cfg.ipAddress cfg.port (cfg.jobTypes.take num.toNat) num

def afterDisconnect : After → Point
  | .redial => .dial
  | .retry => .top
  | .refused => .refusing
  | .stopped => .over

/-- `worker_connect_to_server` has failed. -/
def unconnected : Role → Point
  | .main => .refusing
  | _ => .top

def unregistered : Role → Point
  | .main => .leaving .refused
  | _ => .leaving .retry

/-- An exchange has failed, or was answered with something else. -/
def failed (r : Role) : Body → Point
  | .workerHeartbeat => .leaving .redial
  | .workerRegister _ _ _ _ => unregistered r
  | _ => .top

def answered (cfg : Config) (w : Work) (r : Role) : Body → Answer → Point
  | .workerHeartbeat, .workerHeartbeatAck => .top
  | .workerRegister _ _ _ _, .workerRegistered workerId => .registered workerId
  | .requestJob, .jobAssigned msg => .before (report cfg.errJobProcessingFailed w msg)
  | body, _ => failed r body

/-! ### Steps -/

/-- In `socket`, `connect` and `receive` the option is what the call gives, none if it
fails. -/
inductive Action (κ : Type) where
  | start
  | stop
  | socket (r : Role) (fd : Option ℤ)
  | connect (r : Role) (conn : Option κ)
  | enter (r : Role)
  | send (r : Role) (ok : Bool)
  | receive (r : Role) (reply : Option Reply) (w : Work)
  | close (r : Role)
  | create (ok : Bool)
  | cancel

/-- The first section of `worker_start`. -/
def start (p : Process κ) : Option (Process κ) :=
  if p.lock ≠ none ∨ p.points .main ≠ .rest then none
  else if p.isRunning = true then some p
  else some { p.goto .main .dial with isRunning := true }

def stop (p : Process κ) : Option (Process κ) :=
  if p.lock ≠ none ∨ p.points .main ≠ .rest then none
  else if p.isRunning = false then some p
  else some { p.goto .main .joining with isRunning := false }

def socket (p : Process κ) (r : Role) (fd : Option ℤ) : Option (Process κ) :=
  match p.points r, fd with
  | .dial, none => some (p.goto r (unconnected r))
  | .dial, some fd =>
    if 0 ≤ fd ∧ p.sockets fd = none then some ((p.hold fd none).goto r (.dialing fd)) else none
  | _, _ => none

/-- `inet_pton` and `connect`. -/
def connect (p : Process κ) (r : Role) (conn : Option κ) : Option (Process κ) :=
  match p.points r, conn with
  | .dialing fd, none => some ((p.shut fd).goto r (unconnected r))
  | .dialing fd, some k => some ((p.hold fd (some k)).goto r (.ready fd .connect))
  | _, _ => none

/-- The section that prepares a message. -/
def prepare (p : Process κ) (r : Role) : Body → Process κ
  | .workerRegister ipAddress port jobTypes num =>
    if p.isConnected = false then p.goto r (unregistered r)
    else p.goto r (.ready p.serverSocket (.message 0 (.workerRegister ipAddress port jobTypes num)))
  | body =>
    if p.isConnected = false ∨ p.workerId < 0 then p.goto r (failed r body)
    else p.goto r (.ready p.serverSocket (.message p.workerId body))

/-- The head of the loop of `heartbeat_thread_func` or `job_thread_func`. -/
def loopHead (p : Process κ) (r : Role) : Process κ :=
  if p.isRunning = false then p.goto r .rest
  else if r = .heartbeat then p.goto r (.before .workerHeartbeat)
  else if p.isConnected = false then p
  else p.goto r (.before .requestJob)

def leave (p : Process κ) (r : Role) (next : After) : Process κ :=
  if p.isConnected = false then p.goto r (afterDisconnect next)
  else if p.workerId ≥ 0 then
    { p.goto r (.goodbye p.serverSocket p.workerId next) with lock := some r }
  else { p.goto r (.closing next) with lock := some r }

def enter (cfg : Config) (p : Process κ) (r : Role) : Option (Process κ) :=
  if p.lock ≠ none then none
  else match p.points r with
  | .top => some (loopHead p r)
  | .before body => some (prepare p r body)
  | .connected fd =>
    some { p.goto r (.before (registration cfg)) with serverSocket := fd, isConnected := true }
  | .registered workerId =>
    some { p.goto r (if r = .main then .creatingHeartbeat else .top) with workerId := workerId }
  | .leaving next => some (leave p r next)
  | .refusing => some { p.goto r .rest with isRunning := false }
  | .joining =>
    if p.points .heartbeat = .rest ∧ p.points .job = .rest then some (p.goto r (.leaving .stopped))
    else none
  | _ => none

/-- A send needs a connected socket to succeed; that of WORKER_DISCONNECT is not looked at. -/
def send (p : Process κ) (r : Role) (ok : Bool) : Option (Process κ) :=
  match p.points r with
  | .ready fd m =>
    if ok = true then
      if (p.sockets fd).join = none then none else some (p.goto r (.waiting fd m))
    else match m with
    | .connect => some ((p.shut fd).goto r (unconnected r))
    | .message _ body => some (p.goto r (failed r body))
  | .goodbye fd _ next =>
    if ok = true ∧ (p.sockets fd).join = none then none else some (p.goto r (.drained fd next))
  | _ => none

def receive (cfg : Config) (p : Process κ) (r : Role) (reply : Option Reply) (w : Work) :
    Option (Process κ) :=
  match p.points r with
  | .waiting fd m =>
    if reply ≠ none ∧ (p.sockets fd).join = none then none
    else match m, reply with
    | .connect, some .connectAck => some (p.goto r (.connected fd))
    | .connect, _ => some ((p.shut fd).goto r (unconnected r))
    | .message _ body, some (.answer a) => some (p.goto r (answered cfg w r body a))
    | .message _ body, _ => some (p.goto r (failed r body))
  | .drained fd next =>
    if reply ≠ none ∧ (p.sockets fd).join = none then none else some (p.goto r (.closing next))
  | _ => none

/-- The end of `worker_disconnect_from_server`. -/
def close (p : Process κ) (r : Role) : Option (Process κ) :=
  match p.points r with
  | .closing next =>
    some { (p.shut p.serverSocket).goto r (afterDisconnect next) with
      serverSocket := -1
      isConnected := false
      lock := none }
  | _ => none

def create (p : Process κ) (ok : Bool) : Option (Process κ) :=
  match p.points .main, ok with
  | .creatingHeartbeat, true => some ((p.goto .main .creatingJob).goto .heartbeat .top)
  | .creatingHeartbeat, false => some (p.goto .main (.leaving .refused))
  | .creatingJob, true => some ((p.goto .main .rest).goto .job .top)
  | .creatingJob, false => some (p.goto .main .cancelling)
  | _, _ => none

/-- The descriptor that a thread is setting up. -/
def Point.held : Point → Option ℤ
  | .dialing fd | .ready fd .connect | .waiting fd .connect | .connected fd => some fd
  | _ => none

/-- `pthread_cancel` and `pthread_join` of the heartbeat thread, wherever it is. -/
def cancel (p : Process κ) : Option (Process κ) :=
  match p.points .main with
  | .cancelling =>
    some { (p.goto .heartbeat .rest).goto .main (.leaving .refused) with
      lost := p.lost ++ (p.points .heartbeat).held.toList }
  | _ => none

def step (cfg : Config) (p : Process κ) : Action κ → Option (Process κ)
  | .start => start p
  | .stop => stop p
  | .socket r fd => socket p r fd
  | .connect r conn => connect p r conn
  | .enter r => enter cfg p r
  | .send r ok => send p r ok
  | .receive r reply w => receive cfg p r reply w
  | .close r => close p r
  | .create ok => create p ok
  | .cancel => cancel p

end CSimples.WorkerProcess
