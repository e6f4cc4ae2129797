import CSimples.Lib.Run
import CSimples.Server.JobCalls
import CSimples.Server.WorkerManager

/-!
# Messages to the server (server/server.c:271-288, 469-789)

What the server does with one message of a client or of a worker. The header file
with the server's `Message` is empty in the repository, so a message is given by
the fields that the handlers read. Messages are handled one after another; the
sends, the clock and the allocations come from outside.
-/

namespace CSimples.ServerMessages
open JobHandler WorkerManager

structure Settings where
  retries : JobHandler.Constants
  maxJobTypes : ℕ

/-! ### Messages -/

structure Header where
  messageId : ℤ
  clientId : ℤ
  workerId : ℤ
  deriving Repr, DecidableEq

/-- `other` is any message type that the handlers do not name. -/
inductive Body where
  | submitJob (jobType : ℤ) (data : Option (List UInt8)) (dataSize : ℕ)
  | getJobStatus (jobId : ℤ)
  | getJobResult (jobId : ℤ)
  | workerRegister (ipAddress : List UInt8) (port : ℤ) (jobTypesSupported : List ℤ)
      (numJobTypes : ℤ)
  | workerHeartbeat
  | requestJob
  | jobCompleted (jobId : ℤ) (resultData : Option (List UInt8)) (resultSize : ℕ)
      (processingTimeMs : ℤ)
  | jobFailed (jobId errorCode : ℤ)
  | workerDisconnect
  | other (messageType : ℤ)
  deriving Repr, DecidableEq

structure Message where
  header : Header
  body : Body
  deriving Repr, DecidableEq

inductive ErrorCode where
  | jobSubmissionFailed
  | jobNotFound
  | jobNotCompleted
  | internalError
  | invalidMessage
  | workerRegistrationFailed
  | workerNotFound
  deriving Repr, DecidableEq

inductive Answer where
  | error (code : ErrorCode) (text : String)
  | jobSubmitted (jobId : ℤ)
  | jobStatus (jobId status : ℤ)
  | jobResult (jobId : ℤ) (data : Option (List UInt8)) (dataSize : ℕ)
  | workerRegistered (workerId : ℤ)
  | workerHeartbeatAck
  | jobAssigned (job : JobAssigned)
  | noJobAvailable
  | jobCompletionAck (jobId : ℤ)
  | jobFailureAck (jobId : ℤ)
  | workerDisconnectAck
  deriving Repr, DecidableEq

structure Response where
  header : Header
  answer : Answer
  deriving Repr, DecidableEq

/-- What the environment contributes to the handling of one message: the clock, the
allocation, and whether the job and the answer could be sent. -/
structure Outcome where
  now : ℤ
  alloc : Bool
  jobSent : Bool
  sent : Bool

structure Server where
  handler : Handler
  manager : Manager
  deriving Repr, DecidableEq

/-- The messages that were to be sent on the connection, sent or not, and the
notices to other clients. -/
structure Handled where
  ret : ℤ
  server : Server
  sends : List Response
  notices : List Notice

def memsetHeader : Header := ⟨0, 0, 0⟩

def Server.reply (srv : Server) (out : Outcome) (header : Header) (answer : Answer)
    (sends : List Response) (notices : List Notice) : Handled :=
  ⟨if out.sent then 0 else -1, srv, sends ++ [⟨header, answer⟩], notices⟩

/-- The error response does not repeat the ids of the message. -/
def sendErrorResponse (srv : Server) (out : Outcome) (code : ErrorCode) (text : String) : Handled :=
  srv.reply out memsetHeader (.error code text) [] []

/-! ### Clients (server.c:469-587) -/

def serverHandleClientMessage (srv : Server) (clientSocket : ℤ) (msg : Message) (out : Outcome) :
    Handled :=
  let header : Header := ⟨msg.header.messageId, msg.header.clientId, 0⟩
  match msg.body with
  | .submitJob jobType data dataSize =>
    let r := jobHandlerSubmit srv.handler clientSocket jobType data dataSize out.alloc out.now
    let srv' := { srv with handler := r.handler }
    if r.ret < 0 then sendErrorResponse srv' out .jobSubmissionFailed "Failed to submit job"
    else srv'.reply out header (.jobSubmitted r.ret) [] []
  | .getJobStatus jobId =>
    let status := jobHandlerGetStatus srv.handler jobId
    if status < 0 then sendErrorResponse srv out .jobNotFound "Job not found"
    else srv.reply out header (.jobStatus jobId status) [] []
  | .getJobResult jobId =>
    let status := jobHandlerGetStatus srv.handler jobId
    if status < 0 then sendErrorResponse srv out .jobNotFound "Job not found"
    else if status ≠ JobStatus.completed.code then
      sendErrorResponse srv out .jobNotCompleted "Job is not completed"
    else match jobHandlerGetResult srv.handler jobId true out.alloc with
    | (_, none) => sendErrorResponse srv out .internalError "Failed to get job result"
    | (_, some (data, size)) => srv.reply out header (.jobResult jobId data size) [] []
  | _ => sendErrorResponse srv out .invalidMessage "Invalid message type"

/-! ### Workers (server.c:589-790) -/

section Worker
variable (c : Settings)

def handleRegister (srv : Server) (workerSocket : ℤ) (header : Header) (ipAddress : List UInt8)
    (port : ℤ) (jobTypesSupported : List ℤ) (numJobTypes : ℤ) (out : Outcome) : Handled :=
  let r := workerManagerRegister c.maxJobTypes srv.manager
    ⟨workerSocket, some ipAddress, port, some jobTypesSupported, numJobTypes⟩ out.now
  let srv' := { srv with manager := r.2 }
  if r.1 < 0 then
    sendErrorResponse srv' out .workerRegistrationFailed "Failed to register worker"
  else srv'.reply out header (.workerRegistered r.1) [] []

def handleHeartbeat (srv : Server) (header : Header) (workerId : ℤ) (out : Outcome) : Handled :=
  let r := workerManagerUpdateHeartbeat srv.manager workerId out.now
  let srv' := { srv with manager := r.2 }
  if r.1 < 0 then sendErrorResponse srv' out .workerNotFound "Worker not found"
  else srv'.reply out header .workerHeartbeatAck [] []

/-- `job_handler_assign` has sent the job already, so there is no further answer. -/
def handleRequestJob (srv : Server) (workerSocket : ℤ) (header : Header) (workerId : ℤ)
    (out : Outcome) : Handled :=
  let r := workerManagerUpdateStatus srv.manager workerId .idle
  let srv' := { srv with manager := r.2 }
  if r.1 < 0 then sendErrorResponse srv' out .workerNotFound "Worker not found"
  else
    let sends := (assignSelect srv'.handler workerSocket out.now).1.toList.map fun job =>
      ⟨memsetHeader, .jobAssigned job⟩
    let a := jobHandlerAssign srv'.handler workerSocket out.now out.jobSent
    let srv'' := { srv' with handler := a.handler }
    if a.ret < 0 then srv''.reply out header .noJobAvailable sends []
    else
      let w := workerManagerAssignJob srv''.manager workerId a.ret
      ⟨if w.1 < 0 then -1 else 0, { srv'' with manager := w.2 }, sends, []⟩

def handleJobCompleted (srv : Server) (header : Header) (workerId jobId : ℤ)
    (resultData : Option (List UInt8)) (resultSize : ℕ) (processingTimeMs : ℤ) (out : Outcome) :
    Handled :=
  let r := jobHandlerComplete srv.handler jobId resultData resultSize out.alloc out.now
  let srv' := { srv with handler := r.handler }
  if r.ret < 0 then sendErrorResponse srv' out .jobNotFound "Job not found"
  else
    let w := workerManagerCompleteJob srv'.manager workerId processingTimeMs
    let srv'' := { srv' with manager := w.2 }
    if w.1 < 0 then ⟨-1, srv'', [], r.notices⟩
    else srv''.reply out header (.jobCompletionAck jobId) [] r.notices

def handleJobFailed (srv : Server) (header : Header) (workerId jobId errorCode : ℤ)
    (out : Outcome) : Handled :=
  let r := jobHandlerFail c.retries srv.handler jobId errorCode out.now
  let srv' := { srv with handler := r.handler }
  if r.ret < 0 then sendErrorResponse srv' out .jobNotFound "Job not found"
  else
    let w := workerManagerFailJob srv'.manager workerId
    let srv'' := { srv' with manager := w.2 }
    if w.1 < 0 then ⟨-1, srv'', [], r.notices⟩
    else srv''.reply out header (.jobFailureAck jobId) [] r.notices

def handleDisconnect (srv : Server) (header : Header) (workerId : ℤ) (out : Outcome) : Handled :=
  let r := workerManagerUnregister c.maxJobTypes srv.manager workerId
  let srv' := { srv with manager := r.2 }
  if r.1 < 0 then sendErrorResponse srv' out .workerNotFound "Worker not found"
  else srv'.reply out header .workerDisconnectAck [] []

def serverHandleWorkerMessage (srv : Server) (workerSocket : ℤ) (msg : Message) (out : Outcome) :
    Handled :=
  let header : Header := ⟨msg.header.messageId, 0, msg.header.workerId⟩
  let workerId := msg.header.workerId
  match msg.body with
  | .workerRegister ipAddress port jobTypesSupported numJobTypes =>
    handleRegister c srv workerSocket header ipAddress port jobTypesSupported numJobTypes out
  | .workerHeartbeat => handleHeartbeat srv header workerId out
  | .requestJob => handleRequestJob srv workerSocket header workerId out
  | .jobCompleted jobId resultData resultSize processingTimeMs =>
    handleJobCompleted srv header workerId jobId resultData resultSize processingTimeMs out
  | .jobFailed jobId errorCode => handleJobFailed c srv header workerId jobId errorCode out
  | .workerDisconnect => handleDisconnect c srv header workerId out
  | _ => sendErrorResponse srv out .invalidMessage "Invalid message type"

end Worker

/-! ### Runs -/

/-- The tables as `server_init` leaves them, before its socket is set up. -/
def serverInit (c : Settings) (maxJobs jobTimeoutSeconds maxWorkers : ℤ)
    (jobsAlloc workersAlloc : Bool) : Option Server :=
  let h := jobHandlerInit maxJobs jobTimeoutSeconds jobsAlloc
  let m := workerManagerInit c.maxJobTypes maxWorkers workersAlloc
  if h.1 < 0 then none else if m.1 < 0 then none else some ⟨h.2, m.2⟩

/-- A handled message, or one of the two sweeps of the main loop. -/
inductive Event where
  | client (clientSocket : ℤ) (msg : Message) (out : Outcome)
  | worker (workerSocket : ℤ) (msg : Message) (out : Outcome)
  | checkTimeouts (now : ℤ)
  | checkInactive (timeoutSeconds now : ℤ)

variable (c : Settings)

def step (srv : Server) : Event → Server
  | .client clientSocket msg out => (serverHandleClientMessage srv clientSocket msg out).server
  | .worker workerSocket msg out => (serverHandleWorkerMessage c srv workerSocket msg out).server
  | .checkTimeouts now =>
    { srv with handler := (jobHandlerCheckTimeouts c.retries srv.handler now).handler }
  | .checkInactive timeoutSeconds now =>
    { srv with manager := (workerManagerCheckInactive srv.manager timeoutSeconds now).2 }

/-! ### What a message does to the tables -/

variable {c} {srv : Server} {socket : ℤ} {header : Header} {out : Outcome}

theorem client_submit (jobType : ℤ) (data : Option (List UInt8)) (dataSize : ℕ) :
    (serverHandleClientMessage srv socket ⟨header, .submitJob jobType data dataSize⟩ out).server =
      { srv with
        handler := (jobHandlerSubmit srv.handler socket jobType data dataSize out.alloc
          out.now).handler } := by
  simp only [serverHandleClientMessage]
  split <;> rfl

theorem client_manager (msg : Message) :
    (serverHandleClientMessage srv socket msg out).server.manager = srv.manager := by
  unfold serverHandleClientMessage
  split
  · dsimp only
    split <;> rfl
  · dsimp only
    split <;> rfl
  · dsimp only
    split
    · rfl
    · split
      · rfl
      · split <;> rfl
  · rfl

theorem client_handler (msg : Message)
    (h : ∀ jobType data dataSize, msg.body ≠ .submitJob jobType data dataSize) :
    (serverHandleClientMessage srv socket msg out).server = srv := by
  unfold serverHandleClientMessage
  split
  · rename_i jobType data dataSize hbody
    exact absurd hbody (h jobType data dataSize)
  · dsimp only
    split <;> rfl
  · dsimp only
    split
    · rfl
    · split
      · rfl
      · split <;> rfl
  · rfl

theorem worker_register (ipAddress : List UInt8) (port : ℤ) (jobTypesSupported : List ℤ)
    (numJobTypes : ℤ) :
    (serverHandleWorkerMessage c srv socket
      ⟨header, .workerRegister ipAddress port jobTypesSupported numJobTypes⟩ out).server =
      { srv with
        manager := (workerManagerRegister c.maxJobTypes srv.manager
          ⟨socket, some ipAddress, port, some jobTypesSupported, numJobTypes⟩ out.now).2 } := by
  simp only [serverHandleWorkerMessage, handleRegister]
  split <;> rfl

theorem worker_heartbeat :
    (serverHandleWorkerMessage c srv socket ⟨header, .workerHeartbeat⟩ out).server =
      { srv with
        manager := (workerManagerUpdateHeartbeat srv.manager header.workerId out.now).2 } := by
  simp only [serverHandleWorkerMessage, handleHeartbeat]
  split <;> rfl

theorem worker_disconnect :
    (serverHandleWorkerMessage c srv socket ⟨header, .workerDisconnect⟩ out).server =
      { srv with
        manager := (workerManagerUnregister c.maxJobTypes srv.manager header.workerId).2 } := by
  simp only [serverHandleWorkerMessage, handleDisconnect]
  split <;> rfl

theorem worker_completed (jobId : ℤ) (resultData : Option (List UInt8)) (resultSize : ℕ)
    (processingTimeMs : ℤ) :
    (serverHandleWorkerMessage c srv socket
      ⟨header, .jobCompleted jobId resultData resultSize processingTimeMs⟩ out).server =
      ⟨(jobHandlerComplete srv.handler jobId resultData resultSize out.alloc out.now).handler,
        if (jobHandlerComplete srv.handler jobId resultData resultSize out.alloc out.now).ret < 0
        then srv.manager
        else (workerManagerCompleteJob srv.manager header.workerId processingTimeMs).2⟩ := by
  simp only [serverHandleWorkerMessage, handleJobCompleted]
  split
  · rfl
  · split <;> rfl

theorem worker_failed (jobId errorCode : ℤ) :
    (serverHandleWorkerMessage c srv socket ⟨header, .jobFailed jobId errorCode⟩ out).server =
      ⟨(jobHandlerFail c.retries srv.handler jobId errorCode out.now).handler,
        if (jobHandlerFail c.retries srv.handler jobId errorCode out.now).ret < 0
        then srv.manager else (workerManagerFailJob srv.manager header.workerId).2⟩ := by
  simp only [serverHandleWorkerMessage, handleJobFailed]
  split
  · rfl
  · split <;> rfl

theorem worker_request_unknown (h : findWorkerById srv.manager header.workerId = none) :
    (serverHandleWorkerMessage c srv socket ⟨header, .requestJob⟩ out).server = srv := by
  simp [serverHandleWorkerMessage, handleRequestJob, workerManagerUpdateStatus, withWorker, h,
    sendErrorResponse, Server.reply]

theorem worker_request {i : ℕ} {w : Worker}
    (h : findWorkerById srv.manager header.workerId = some (i, w)) :
    (serverHandleWorkerMessage c srv socket ⟨header, .requestJob⟩ out).server =
      ⟨(jobHandlerAssign srv.handler socket out.now out.jobSent).handler,
        if (jobHandlerAssign srv.handler socket out.now out.jobSent).ret < 0
        then (workerManagerUpdateStatus srv.manager header.workerId .idle).2
        else (workerManagerAssignJob (workerManagerUpdateStatus srv.manager header.workerId .idle).2
          header.workerId (jobHandlerAssign srv.handler socket out.now out.jobSent).ret).2⟩ := by
  have hret : (workerManagerUpdateStatus srv.manager header.workerId .idle).1 = 0 := by
    simp [workerManagerUpdateStatus, withWorker, h]
  simp only [serverHandleWorkerMessage, handleRequestJob, hret]
  split
  · omega
  · split <;> rfl

/-! ### Messages that finish a job -/

def Body.endsJob : Body → Bool
  | .jobCompleted _ _ _ _ | .jobFailed _ _ => true
  | _ => false

def assignedJob (h : Handler) (jobId : ℤ) : Option (ℕ × Job) :=
  (findJobById h jobId).filter fun found => decide (found.2.status = .assigned)

/-- The job that a JOB_COMPLETED or JOB_FAILED message finishes, if it is accepted. -/
def Server.finishes (srv : Server) (msg : Message) (out : Outcome) : Option (ℕ × Job) :=
  match msg.body with
  | .jobCompleted jobId resultData resultSize _ =>
    if resultSize > 0 ∧ (resultData = none ∨ out.alloc = false) then none
    else assignedJob srv.handler jobId
  | .jobFailed jobId _ => assignedJob srv.handler jobId
  | _ => none

theorem assignedJob_none {h : Handler} {jobId : ℤ} (hnone : assignedJob h jobId = none) :
    findJobById h jobId = none ∨
      ∃ i job, findJobById h jobId = some (i, job) ∧ job.status ≠ .assigned := by
  cases hf : findJobById h jobId with
  | none => exact .inl rfl
  | some found =>
    obtain ⟨i, job⟩ := found
    right
    refine ⟨i, job, rfl, ?_⟩
    intro hs
    simp [assignedJob, hf, hs] at hnone

theorem assignedJob_some {h : Handler} {jobId : ℤ} {i : ℕ} {job : Job} :
    assignedJob h jobId = some (i, job) ↔
      findJobById h jobId = some (i, job) ∧ job.status = .assigned := by
  simp [assignedJob, Option.filter_eq_some_iff]

theorem finishes_endsJob {msg : Message} {found : ℕ × Job}
    (h : srv.finishes msg out = some found) : msg.body.endsJob = true := by
  unfold Server.finishes at h
  split at h
  · rename_i hbody
    rw [hbody]
    rfl
  · rename_i hbody
    rw [hbody]
    rfl
  · cases h

theorem complete_refused {jobId time : ℤ} {data : Option (List UInt8)} {size : ℕ}
    (h : srv.finishes ⟨header, .jobCompleted jobId data size time⟩ out = none) :
    jobHandlerComplete srv.handler jobId data size out.alloc out.now = ⟨-1, srv.handler, []⟩ := by
  simp only [Server.finishes] at h
  unfold jobHandlerComplete
  split
  · rfl
  · rename_i hdata
    split at h
    · rename_i hbad
      have halloc : size > 0 ∧ out.alloc = false :=
        ⟨hbad.1, hbad.2.resolve_left fun hd => hdata ⟨hd, hbad.1⟩⟩
      split
      · rfl
      · split <;> rfl
    · rcases assignedJob_none h with hf | ⟨i, job, hf, hs⟩
      · simp only [hf]
      · simp only [hf, hs, ne_eq, not_false_eq_true, if_true]

theorem complete_accepted {jobId time : ℤ} {data : Option (List UInt8)} {size i : ℕ} {job : Job}
    (h : srv.finishes ⟨header, .jobCompleted jobId data size time⟩ out = some (i, job)) :
    jobHandlerComplete srv.handler jobId data size out.alloc out.now =
      ⟨0, srv.handler.put i (job.finish data size out.now)
        { srv.handler.stats with
          running := srv.handler.stats.running - 1
          completed := srv.handler.stats.completed + 1 },
        [.jobCompleted job.clientSocket jobId]⟩ := by
  simp only [Server.finishes] at h
  split at h
  · cases h
  · rename_i hok
    obtain ⟨hf, hs⟩ := assignedJob_some.mp h
    unfold jobHandlerComplete
    rw [if_neg fun hd => hok ⟨hd.2, .inl hd.1⟩]
    simp only [hf, hs, ne_eq, not_true_eq_false, if_false]
    rw [if_neg fun hd => hok ⟨hd.1, .inr hd.2⟩]

theorem fail_refused {jobId code : ℤ}
    (h : srv.finishes ⟨header, .jobFailed jobId code⟩ out = none) :
    jobHandlerFail c.retries srv.handler jobId code out.now = ⟨-1, srv.handler, []⟩ := by
  simp only [Server.finishes] at h
  unfold jobHandlerFail
  rcases assignedJob_none h with hf | ⟨i, job, hf, hs⟩
  · simp only [hf]
  · simp only [hf, hs, ne_eq, not_false_eq_true, if_true]

theorem fail_accepted {jobId code : ℤ} {i : ℕ} {job : Job}
    (h : srv.finishes ⟨header, .jobFailed jobId code⟩ out = some (i, job)) :
    jobHandlerFail c.retries srv.handler jobId code out.now =
      ⟨0, srv.handler.put i (job.charge c.retries .failed out.now)
        (srv.handler.stats.charge c.retries job), job.failureNotices c.retries code⟩ := by
  simp only [Server.finishes] at h
  obtain ⟨hf, hs⟩ := assignedJob_some.mp h
  unfold jobHandlerFail
  simp only [hf, hs, ne_eq, not_true_eq_false, if_false]

theorem finish_refused {msg : Message} (h : srv.finishes msg out = none)
    (hends : msg.body.endsJob = true) :
    (serverHandleWorkerMessage c srv socket msg out).server = srv := by
  obtain ⟨header, body⟩ := msg
  cases body with
  | jobCompleted jobId data size time =>
    rw [worker_completed, complete_refused h]
    rfl
  | jobFailed jobId code =>
    rw [worker_failed, fail_refused h]
    rfl
  | _ => cases hends

/-- How a finished job leaves its slot, and what the worker's slot becomes. -/
structure Finish (job job' : Job) (f : Worker → Worker) : Prop where
  jobId : job'.jobId = job.jobId
  status : job'.status ≠ .assigned
  workerId : ∀ w, (f w).workerId = w.workerId
  idle : ∀ w, (f w).status = .idle
  socket : ∀ w, (f w).socket = w.socket
  counted : ∀ w, f w ≠ w

theorem completeJob_ne (processingTimeMs : ℤ) (w : Worker) :
    w.completeJob processingTimeMs ≠ w := by
  intro heq
  have hcount := congrArg Worker.jobCount heq
  simp only [Worker.completeJob] at hcount
  omega

theorem failJob_ne (w : Worker) : w.failJob ≠ w := by
  intro heq
  have hcount := congrArg Worker.failedJobCount heq
  simp only [Worker.failJob] at hcount
  omega

theorem finish_accepted (c : Settings) (socket : ℤ) {msg : Message} {i : ℕ} {job : Job}
    (h : srv.finishes msg out = some (i, job)) :
    ∃ (job' : Job) (st : Stats) (f : Worker → Worker), Finish job job' f ∧
      (serverHandleWorkerMessage c srv socket msg out).server =
        ⟨srv.handler.put i job' st,
          (withWorker srv.manager msg.header.workerId f fun st _ => st.toIdle).2⟩ := by
  obtain ⟨header, body⟩ := msg
  cases body with
  | jobCompleted jobId data size time =>
    refine ⟨job.finish data size out.now, { srv.handler.stats with
      running := srv.handler.stats.running - 1
      completed := srv.handler.stats.completed + 1 }, Worker.completeJob time, ?_, ?_⟩
    · exact ⟨rfl, by simp [Job.finish], fun _ => rfl, fun _ => rfl, fun _ => rfl,
        completeJob_ne time⟩
    · rw [worker_completed, complete_accepted h]
      rfl
  | jobFailed jobId code =>
    refine ⟨job.charge c.retries .failed out.now, srv.handler.stats.charge c.retries job,
      Worker.failJob, ?_, ?_⟩
    · refine ⟨charge_jobId _ _ _ _, ?_, fun _ => rfl, fun _ => rfl, fun _ => rfl, failJob_ne⟩
      rcases charge_status c.retries job .failed out.now with hst | hst
      · simp [hst]
      · simp [hst]
    · rw [worker_failed, fail_accepted h]
      rfl
  | _ => simp [Server.finishes] at h

/-! ### Soundness of the tables -/

structure Sound (srv : Server) : Prop where
  jobs : ∃ n, JobCalls.Sound srv.handler n
  workers : Numbered srv.manager

theorem sound_jobs {h : Handler} (hs : ∃ n, JobCalls.Sound h n) (call : JobCalls.Call) :
    ∃ n, JobCalls.Sound (JobCalls.answer c.retries h call).handler n := by
  obtain ⟨n, hs⟩ := hs
  exact JobCalls.sound_effect c.retries hs (JobCalls.answer_effect c.retries hs call)

theorem sound_worker (hs : Sound srv) (msg : Message) :
    Sound (serverHandleWorkerMessage c srv socket msg out).server := by
  obtain ⟨header, body⟩ := msg
  cases body with
  | workerRegister ipAddress port jobTypesSupported numJobTypes =>
    rw [worker_register]
    exact ⟨hs.jobs, hs.workers.register _ _⟩
  | workerHeartbeat =>
    rw [worker_heartbeat]
    exact ⟨hs.jobs, hs.workers.withWorker (f := Worker.withHeartbeat out.now) _
      (fun _ => .inr rfl) _⟩
  | requestJob =>
    cases hf : findWorkerById srv.manager header.workerId with
    | none =>
      rw [worker_request_unknown hf]
      exact hs
    | some found =>
      obtain ⟨i, w⟩ := found
      have hidle : Numbered (workerManagerUpdateStatus srv.manager header.workerId .idle).2 :=
        hs.workers.withWorker (f := Worker.withStatus .idle) _ (fun _ => .inr rfl) _
      rw [worker_request hf]
      constructor
      · exact sound_jobs (c := c) hs.jobs (.assign socket out.now out.jobSent)
      · dsimp only
        split
        · exact hidle
        · exact hidle.withWorker (f := Worker.startJob _) _ (fun _ => .inr rfl) _
  | jobCompleted jobId resultData resultSize processingTimeMs =>
    rw [worker_completed]
    constructor
    · exact sound_jobs (c := c) hs.jobs (.complete jobId resultData resultSize out.alloc out.now)
    · dsimp only
      split
      · exact hs.workers
      · exact hs.workers.withWorker (f := Worker.completeJob processingTimeMs) _ (fun _ => .inr rfl) _
  | jobFailed jobId errorCode =>
    rw [worker_failed]
    constructor
    · exact sound_jobs (c := c) hs.jobs (.fail jobId errorCode out.now)
    · dsimp only
      split
      · exact hs.workers
      · exact hs.workers.withWorker (f := Worker.failJob) _ (fun _ => .inr rfl) _
  | workerDisconnect =>
    rw [worker_disconnect]
    exact ⟨hs.jobs, hs.workers.withWorker _ (fun _ => .inl rfl) _⟩
  | submitJob jobType data dataSize => exact hs
  | getJobStatus jobId => exact hs
  | getJobResult jobId => exact hs
  | other messageType => exact hs

theorem sound_step (hs : Sound srv) (e : Event) : Sound (step c srv e) := by
  cases e with
  | client clientSocket msg out =>
    obtain ⟨header, body⟩ := msg
    cases body with
    | submitJob jobType data dataSize =>
      rw [step, client_submit]
      exact ⟨sound_jobs (c := c) hs.jobs
        (.submit clientSocket jobType data dataSize out.alloc out.now), hs.workers⟩
    | _ =>
      rw [step, client_handler _ (by simp)]
      exact hs
  | worker workerSocket msg out => exact sound_worker hs msg
  | checkTimeouts now => exact ⟨sound_jobs (c := c) hs.jobs (.checkTimeouts now), hs.workers⟩
  | checkInactive timeoutSeconds now => exact ⟨hs.jobs, hs.workers.checkInactive _ _⟩

theorem sound_run (hs : Sound srv) (es : List Event) : Sound (es.foldl (step c) srv) := by
  induction es generalizing srv with
  | nil => exact hs
  | cons e es ih => exact ih (sound_step hs e)

theorem jobHandlerInit_ok {maxJobs timeoutSeconds : ℤ} {alloc : Bool}
    (h : ¬ (jobHandlerInit maxJobs timeoutSeconds alloc).1 < 0) :
    jobHandlerInit maxJobs timeoutSeconds alloc =
      (0, (jobHandlerInit maxJobs timeoutSeconds alloc).2) := by
  unfold jobHandlerInit at h ⊢
  by_cases hpos : maxJobs ≤ 0
  · simp [hpos] at h
  · cases alloc with
    | false => simp [hpos] at h
    | true => simp [hpos]

theorem workerManagerInit_ok {maxJobTypes : ℕ} {maxWorkers : ℤ} {alloc : Bool}
    (h : ¬ (workerManagerInit maxJobTypes maxWorkers alloc).1 < 0) :
    workerManagerInit maxJobTypes maxWorkers alloc =
      (0, (workerManagerInit maxJobTypes maxWorkers alloc).2) := by
  unfold workerManagerInit at h ⊢
  by_cases hpos : maxWorkers ≤ 0
  · simp [hpos] at h
  · cases alloc with
    | false => simp [hpos] at h
    | true => simp [hpos]

theorem init_server {maxJobs jobTimeoutSeconds maxWorkers : ℤ} {jobsAlloc workersAlloc : Bool}
    (hinit : serverInit c maxJobs jobTimeoutSeconds maxWorkers jobsAlloc workersAlloc = some srv) :
    Sound srv ∧ jobHandlerInit maxJobs jobTimeoutSeconds jobsAlloc = (0, srv.handler) ∧
      workerManagerInit c.maxJobTypes maxWorkers workersAlloc = (0, srv.manager) := by
  unfold serverInit at hinit
  dsimp only at hinit
  split at hinit
  · cases hinit
  · rename_i hjobs
    split at hinit
    · cases hinit
    · rename_i hworkers
      cases hinit
      have hh := jobHandlerInit_ok hjobs
      have hm := workerManagerInit_ok hworkers
      exact ⟨⟨⟨0, JobCalls.sound_init hh⟩, (init_numbered hm).1⟩, hh, hm⟩

def fourTypes : Settings := ⟨threeRetries, 4⟩

def smallServer : Server := ⟨(jobHandlerInit 2 10 true).2, (workerManagerInit 4 2 true).2⟩

theorem smallServer_init : serverInit fourTypes 2 10 2 true true = some smallServer := rfl

def clockAt (now : ℤ) : Outcome := ⟨now, true, true, true⟩

end CSimples.ServerMessages
