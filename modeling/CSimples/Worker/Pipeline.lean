import CSimples.Server.JobResults
import CSimples.Worker.Process

/-!
# Clients, the server and its workers (server/server.c, server/job_handler.c, worker/worker.c)

Any number of worker processes, each with its threads and connections, and the server
with one thread for each connection. A job is selected for a request under the mutex and
sent afterwards, while other connections are served. Requests and answers wait on their
connection; clients send what they like. What `receive_message` returns for a message, and
what becomes of the data whose address is in it, are parameters: the loops of server.c and
worker.c expect more than net_utils.c gives them.
-/

namespace CSimples.Pipeline
open JobHandler hiding Reply
open ServerMessages WorkerManager JobProcessing WorkerProcess Run
open Requests (Work report)
open JobSections (Submission)
open JobResults (Computed)

variable {ω κ : Type}

/-- Where the server's thread for a connection stands; `assigning` is between the section
that selected the job and its `send_message`. -/
inductive Serving where
  | greeting
  | serving
  | assigning (workerId : ℤ) (job : JobAssigned)
  | closed
  deriving Repr, DecidableEq

structure Conn where
  socket : ℤ
  requests : List Wire
  answers : List Reply
  state : Serving

/-- `told` is what clients were answered. -/
structure System (ω κ : Type) where
  jobs : JobSections.System
  manager : Manager
  workers : ω → Process κ
  conns : κ → Option Conn
  told : List Answer

/-- After `server_init`, before any worker is started. -/
def System.start (h : Handler) (m : Manager) : System ω κ :=
  ⟨JobSections.start h, m, fun _ => workerInit, fun _ => none, []⟩

/-! ### The messages under way -/

/-- `received` is what `receive_message` returns for a whole message, and `data` what the other
side finds behind the address in it. The functions of net_utils.c return 0, and send the address
alone. -/
structure Transport where
  received : ℕ
  data : Option (List UInt8) → Option (List UInt8)

/-- Where the loops of the server take messages for messages, their data comes with them. -/
def Transport.Faithful (t : Transport) : Prop := 0 < t.received → ∀ data, t.data data = data

def Transport.body (t : Transport) : Body → Body
  | .submitJob jobType data dataSize => .submitJob jobType (t.data data) dataSize
  | .jobCompleted jobId resultData resultSize processingTimeMs =>
    .jobCompleted jobId (t.data resultData) resultSize processingTimeMs
  | body => body

def Transport.answer (t : Transport) : Answer → Answer
  | .jobAssigned msg => .jobAssigned { msg with data := t.data msg.data }
  | .jobResult jobId data dataSize => .jobResult jobId (t.data data) dataSize
  | a => a

def Transport.reply (t : Transport) : Reply → Reply
  | .answer a => .answer (t.answer a)
  | reply => reply

/-! ### What a worker's step does to its connection (net_utils) -/

section Network
variable [DecidableEq κ] (t : Transport)

/-- The connection that a descriptor of the process is connected to. -/
def behind (p : Process κ) (conns : κ → Option Conn) (fd : ℤ) : Option (κ × Conn) := do
  let k ← (p.sockets fd).join
  let conn ← conns k
  some (k, conn)

def wire : Point → Option (ℤ × Wire)
  | .ready fd m => some (fd, m)
  | .goodbye fd workerId _ => some (fd, .message workerId .workerDisconnect)
  | _ => none

def awaited : Point → Option ℤ
  | .waiting fd _ | .drained fd _ => some fd
  | _ => none

def push (p : Process κ) (conns : κ → Option Conn) (fd : ℤ) (m : Wire) :
    Option (κ → Option Conn) := do
  let (k, conn) ← behind p conns fd
  some (Function.update conns k (some { conn with requests := conn.requests ++ [m] }))

def pop (p : Process κ) (conns : κ → Option Conn) (fd : ℤ) (reply : Reply) :
    Option (κ → Option Conn) := do
  let (k, conn) ← behind p conns fd
  match conn.answers with
  | [] => none
  | a :: rest =>
    if t.reply a = reply then some (Function.update conns k (some { conn with answers := rest })) else none

/-- `socket` is the descriptor that the server gets for a new connection. -/
def transmit (p : Process κ) (conns : κ → Option Conn) (socket : ℤ) :
    WorkerProcess.Action κ → Option (κ → Option Conn)
  | .connect _ (some k) =>
    if (conns k).isSome = true then none
    else some (Function.update conns k (some ⟨socket, [], [], .greeting⟩))
  | .send r true => (wire (p.points r)).bind fun m => push p conns m.1 m.2
  | .receive r (some reply) _ => (awaited (p.points r)).bind fun fd => pop t p conns fd reply
  | _ => some conns

end Network

/-! ### The server's threads -/

inductive Action (ω κ : Type) where
  | worker (w : ω) (a : WorkerProcess.Action κ) (socket : ℤ)
  | greet (k : κ) (sent : Bool)
  | handle (k : κ) (out : Outcome)
  | sendJob (k : κ) (i : ℕ) (ok : Bool) (out : Outcome)
  | hangUp (k : κ) (ended : Bool)
  | client (clientSocket : ℤ) (msg : Message) (out : Outcome)
  | checkTimeouts (now : ℤ)
  | checkInactive (timeoutSeconds now : ℤ)

variable (t : Transport) (c : Settings)

/-- The section of the job handler that a message of a worker, other than REQUEST_JOB,
goes through. -/
def jobSection (body : Body) (out : Outcome) : JobSections.Action :=
  match body with
  | .jobCompleted jobId resultData resultSize _ =>
    .complete jobId resultData resultSize out.alloc out.now
  | .jobFailed jobId errorCode => .fail jobId errorCode out.now
  | _ => .query

def clientSection (clientSocket : ℤ) (body : Body) (out : Outcome) : JobSections.Action :=
  match body with
  | .submitJob jobType data dataSize => .submit clientSocket jobType data dataSize out.alloc out.now
  | _ => .query

def Conn.reply (conn : Conn) (answers : List Answer) (sent : Bool) (state : Serving) : Conn :=
  { conn with
    answers := if sent then conn.answers ++ answers.map .answer else conn.answers
    state := state }

/-- The loop goes on unless the handler has returned a negative value. -/
def goesOn (ret : ℤ) : Serving := if ret < 0 then .closed else .serving

section Step
variable [DecidableEq κ]

def System.put (s : System ω κ) (k : κ) (conn : Conn) : System ω κ :=
  { s with conns := Function.update s.conns k (some conn) }

/-- `accept_thread_func` and the first lines of `handle_worker_connection`. -/
def greet (s : System ω κ) (k : κ) (sent : Bool) : Option (System ω κ) := do
  let conn ← s.conns k
  match conn.state, conn.requests with
  | .greeting, .connect :: rest =>
    let conn := { conn with requests := rest }
    some (s.put k (if sent = true then
      { conn with answers := conn.answers ++ [.connectAck], state := .serving }
    else { conn with state := .closed }))
  | .greeting, .message _ _ :: rest =>
    some (s.put k (({ conn with requests := rest } : Conn).reply
      [.error .invalidMessage "Invalid initial message"] sent .closed))
  | _, _ => none

/-- REQUEST_JOB up to the end of the first section of `job_handler_assign`. -/
def requestJob (s : System ω κ) (k : κ) (conn : Conn) (workerId : ℤ) (out : Outcome) :
    System ω κ :=
  let r := workerManagerUpdateStatus s.manager workerId .idle
  let s := { s with manager := r.2 }
  if r.1 < 0 then
    s.put k (conn.reply [.error .workerNotFound "Worker not found"] out.sent
      (goesOn (if out.sent then 0 else -1)))
  else match (assignSelect s.jobs.handler conn.socket out.now).1 with
  | none =>
    s.put k (conn.reply [.noJobAvailable] out.sent (goesOn (if out.sent then 0 else -1)))
  | some job =>
    { s with jobs := JobSections.step c.retries s.jobs (.select conn.socket out.now) }.put k
      { conn with state := .assigning workerId job }

/-- Every other message. -/
def answerMessage (s : System ω κ) (k : κ) (conn : Conn) (workerId : ℤ) (body : Body)
    (out : Outcome) : System ω κ :=
  let r := serverHandleWorkerMessage c ⟨s.jobs.handler, s.manager⟩ conn.socket
    ⟨⟨0, 0, workerId⟩, body⟩ out
  { s with
    jobs := JobSections.step c.retries s.jobs (jobSection body out)
    manager := r.server.manager }.put k
      (conn.reply (r.sends.map Response.answer) out.sent (goesOn r.ret))

def handleMessage (s : System ω κ) (k : κ) (conn : Conn) (out : Outcome) : Wire → System ω κ
  | .connect => answerMessage c s k conn 0 (.other 0) out
  | .message workerId body =>
    if t.body body = .requestJob then requestJob c s k conn workerId out
    else answerMessage c s k conn workerId (t.body body) out

/-- The thread leaves its loop on a 0 of `receive_message`. -/
def disconnected (s : System ω κ) (k : κ) (conn : Conn) : System ω κ :=
  let workerId := workerManagerFindBySocket s.manager conn.socket
  let manager := if workerId ≥ 0 then
    (workerManagerUnregister c.maxJobTypes s.manager workerId).2 else s.manager
  { s with manager := manager }.put k { conn with state := .closed }

/-- A message has been received. -/
def handle (s : System ω κ) (k : κ) (out : Outcome) : Option (System ω κ) := do
  let conn ← s.conns k
  match conn.state, conn.requests with
  | .serving, m :: rest =>
    let conn := { conn with requests := rest }
    some (if t.received = 0 then disconnected c s k conn else handleMessage t c s k conn out m)
  | _, _ => none

/-- `send_message` in `job_handler_assign`, and what follows; number `i` of the messages
that are being sent is this one. -/
def sendJob (s : System ω κ) (k : κ) (i : ℕ) (ok : Bool) (out : Outcome) :
    Option (System ω κ) := do
  let conn ← s.conns k
  match conn.state with
  | .assigning workerId job =>
    if s.jobs.sending[i]? = some job then
      let s := { s with jobs := JobSections.step c.retries s.jobs (.sent i ok) }
      if ok then
        let w := workerManagerAssignJob s.manager workerId job.jobId
        some ({ s with manager := w.2 }.put k (conn.reply [.jobAssigned job] true (goesOn w.1)))
      else
        some (s.put k (conn.reply [.noJobAvailable] out.sent
          (goesOn (if out.sent then 0 else -1))))
    else none
  | _ => none

/-- The thread leaves its loop: the stream has ended, or `receive_message` has failed. -/
def hangUp (s : System ω κ) (k : κ) (ended : Bool) : Option (System ω κ) := do
  let conn ← s.conns k
  match conn.state with
  | .assigning _ _ | .closed => none
  | .greeting => some (s.put k { conn with state := .closed })
  | .serving =>
    some (if ended = true then disconnected c s k conn else s.put k { conn with state := .closed })

/-- A client's message, and what the client finds in the answer. -/
def client (s : System ω κ) (clientSocket : ℤ) (msg : Message) (out : Outcome) : System ω κ :=
  let msg := { msg with body := t.body msg.body }
  let r := serverHandleClientMessage ⟨s.jobs.handler, s.manager⟩ clientSocket msg out
  { s with
    jobs := JobSections.step c.retries s.jobs (clientSection clientSocket msg.body out)
    told := if out.sent then s.told ++ r.sends.map fun resp => t.answer resp.answer else s.told }

variable [DecidableEq ω] (cfg : ω → Config)

def step (s : System ω κ) : Action ω κ → Option (System ω κ)
  | .worker w a socket => do
    let p ← WorkerProcess.step (cfg w) (s.workers w) a
    let conns ← transmit t (s.workers w) s.conns socket a
    some { s with workers := Function.update s.workers w p, conns := conns }
  | .greet k sent => greet s k sent
  | .handle k out => handle t c s k out
  | .sendJob k i ok out => sendJob c s k i ok out
  | .hangUp k ended => hangUp c s k ended
  | .client clientSocket msg out =>
    if t.received = 0 then none else some (client t c s clientSocket msg out)
  | .checkTimeouts now =>
    some { s with jobs := JobSections.step c.retries s.jobs (.checkTimeouts now) }
  | .checkInactive timeoutSeconds now =>
    some { s with manager := (workerManagerCheckInactive s.manager timeoutSeconds now).2 }

end Step

/-! ### Right messages -/

/-- What `worker_process_job` made of a message built for the job. -/
def Produced (built : List JobAssigned) (jobId : ℤ) (resultData : Option (List UInt8))
    (resultSize : ℕ) : Prop :=
  ∃ msg ∈ built, msg.jobId = jobId ∧
    ∃ mem, workerProcessJob msg.jobType msg.data msg.dataSize true mem =
      (0, some (resultData, resultSize))

def BodyRight (built : List JobAssigned) : Body → Prop
  | .jobCompleted jobId resultData resultSize _ => Produced built jobId resultData resultSize
  | _ => True

def WireRight (built : List JobAssigned) : Wire → Prop
  | .connect => True
  | .message _ body => BodyRight built body

def ReplyRight (built : List JobAssigned) : Reply → Prop
  | .answer (.jobAssigned msg) => msg ∈ built
  | _ => True

def PointRight (built : List JobAssigned) : Point → Prop
  | .before body => BodyRight built body
  | .ready _ m => WireRight built m
  | _ => True

structure ConnRight (built : List JobAssigned) (conn : Conn) : Prop where
  requests : ∀ m ∈ conn.requests, WireRight built m
  answers : ∀ a ∈ conn.answers, ReplyRight built a
  assigning : ∀ workerId job, conn.state = .assigning workerId job → job ∈ built

/-- A result that a client has been sent. -/
def Told (submitted : List Submission) : Answer → Prop
  | .jobResult jobId data dataSize =>
    ∃ sub ∈ submitted, sub.jobId = jobId ∧ Computed sub data dataSize
  | _ => True

structure Inv (s : System ω κ) : Prop where
  jobs : ∃ n, JobResults.Inv s.jobs n
  workers : ∀ w r, PointRight s.jobs.built ((s.workers w).points r)
  conns : ∀ k conn, s.conns k = some conn → ConnRight s.jobs.built conn
  told : ∀ a ∈ s.told, Told s.jobs.submitted a

variable {built built' : List JobAssigned}

theorem BodyRight.mono (hsub : ∀ msg ∈ built, msg ∈ built') {body : Body}
    (h : BodyRight built body) : BodyRight built' body := by
  unfold BodyRight at h ⊢
  split at h
  · obtain ⟨msg, hmsg, hrest⟩ := h
    exact ⟨msg, hsub msg hmsg, hrest⟩
  · trivial

theorem WireRight.mono (hsub : ∀ msg ∈ built, msg ∈ built') {m : Wire} (h : WireRight built m) :
    WireRight built' m := by
  cases m with
  | connect => trivial
  | message workerId body => exact BodyRight.mono hsub h

theorem ReplyRight.mono (hsub : ∀ msg ∈ built, msg ∈ built') {a : Reply} (h : ReplyRight built a) :
    ReplyRight built' a := by
  unfold ReplyRight at h ⊢
  split at h
  · exact hsub _ h
  · trivial

theorem PointRight.mono (hsub : ∀ msg ∈ built, msg ∈ built') {q : Point} (h : PointRight built q) :
    PointRight built' q := by
  cases q with
  | before body => exact BodyRight.mono hsub h
  | ready fd m => exact WireRight.mono hsub h
  | _ => trivial

theorem ConnRight.mono (hsub : ∀ msg ∈ built, msg ∈ built') {conn : Conn}
    (h : ConnRight built conn) : ConnRight built' conn :=
  ⟨fun m hm => (h.requests m hm).mono hsub, fun a ha => (h.answers a ha).mono hsub,
    fun workerId job hs => hsub job (h.assigning workerId job hs)⟩

/-! ### A worker answers with what it has computed -/

theorem process_succeeds {jobType : ℤ} {data : Option (List UInt8)} {size : ℕ}
    {mem : Block.Slots UInt8 size}
    (h : ¬ (workerProcessJob jobType data size true mem).1 < 0) :
    ∃ r, workerProcessJob jobType data size true mem = (0, some r) := by
  unfold workerProcessJob at h ⊢
  simp only [Bool.true_eq_false, if_false] at h ⊢
  split_ifs at h ⊢ <;> cases mem <;> simp_all

theorem report_right (err : ℤ) (w : Work) {msg : JobAssigned} (h : msg ∈ built) :
    BodyRight built (report err w msg) := by
  unfold report
  dsimp only
  split
  · trivial
  · rename_i hret
    obtain ⟨r, hr⟩ := process_succeeds hret
    rw [hr]
    exact ⟨msg, h, rfl, w.mem msg.dataSize, hr⟩

theorem failed_right (r : Role) (body : Body) : PointRight built (failed r body) := by
  cases body <;> first | trivial | (cases r <;> trivial)

theorem answered_right (cfg : Config) (w : Work) (r : Role) (body : Body) {a : Answer}
    (h : ReplyRight built (.answer a)) : PointRight built (answered cfg w r body a) := by
  unfold answered
  split
  · trivial
  · trivial
  · exact report_right _ w h
  · exact failed_right r _

variable {p p' : Process κ} {r : Role} {q : Point}

theorem goto_right (hp : ∀ u, PointRight built (p.points u)) (hq : PointRight built q) (u : Role) :
    PointRight built ((p.goto r q).points u) := by
  by_cases hu : u = r
  · subst hu
    rwa [goto_self]
  · rw [goto_other hu]
    exact hp u

theorem unconnected_right (r : Role) : PointRight built (unconnected r) := by
  cases r <;> trivial

theorem afterDisconnect_right (next : After) : PointRight built (afterDisconnect next) := by
  cases next <;> trivial

theorem enter_right {cfg : Config} (hp : ∀ u, PointRight built (p.points u))
    (h : enter cfg p r = some p') (u : Role) : PointRight built (p'.points u) := by
  unfold enter at h
  split at h
  · cases h
  · split at h
    · cases h
      unfold loopHead
      split_ifs
      · exact goto_right hp (by trivial) u
      · exact goto_right hp (by trivial) u
      · exact hp u
      · exact goto_right hp (by trivial) u
    · rename_i body hat
      cases h
      have hbody := hp r
      rw [hat] at hbody
      unfold prepare
      split
      · split
        · exact goto_right hp (by cases r <;> trivial) u
        · exact goto_right hp (by trivial) u
      · split
        · exact goto_right hp (failed_right r _) u
        · exact goto_right hp (by exact hbody) u
    · cases h
      exact goto_right hp (by trivial) u
    · cases h
      exact goto_right hp (by split <;> trivial) u
    · cases h
      unfold leave
      split_ifs
      · exact goto_right hp (afterDisconnect_right _) u
      · exact goto_right hp (by trivial) u
      · exact goto_right hp (by trivial) u
    · cases h
      exact goto_right hp (by trivial) u
    · split at h
      · cases h
        exact goto_right hp (by trivial) u
      · cases h
    · cases h

theorem send_right {ok : Bool} (hp : ∀ u, PointRight built (p.points u))
    (h : send p r ok = some p') (u : Role) : PointRight built (p'.points u) := by
  unfold send at h
  split at h
  · split at h
    · split at h
      · cases h
      · cases h
        exact goto_right hp (by trivial) u
    · split at h
      · cases h
        exact goto_right (p := p.shut _) hp (unconnected_right r) u
      · cases h
        exact goto_right hp (failed_right r _) u
  · split at h
    · cases h
    · cases h
      exact goto_right hp (by trivial) u
  · cases h

theorem receive_right {cfg : Config} {reply : Option Reply} {w : Work}
    (hp : ∀ u, PointRight built (p.points u)) (hreply : ∀ a, reply = some a → ReplyRight built a)
    (h : receive cfg p r reply w = some p') (u : Role) : PointRight built (p'.points u) := by
  unfold receive at h
  split at h
  · split at h
    · cases h
    · split at h
      · cases h
        exact goto_right hp (by trivial) u
      · cases h
        exact goto_right (p := p.shut _) hp (unconnected_right r) u
      · cases h
        exact goto_right hp (answered_right cfg w r _ (hreply _ rfl)) u
      · cases h
        exact goto_right hp (failed_right r _) u
  · split at h
    · cases h
    · cases h
      exact goto_right hp (by trivial) u
  · cases h

/-- If what it is answered is right, a process goes on with right messages only. -/
theorem worker_right {cfg : Config} {a : WorkerProcess.Action κ}
    (hp : ∀ u, PointRight built (p.points u))
    (hreply : ∀ r reply w, a = .receive r (some reply) w → ReplyRight built reply)
    (h : WorkerProcess.step cfg p a = some p') (u : Role) : PointRight built (p'.points u) := by
  cases a with
  | start =>
    simp only [WorkerProcess.step, WorkerProcess.start] at h
    split_ifs at h
    · cases h
      exact hp u
    · cases h
      exact goto_right hp (by trivial) u
  | stop =>
    simp only [WorkerProcess.step, stop] at h
    split_ifs at h
    · cases h
      exact hp u
    · cases h
      exact goto_right hp (by trivial) u
  | socket r fd =>
    simp only [WorkerProcess.step, socket] at h
    split at h
    · cases h
      exact goto_right hp (unconnected_right r) u
    · split at h
      · cases h
        exact goto_right (p := p.hold _ none) hp (by trivial) u
      · cases h
    · cases h
  | connect r conn =>
    simp only [WorkerProcess.step, connect] at h
    split at h
    · cases h
      exact goto_right (p := p.shut _) hp (unconnected_right r) u
    · cases h
      exact goto_right (p := p.hold _ _) hp (by trivial) u
    · cases h
  | enter r => exact enter_right hp h u
  | send r ok => exact send_right hp h u
  | receive r reply w => exact receive_right hp (fun a ha => hreply r a w (by rw [ha])) h u
  | close r =>
    simp only [WorkerProcess.step, close] at h
    split at h
    · cases h
      exact goto_right (p := p.shut _) hp (afterDisconnect_right _) u
    · cases h
  | create ok =>
    simp only [WorkerProcess.step, create] at h
    split at h
    · cases h
      exact goto_right (goto_right hp (by trivial)) (by trivial) u
    · cases h
      exact goto_right hp (by trivial) u
    · cases h
      exact goto_right (goto_right hp (by trivial)) (by trivial) u
    · cases h
      exact goto_right hp (by trivial) u
    · cases h
  | cancel =>
    simp only [WorkerProcess.step, cancel] at h
    split at h
    · cases h
      exact goto_right (goto_right hp (by trivial)) (by trivial) u
    · cases h

/-! ### The connections -/

theorem behind_some {conns : κ → Option Conn} {fd : ℤ} {x : κ × Conn}
    (h : behind p conns fd = some x) : conns x.1 = some x.2 := by
  obtain ⟨k, _, h⟩ := Option.bind_eq_some_iff.mp h
  obtain ⟨conn, hconn, h⟩ := Option.bind_eq_some_iff.mp h
  cases h
  exact hconn

section Network
variable [DecidableEq κ] {conns conns' : κ → Option Conn}

def AllRight (built : List JobAssigned) (conns : κ → Option Conn) : Prop :=
  ∀ k conn, conns k = some conn → ConnRight built conn

theorem update_right (hc : AllRight built conns) (k : κ) {conn : Conn} (h : ConnRight built conn) :
    AllRight built (Function.update conns k (some conn)) := by
  intro k' conn' hk'
  by_cases hk : k' = k
  · subst hk
    rw [Function.update_self] at hk'
    cases hk'
    exact h
  · rw [Function.update_of_ne hk] at hk'
    exact hc k' conn' hk'

theorem wire_right {q : Point} (hq : PointRight built q) {m : ℤ × Wire} (h : wire q = some m) :
    WireRight built m.2 := by
  cases q with
  | ready fd m =>
    cases h
    exact hq
  | goodbye fd workerId next =>
    cases h
    trivial
  | _ => cases h

theorem push_right (hc : AllRight built conns) {fd : ℤ} {m : Wire} (hm : WireRight built m)
    (h : push p conns fd m = some conns') : AllRight built conns' := by
  obtain ⟨⟨k, conn⟩, hbehind, h⟩ := Option.bind_eq_some_iff.mp h
  cases h
  obtain ⟨hrequests, hanswers, hassigning⟩ := hc k conn (behind_some hbehind)
  refine update_right hc k ⟨fun m' hm' => ?_, hanswers, hassigning⟩
  rcases List.mem_append.mp hm' with hm' | hm'
  · exact hrequests m' hm'
  · rw [List.mem_singleton.mp hm']
    exact hm

/-- The transport changes no job that was built. -/
def Carries (t : Transport) (built : List JobAssigned) : Prop :=
  ∀ msg ∈ built, ∀ data, t.data data = data

theorem reply_carried {t : Transport} (ht : Carries t built) {a : Reply} (h : ReplyRight built a) :
    ReplyRight built (t.reply a) := by
  cases a with
  | connectAck => trivial
  | answer a =>
    cases a with
    | jobAssigned msg =>
      have hmsg : msg ∈ built := h
      have hsame : t.reply (.answer (.jobAssigned msg)) = .answer (.jobAssigned msg) := by
        simp only [Transport.reply, Transport.answer, ht msg hmsg]
      rw [hsame]
      exact h
    | _ => trivial

theorem pop_right {t : Transport} (ht : Carries t built) (hc : AllRight built conns) {fd : ℤ}
    {reply : Reply} (h : pop t p conns fd reply = some conns') :
    AllRight built conns' ∧ ReplyRight built reply := by
  obtain ⟨⟨k, conn⟩, hbehind, h⟩ := Option.bind_eq_some_iff.mp h
  obtain ⟨hrequests, hanswers, hassigning⟩ := hc k conn (behind_some hbehind)
  dsimp only at h
  split at h
  · cases h
  · rename_i a rest hrest
    split at h
    · rename_i ha
      cases h
      rw [hrest] at hanswers
      refine ⟨update_right hc k ⟨hrequests, fun a' ha' => ?_, hassigning⟩, ?_⟩
      · exact hanswers a' (List.mem_cons_of_mem _ ha')
      · rw [← ha]
        exact reply_carried ht (hanswers a List.mem_cons_self)
    · cases h

theorem transmit_right {t : Transport} (ht : Carries t built) (hc : AllRight built conns)
    (hp : ∀ u, PointRight built (p.points u)) {socket : ℤ} {a : WorkerProcess.Action κ}
    (h : transmit t p conns socket a = some conns') :
    AllRight built conns' ∧
      ∀ r reply w, a = .receive r (some reply) w → ReplyRight built reply := by
  unfold transmit at h
  split at h
  · split at h
    · cases h
    · cases h
      exact ⟨update_right hc _ ⟨nofun, nofun, nofun⟩, nofun⟩
  · rename_i r
    obtain ⟨m, hm, h⟩ := Option.bind_eq_some_iff.mp h
    exact ⟨push_right hc (wire_right (hp r) hm) h, nofun⟩
  · obtain ⟨fd, _, h⟩ := Option.bind_eq_some_iff.mp h
    obtain ⟨hc', hreply⟩ := pop_right ht hc h
    refine ⟨hc', fun r' reply' w' heq => ?_⟩
    cases heq
    exact hreply
  · rename_i hother
    cases h
    exact ⟨hc, fun r reply w heq => (hother r reply w heq).elim⟩

end Network

/-! ### The server's threads answer with what was built -/

section Sections
variable (c : Constants) (s : JobSections.System)

/-- Messages that were built stay built, and submissions stay submitted. -/
theorem step_grows (a : JobSections.Action) :
    (∀ msg ∈ s.built, msg ∈ (JobSections.step c s a).built) ∧
      ∀ sub ∈ s.submitted, sub ∈ (JobSections.step c s a).submitted := by
  cases a with
  | submit clientSocket jobType inputData inputSize alloc now =>
    refine ⟨fun _ h => h, fun sub hsub => ?_⟩
    simp only [JobSections.step]
    split
    · exact hsub
    · exact List.mem_append_left _ hsub
  | select workerSocket now => exact ⟨fun _ h => List.mem_append_left _ h, fun _ h => h⟩
  | sent k ok =>
    simp only [JobSections.step]
    split
    · exact ⟨fun _ h => h, fun _ h => h⟩
    · exact ⟨fun _ h => h, fun _ h => h⟩
  | complete jobId resultData resultSize alloc now => exact ⟨fun _ h => h, fun _ h => h⟩
  | fail jobId errorCode now => exact ⟨fun _ h => h, fun _ h => h⟩
  | checkTimeouts now => exact ⟨fun _ h => h, fun _ h => h⟩
  | query => exact ⟨fun _ h => h, fun _ h => h⟩

theorem select_built {job : JobAssigned} {workerSocket now : ℤ}
    (h : (assignSelect s.handler workerSocket now).1 = some job) :
    job ∈ (JobSections.step c s (.select workerSocket now)).built := by
  refine List.mem_append_right _ ?_
  rw [h]
  exact List.mem_singleton_self job

end Sections

/-- Only REQUEST_JOB is answered with a job. -/
theorem sends_plain (srv : Server) (socket : ℤ) (header : Header) {body : Body}
    (hbody : body ≠ .requestJob) (out : Outcome) :
    ∀ resp ∈ (serverHandleWorkerMessage c srv socket ⟨header, body⟩ out).sends,
      ReplyRight built (.answer resp.answer) := by
  have herror : ∀ (srv : Server) code text, ∀ resp ∈ (sendErrorResponse srv out code text).sends,
      ReplyRight built (.answer resp.answer) := by
    intro srv code text resp hresp
    rw [List.mem_singleton.mp hresp]
    trivial
  have hreply : ∀ (srv : Server) header answer notices, ReplyRight built (.answer answer) →
      ∀ resp ∈ (srv.reply out header answer [] notices).sends,
        ReplyRight built (.answer resp.answer) := by
    intro srv header answer notices hanswer resp hresp
    rw [List.mem_singleton.mp hresp]
    exact hanswer
  cases body with
  | requestJob => exact absurd rfl hbody
  | workerRegister ipAddress port jobTypesSupported numJobTypes =>
    simp only [serverHandleWorkerMessage, handleRegister]
    split
    · exact herror _ _ _
    · exact hreply _ _ _ _ trivial
  | workerHeartbeat =>
    simp only [serverHandleWorkerMessage, handleHeartbeat]
    split
    · exact herror _ _ _
    · exact hreply _ _ _ _ trivial
  | jobCompleted jobId resultData resultSize processingTimeMs =>
    simp only [serverHandleWorkerMessage, handleJobCompleted]
    split
    · exact herror _ _ _
    · split
      · exact fun _ ha => absurd ha List.not_mem_nil
      · exact hreply _ _ _ _ trivial
  | jobFailed jobId errorCode =>
    simp only [serverHandleWorkerMessage, handleJobFailed]
    split
    · exact herror _ _ _
    · split
      · exact fun _ ha => absurd ha List.not_mem_nil
      · exact hreply _ _ _ _ trivial
  | workerDisconnect =>
    simp only [serverHandleWorkerMessage, handleDisconnect]
    split
    · exact herror _ _ _
    · exact hreply _ _ _ _ trivial
  | _ => exact herror _ _ _

theorem reply_right {conn : Conn} (h : ConnRight built conn) {answers : List Answer}
    (hanswers : ∀ a ∈ answers, ReplyRight built (.answer a)) (sent : Bool) {state : Serving}
    (hstate : ∀ workerId job, state ≠ .assigning workerId job) :
    ConnRight built (conn.reply answers sent state) := by
  refine ⟨h.requests, fun a ha => ?_, fun workerId job hs => absurd hs (hstate workerId job)⟩
  simp only [Conn.reply] at ha
  split at ha
  · rcases List.mem_append.mp ha with ha | ha
    · exact h.answers a ha
    · obtain ⟨b, hb, rfl⟩ := List.mem_map.mp ha
      exact hanswers b hb
  · exact h.answers a ha

theorem closed_state (workerId : ℤ) (job : JobAssigned) :
    Serving.closed ≠ .assigning workerId job := nofun

theorem goesOn_state (ret : ℤ) (workerId : ℤ) (job : JobAssigned) :
    goesOn ret ≠ .assigning workerId job := by
  unfold goesOn
  split <;> exact nofun

/-- The server's handlers, section by section. -/
theorem answerMessage_handler (jobs : JobSections.System) (manager : Manager) (socket : ℤ)
    (header : Header) {body : Body} (hbody : body ≠ .requestJob) (out : Outcome) :
    (serverHandleWorkerMessage c ⟨jobs.handler, manager⟩ socket ⟨header, body⟩ out).server.handler =
      (JobSections.step c.retries jobs (jobSection body out)).handler := by
  cases body with
  | requestJob => exact absurd rfl hbody
  | workerRegister ipAddress port jobTypesSupported numJobTypes => rw [worker_register]; rfl
  | workerHeartbeat => rw [worker_heartbeat]; rfl
  | jobCompleted jobId resultData resultSize processingTimeMs => rw [worker_completed]; rfl
  | jobFailed jobId errorCode => rw [worker_failed]; rfl
  | workerDisconnect => rw [worker_disconnect]; rfl
  | _ => rfl

theorem client_handler_section (jobs : JobSections.System) (manager : Manager) (socket : ℤ)
    (msg : Message) (out : Outcome) :
    (serverHandleClientMessage ⟨jobs.handler, manager⟩ socket msg out).server.handler =
      (JobSections.step c.retries jobs (clientSection socket msg.body out)).handler := by
  obtain ⟨header, body⟩ := msg
  cases body with
  | submitJob jobType data dataSize => rw [client_submit]; rfl
  | _ => rw [client_handler _ fun _ _ _ h => by cases h]; rfl

/-- `job_handler_assign` is its two sections, when nothing comes between them. -/
theorem assign_sections (jobs : JobSections.System) (workerSocket now : ℤ) (ok : Bool) :
    (jobHandlerAssign jobs.handler workerSocket now ok).handler =
      (JobSections.step c.retries (JobSections.step c.retries jobs (.select workerSocket now))
        (.sent jobs.sending.length ok)).handler := by
  simp only [jobHandlerAssign, JobSections.step, JobSections.System.next]
  split
  · rename_i h' hnone
    simp [hnone]
  · rename_i msg h' hsome
    simp only [hsome, Option.toList_some, List.getElem?_concat_length]
    cases ok <;> rfl

/-! ### Every step keeps them right -/

theorem jobSection_honest {s : JobSections.System} {body : Body} (h : BodyRight s.built body)
    (out : Outcome) : JobResults.Honest s (jobSection body out) := by
  cases body with
  | jobCompleted jobId resultData resultSize processingTimeMs => exact h
  | _ => trivial

/-- The buffers of a client hold what they are said to. -/
def WellFormed : Action ω κ → Prop
  | .client _ msg _ => match msg.body with
    | .submitJob _ (some data) dataSize => dataSize ≤ data.length
    | _ => True
  | _ => True

variable {t c} {s s' : System ω κ}

theorem body_carried (ht : ∀ data, t.data data = data) (body : Body) : t.body body = body := by
  cases body <;> simp [Transport.body, ht]

theorem answer_carried (ht : ∀ data, t.data data = data) (a : Answer) : t.answer a = a := by
  cases a <;> simp [Transport.answer, ht]

theorem Inv.jobs_step (hs : Inv s) {a : JobSections.Action} (ha : JobResults.Honest s.jobs a) :
    ∃ n, JobResults.Inv (JobSections.step c.retries s.jobs a) n :=
  JobResults.inv_step c.retries s.jobs a hs.jobs ha

/-- A section of the job handler, and one connection. -/
theorem Inv.section_step (hs : Inv s) {a : JobSections.Action} (ha : JobResults.Honest s.jobs a)
    {conns : κ → Option Conn}
    (hconns : AllRight (JobSections.step c.retries s.jobs a).built conns) (manager : Manager) :
    Inv { s with
      jobs := JobSections.step c.retries s.jobs a
      manager := manager
      conns := conns } := by
  obtain ⟨hbuilt, hsubmitted⟩ := step_grows c.retries s.jobs a
  refine ⟨hs.jobs_step ha, fun w r => (hs.workers w r).mono hbuilt, hconns, fun a ha => ?_⟩
  have htold := hs.told a ha
  unfold Told at htold ⊢
  split at htold
  · obtain ⟨sub, hsub, hrest⟩ := htold
    exact ⟨sub, hsubmitted sub hsub, hrest⟩
  · trivial

/-- A connection only. -/
theorem Inv.conns_step (hs : Inv s) {conns : κ → Option Conn}
    (hconns : AllRight s.jobs.built conns) (manager : Manager) :
    Inv { s with manager := manager, conns := conns } :=
  ⟨hs.jobs, hs.workers, hconns, hs.told⟩

section Steps
variable [DecidableEq κ]

theorem inv_greet (hs : Inv s) {k : κ} {sent : Bool} (h : greet s k sent = some s') : Inv s' := by
  obtain ⟨conn, hconn, h⟩ := Option.bind_eq_some_iff.mp h
  obtain ⟨hrequests, hanswers, hassigning⟩ := hs.conns k conn hconn
  dsimp only at h
  split at h
  · rename_i rest hstate hrest
    cases h
    rw [hrest] at hrequests
    refine hs.conns_step (update_right hs.conns k ?_) s.manager
    split
    · refine ⟨fun m hm => hrequests m (List.mem_cons_of_mem _ hm), fun a ha => ?_, nofun⟩
      rcases List.mem_append.mp ha with ha | ha
      · exact hanswers a ha
      · rw [List.mem_singleton.mp ha]
        trivial
    · exact ⟨fun m hm => hrequests m (List.mem_cons_of_mem _ hm), hanswers, nofun⟩
  · rename_i rest hstate hrest
    cases h
    rw [hrest] at hrequests
    have hrest : ConnRight s.jobs.built { conn with requests := rest } :=
      ⟨fun m hm => hrequests m (List.mem_cons_of_mem _ hm), hanswers, hassigning⟩
    refine hs.conns_step (update_right hs.conns k (reply_right hrest ?_ sent closed_state))
      s.manager
    intro a ha
    rw [List.mem_singleton.mp ha]
    trivial
  · cases h

theorem inv_requestJob (hs : Inv s) {k : κ} {conn : Conn} (hconn : ConnRight s.jobs.built conn)
    (workerId : ℤ) (out : Outcome) : Inv (requestJob c s k conn workerId out) := by
  unfold requestJob
  dsimp only
  have hplain : ∀ answer, ReplyRight s.jobs.built (.answer answer) →
      ∀ a ∈ [answer], ReplyRight s.jobs.built (.answer a) := by
    intro answer hanswer a ha
    rwa [List.mem_singleton.mp ha]
  split
  · exact hs.conns_step (update_right hs.conns k (reply_right hconn (hplain _ (by trivial)) _
      (goesOn_state _))) _
  · split
    · exact hs.conns_step (update_right hs.conns k (reply_right hconn (hplain _ (by trivial)) _
        (goesOn_state _))) _
    · rename_i job hjob
      have hbuilt := (step_grows c.retries s.jobs (.select conn.socket out.now)).1
      have hkept := hconn.mono hbuilt
      have hnew : ConnRight (JobSections.step c.retries s.jobs (.select conn.socket out.now)).built
          { conn with state := .assigning workerId job } := by
        refine ⟨hkept.requests, hkept.answers, ?_⟩
        rintro _ _ ⟨⟩
        exact select_built c.retries s.jobs hjob
      exact hs.section_step (a := .select conn.socket out.now) trivial
        (update_right (fun k conn hk => (hs.conns k conn hk).mono hbuilt) k hnew) _

theorem inv_answerMessage (hs : Inv s) {k : κ} {conn : Conn} (hconn : ConnRight s.jobs.built conn)
    (workerId : ℤ) {body : Body} (hbody : body ≠ .requestJob) (hright : BodyRight s.jobs.built body)
    (out : Outcome) : Inv (answerMessage c s k conn workerId body out) := by
  have hbuilt := (step_grows c.retries s.jobs (jobSection body out)).1
  refine hs.section_step (jobSection_honest hright out)
    (update_right (fun k conn hk => (hs.conns k conn hk).mono hbuilt) k
      (reply_right (hconn.mono hbuilt) (fun a ha => ?_) _ (goesOn_state _))) _
  obtain ⟨resp, hresp, rfl⟩ := List.mem_map.mp ha
  exact sends_plain c _ _ _ hbody out resp hresp

theorem inv_disconnected (hs : Inv s) (k : κ) {conn : Conn} (hconn : ConnRight s.jobs.built conn) :
    Inv (disconnected c s k conn) := by
  have hclosed : ConnRight s.jobs.built { conn with state := .closed } :=
    ⟨hconn.requests, hconn.answers, nofun⟩
  exact hs.conns_step (update_right hs.conns k hclosed) _

theorem inv_handleMessage (hs : Inv s) (ht : ∀ data, t.data data = data) {k : κ} {conn : Conn}
    (hconn : ConnRight s.jobs.built conn) {m : Wire} (hm : WireRight s.jobs.built m)
    (out : Outcome) : Inv (handleMessage t c s k conn out m) := by
  cases m with
  | connect => exact inv_answerMessage hs hconn 0 (by decide) (by trivial) out
  | message workerId body =>
    rw [handleMessage, body_carried ht]
    split
    · exact inv_requestJob hs hconn workerId out
    · rename_i hbody
      exact inv_answerMessage hs hconn workerId hbody hm out

theorem inv_handle (hs : Inv s) (ht : t.Faithful) {k : κ} {out : Outcome}
    (h : handle t c s k out = some s') : Inv s' := by
  obtain ⟨conn, hconn, h⟩ := Option.bind_eq_some_iff.mp h
  obtain ⟨hrequests, hanswers, hassigning⟩ := hs.conns k conn hconn
  dsimp only at h
  split at h
  · rename_i m rest hstate hrest
    cases h
    rw [hrest] at hrequests
    have hrest : ConnRight s.jobs.built { conn with requests := rest } :=
      ⟨fun m hm => hrequests m (List.mem_cons_of_mem _ hm), hanswers, hassigning⟩
    split
    · exact inv_disconnected hs k hrest
    · rename_i hreceived
      exact inv_handleMessage hs (ht (Nat.pos_of_ne_zero hreceived)) hrest
        (hrequests m List.mem_cons_self) out
  · cases h

theorem inv_sendJob (hs : Inv s) {k : κ} {i : ℕ} {ok : Bool} {out : Outcome}
    (h : sendJob c s k i ok out = some s') : Inv s' := by
  obtain ⟨conn, hconn, h⟩ := Option.bind_eq_some_iff.mp h
  have hright := hs.conns k conn hconn
  have hbuilt := (step_grows c.retries s.jobs (.sent i ok)).1
  have hall : AllRight (JobSections.step c.retries s.jobs (.sent i ok)).built s.conns :=
    fun k conn hk => (hs.conns k conn hk).mono hbuilt
  dsimp only at h
  split at h
  · rename_i workerId job hstate
    split at h
    · split at h
      · cases h
        refine hs.section_step (a := .sent i ok) trivial
          (update_right hall k (reply_right (hright.mono hbuilt) ?_ true (goesOn_state _))) _
        intro a ha
        rw [List.mem_singleton.mp ha]
        exact hbuilt job (hright.assigning workerId job hstate)
      · cases h
        refine hs.section_step (a := .sent i ok) trivial
          (update_right hall k (reply_right (hright.mono hbuilt) ?_ _ (goesOn_state _))) s.manager
        intro a ha
        rw [List.mem_singleton.mp ha]
        trivial
    · cases h
  · cases h

theorem inv_hangUp (hs : Inv s) {k : κ} {ended : Bool} (h : hangUp c s k ended = some s') :
    Inv s' := by
  obtain ⟨conn, hconn, h⟩ := Option.bind_eq_some_iff.mp h
  have hright := hs.conns k conn hconn
  have hclosed : ConnRight s.jobs.built { conn with state := .closed } :=
    ⟨hright.requests, hright.answers, nofun⟩
  split at h
  · cases h
  · cases h
  · cases h
    exact hs.conns_step (update_right hs.conns k hclosed) s.manager
  · cases h
    split
    · exact inv_disconnected hs k hright
    · exact hs.conns_step (update_right hs.conns k hclosed) s.manager

end Steps

/-! ### What clients are told -/

theorem getResult_ret {h : Handler} {jobId ret : ℤ} {alloc : Bool}
    {x : Option (List UInt8) × ℕ}
    (hget : jobHandlerGetResult h jobId true alloc = (ret, some x)) : ret = 0 := by
  simp only [jobHandlerGetResult, Bool.true_eq_false, if_false] at hget
  split at hget
  · cases hget
  · split at hget
    · cases hget
    · split at hget
      · cases hget
      · cases hget
        rfl

theorem client_told (hs : Inv s) (clientSocket : ℤ) (msg : Message) (out : Outcome) :
    ∀ resp ∈ (serverHandleClientMessage ⟨s.jobs.handler, s.manager⟩ clientSocket msg out).sends,
      Told (JobSections.step c.retries s.jobs (clientSection clientSocket msg.body out)).submitted
        resp.answer := by
  obtain ⟨header, body⟩ := msg
  have herror : ∀ (srv : Server) code text submitted,
      ∀ resp ∈ (sendErrorResponse srv out code text).sends, Told submitted resp.answer := by
    intro srv code text submitted resp hresp
    rw [List.mem_singleton.mp hresp]
    trivial
  cases body with
  | submitJob jobType data dataSize =>
    simp only [serverHandleClientMessage]
    split
    · exact herror _ _ _ _
    · intro resp hresp
      rw [List.mem_singleton.mp hresp]
      trivial
  | getJobStatus jobId =>
    simp only [serverHandleClientMessage]
    split
    · exact herror _ _ _ _
    · intro resp hresp
      rw [List.mem_singleton.mp hresp]
      trivial
  | getJobResult jobId =>
    simp only [serverHandleClientMessage]
    split
    · exact herror _ _ _ _
    · split
      · exact herror _ _ _ _
      · split
        · exact herror _ _ _ _
        · rename_i ret data size hget
          obtain ⟨n, hinv⟩ := hs.jobs
          obtain rfl := getResult_ret hget
          obtain ⟨⟨sub, hsub, hid⟩, hall⟩ := hinv.correct jobId true out.alloc data size hget
          intro resp hresp
          rw [List.mem_singleton.mp hresp]
          exact ⟨sub, hsub, hid, hall sub hsub hid⟩
  | _ => exact herror _ _ _ _

theorem inv_client (hs : Inv s) (ht : ∀ data, t.data data = data) {clientSocket : ℤ}
    {msg : Message} {out : Outcome}
    (hwell : WellFormed (.client clientSocket msg out : Action ω κ)) :
    Inv (client t c s clientSocket msg out) := by
  have hhonest : JobResults.Honest s.jobs (clientSection clientSocket msg.body out) := by
    unfold clientSection
    split
    · rename_i jobType data dataSize hbody
      rintro bytes rfl
      simpa only [WellFormed, hbody] using hwell
    · trivial
  have hstep := hs.section_step (c := c) hhonest
    (fun k conn hk => (hs.conns k conn hk).mono (step_grows c.retries s.jobs _).1) s.manager
  simp only [client, body_carried ht, answer_carried ht]
  refine ⟨hstep.jobs, hstep.workers, hstep.conns, fun a ha => ?_⟩
  dsimp only at ha
  split at ha
  · rcases List.mem_append.mp ha with ha | ha
    · exact hstep.told a ha
    · obtain ⟨resp, hresp, rfl⟩ := List.mem_map.mp ha
      exact client_told hs clientSocket msg out resp hresp
  · exact hstep.told a ha

theorem inv_start {srv : Server} {maxJobs jobTimeoutSeconds maxWorkers : ℤ}
    {jobsAlloc workersAlloc : Bool}
    (hinit : serverInit c maxJobs jobTimeoutSeconds maxWorkers jobsAlloc workersAlloc = some srv) :
    Inv (System.start srv.handler srv.manager : System ω κ) := by
  have hjobs := (init_server hinit).2.1
  refine ⟨⟨0, (init_filled hjobs).1, rfl, nofun, fun i _ _ hlt => absurd hlt (Nat.not_lt_zero i),
    nofun⟩, fun w r => trivial, nofun, nofun⟩

/-- Where no message is taken for one, no job is ever built and nobody is told anything. -/
def Idle (t : Transport) (s : System ω κ) : Prop :=
  t.received = 0 → s.jobs.built = [] ∧ s.told = []

section Run
variable [DecidableEq κ] [DecidableEq ω] {cfg : ω → Config}

theorem inv_worker (hs : Inv s) (ht : Carries t s.jobs.built) {w : ω} {a : WorkerProcess.Action κ}
    {socket : ℤ} (h : step t c cfg s (.worker w a socket) = some s') : Inv s' := by
  obtain ⟨p, hp, h⟩ := Option.bind_eq_some_iff.mp h
  obtain ⟨conns, hconns, h⟩ := Option.bind_eq_some_iff.mp h
  cases h
  obtain ⟨hc, hreply⟩ := transmit_right ht hs.conns (hs.workers w) hconns
  have hworkers : ∀ u r,
      PointRight s.jobs.built ((Function.update s.workers w p u).points r) := by
    intro u r
    by_cases hu : u = w
    · subst hu
      rw [Function.update_self]
      exact worker_right (hs.workers u) hreply hp r
    · rw [Function.update_of_ne hu]
      exact hs.workers u r
  exact ⟨hs.jobs, hworkers, hc, hs.told⟩

theorem inv_step (hs : Inv s) (hcarries : Carries t s.jobs.built) (ht : t.Faithful)
    (a : Action ω κ) (ha : WellFormed a) (h : step t c cfg s a = some s') : Inv s' := by
  cases a with
  | worker w a socket => exact inv_worker hs hcarries h
  | greet k sent => exact inv_greet hs h
  | handle k out => exact inv_handle hs ht h
  | sendJob k i ok out => exact inv_sendJob hs h
  | hangUp k ended => exact inv_hangUp hs h
  | client clientSocket msg out =>
    obtain ⟨hreceived, h⟩ := Option.ite_none_left_eq_some.mp h
    cases h
    exact inv_client hs (ht (Nat.pos_of_ne_zero hreceived)) ha
  | checkTimeouts now =>
    cases h
    exact hs.section_step (a := .checkTimeouts now) trivial
      (fun k conn hk => (hs.conns k conn hk).mono (step_grows c.retries s.jobs _).1) s.manager
  | checkInactive timeoutSeconds now =>
    cases h
    exact hs.conns_step hs.conns _

end Run

def echoWorker : Unit → Config := fun _ => ⟨[49], 9000, [1, 2, 3], 3, 8, -30⟩

def promptly : Work := ⟨fun size => some ⟨List.replicate size 0, List.length_replicate⟩, 7⟩

def submission : Action Unit ℕ :=
  .client 5 ⟨⟨1, 5, 0⟩, .submitJob 2 (some [104, 105]) 2⟩ (clockAt 100)

def work (as : List (WorkerProcess.Action ℕ)) : List (Action Unit ℕ) :=
  as.map fun a => .worker () a 9

def launch : List (WorkerProcess.Action ℕ) :=
  [.start, .socket .main (some 3), .connect .main (some 0), .send .main true]

def register : List (WorkerProcess.Action ℕ) :=
  [.receive .main (some .connectAck) promptly, .enter .main, .enter .main, .send .main true]

def dropped : List (Action Unit ℕ) :=
  (work launch).append (.greet 0 true :: (work register).append [.handle 0 (clockAt 200)])

end CSimples.Pipeline
