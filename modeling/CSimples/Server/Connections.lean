import CSimples.Server.ServerMessages
import CSimples.Shared.MessageTransfer

/-!
# The connection loops (server/server.c:148-266)

`handle_client_connection` and `handle_worker_connection` take a positive result
of `receive_message` for a message and 0 for the end of the stream. The function
in lib/src/net_utils.c answers 0 for a message and -1 otherwise. The model starts
with the descriptor: the first lines of both functions, which free the address of
their own parameter, are left out.
-/

namespace CSimples.Connections
open ServerMessages WorkerManager ByteStream NetUtils
open Protocol (Endian messageSize headerSize)

variable (c : Settings)

/-! ### The loop -/

inductive Kind where
  | client
  | worker
  deriving DecidableEq

def handle (kind : Kind) (srv : Server) (socket : ℤ) (msg : Message) (out : Outcome) :
    ℤ × Server :=
  match kind with
  | .client =>
    let r := serverHandleClientMessage srv socket msg out
    (r.ret, r.server)
  | .worker =>
    let r := serverHandleWorkerMessage c srv socket msg out
    (r.ret, r.server)

/-- "Find worker ID by socket" and "Unregister worker"; the id is never 0. -/
def unregisterSocket (srv : Server) (socket : ℤ) : Server :=
  let workerId := workerManagerFindBySocket srv.manager socket
  if workerId ≥ 0 then
    { srv with manager := (workerManagerUnregister c.maxJobTypes srv.manager workerId).2 }
  else srv

def onEnd (kind : Kind) (srv : Server) (socket : ℤ) : Server :=
  match kind with
  | .client => srv
  | .worker => unregisterSocket c srv socket

/-- What one pass of the loop meets: `is_running`, and the outcome of the handling. -/
structure Turn where
  running : Bool
  out : Outcome

/-- One pass, given what `receive_message` returned and left in `msg`: whether the loop
goes on, and the server. -/
def pass (kind : Kind) (srv : Server) (socket : ℤ) (t : Turn) (result : ℤ) (msg : Message) :
    Bool × Server :=
  if t.running = false then (false, srv)
  else if result = 0 then (false, onEnd c kind srv socket)
  else if result < 0 then (false, srv)
  else
    let r := handle c kind srv socket msg t.out
    (decide (¬ r.1 < 0), r.2)

/-- The server after the loop, and the messages passed to the handler, in order. -/
def loop {γ : Type*} (kind : Kind) (socket : ℤ) (receive : γ → ℤ × Message × γ) :
    List Turn → γ → Server → Server × List Message
  | [], _, srv => (srv, [])
  | t :: ts, conn, srv =>
    let r := receive conn
    let passed := if t.running = true ∧ r.1 > 0 then [r.2.1] else []
    let p := pass c kind srv socket t r.1 r.2.1
    if p.1 then
      let rest := loop kind socket receive ts r.2.2 p.2
      (rest.1, passed ++ rest.2)
    else (p.2, passed)

/-- The connection is closed at once when its acknowledgment cannot be sent. -/
def connection {γ : Type*} (kind : Kind) (socket : ℤ) (receive : γ → ℤ × Message × γ)
    (ackSent : Bool) (ts : List Turn) (conn : γ) (srv : Server) : ℤ × Server × List Message :=
  if ackSent = false then (-1, srv, [])
  else (0, loop c kind socket receive ts conn srv)

def handleClientConnection {γ : Type*} (socket : ℤ) (receive : γ → ℤ × Message × γ) :=
  connection c .client socket receive

def handleWorkerConnection {γ : Type*} (socket : ℤ) (receive : γ → ℤ × Message × γ) :=
  connection c .worker socket receive

/-! ### What should be passed on -/

/-- The messages received while the server runs, up to the first that the handler
answers with an error. -/
def due (kind : Kind) (socket : ℤ) : List Turn → List Message → Server → List Message
  | t :: ts, m :: ms, srv =>
    if t.running = false then []
    else
      let r := handle c kind srv socket m t.out
      m :: if r.1 < 0 then [] else due kind socket ts ms r.2
  | _, _, _ => []

def nextMessage (blank : Message) : List Message → ℤ × Message × List Message
  | [] => (0, blank, [])
  | m :: ms => (1, m, ms)

theorem loop_nextMessage (kind : Kind) (socket : ℤ) (blank : Message) (ts : List Turn)
    (ms : List Message) (srv : Server) :
    (loop c kind socket (nextMessage blank) ts ms srv).2 = due c kind socket ts ms srv := by
  induction ts generalizing ms srv with
  | nil => rfl
  | cons t ts ih =>
    cases hrun : t.running with
    | false => cases ms <;> simp [loop, due, pass, hrun]
    | true =>
      cases ms with
      | nil => simp [loop, due, nextMessage, pass, hrun]
      | cons m ms =>
        simp only [loop, due, nextMessage, pass, hrun]
        by_cases hret : (handle c kind srv socket m t.out).1 < 0
        · simp [hret]
        · simp [hret, ih]

/-! ### With `receive_message` of lib/src/net_utils.c -/

section NetUtils
variable (host : Endian) (decode : Protocol.Message → Message) (blank : Message)

/-- `decode` reads the server's own `Message` out of the bytes, whose layout is in the
empty header; `blank` is what a failed call leaves behind. -/
def netReceive (s : Source UInt8) : ℤ × Message × Source UInt8 :=
  match receiveMessage host s with
  | (some m, s') => (0, decode m, s')
  | (none, s') => (-1, blank, s')

def incoming : ℕ → Source UInt8 → List Message
  | 0, _ => []
  | k + 1, s => match receiveMessage host s with
    | (some m, s') => decode m :: incoming k s'
    | (none, _) => []

def sent (s : Source UInt8) : List Message := incoming host decode s.rest.length s

theorem sent_eq_nil (s : Source UInt8) :
    sent host decode s = [] ↔ s.rest.length < messageSize := by
  unfold sent
  constructor
  · intro hnil
    by_contra hlong
    have henough : messageSize ≤ s.rest.length := by omega
    obtain ⟨k, hk⟩ : ∃ k, s.rest.length = k + 1 :=
      ⟨s.rest.length - 1, by simp only [messageSize, headerSize] at henough; omega⟩
    have hsome := (receiveMessage_enough host henough).1
    rw [hk, incoming] at hnil
    split at hnil
    · cases hnil
    · rename_i hr
      rw [hr] at hsome
      cases hsome
  · intro hshort
    have hnone := receiveMessage_short host hshort
    cases hk : s.rest.length with
    | zero => rfl
    | succ k =>
      rw [incoming]
      split
      · rename_i hr
        rw [hr] at hnone
        cases hnone
      · rfl

theorem loop_netReceive (kind : Kind) (socket : ℤ) (ts : List Turn) (s : Source UInt8)
    (srv : Server) :
    (loop c kind socket (netReceive host decode blank) ts s srv).2 = [] := by
  cases ts with
  | nil => rfl
  | cons t ts =>
    cases hrun : t.running with
    | false => simp [loop, pass, hrun]
    | true =>
      unfold loop netReceive
      split
      · simp [pass, hrun]
      · simp [pass, hrun]

theorem loop_unchanged (kind : Kind) (socket : ℤ) (ts : List Turn) (s : Source UInt8)
    (srv : Server) (h : s.rest.length < messageSize) :
    (loop c kind socket (netReceive host decode blank) ts s srv).1 = srv := by
  cases ts with
  | nil => rfl
  | cons t ts =>
    cases hrun : t.running with
    | false => simp [loop, pass, hrun]
    | true =>
      have hnone := receiveMessage_short host h
      unfold loop netReceive
      split
      · rename_i hr
        rw [hr] at hnone
        cases hnone
      · simp [pass, hrun]

/-- Every message received on the connection is passed on, in order and once, until the
handler fails; and when the loop gets to the end of the stream, no worker registered
meanwhile is left. -/
def Serves (kind : Kind) (socket : ℤ) (ackSent : Bool) (ts : List Turn) (s : Source UInt8)
    (srv : Server) : Prop :=
  let r := connection c kind socket (netReceive host decode blank) ackSent ts s srv
  let ms := if ackSent = true then sent host decode s else []
  r.2.2 = due c kind socket ts ms srv ∧
    ((∀ t ∈ ts, t.running = true) → ms.length < ts.length → due c kind socket ts ms srv = ms →
      ∀ w ∈ r.2.1.manager.workers, w.workerId < srv.manager.nextWorkerId)

/-- No message is received: none was sent whole, or the connection is given up first. -/
def Silent (ackSent : Bool) (ts : List Turn) (s : Source UInt8) : Prop :=
  ackSent = false ∨ (∀ t, ts.head? = some t → t.running = false) ∨
    s.rest.length < messageSize

theorem due_eq_nil (kind : Kind) (socket : ℤ) (ts : List Turn) (ms : List Message) (srv : Server) :
    due c kind socket ts ms srv = [] ↔ (∀ t, ts.head? = some t → t.running = false) ∨ ms = [] := by
  cases ts with
  | nil => simp [due]
  | cons t ts =>
    cases ms with
    | nil => simp [due]
    | cons m ms =>
      cases hrun : t.running with
      | false => simp [due, hrun]
      | true => simp [due, hrun]

theorem serves_iff {srv : Server} (hs : Sound srv) (kind : Kind) (socket : ℤ) (ackSent : Bool)
    (ts : List Turn) (s : Source UInt8) :
    Serves c host decode blank kind socket ackSent ts s srv ↔ Silent ackSent ts s := by
  have hids : ∀ w ∈ srv.manager.workers, w.workerId < srv.manager.nextWorkerId := by
    intro w hw
    have hnext := hs.workers.next
    by_cases hid : w.workerId = 0
    · omega
    · exact (hs.workers.range w hw hid).2
  have hloop := loop_netReceive c host decode blank kind socket ts s srv
  cases ackSent with
  | false =>
    constructor
    · intro _
      exact .inl rfl
    · intro _
      have hnil : due c kind socket ts [] srv = [] := (due_eq_nil c kind socket ts [] srv).mpr (.inr rfl)
      exact ⟨hnil.symm, fun _ _ _ => hids⟩
  | true =>
    have hdue := due_eq_nil c kind socket ts (sent host decode s) srv
    rw [sent_eq_nil] at hdue
    constructor
    · intro hserves
      have hpassed := hserves.1
      simp only [connection, Bool.true_eq_false, if_false, if_true, hloop] at hpassed
      exact .inr (hdue.mp hpassed.symm)
    · rintro (hack | hsilent)
      · cases hack
      · have hnil := hdue.mpr hsilent
        constructor
        · simp only [connection, Bool.true_eq_false, if_false, if_true, hloop, hnil]
        · intro hrun hlen hall
          simp only [if_true] at hlen hall
          have hnone : s.rest.length < messageSize := by
            rw [hnil] at hall
            exact (sent_eq_nil host decode s).mp hall.symm
          simp only [connection, Bool.true_eq_false, if_false,
            loop_unchanged c host decode blank kind socket ts s srv hnone]
          exact hids

/-- With the `receive_message` there is, a connection is served exactly when nothing is
received on it. -/
theorem connection_served_iff {maxJobs jobTimeoutSeconds maxWorkers : ℤ}
    {jobsAlloc workersAlloc : Bool} {srv : Server}
    (hinit : serverInit c maxJobs jobTimeoutSeconds maxWorkers jobsAlloc workersAlloc = some srv)
    (es : List Event) (kind : Kind) (socket : ℤ) (ackSent : Bool) (ts : List Turn)
    (s : Source UInt8) :
    Serves c host decode blank kind socket ackSent ts s (es.foldl (step c) srv) ↔
      Silent ackSent ts s :=
  serves_iff c host decode blank (sound_run (init_server hinit).1 es) kind socket ackSent ts s

end NetUtils

/-! ### One message, then the end of the stream -/

def registerBytes : Source UInt8 :=
  ⟨netBytes .little MessageTransfer.registerMessage, fun _ => 1000, 0⟩

def decodeRegister (_ : Protocol.Message) : Message :=
  ⟨⟨1, 0, 0⟩, .workerRegister [49] 7000 [1] 1⟩

def blankMessage : Message := ⟨⟨0, 0, 0⟩, .other 0⟩

def twoTurns : List Turn := [⟨true, clockAt 100⟩, ⟨true, clockAt 200⟩]

theorem registerBytes_length : registerBytes.rest.length = messageSize := netBytes_length _ _

theorem connection_served_iff_register :
    Serves fourTypes .little decodeRegister blankMessage .worker 5 true twoTurns registerBytes
        (([] : List Event).foldl (step fourTypes) smallServer) ↔
      Silent true twoTurns registerBytes :=
  connection_served_iff fourTypes .little decodeRegister blankMessage smallServer_init [] .worker 5
    true twoTurns registerBytes

/-- The message is taken for the end of the stream, on either kind of connection. -/
theorem message_taken_for_end :
    (handleWorkerConnection fourTypes 5 (netReceive .little decodeRegister blankMessage) true
        twoTurns registerBytes smallServer).2.2 = [] ∧
      (handleClientConnection fourTypes 5 (netReceive .little decodeRegister blankMessage) true
        twoTurns registerBytes smallServer).2.2 = [] ∧
      ∀ kind, ¬ Serves fourTypes .little decodeRegister blankMessage kind 5 true twoTurns
        registerBytes smallServer := by
  have hworker := loop_netReceive fourTypes .little decodeRegister blankMessage .worker 5 twoTurns
    registerBytes smallServer
  have hclient := loop_netReceive fourTypes .little decodeRegister blankMessage .client 5 twoTurns
    registerBytes smallServer
  refine ⟨hworker, hclient, ?_⟩
  intro kind hserves
  have hsound : Sound smallServer := (init_server smallServer_init).1
  have hsilent := (serves_iff fourTypes .little decodeRegister blankMessage hsound kind 5 true
    twoTurns registerBytes).mp hserves
  rcases hsilent with hack | hstopped | hshort
  · cases hack
  · exact absurd (hstopped _ rfl) (by decide)
  · rw [registerBytes_length] at hshort
    omega

end CSimples.Connections
