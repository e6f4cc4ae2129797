import CSimples.Client.JobResult
import CSimples.Lib.Block

/-!
# A client and its server (client/client.c)

Every call of the client sends one message and takes one message off the connection.
Over any splitting of the two byte streams a session is therefore the same as calling
the server directly, one request after another.
-/

namespace CSimples.Session
open Block ByteStream Protocol NetUtils MessageTransfer JobResult

/-! ### The calls (client.c:169-461) -/

structure Wire where
  toServer : Sink UInt8
  fromServer : Source UInt8

/-- Send a request and read the answer; the calls differ in both and in what a failure
of either leaves. -/
def exchange {β : Type} (host : Endian) (failed : β) (read : Message → β) (msg : Message)
    (w : Wire) : β × Wire :=
  let sent := sendMessage host msg w.toServer
  if sent.1 < 0 then (failed, ⟨sent.2, w.fromServer⟩)
  else match receiveMessage host w.fromServer with
  | (none, s) => (failed, ⟨sent.2, s⟩)
  | (some reply, s) => (read reply, ⟨sent.2, s⟩)

/-- The answer of the wanted type; an ERROR and any other message are failures. -/
def expect {β : Type} (type : MessageType) (failed : β) (read : Message → β) (msg : Message) : β :=
  if msg.header.messageType = MessageType.error.code then failed
  else if msg.header.messageType ≠ type.code then failed
  else read msg

/-- The `n`-th 32-bit member of the body as an `int`. -/
def field (host : Endian) (n : ℕ) (msg : Message) : Int32 :=
  (wordOf host ((msg.body.val.drop (4 * n)).take 4)).toInt32

theorem padded_length (bs : List UInt8) :
    ((bs ++ List.replicate bodySize 0).take bodySize).length = bodySize := by simp

def bodyOf (bs : List UInt8) : MessageBody :=
  ⟨(bs ++ List.replicate bodySize 0).take bodySize, padded_length bs⟩

def message (c : Client) (type : MessageType) (body : List UInt8) : Message :=
  ⟨⟨type.code, c.clientId.toUInt32⟩, bodyOf body⟩

def submitRequest (host : Endian) (c : Client) (jobType : Int32) (inputData : List UInt8)
    (inputSize : ℕ) : Message :=
  message c .submitJob (bytesOf host jobType.toUInt32 ++
    memcpy (List.replicate maxDataSize 0) inputData inputSize ++ bytesOf host (.ofNat inputSize))

/-- What makes `client_submit_job` return before it sends anything. -/
def Refused (c : Client) (inputData : Option (List UInt8)) (inputSize : ℕ) : Prop :=
  (inputData = none ∧ 0 < inputSize) ∨ c.isConnected = false ∨ maxDataSize < inputSize

instance (c : Client) (inputData : Option (List UInt8)) (inputSize : ℕ) :
    Decidable (Refused c inputData inputSize) := inferInstanceAs (Decidable (_ ∨ _))

def clientSubmitJob (host : Endian) (c : Client) (jobType : Int32)
    (inputData : Option (List UInt8)) (inputSize : ℕ) (w : Wire) : ℤ × Wire :=
  if Refused c inputData inputSize then (-1, w)
  else exchange host (-1) (expect .jobSubmitted (-1) fun msg => (field host 0 msg).toInt)
    (submitRequest host c jobType (inputData.getD []) inputSize) w

def clientGetJobStatus (host : Endian) (c : Client) (jobId : Int32) (w : Wire) : ℤ × Wire :=
  if c.isConnected = false then (-1, w)
  else exchange host (-1) (expect .jobStatus (-1) fun msg => (field host 1 msg).toInt)
    (message c .getJobStatus (bytesOf host jobId.toUInt32)) w

structure ServerStats where
  activeClients : Int32
  activeWorkers : Int32
  pendingJobs : Int32
  runningJobs : Int32
  completedJobs : Int32
  failedJobs : Int32
  deriving Repr, DecidableEq

/-- `none` is the answer -1, which leaves the six integers alone. -/
def clientGetServerStats (host : Endian) (c : Client) (w : Wire) : Option ServerStats × Wire :=
  if c.isConnected = false then (none, w)
  else exchange host none (expect .serverStats none fun msg =>
      some ⟨field host 0 msg, field host 1 msg, field host 2 msg, field host 3 msg,
        field host 4 msg, field host 5 msg⟩)
    (message c .getServerStats []) w

/-! ### Sessions -/

inductive Call where
  | submitJob (jobType : Int32) (inputData : Option (List UInt8)) (inputSize : ℕ)
  | getJobStatus (jobId : Int32)
  | getJobResult (jobId : Int32)
  | getServerStats

/-- What a call leaves to its caller. -/
inductive Outcome where
  | ret (value : ℤ)
  | result (called : Called)
  | stats (stats : Option ServerStats)
  deriving Repr, DecidableEq

/-- How the client's machine behaves: its byte order, whether its logger prints errors,
and which allocations succeed. -/
structure Machine where
  host : Endian
  logs : Bool
  malloc : ℕ → Bool

variable (k : Machine) (c : Client)

def call (w : Wire) : Call → Outcome × Wire
  | .submitJob jobType inputData inputSize =>
    (clientSubmitJob k.host c jobType inputData inputSize w).map .ret id
  | .getJobStatus jobId => (clientGetJobStatus k.host c jobId w).map .ret id
  | .getJobResult jobId =>
    let r := clientGetJobResult k.host k.logs k.malloc c jobId (some ⟨none, 0⟩) w.toServer
      w.fromServer
    (.result r.1, ⟨r.2.1, r.2.2⟩)
  | .getServerStats => (clientGetServerStats k.host c w).map .stats id

def session : List Call → Wire → List Outcome × Wire
  | [], w => ([], w)
  | a :: as, w =>
    let called := call k c w a
    let rest := session as called.2
    (called.1 :: rest.1, rest.2)

/-- The message a call sends, unless it returns before. -/
def requestOf : Call → Option Message
  | .submitJob jobType inputData inputSize =>
    if Refused c inputData inputSize then none
    else some (submitRequest k.host c jobType (inputData.getD []) inputSize)
  | .getJobStatus jobId =>
    if c.isConnected = false then none
    else some (message c .getJobStatus (bytesOf k.host jobId.toUInt32))
  | .getJobResult jobId =>
    if c.isConnected = false then none else some (request k.host c jobId)
  | .getServerStats =>
    if c.isConnected = false then none else some (message c .getServerStats [])

def failure : Call → Outcome
  | .submitJob _ _ _ | .getJobStatus _ => .ret (-1)
  | .getJobResult _ => .result (failed [])
  | .getServerStats => .stats none

def readOutcome (msg : Message) : Call → Outcome
  | .submitJob _ _ _ =>
    .ret (expect .jobSubmitted (-1) (fun msg => (field k.host 0 msg).toInt) msg)
  | .getJobStatus _ => .ret (expect .jobStatus (-1) (fun msg => (field k.host 1 msg).toInt) msg)
  | .getJobResult _ => .result (readResult k.host k.logs k.malloc msg)
  | .getServerStats => .stats (expect .serverStats none (fun msg =>
      some ⟨field k.host 0 msg, field k.host 1 msg, field k.host 2 msg, field k.host 3 msg,
        field k.host 4 msg, field k.host 5 msg⟩) msg)

theorem exchange_map {β γ : Type} (host : Endian) (failed : β) (read : Message → β)
    (msg : Message) (w : Wire) (f : β → γ) :
    (exchange host failed read msg w).map f id = exchange host (f failed) (f ∘ read) msg w := by
  unfold exchange
  dsimp only
  split
  · rfl
  · split <;> rfl

/-- All calls have one shape. -/
theorem call_eq (w : Wire) (a : Call) :
    call k c w a = match requestOf k c a with
      | none => (failure a, w)
      | some msg => exchange k.host (failure a) (fun reply => readOutcome k reply a) msg w := by
  cases a with
  | submitJob jobType inputData inputSize =>
    by_cases hr : Refused c inputData inputSize
    · simp only [call, clientSubmitJob, requestOf, hr, if_true]
      rfl
    · simp only [call, clientSubmitJob, requestOf, hr, if_false, exchange_map]
      rfl
  | getJobStatus jobId =>
    by_cases hc : c.isConnected = false
    · simp only [call, clientGetJobStatus, requestOf, hc, if_true]
      rfl
    · simp only [call, clientGetJobStatus, requestOf, if_neg hc, exchange_map]
      rfl
  | getJobResult jobId =>
    cases hc : c.isConnected with
    | false => simp [call, clientGetJobResult, requestOf, hc, failure]
    | true =>
      simp only [call, clientGetJobResult, requestOf, hc, exchange, if_true]
      by_cases hsent : (sendMessage k.host (request k.host c jobId) w.toServer).1 < 0
      · simp [hsent, failure]
      · cases hr : receiveMessage k.host w.fromServer with
        | mk reply s =>
          cases reply with
          | none => simp [failure, hsent]
          | some reply => simp [readOutcome, hsent]
  | getServerStats =>
    by_cases hc : c.isConnected = false
    · simp only [call, clientGetServerStats, requestOf, hc, if_true]
      rfl
    · simp only [call, clientGetServerStats, requestOf, if_neg hc, exchange_map]
      rfl

/-! ### The server on the other side -/

/-- A server that answers every message with one message. -/
abbrev Service (σ : Type) := σ → Message → Message × σ

/-- Its answers to a sequence of messages. -/
def answers {σ : Type} (serve : Service σ) : σ → List Message → List Message × σ
  | st, [] => ([], st)
  | st, m :: ms =>
    let rest := answers serve (serve st m).2 ms
    ((serve st m).1 :: rest.1, rest.2)

/-- The loop of such a server on its end of the connection, for at most `n` messages. -/
def serverLoop {σ : Type} (host : Endian) (serve : Service σ) :
    ℕ → σ → Source UInt8 → Sink UInt8 → σ × Sink UInt8
  | 0, st, _, toClient => (st, toClient)
  | n + 1, st, fromClient, toClient =>
    match receiveMessage host fromClient with
    | (none, _) => (st, toClient)
    | (some msg, fromClient) =>
      let sent := sendMessage host (serve st msg).1 toClient
      if sent.1 < 0 then ((serve st msg).2, sent.2)
      else serverLoop host serve n (serve st msg).2 fromClient sent.2

/-- The session without a connection: each call hands its message to the server and
reads what it returns. After `n` answers nothing comes back any more. -/
def direct {σ : Type} (serve : Service σ) : ℕ → σ → List Call → List Outcome
  | _, _, [] => []
  | n, st, a :: as =>
    match requestOf k c a, n with
    | none, n => failure a :: direct serve n st as
    | some msg, 0 => failure a :: direct serve 0 (serve st msg).2 as
    | some msg, n + 1 => readOutcome k (serve st msg).1 a :: direct serve n (serve st msg).2 as

def requests (as : List Call) : List Message := as.filterMap (requestOf k c)

theorem bodyOf_whole {bs : List UInt8} (h : bs.length = bodySize) : (bodyOf bs).val = bs := by
  show (bs ++ List.replicate bodySize 0).take bodySize = bs
  exact List.take_left' h

/-- A submission carries the job type, the data padded with zeros, and its size. -/
theorem submitRequest_body (host : Endian) (c : Client) (jobType : Int32) {data : List UInt8}
    {n : ℕ} (hdata : n ≤ data.length) (hmax : n ≤ maxDataSize) :
    (submitRequest host c jobType data n).body.val = bytesOf host jobType.toUInt32 ++
      (data.take n ++ List.replicate (maxDataSize - n) 0) ++ bytesOf host (.ofNat n) := by
  have hcopy : memcpy (List.replicate maxDataSize 0) data n =
      data.take n ++ List.replicate (maxDataSize - n) 0 := by
    rw [memcpy, List.drop_replicate]
  have hsize : bodySize = 4 + maxDataSize + 4 := rfl
  unfold submitRequest message
  rw [hcopy]
  refine bodyOf_whole ?_
  simp only [List.length_append, bytesOf_length, List.length_take, List.length_replicate]
  omega

theorem submitRequest_fields (host : Endian) (c : Client) (jobType : Int32) {data : List UInt8}
    {n : ℕ} (hdata : n ≤ data.length) (hmax : n ≤ maxDataSize) :
    field host 0 (submitRequest host c jobType data n) = jobType ∧
      ((submitRequest host c jobType data n).body.val.drop 4).take n = data.take n ∧
      (wordOf host (((submitRequest host c jobType data n).body.val.drop
        (4 + maxDataSize)).take 4)).toNat = n := by
  have hword := bytesOf_length host jobType.toUInt32
  have htake : (data.take n).length = n := by
    rw [List.length_take]
    omega
  have hfirst : (bytesOf host jobType.toUInt32 ++
      (data.take n ++ List.replicate (maxDataSize - n) 0)).length = 4 + maxDataSize := by
    simp only [List.length_append, hword, htake, List.length_replicate]
    omega
  refine ⟨?_, ?_, ?_⟩
  · rw [field, submitRequest_body host c jobType hdata hmax, Nat.mul_zero, List.drop_zero,
      List.append_assoc, List.take_left' hword, wordOf_bytesOf]
    exact Int32.toInt32_toUInt32 jobType
  · rw [submitRequest_body host c jobType hdata hmax, List.append_assoc, List.drop_left' hword,
      List.append_assoc, List.take_left' htake]
  · rw [submitRequest_body host c jobType hdata hmax, List.drop_left' hfirst,
      List.take_of_length_le (bytesOf_length host _).le, wordOf_bytesOf]
    exact UInt32.toNat_ofNat_of_lt' (Nat.lt_of_le_of_lt hmax (by decide))

/-! ### Both ends of the wire -/

variable {k c} {σ : Type} {serve : Service σ} {st : σ} {w : Wire} {host : Endian}

theorem requests_refused {a : Call} {as : List Call} (h : requestOf k c a = none) :
    requests k c (a :: as) = requests k c as := List.filterMap_cons_none h

theorem requests_sent {a : Call} {as : List Call} {msg : Message}
    (h : requestOf k c a = some msg) : requests k c (a :: as) = msg :: requests k c as :=
  List.filterMap_cons_some h

theorem sendMessage_open (host : Endian) (m : Message) {s : Sink UInt8} (h : s.Open) :
    (sendMessage host m s).1 = 0 ∧ (sendMessage host m s).2.Open ∧
      (sendMessage host m s).2.written = s.written ++ netBytes host m := by
  have hopen : (writeExact (netBytes host m) s).1 = true ∧
      (writeExact (netBytes host m) s).2.Open := writeExact_open h
  obtain ⟨hok, hopen⟩ := hopen
  have hret : (sendMessage host m s).1 = 0 := if_pos hok
  exact ⟨hret, hopen, sendMessage_written hret⟩

/-- A request goes out whole whatever comes back, and one message is taken in. -/
theorem exchange_open {β : Type} (host : Endian) (failed : β) (read : Message → β)
    (msg : Message) (h : w.toServer.Open) :
    (exchange host failed read msg w).2.toServer = (sendMessage host msg w.toServer).2 ∧
      (exchange host failed read msg w).2.fromServer = (receiveMessage host w.fromServer).2 ∧
      (exchange host failed read msg w).1 =
        ((receiveMessage host w.fromServer).1.map read).getD failed := by
  have hret := (sendMessage_open host msg h).1
  unfold exchange
  simp only [hret, Int.lt_irrefl, if_false]
  cases receiveMessage host w.fromServer with
  | mk reply s =>
    cases reply with
    | none => exact ⟨rfl, rfl, rfl⟩
    | some reply => exact ⟨rfl, rfl, rfl⟩

theorem call_refused {a : Call} (h : requestOf k c a = none) : call k c w a = (failure a, w) := by
  rw [call_eq, h]

theorem call_sent {a : Call} {msg : Message} (h : requestOf k c a = some msg) :
    call k c w a =
      exchange k.host (failure a) (fun reply => readOutcome k reply a) msg w := by
  rw [call_eq, h]

theorem call_open {a : Call} {msg : Message} (hr : requestOf k c a = some msg)
    (h : w.toServer.Open) :
    (call k c w a).2.toServer = (sendMessage k.host msg w.toServer).2 ∧
      (call k c w a).2.fromServer = (receiveMessage k.host w.fromServer).2 ∧
      (call k c w a).1 = ((receiveMessage k.host w.fromServer).1.map
        fun reply => readOutcome k reply a).getD (failure a) := by
  rw [call_sent hr]
  exact exchange_open k.host _ _ msg h

theorem session_written (h : w.toServer.Open) (as : List Call) :
    (session k c as w).2.toServer.written =
      w.toServer.written ++ (requests k c as).flatMap (netBytes k.host) := by
  induction as generalizing w with
  | nil => exact (List.append_nil _).symm
  | cons a as ih =>
    show (session k c as (call k c w a).2).2.toServer.written = _
    cases hr : requestOf k c a with
    | none =>
      rw [call_refused hr, requests_refused hr]
      exact ih h
    | some msg =>
      obtain ⟨_, hopen, hwritten⟩ := sendMessage_open k.host msg h
      have hto := (call_open hr h).1
      rw [ih (by rw [hto]; exact hopen), hto, hwritten, requests_sent hr, List.flatMap_cons,
        List.append_assoc]

theorem serverLoop_answers {ms : List Message} {n : ℕ} (hn : ms.length ≤ n)
    {fromClient : Source UInt8} {toClient : Sink UInt8} (hopen : toClient.Open)
    (hrest : fromClient.rest = ms.flatMap (netBytes host)) :
    (serverLoop host serve n st fromClient toClient).1 = (answers serve st ms).2 ∧
      (serverLoop host serve n st fromClient toClient).2.written =
        toClient.written ++ (answers serve st ms).1.flatMap (netBytes host) := by
  induction ms generalizing n st fromClient toClient with
  | nil =>
    have hnone : (receiveMessage host fromClient).1 = none :=
      receiveMessage_short host (by rw [hrest]; exact Nat.succ_pos _)
    cases n with
    | zero => exact ⟨rfl, (List.append_nil _).symm⟩
    | succ n =>
      cases hr : receiveMessage host fromClient with
      | mk r s =>
        rw [hr] at hnone
        cases hnone
        simp only [serverLoop, hr]
        exact ⟨rfl, (List.append_nil _).symm⟩
  | cons m ms ih =>
    cases n with
    | zero => simp at hn
    | succ n =>
      obtain ⟨hmsg, htail⟩ := receiveMessage_netBytes host host m hrest
      rw [wordOf_bytesOf] at hmsg
      obtain ⟨hret, hopen', hwritten⟩ := sendMessage_open host (serve st m).1 hopen
      cases hr : receiveMessage host fromClient with
      | mk r s =>
        rw [hr] at hmsg htail
        cases hmsg
        simp only [serverLoop, hr, hret, Int.lt_irrefl, if_false]
        obtain ⟨hstate, hsent⟩ := ih (Nat.le_of_succ_le_succ hn) hopen' htail
        refine ⟨hstate, ?_⟩
        rw [hsent, hwritten, List.append_assoc]
        rfl

/-- The client reads the answers that arrived whole, one for each request. -/
theorem session_outcomes (h : w.toServer.Open) (as : List Call) {n : ℕ} {tail : List UInt8}
    (hrest : w.fromServer.rest =
      ((answers serve st (requests k c as)).1.take n).flatMap (netBytes k.host) ++ tail)
    (htail : tail.length < messageSize) :
    (session k c as w).1 = direct k c serve n st as := by
  induction as generalizing w n st tail with
  | nil => rfl
  | cons a as ih =>
    show (call k c w a).1 :: (session k c as (call k c w a).2).1 = _
    cases hr : requestOf k c a with
    | none =>
      rw [requests_refused hr] at hrest
      rw [call_refused hr, ih h hrest htail]
      simp [direct, hr]
    | some msg =>
      rw [requests_sent hr] at hrest
      obtain ⟨_, hopen, _⟩ := sendMessage_open k.host msg h
      obtain ⟨hto, hfrom, hout⟩ := call_open hr h
      have hnext : (call k c w a).2.toServer.Open := by rw [hto]; exact hopen
      have hdirect : direct k c serve n st (a :: as) = match n with
          | 0 => failure a :: direct k c serve 0 (serve st msg).2 as
          | n + 1 => readOutcome k (serve st msg).1 a :: direct k c serve n (serve st msg).2 as :=
        by cases n <;> simp [direct, hr]
      rw [hdirect]
      cases n with
      | zero =>
        have hrest' : w.fromServer.rest = tail := hrest
        have hshort : w.fromServer.rest.length < messageSize := by rw [hrest']; exact htail
        have hnone := receiveMessage_short k.host hshort
        have hempty : (receiveMessage k.host w.fromServer).2.rest = [] :=
          (readExact_short hshort).2
        rw [hnone] at hout
        have hnothing : (call k c w a).2.fromServer.rest =
            ((answers serve (serve st msg).2 (requests k c as)).1.take 0).flatMap
              (netBytes k.host) ++ [] := by
          rw [hfrom, hempty]
          rfl
        rw [hout, ih hnext hnothing (Nat.succ_pos _)]
        rfl
      | succ n =>
        obtain ⟨hmsg, hleft⟩ := receiveMessage_netBytes k.host k.host (serve st msg).1
          (hrest.trans (by
            show ((serve st msg).1 :: ((answers serve (serve st msg).2
              (requests k c as)).1.take n)).flatMap _ ++ tail = _
            rw [List.flatMap_cons, List.append_assoc]))
        rw [wordOf_bytesOf] at hmsg
        rw [hmsg] at hout
        rw [hout, ih hnext (by rw [hfrom, hleft]) htail]
        rfl

/-- The answers cut after `n` bytes are those that are whole, and less than a message. -/
theorem flatMap_take (host : Endian) (ms : List Message) (n : ℕ) :
    ∃ tail, (ms.flatMap (netBytes host)).take n =
      (ms.take (n / messageSize)).flatMap (netBytes host) ++ tail ∧
        tail.length < messageSize := by
  by_cases hn : n < ms.length * messageSize
  · exact flatMap_netBytes_take host ms n hn
  · have hlen := flatMap_netBytes_length host ms
    have hall : ms.length ≤ n / messageSize :=
      (Nat.le_div_iff_mul_le (Nat.succ_pos _)).mpr (Nat.le_of_not_lt hn)
    refine ⟨[], ?_, Nat.succ_pos _⟩
    rw [List.take_of_length_le (by omega), List.take_of_length_le hall, List.append_nil]

/-- Whatever the splitting, and even if the connection breaks after `cut` bytes of the
answers: the server ends up where the requests, handled one after another, take it, and
every call returns what the server answered to it, or fails if that did not arrive whole. -/
theorem session_acts_directly (as : List Call) (cut n : ℕ) (hn : as.length ≤ n)
    {fromClient : Source UInt8} {toClient : Sink UInt8} (hclient : w.toServer.Open)
    (hserver : toClient.Open) (hw : w.toServer.written = []) (ht : toClient.written = [])
    (hup : fromClient.rest = (session k c as w).2.toServer.written)
    (hdown : w.fromServer.rest =
      (serverLoop k.host serve n st fromClient toClient).2.written.take cut) :
    (serverLoop k.host serve n st fromClient toClient).1 =
        (answers serve st (requests k c as)).2 ∧
      (session k c as w).1 = direct k c serve (cut / messageSize) st as := by
  have hrequests : (requests k c as).length ≤ n :=
    (List.length_filterMap_le _ _).trans hn
  rw [session_written hclient, hw, List.nil_append] at hup
  obtain ⟨hstate, hsent⟩ := @serverLoop_answers _ serve st k.host _ n hrequests _ _ hserver hup
  refine ⟨hstate, ?_⟩
  obtain ⟨tail, htake, hshort⟩ := flatMap_take k.host (answers serve st (requests k c as)).1 cut
  rw [hsent, ht, List.nil_append, htake] at hdown
  exact session_outcomes hclient as hdown hshort

def oneClient : Client := ⟨1, true⟩

def oneMachine : Machine := ⟨.little, false, fun _ => true⟩

def statusReply : Message :=
  ⟨⟨MessageType.jobStatus.code, 1⟩, bodyOf (bytesOf .little 7 ++ bytesOf .little 2)⟩

/-- It counts the requests. -/
def statusService : Service ℕ := fun st _ => (statusReply, st + 1)

/-- The second answer breaks off after ten bytes. -/
def statusWire : Wire :=
  ⟨openSink, ⟨netBytes .little statusReply ++ (netBytes .little statusReply).take 10, fun _ => 9, 0⟩⟩

theorem openSink_open : openSink.Open := fun _ => rfl

def statusCalls : List Call := [.getJobStatus 7, .getServerStats]

def statusRequests : List Message := requests oneMachine oneClient statusCalls

def statusSource : Source UInt8 := ⟨statusRequests.flatMap (netBytes .little), fun _ => 5, 0⟩

/-- The status of one job is asked for, then the statistics, whose answer does not arrive whole. -/
theorem session_acts_directly_status :
    (serverLoop .little statusService 2 0 statusSource openSink).1 =
        (answers statusService 0 statusRequests).2 ∧
      (session oneMachine oneClient statusCalls statusWire).1 =
        direct oneMachine oneClient statusService 1 0 statusCalls := by
  have hup : statusSource.rest =
      (session oneMachine oneClient statusCalls statusWire).2.toServer.written := by
    rw [session_written openSink_open]
    rfl
  have hlen : statusRequests.length ≤ 2 := List.length_filterMap_le _ _
  have hserved := (@serverLoop_answers ℕ statusService 0 oneMachine.host statusRequests 2 hlen
    statusSource openSink openSink_open rfl).2
  have htwo : (answers statusService 0 statusRequests).1 = [statusReply, statusReply] := rfl
  have hdown : statusWire.fromServer.rest =
      (serverLoop oneMachine.host statusService 2 0 statusSource openSink).2.written.take
        (messageSize + 10) := by
    have hempty : openSink.written = [] := rfl
    have hlast : [statusReply].flatMap (netBytes oneMachine.host) = netBytes .little statusReply :=
      List.flatMap_singleton _ _
    rw [hserved, htwo, List.flatMap_cons, hlast, hempty, List.nil_append, List.take_append,
      netBytes_length, Nat.add_sub_cancel_left,
      List.take_of_length_le (by rw [netBytes_length]; exact Nat.le_add_right _ _)]
    rfl
  exact @session_acts_directly oneMachine oneClient ℕ statusService 0 statusWire
    statusCalls (messageSize + 10) 2 (Nat.le_refl 2) statusSource openSink openSink_open
    openSink_open rfl rfl hup hdown

/-! ### Waiting for a job (client.c:351-384) -/

def completed : ℤ := 2
def jobFailed : ℤ := 3
def timedOut : ℤ := 4

/-- What a round makes of the status it was told, with the clock after it; `none` sleeps. -/
def verdict (timeoutSeconds startTime status now : ℤ) : Option ℤ :=
  if status < 0 then some (-1)
  else if status = completed ∨ status = jobFailed ∨ status = timedOut then some status
  else if 0 < timeoutSeconds ∧ timeoutSeconds * 1000 ≤ now - startTime then some (-1)
  else none

/-- The rounds of `client_wait_for_job`, each with what it reads from the clock, if it does;
`none` says that it is still waiting. -/
def clientWaitForJob (host : Endian) (c : Client) (jobId : Int32) (timeoutSeconds startTime : ℤ) :
    List ℤ → Wire → Option ℤ × Wire
  | [], w => (none, w)
  | now :: nows, w =>
    let status := clientGetJobStatus host c jobId w
    match verdict timeoutSeconds startTime status.1 now with
    | some ret => (some ret, status.2)
    | none => clientWaitForJob host c jobId timeoutSeconds startTime nows status.2

/-- The job is completed, failed or timed out. -/
def Final (status : ℤ) : Prop := status = completed ∨ status = jobFailed ∨ status = timedOut

/-- A round ends the call: the status was not told, the job has come to its end, or time is up. -/
def Ends (timeoutSeconds startTime status now ret : ℤ) : Prop :=
  status < 0 ∧ ret = -1 ∨ Final status ∧ ret = status ∨
    0 ≤ status ∧ ¬ Final status ∧ 0 < timeoutSeconds ∧
      timeoutSeconds * 1000 ≤ now - startTime ∧ ret = -1

/-- The job is pending or running, and there is time. -/
def Waits (timeoutSeconds startTime status now : ℤ) : Prop :=
  0 ≤ status ∧ ¬ Final status ∧ (0 < timeoutSeconds → now - startTime < timeoutSeconds * 1000)

theorem verdict_some {timeoutSeconds startTime status now ret : ℤ} :
    verdict timeoutSeconds startTime status now = some ret ↔
      Ends timeoutSeconds startTime status now ret := by
  unfold verdict Ends Final completed jobFailed timedOut
  split_ifs <;> simp only [Option.some_inj, false_iff] <;> omega

theorem verdict_none {timeoutSeconds startTime status now : ℤ} :
    verdict timeoutSeconds startTime status now = none ↔
      Waits timeoutSeconds startTime status now := by
  unfold verdict Waits Final completed jobFailed timedOut
  split_ifs <;> simp only [false_iff, true_iff] <;> omega

def statusRequest (host : Endian) (c : Client) (jobId : Int32) : Message :=
  message c .getJobStatus (bytesOf host jobId.toUInt32)

def statusOf (host : Endian) (msg : Message) : ℤ :=
  expect .jobStatus (-1) (fun msg => (field host 1 msg).toInt) msg

/-- The `i`-th whole message of a stream. -/
def arrived (host : Endian) (bytes : List UInt8) (i : ℕ) : Option Message :=
  if (i + 1) * messageSize ≤ bytes.length then
    let msg := messageOfBytes host ((bytes.drop (i * messageSize)).take messageSize)
    some ⟨⟨ntohl host msg.header.messageType, ntohl host (ntohl host msg.header.clientId)⟩, msg.body⟩
  else none

/-- The connection behind `i` messages. -/
def sinkAfter (host : Endian) (msg : Message) : ℕ → Sink UInt8 → Sink UInt8
  | 0, s => s
  | i + 1, s => sinkAfter host msg i (sendMessage host msg s).2

/-- What round `i` is told: nothing but a failure without a connection, when its request
cannot be sent, or when fewer than `i + 1` whole messages come back. -/
def told (host : Endian) (c : Client) (jobId : Int32) (w : Wire) (i : ℕ) : ℤ :=
  if c.isConnected = false then -1
  else if (sendMessage host (statusRequest host c jobId)
      (sinkAfter host (statusRequest host c jobId) i w.toServer)).1 < 0 then -1
  else ((arrived host w.fromServer.rest i).map (statusOf host)).getD (-1)

theorem receiveMessage_arrived (host : Endian) (s : Source UInt8) :
    (receiveMessage host s).1 = arrived host s.rest 0 := by
  unfold arrived
  rw [Nat.zero_add, Nat.one_mul, Nat.zero_mul, List.drop_zero]
  by_cases h : messageSize ≤ s.rest.length
  · rw [if_pos h]
    exact (receiveMessage_enough host h).1
  · rw [if_neg h]
    exact receiveMessage_short host (Nat.lt_of_not_le h)

theorem arrived_drop (host : Endian) {bytes : List UInt8} (h : messageSize ≤ bytes.length) (i : ℕ) :
    arrived host (bytes.drop messageSize) i = arrived host bytes (i + 1) := by
  have hlen : (i + 1) * messageSize ≤ (bytes.drop messageSize).length ↔
      (i + 1 + 1) * messageSize ≤ bytes.length := by
    rw [List.length_drop, Nat.succ_mul (i + 1)]
    omega
  have hdrop : (bytes.drop messageSize).drop (i * messageSize) =
      bytes.drop ((i + 1) * messageSize) := by
    rw [List.drop_drop, Nat.succ_mul, Nat.add_comm]
  unfold arrived
  rw [hdrop, if_congr hlen rfl rfl]

/-- A round returns what it is told, and if that is no failure, the next one goes on behind
its messages. -/
theorem getJobStatus_told (host : Endian) (c : Client) (jobId : Int32) (w : Wire) :
    (clientGetJobStatus host c jobId w).1 = told host c jobId w 0 ∧
      (0 ≤ told host c jobId w 0 → ∀ i,
        told host c jobId (clientGetJobStatus host c jobId w).2 i = told host c jobId w (i + 1)) := by
  unfold clientGetJobStatus
  by_cases hc : c.isConnected = false
  · simp [told, hc]
  rw [if_neg hc]
  unfold exchange
  by_cases hsent : (sendMessage host (statusRequest host c jobId) w.toServer).1 < 0
  · simp only [statusRequest] at hsent
    simp [told, hc, sinkAfter, statusRequest, hsent]
  have hreply := receiveMessage_arrived host w.fromServer
  have htold : told host c jobId w 0 =
      ((arrived host w.fromServer.rest 0).map (statusOf host)).getD (-1) := by
    rw [told, if_neg hc, sinkAfter, if_neg hsent]
  simp only [statusRequest] at hsent
  simp only [hsent, if_false]
  rw [htold, ← hreply]
  cases hr : receiveMessage host w.fromServer with
  | mk reply source =>
    cases reply with
    | none => simp
    | some reply =>
      refine ⟨rfl, fun _ i => ?_⟩
      have henough : messageSize ≤ w.fromServer.rest.length := by
        by_contra hshort
        have hnone := receiveMessage_short host (Nat.lt_of_not_le hshort)
        rw [hr] at hnone
        cases hnone
      have hrest : source.rest = w.fromServer.rest.drop messageSize := by
        have hleft := (receiveMessage_enough host henough).2
        rwa [hr] at hleft
      rw [told, told, if_neg hc, if_neg hc, hrest, arrived_drop host henough]
      rfl

/-- For every connection, client and clock: the call returns exactly what the first round that
does not wait ends it with, and while every round waits it goes on. -/
theorem wait_returns_iff (c : Client) (jobId : Int32) (timeoutSeconds startTime : ℤ) (w : Wire)
    (nows : List ℤ) (ret : ℤ) :
    (clientWaitForJob host c jobId timeoutSeconds startTime nows w).1 = some ret ↔
      ∃ (i : ℕ) (now : ℤ), nows[i]? = some now ∧
        Ends timeoutSeconds startTime (told host c jobId w i) now ret ∧
        ∀ j : ℕ, j < i → ∀ now, nows[j]? = some now →
          Waits timeoutSeconds startTime (told host c jobId w j) now := by
  induction nows generalizing w with
  | nil =>
    refine iff_of_false nofun ?_
    rintro ⟨i, _, hnow, _⟩
    cases hnow
  | cons now nows ih =>
    obtain ⟨hstatus, hnext⟩ := getJobStatus_told host c jobId w
    simp only [clientWaitForJob, hstatus]
    cases hv : verdict timeoutSeconds startTime (told host c jobId w 0) now with
    | some value =>
      constructor
      · rintro ⟨⟩
        exact ⟨0, now, rfl, verdict_some.mp hv, nofun⟩
      · rintro ⟨i, t, ht, hends, hbefore⟩
        cases i with
        | zero =>
          cases ht
          exact hv.symm.trans (verdict_some.mpr hends)
        | succ i =>
          have hnone := verdict_none.mpr (hbefore 0 (Nat.succ_pos i) now rfl)
          rw [hv] at hnone
          cases hnone
    | none =>
      have hwaits := verdict_none.mp hv
      have hrounds := hnext hwaits.1
      refine (ih (clientGetJobStatus host c jobId w).2).trans ⟨?_, ?_⟩
      · rintro ⟨i, t, ht, hends, hbefore⟩
        rw [hrounds] at hends
        refine ⟨i + 1, t, ht, hends, fun j hj t' ht' => ?_⟩
        cases j with
        | zero =>
          cases ht'
          exact hwaits
        | succ j =>
          have hw := hbefore j (Nat.lt_of_succ_lt_succ hj) t' ht'
          rwa [hrounds] at hw
      · rintro ⟨i, t, ht, hends, hbefore⟩
        cases i with
        | zero =>
          cases ht
          have hsome := verdict_some.mpr hends
          rw [hv] at hsome
          cases hsome
        | succ i =>
          refine ⟨i, t, ht, by rwa [hrounds], fun j hj t' ht' => ?_⟩
          rw [hrounds]
          exact hbefore (j + 1) (Nat.succ_lt_succ hj) t' ht'

end CSimples.Session
