import CSimples.Central.Handlers

/-!
# Where the handler loop finds its headers

`send_message` always writes a whole `Message` of 1040 bytes. The loop of
`worker_handler_thread` reads 8 bytes of header, and for a TASK_RESULT 12 more;
the rest of the message stays on the stream and is taken for headers of further
messages. So the loop finds at least one header in every 20 bytes, however the
stream is split into reads.
-/

namespace CSimples.MessageBoundaries
open ByteStream Protocol NetUtils CentralServer

/-- What one round of the loop meets: the time, whether the sends of the
handler and of the assignment succeed, and what other threads do to the shared
state before it. -/
structure Round where
  now : ℤ
  sent : Bool
  taskSent : Bool
  others : Server → Server

def handleMessage (s : Server) (workerId : ℕ) (sockfd : ℤ) (header : MessageHeader)
    (conn : Source UInt8) (r : Round) : Server × Source UInt8 :=
  if header.messageType = MessageType.heartbeat.code then
    (assignPending (handleWorkerHeartbeat s workerId sockfd r.now r.sent) workerId r.now r.taskSent,
      conn)
  else if header.messageType = MessageType.taskResult.code then
    let handled := handleTaskResult s workerId sockfd conn r.now r.sent
    (assignPending handled.1 workerId r.now r.taskSent, handled.2)
  else (s, conn)

structure LoopEnd where
  headers : List MessageHeader
  server : Server
  conn : Source UInt8

/-- The loop of `worker_handler_thread` while the server runs
(central_server.c:285-323): the headers it obtains, until `recv_header` fails. -/
def handlerLoop (host : Endian) (workerId : ℕ) (sockfd : ℤ) (rounds : ℕ → Round) :
    ℕ → Server → Source UInt8 → LoopEnd
  | 0, s, conn => ⟨[], s, conn⟩
  | fuel + 1, s, conn =>
    let received := recvHeader host conn
    match received.1 with
    | none => ⟨[], s, received.2⟩
    | some header =>
      let r := rounds fuel
      let handled := handleMessage (r.others s) workerId sockfd header received.2 r
      let rest := handlerLoop host workerId sockfd rounds fuel handled.1 handled.2
      { rest with headers := header :: rest.headers }

/-- Every round but the last takes bytes off the stream, so as many rounds as
there are bytes are enough. -/
def runHandler (host : Endian) (workerId : ℕ) (sockfd : ℤ) (rounds : ℕ → Round) (s : Server)
    (conn : Source UInt8) : LoopEnd :=
  handlerLoop host workerId sockfd rounds (conn.rest.length + 1) s conn

theorem handleMessage_rest (s : Server) (workerId : ℕ) (sockfd : ℤ) (header : MessageHeader)
    (conn : Source UInt8) (r : Round) :
    conn.rest.length - taskResultSize ≤
        (handleMessage s workerId sockfd header conn r).2.rest.length ∧
      (handleMessage s workerId sockfd header conn r).2.rest.length ≤ conn.rest.length := by
  unfold handleMessage
  split
  · exact ⟨Nat.sub_le _ _, Nat.le_refl _⟩
  · split
    · simp only [handleTaskResult_eq]
      exact recvPayload_rest taskResultSize conn
    · exact ⟨Nat.sub_le _ _, Nat.le_refl _⟩

theorem handlerLoop_headers (host : Endian) (workerId : ℕ) (sockfd : ℤ) (rounds : ℕ → Round)
    (fuel : ℕ) (s : Server) (conn : Source UInt8) (h : conn.rest.length < fuel) :
    (handlerLoop host workerId sockfd rounds fuel s conn).conn.rest = [] ∧
      conn.rest.length <
        (headerSize + taskResultSize) *
          (handlerLoop host workerId sockfd rounds fuel s conn).headers.length + headerSize := by
  induction fuel generalizing s conn with
  | zero => omega
  | succ fuel ih =>
    by_cases hshort : conn.rest.length < headerSize
    · obtain ⟨hnone, hrest⟩ := recvHeader_short host hshort
      simp only [handlerLoop, hnone, hrest, List.length_nil]
      exact ⟨trivial, by omega⟩
    · have henough := recvHeader_enough host (Nat.le_of_not_lt hshort)
      obtain ⟨hsome, hrest⟩ := henough
      have hlen := congrArg List.length hrest
      rw [List.length_drop] at hlen
      simp only [handlerLoop, hsome]
      generalize headerOf host (conn.rest.take headerSize) = header
      obtain ⟨hlow, hhigh⟩ := handleMessage_rest ((rounds fuel).others s) workerId sockfd header
        (recvHeader host conn).2 (rounds fuel)
      simp only [headerSize, taskResultSize] at *
      generalize handleMessage ((rounds fuel).others s) workerId sockfd header
        (recvHeader host conn).2 (rounds fuel) = handled at *
      obtain ⟨hend, hcount⟩ := ih handled.1 handled.2 (by omega)
      refine ⟨hend, ?_⟩
      rw [List.length_cons]
      omega

/-- The messages reach the other end completely, in some splitting. -/
def Delivered (ms : List Message) (sink : Sink UInt8) (conn : Source UInt8) : Prop :=
  sink.written = [] ∧ (sendAll .big ms sink).1 = 0 ∧ conn.rest = (sendAll .big ms sink).2.written

theorem Delivered.length {ms : List Message} {sink : Sink UInt8} {conn : Source UInt8}
    (h : Delivered ms sink conn) : conn.rest.length = ms.length * messageSize := by
  obtain ⟨hempty, hsent, hconn⟩ := h
  rw [hconn, sendAll_written hsent, hempty, List.nil_append, flatMap_netBytes_length]

theorem runHandler_more {ms : List Message} {sink : Sink UInt8} {conn : Source UInt8}
    (h : Delivered ms sink conn) (hne : ms ≠ []) (workerId : ℕ) (sockfd : ℤ)
    (rounds : ℕ → Round) (s : Server) :
    ms.length < (runHandler .big workerId sockfd rounds s conn).headers.length := by
  have hpos := List.length_pos_iff.mpr hne
  have hcount := (handlerLoop_headers .big workerId sockfd rounds (conn.rest.length + 1) s conn
    (Nat.lt_succ_self _)).2
  rw [h.length] at hcount
  simp only [messageSize, bodySize, headerSize, taskResultSize] at hcount
  unfold runHandler
  rw [h.length]
  simp only [messageSize, bodySize, headerSize]
  omega

/-- The loop obtains the headers of the messages that were sent only when there
are none. -/
theorem boundaries_kept_iff {ms : List Message} {sink : Sink UInt8} {conn : Source UInt8}
    (h : Delivered ms sink conn) (workerId : ℕ) (sockfd : ℤ) (rounds : ℕ → Round) (s : Server) :
    (runHandler .big workerId sockfd rounds s conn).headers = ms.map Message.header ↔ ms = [] := by
  constructor
  · intro he
    by_contra hne
    have hmore := runHandler_more h hne workerId sockfd rounds s
    rw [he, List.length_map] at hmore
    omega
  · rintro rfl
    have hnil : conn.rest = [] := List.eq_nil_of_length_eq_zero (by rw [h.length]; rfl)
    have hnone : (recvHeader .big conn).1 = none :=
      (recvHeader_short .big (by rw [hnil]; decide)).1
    simp only [runHandler, handlerLoop, hnone, List.map_nil]

def oneHeartbeat : Message := messageOf .heartbeat 1 []
def openSink : Sink UInt8 := ⟨[], fun _ => some 2000, 0⟩
def heartbeatStream : Source UInt8 := ⟨netBytes .big oneHeartbeat, fun _ => 2000, 0⟩
def quietRound : Round := ⟨0, true, true, id⟩

theorem oneHeartbeat_delivered : Delivered [oneHeartbeat] openSink heartbeatStream := by
  have hwhole : (writeExact (netBytes .big oneHeartbeat) openSink).1 = true :=
    writeExact_whole (n := 2000) rfl (by rw [netBytes_length]; decide)
  have hsent : (sendAll .big [oneHeartbeat] openSink).1 = 0 := by
    simp [sendAll, sendMessage, hwhole]
  refine ⟨rfl, hsent, ?_⟩
  rw [sendAll_written hsent]
  simp [heartbeatStream, openSink]

theorem boundaries_kept_iff_oneHeartbeat :
    (runHandler .big 1 4 (fun _ => quietRound) blankServer heartbeatStream).headers =
      [oneHeartbeat].map Message.header ↔ [oneHeartbeat] = [] :=
  boundaries_kept_iff oneHeartbeat_delivered 1 4 (fun _ => quietRound) blankServer

/-- A single HEARTBEAT gives the loop more than one header. -/
theorem boundaries_lost :
    Delivered [oneHeartbeat] openSink heartbeatStream ∧
      (runHandler .big 1 4 (fun _ => quietRound) blankServer heartbeatStream).headers ≠
        [oneHeartbeat].map Message.header := by
  refine ⟨oneHeartbeat_delivered, fun he => ?_⟩
  have hmore := runHandler_more oneHeartbeat_delivered (by simp) 1 4 (fun _ => quietRound)
    blankServer
  rw [he] at hmore
  exact absurd hmore (by simp)

end CSimples.MessageBoundaries
