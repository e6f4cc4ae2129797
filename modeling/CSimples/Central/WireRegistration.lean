import CSimples.Central.Handshake

/-!
# Registration on the wire (central_server.c:252-332, 388-420, 463-531)

The whole server over byte streams. `recv_header` takes 8 bytes off a connection
and converts nothing, while a peer writes 1040 bytes with the type in network order.
On a little-endian host `main` does not recognize REGISTER. On a big-endian one the
handler it starts reads its own header from the body of the same message, where it
finds type 0.
-/

namespace CSimples.WireRegistration
open ByteStream Protocol NetUtils TaskManager CentralServer Run
open Handshake (Place isRegister)

/-! ### Peers -/

/-- The body of a message whose initializer names the header only: the first member
of the union is zero, the bytes behind it are not specified. -/
abbrev UnsetBody := {body : MessageBody // body.val.take 4 = List.replicate 4 0}

/-- REGISTER as `register_with_server` (worker_server.c:79-81, id 0) and
`client_connect_to_server` (client.c:95-97, id 1) send it. -/
def registration (clientId : UInt32) (body : UnsetBody) : Message :=
  ⟨⟨MessageType.register.code, clientId⟩, body.val⟩

/-- A connection with its peer. `arrived` is all that the peer has written, `inbound`
what the server has not read of it, and `answered` says that the server got as far
as answering. -/
structure Connection where
  sockfd : ℤ
  peer : Endian
  clientId : UInt32
  body : UnsetBody
  arrived : List UInt8
  inbound : List UInt8
  answered : Bool
  place : Place

/-- The peer writes its REGISTER in any pieces, and anything else only after an answer. -/
def MayWrite (c : Connection) (bs : List UInt8) : Prop :=
  c.answered = true ∨ c.arrived ++ bs <+: netBytes c.peer (registration c.clientId c.body)

instance (c : Connection) (bs : List UInt8) : Decidable (MayWrite c bs) :=
  inferInstanceAs (Decidable (_ ∨ _))

/-! ### The server -/

structure Listener where
  server : Server
  conns : List Connection

def Listener.put (s : Listener) (i : ℕ) (c : Connection) : Listener :=
  { s with conns := s.conns.set i c }

/-- How a read goes: it may fail, and otherwise hands over pieces of these sizes. With
too few bytes left the peer has closed the connection. -/
structure Reading where
  fails : Bool
  chunk : ℕ → ℕ

def Connection.recvHeader (c : Connection) (host : Endian) (r : Reading) :
    Option MessageHeader × Connection :=
  if r.fails then (none, c)
  else
    let received := NetUtils.recvHeader host ⟨c.inbound, r.chunk, 0⟩
    (received.1, { c with inbound := received.2.rest })

def closing (c : Connection) : Connection := { c with place := .gone }

/-- central_server.c:499-524. -/
def mainReceive (host : Endian) (r : Reading) (created : Bool) (c : Connection) : Connection :=
  match c.recvHeader host r with
  | (none, c) => closing c
  | (some header, c) =>
    if isRegister header && created then
      { c with place := .handler (decide (header.clientId = 0)) }
    else closing c

/-- `worker_handler_thread` up to its loop (central_server.c:266-283). -/
def workerReceive (s : Listener) (i : ℕ) (c : Connection) (r : Reading) (threadId : ℕ) (now : ℤ)
    (sent : Bool) : Listener :=
  match c.recvHeader s.server.host r with
  | (none, c) => s.put i (closing c)
  | (some header, c) =>
    if isRegister header then
      let registered := handleWorkerRegistration s.server c.sockfd threadId now sent
      let place := if registered.1 = 0 then .gone else .workerLoop registered.1
      { s.put i { c with answered := true, place := place } with server := registered.2 }
    else s.put i (closing c)

/-- `client_handler_thread` up to its loop (central_server.c:395-420). -/
def clientReceive (s : Listener) (i : ℕ) (c : Connection) (r : Reading) (sent : Bool) :
    Listener :=
  match c.recvHeader s.server.host r with
  | (none, c) => s.put i (closing c)
  | (some header, c) =>
    if isRegister header then
      let response := s.server.send c.sockfd (registerResponse s.server.host 1) sent
      let place := if response.1 < 0 then .gone else .clientLoop
      { s.put i { c with answered := true, place := place } with server := response.2 }
    else s.put i (closing c)

/-- One round of the worker's loop (central_server.c:286-331). -/
def workerLoop (s : Listener) (i workerId : ℕ) (c : Connection) (r : Reading) (now : ℤ)
    (sent taskSent : Bool) : Listener :=
  match c.recvHeader s.server.host r with
  | (none, c) => { s.put i (closing c) with server := s.server.removeWorker workerId }
  | (some header, c) =>
    if header.messageType = MessageType.heartbeat.code then
      let server := handleWorkerHeartbeat s.server workerId c.sockfd now sent
      { s.put i c with server := assignPending server workerId now taskSent }
    else if header.messageType = MessageType.taskResult.code then
      let handled := handleTaskResult s.server workerId c.sockfd ⟨c.inbound, r.chunk, 0⟩ now sent
      { s.put i { c with inbound := handled.2.rest } with
        server := assignPending handled.1 workerId now taskSent }
    else s.put i c

/-- One round of the client's loop (central_server.c:424-448); it answers nothing. -/
def clientLoop (s : Listener) (i : ℕ) (c : Connection) (r : Reading) : Listener :=
  match c.recvHeader s.server.host r with
  | (none, c) => s.put i (closing c)
  | (some header, c) =>
    if header.messageType = MessageType.clientDisconnect.code then s.put i (closing c)
    else s.put i c

inductive Event where
  | connect (sockfd : ℤ) (peer : Endian) (clientId : UInt32) (body : UnsetBody)
  | peerWrites (i : ℕ) (bs : List UInt8)
  | accept (i : ℕ) (allocated : Bool)
  | receives (i : ℕ) (r : Reading) (created : Bool) (threadId : ℕ) (now : ℤ)
      (sent taskSent : Bool)
  | createTask (inputData : Option (List UInt8)) (inputSize : ℕ) (mem : Option Task) (now : ℤ)
  | workerTimeouts (now : ℤ)
  | taskTimeouts (now : ℤ)

/-- The thread that has the connection goes on with it. -/
def receive (s : Listener) (i : ℕ) (c : Connection) (r : Reading) (created : Bool)
    (threadId : ℕ) (now : ℤ) (sent taskSent : Bool) : Option Listener :=
  match c.place with
  | .backlog | .gone => none
  | .main => some (s.put i (mainReceive s.server.host r created c))
  | .handler true => some (workerReceive s i c r threadId now sent)
  | .handler false => some (clientReceive s i c r sent)
  | .workerLoop workerId => some (workerLoop s i workerId c r now sent taskSent)
  | .clientLoop => some (clientLoop s i c r)

def step (s : Listener) : Event → Option Listener
  | .connect sockfd peer clientId body =>
    some { s with conns := s.conns ++ [⟨sockfd, peer, clientId, body, [], [], false, .backlog⟩] }
  | .peerWrites i bs => do
    let c ← s.conns[i]?
    if MayWrite c bs then
      some (s.put i { c with arrived := c.arrived ++ bs, inbound := c.inbound ++ bs })
    else none
  | .accept i allocated => do
    let c ← s.conns[i]?
    if c.place = .backlog ∧ ∀ other ∈ s.conns, other.place ≠ .main then
      some (s.put i { c with place := if allocated then .main else .gone })
    else none
  | .receives i r created threadId now sent taskSent => do
    let c ← s.conns[i]?
    receive s i c r created threadId now sent taskSent
  | .createTask inputData inputSize mem now =>
    some { s with server := CentralServer.step s.server (.createTask inputData inputSize mem now) }
  | .workerTimeouts now =>
    some { s with server := CentralServer.step s.server (.workerTimeouts now) }
  | .taskTimeouts now =>
    some { s with server := CentralServer.step s.server (.taskTimeouts now) }

/-! ### The two headers -/

variable {host : Endian} {c : Connection} {r : Reading} {header : MessageHeader}

theorem register_code (host : Endian) :
    wordOf host (bytesBE MessageType.register.code) = MessageType.register.code ↔ host = .big := by
  cases host with
  | big => exact iff_of_true rfl rfl
  | little => exact iff_of_false (by decide) (by decide)

/-- The type word of a header that is read `n` bytes into a written message. -/
theorem headerOf_type {bs message : List UInt8} (hbs : bs <+: message) {n : ℕ}
    (hlen : n + headerSize ≤ bs.length) :
    (headerOf host ((bs.drop n).take headerSize)).messageType =
      wordOf host ((message.drop n).take 4) := by
  obtain ⟨tail, rfl⟩ := hbs
  have htake : ((bs.drop n).take headerSize).take 4 = (bs.drop n).take 4 := by
    rw [List.take_take]
    rfl
  have hword : ((bs ++ tail).drop n).take 4 = (bs.drop n).take 4 := by
    rw [List.drop_append_of_le_length (by omega), List.take_append_of_le_length]
    rw [List.length_drop]
    simp only [headerSize] at hlen
    omega
  rw [headerOf, htake, hword]

theorem registration_first (peer : Endian) (clientId : UInt32) (body : UnsetBody) :
    ((netBytes peer (registration clientId body)).drop 0).take 4 =
      bytesBE MessageType.register.code := by
  rw [netBytes_eq, List.append_assoc]
  exact List.take_left' rfl

theorem registration_second (peer : Endian) (clientId : UInt32) (body : UnsetBody) :
    ((netBytes peer (registration clientId body)).drop headerSize).take 4 =
      List.replicate 4 0 := by
  have hlen : (bytesBE (registration clientId body).header.messageType ++
      bytesOf peer (registration clientId body).header.clientId).length = headerSize := by
    rw [List.length_append, bytesOf_length]
    rfl
  rw [netBytes_eq, List.drop_left' hlen]
  exact body.property

theorem recvHeader_some {s : Source UInt8} (h : (NetUtils.recvHeader host s).1 = some header) :
    headerSize ≤ s.rest.length ∧ header = headerOf host (s.rest.take headerSize) ∧
      (NetUtils.recvHeader host s).2.rest = s.rest.drop headerSize := by
  by_cases hlen : headerSize ≤ s.rest.length
  · obtain ⟨hsome, hrest⟩ := recvHeader_enough host hlen
    rw [hsome] at h
    exact ⟨hlen, (Option.some.inj h).symm, hrest⟩
  · rw [(recvHeader_short host (Nat.lt_of_not_le hlen)).1] at h
    cases h

/-- A header that was received is the front of what had not been read. -/
theorem received_some {received : Connection}
    (h : c.recvHeader host r = (some header, received)) :
    headerSize ≤ c.inbound.length ∧ header = headerOf host (c.inbound.take headerSize) ∧
      received = { c with inbound := c.inbound.drop headerSize } := by
  unfold Connection.recvHeader at h
  split at h
  · cases h
  · obtain ⟨hsome, hreceived⟩ := Prod.mk.inj h
    obtain ⟨hlen, hheader, hrest⟩ := recvHeader_some hsome
    exact ⟨hlen, hheader, by rw [← hreceived, hrest]⟩

theorem received_none {received : Connection} (h : c.recvHeader host r = (none, received)) :
    received.answered = c.answered ∧ received.arrived = c.arrived ∧ received.peer = c.peer ∧
      received.clientId = c.clientId ∧ received.body = c.body := by
  unfold Connection.recvHeader at h
  split at h
  · obtain ⟨_, rfl⟩ := Prod.mk.inj h
    exact ⟨rfl, rfl, rfl, rfl, rfl⟩
  · obtain ⟨_, rfl⟩ := Prod.mk.inj h
    exact ⟨rfl, rfl, rfl, rfl, rfl⟩

/-! ### Nobody gets past the handler's own header -/

/-- Which bytes of the REGISTER the thread that has the connection looks at. -/
def Reads (host : Endian) (c : Connection) : Place → Prop
  | .gone => True
  | .backlog | .main => c.inbound = c.arrived
  | .handler _ => host = .big ∧ headerSize ≤ c.arrived.length ∧
      c.inbound = c.arrived.drop headerSize
  | .workerLoop _ | .clientLoop => False

structure Unanswered (host : Endian) (c : Connection) : Prop where
  answered : c.answered = false
  arrived : c.arrived <+: netBytes c.peer (registration c.clientId c.body)
  reads : Reads host c c.place

theorem Unanswered.closing (h : c.answered = false)
    (harrived : c.arrived <+: netBytes c.peer (registration c.clientId c.body)) :
    Unanswered host (closing c) := ⟨h, harrived, trivial⟩

theorem Unanswered.fails (h : Unanswered host c) {received : Connection}
    (hr : c.recvHeader host r = (none, received)) :
    Unanswered host (WireRegistration.closing received) := by
  obtain ⟨hanswered, harrived, hpeer, hid, hbody⟩ := received_none hr
  refine Unanswered.closing (hanswered.trans h.answered) ?_
  rw [harrived, hpeer, hid, hbody]
  exact h.arrived

theorem Unanswered.main (h : Unanswered host c) (hplace : c.place = .main) (r : Reading)
    (created : Bool) : Unanswered host (mainReceive host r created c) := by
  have hreads := h.reads
  rw [hplace] at hreads
  unfold mainReceive
  split
  · rename_i received hr
    exact h.fails hr
  · rename_i header received hr
    obtain ⟨hlen, hheader, rfl⟩ := received_some hr
    have hinbound : c.inbound = c.arrived := hreads
    rw [hinbound] at hlen hheader
    split
    · rename_i hregister
      have htype := of_decide_eq_true (Bool.and_eq_true_iff.mp hregister).1
      have hfront := @headerOf_type host _ _ h.arrived 0 (by omega)
      rw [List.drop_zero, ← hheader, htype, registration_first] at hfront
      exact ⟨h.answered, h.arrived, (register_code host).mp hfront.symm, hlen, by rw [hinbound]⟩
    · exact Unanswered.closing h.answered h.arrived

/-- The header a handler receives is no REGISTER. -/
theorem Unanswered.second (h : Unanswered host c) {worker : Bool}
    (hplace : c.place = .handler worker) {received : Connection}
    (hr : c.recvHeader host r = (some header, received)) :
    isRegister header = false ∧ Unanswered host (WireRegistration.closing received) := by
  have hreads := h.reads
  rw [hplace] at hreads
  obtain ⟨_, hfirst, hinbound⟩ := hreads
  obtain ⟨hlen, hheader, rfl⟩ := received_some hr
  rw [hinbound] at hheader hlen
  rw [List.length_drop] at hlen
  have htype := @headerOf_type host _ _ h.arrived headerSize (by omega)
  rw [← hheader, registration_second] at htype
  refine ⟨decide_eq_false ?_, Unanswered.closing h.answered h.arrived⟩
  rw [htype]
  cases host with
  | big => decide
  | little => decide

/-! ### Runs -/

structure Inv (s : Listener) : Prop where
  nobody : s.server.registry.live = []
  silent : s.server.sent = []
  pending : ∀ t ∈ s.server.manager.live, t.status = .pending
  queued : s.server.manager.queued.map Task.taskId = s.server.manager.live.map TaskInfo.id
  conns : ∀ c ∈ s.conns, Unanswered s.server.host c

variable {s s' : Listener}

theorem Inv.put (h : Inv s) (i : ℕ) (hc : Unanswered s.server.host c) : Inv (s.put i c) := by
  refine ⟨h.nobody, h.silent, h.pending, h.queued, fun other hm => ?_⟩
  rcases List.mem_or_eq_of_mem_set hm with hm | rfl
  · exact h.conns other hm
  · exact hc

theorem inv_receive (h : Inv s) {i : ℕ} (hget : s.conns[i]? = some c) {created : Bool}
    {threadId : ℕ} {now : ℤ} {sent taskSent : Bool}
    (hstep : receive s i c r created threadId now sent taskSent = some s') : Inv s' := by
  have hc := h.conns c (List.mem_of_getElem? hget)
  unfold receive at hstep
  split at hstep
  · cases hstep
  · cases hstep
  · rename_i hplace
    cases hstep
    exact h.put i (hc.main hplace r created)
  · rename_i hplace
    cases hstep
    unfold workerReceive
    split
    · rename_i received hr
      exact h.put i (hc.fails hr)
    · rename_i header received hr
      obtain ⟨hother, hclosing⟩ := hc.second hplace hr
      rw [hother, if_neg Bool.false_ne_true]
      exact h.put i hclosing
  · rename_i hplace
    cases hstep
    unfold clientReceive
    split
    · rename_i received hr
      exact h.put i (hc.fails hr)
    · rename_i header received hr
      obtain ⟨hother, hclosing⟩ := hc.second hplace hr
      rw [hother, if_neg Bool.false_ne_true]
      exact h.put i hclosing
  · rename_i hplace
    have hreads := hc.reads
    rw [hplace] at hreads
    exact hreads.elim
  · rename_i hplace
    have hreads := hc.reads
    rw [hplace] at hreads
    exact hreads.elim

theorem inv_createTask (h : Inv s) (inputData : Option (List UInt8)) (inputSize : ℕ)
    (mem : Option Task) (now : ℤ) : Inv { s with
      server := CentralServer.step s.server (.createTask inputData inputSize mem now) } := by
  have hcases := createTask_cases s.server.manager inputData inputSize mem now
  refine ⟨h.nobody, h.silent, ?_, ?_, h.conns⟩
  · show ∀ t ∈ (taskManagerCreateTask s.server.manager inputData inputSize mem now).2.live, _
    rcases hcases with ⟨_, hlive, _⟩ | ⟨task, _, _, hlive, _⟩
    · rw [hlive]
      exact h.pending
    · rw [hlive]
      intro t ht
      rcases List.mem_append.mp ht with ht | ht
      · exact h.pending t ht
      · rw [List.mem_singleton.mp ht]
        rfl
  · show (taskManagerCreateTask s.server.manager inputData inputSize mem now).2.queued.map _ =
      (taskManagerCreateTask s.server.manager inputData inputSize mem now).2.live.map _
    rcases hcases with ⟨_, hlive, hqueued, _⟩ | ⟨task, _, _, hlive, hqueued, _⟩
    · rw [hlive, hqueued]
      exact h.queued
    · rw [hlive, hqueued, List.map_append, List.map_append, h.queued]
      rfl

theorem inv_taskTimeouts (h : Inv s) (now : ℤ) :
    Inv { s with server := CentralServer.step s.server (.taskTimeouts now) } := by
  have hkept : ∀ t ∈ s.server.manager.live, expireTask now taskTimeoutSec t = t := by
    intro t ht
    have hpending := h.pending t ht
    simp [expireTask, taskExpired, hpending]
  have hlive : (CentralServer.step s.server (.taskTimeouts now)).manager.live =
      s.server.manager.live := by
    show (taskManagerCheckTimeouts s.server.manager now taskTimeoutSec).2.live = _
    rw [checkTimeouts_live]
    exact (List.map_congr_left hkept).trans (List.map_id _)
  refine ⟨h.nobody, h.silent, ?_, ?_, h.conns⟩
  · rw [hlive]
    exact h.pending
  · rw [hlive]
    exact h.queued

theorem inv_step (h : Inv s) (e : Event) (hstep : step s e = some s') : Inv s' := by
  cases e with
  | connect sockfd peer clientId body =>
    cases hstep
    refine ⟨h.nobody, h.silent, h.pending, h.queued, fun c hm => ?_⟩
    rcases List.mem_append.mp hm with hm | hm
    · exact h.conns c hm
    · rw [List.mem_singleton.mp hm]
      exact ⟨rfl, List.nil_prefix, rfl⟩
  | peerWrites i bs =>
    obtain ⟨c, hget, hstep⟩ := Option.bind_eq_some_iff.mp hstep
    have hc := h.conns c (List.mem_of_getElem? hget)
    split at hstep
    · rename_i hmay
      cases hstep
      have harrived := hmay.resolve_left (by simp [hc.answered])
      refine h.put i ⟨hc.answered, harrived, ?_⟩
      have hreads := hc.reads
      cases hplace : c.place with
      | gone => trivial
      | backlog =>
        rw [hplace] at hreads
        exact congrArg (· ++ bs) hreads
      | main =>
        rw [hplace] at hreads
        exact congrArg (· ++ bs) hreads
      | handler worker =>
        rw [hplace] at hreads
        obtain ⟨hbig, hlen, hinbound⟩ := hreads
        refine ⟨hbig, hlen.trans (by simp), ?_⟩
        show c.inbound ++ bs = (c.arrived ++ bs).drop headerSize
        rw [hinbound, List.drop_append_of_le_length hlen]
      | workerLoop workerId =>
        rw [hplace] at hreads
        exact hreads.elim
      | clientLoop =>
        rw [hplace] at hreads
        exact hreads.elim
    · cases hstep
  | accept i allocated =>
    obtain ⟨c, hget, hstep⟩ := Option.bind_eq_some_iff.mp hstep
    have hc := h.conns c (List.mem_of_getElem? hget)
    split at hstep
    · rename_i hguard
      cases hstep
      have hreads := hc.reads
      rw [hguard.1] at hreads
      refine h.put i ⟨hc.answered, hc.arrived, ?_⟩
      cases allocated with
      | true => exact hreads
      | false => trivial
    · cases hstep
  | receives i r created threadId now sent taskSent =>
    obtain ⟨c, hget, hstep⟩ := Option.bind_eq_some_iff.mp hstep
    exact inv_receive h hget hstep
  | createTask inputData inputSize mem now =>
    cases hstep
    exact inv_createTask h inputData inputSize mem now
  | workerTimeouts now =>
    cases hstep
    refine ⟨?_, h.silent, h.pending, h.queued, h.conns⟩
    show (WorkerRegistry.workerRegistryCheckTimeouts s.server.registry now workerTimeoutSec).2.live
      = []
    rw [WorkerRegistry.checkTimeouts_live, h.nobody, List.map_nil]
  | taskTimeouts now =>
    cases hstep
    exact inv_taskTimeouts h now

theorem inv_start {workers : Block.Slots WorkerRegistry.WorkerInfo maxWorkers}
    {tasks : Block.Slots TaskInfo maxTasks} {queue : Block.Slots Task taskQueueSize}
    {server : Server} (hinit : initializeServer host workers tasks queue = some server) :
    Inv ⟨server, []⟩ := by
  obtain ⟨hregistry, hlive, hqueued⟩ := initializeServer_start hinit
  refine ⟨hregistry, (initializeServer_sent hinit).1, ?_, ?_, fun c hm => absurd hm List.not_mem_nil⟩
  · intro t ht
    rw [hlive] at ht
    exact absurd ht List.not_mem_nil
  · rw [hlive, hqueued]
    rfl

/-- Whatever worker servers and clients connect, in whatever byte orders and pieces, the
server registers nobody, answers nobody and hands out no task. Only on a big-endian
host does a handler thread start at all. -/
theorem nobody_registers {workers : Block.Slots WorkerRegistry.WorkerInfo maxWorkers}
    {tasks : Block.Slots TaskInfo maxTasks} {queue : Block.Slots Task taskQueueSize}
    {server : Server} (hinit : initializeServer host workers tasks queue = some server)
    (h : Reach step (fun _ _ => True) ⟨server, []⟩ s) :
    s.server.registry.live = [] ∧ s.server.sent = [] ∧
      (∀ t ∈ s.server.manager.live, t.status = .pending) ∧
      s.server.manager.queued.map Task.taskId = s.server.manager.live.map TaskInfo.id ∧
      ∀ c ∈ s.conns, c.answered = false ∧ (∀ workerId, c.place ≠ .workerLoop workerId) ∧
        c.place ≠ .clientLoop ∧ ∀ worker, c.place = .handler worker → s.server.host = .big := by
  have hinv := h.invariant (inv_start hinit) fun _ e _ hi _ hstep => inv_step hi e hstep
  refine ⟨hinv.nobody, hinv.silent, hinv.pending, hinv.queued, fun c hm => ?_⟩
  have hreads := (hinv.conns c hm).reads
  refine ⟨(hinv.conns c hm).answered, ?_, ?_, ?_⟩
  · intro workerId hplace
    rw [hplace] at hreads
    exact hreads
  · intro hplace
    rw [hplace] at hreads
    exact hreads
  · intro worker hplace
    rw [hplace] at hreads
    exact hreads.1

def bigServer : Server := (initializeServer .big blankWorkers blankTasks blankQueue).get rfl

theorem zeros_length : (List.replicate bodySize (0 : UInt8)).length = bodySize :=
  List.length_replicate

def zeros : UnsetBody := ⟨⟨List.replicate bodySize 0, zeros_length⟩, rfl⟩

/-- A worker server whose header and first body bytes arrive one by one. -/
def attempt : List Event :=
  [.connect 4 .big 0 zeros, .accept 0 true,
    .peerWrites 0 ((netBytes .big (registration 0 zeros)).take 16),
    .receives 0 ⟨false, fun _ => 1⟩ true 7 20 true true,
    .receives 0 ⟨false, fun _ => 1⟩ true 7 20 true true]

def attempted : Listener := (attempt.foldlM step ⟨bigServer, []⟩).get rfl

theorem nobody_registers_attempt :
    attempted.server.registry.live = [] ∧ attempted.server.sent = [] ∧
      attempted.conns.map Connection.place = [.gone] := by
  have hreach : Reach step (fun _ _ => True) ⟨bigServer, []⟩ attempted :=
    @Reach.of_run _ _ step _ _ attempted attempt (fun _ _ _ => trivial) rfl
  obtain ⟨hnobody, hsilent, _⟩ :=
    @nobody_registers .big attempted blankWorkers blankTasks blankQueue bigServer rfl hreach
  exact ⟨hnobody, hsilent, rfl⟩

end CSimples.WireRegistration
