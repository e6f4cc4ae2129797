import CSimples.Central.Handlers
import CSimples.Worker.WorkerServer

/-!
# The task on the wire

`assign_task_to_worker` sends a task as the `submit_job` member of a message
body, 1032 bytes with the input at offset 4 and `MAX_DATA_SIZE` as its size. The
worker's main loop reads a `task_t`, 2060 bytes with two data arrays
(worker_server.c:326-343). It reads past the body of every message, or waits for
bytes that are not sent.
-/

namespace CSimples.TaskWire
open ByteStream Keyed Protocol NetUtils WorkerRegistry TaskManager CentralServer
open WorkerServer (taskSize)

def taskOf (host : Endian) (bs : List UInt8) : Task where
  taskId := (wordOf host (bs.take 4)).toNat
  inputData := (bs.drop 4).take maxDataSize
  outputData := (bs.drop (4 + maxDataSize)).take maxDataSize
  inputSize := (wordOf host ((bs.drop (4 + maxDataSize + maxDataSize)).take 4)).toNat
  outputSize := (wordOf host (bs.drop (4 + maxDataSize + maxDataSize + 4))).toNat

/-- The TASK branch with a complete payload taken for success: what is handed to
`process_task`, if it gets that far. -/
def taskBranch (host : Endian) (header : MessageHeader) (conn : Source UInt8) :
    Option Task × Source UInt8 :=
  let received := recvPayload taskSize conn
  if received.1 ≠ 0 then (none, received.2.2)
  else (some { taskOf host received.2.1 with taskId := header.clientId.toNat }, received.2.2)

/-- The worker takes the message in front of `rest` off the connection and
processes the task as it was created from the first `n` bytes of `data`. -/
def Arrives (host : Endian) (task : Task) (data : List UInt8) (n : ℕ) (conn : Source UInt8)
    (rest : List UInt8) : Prop :=
  ∃ header, (recvHeader host conn).1 = some header ∧
    (taskBranch host header (recvHeader host conn).2).2.rest = rest ∧
    ∃ t, (taskBranch host header (recvHeader host conn).2).1 = some t ∧
      t.taskId = task.taskId ∧ t.inputData.take n = data.take n ∧ t.inputSize = n

theorem assign_sent {s : Server} {workerId : ℕ} {task : Task} (h : Pops s workerId task)
    (hz : task.taskId ≠ 0) (ht : ∃ t ∈ s.manager.live, t.id = task.taskId) (now : ℤ) :
    ∃ sockfd, (assignTaskToWorker s workerId now true).2.sent =
      s.sent ++ [(sockfd, taskMessage s.host task)] := by
  obtain ⟨hid, ⟨w, hw, hidle⟩, htask⟩ := h
  obtain ⟨hpop, _, _⟩ := getNextTask_spec s.manager
  obtain ⟨hassign, hret⟩ := assignTask_popped hid hz ht now
  cases hg : workerRegistryGet s.registry workerId with
  | none =>
    rw [get_none hid hg] at hw
    cases hw
  | some p =>
    have hd := deref_get hg
    rw [hw] at hd
    cases hd
    refine ⟨(deref (workerRegistryUpdateStatus s.registry workerId .busy).2 p).sockfd, ?_⟩
    unfold assignTaskToWorker
    simp only [hg, hidle, ne_eq, not_true_eq_false, ite_false, hpop, htask, hassign, hret,
      send_ret, Bool.true_eq_false]
    rfl

/-- A payload that is read completely is longer than the body of a message. -/
theorem not_arrives {host : Endian} {conn : Source UInt8} {m : Message} {sender : Endian}
    {rest : List UInt8} (h : conn.rest = netBytes sender m ++ rest) (task : Task)
    (data : List UInt8) (n : ℕ) : ¬ Arrives host task data n conn rest := by
  rintro ⟨header, _, hrest, t, ht, _⟩
  have hlen := netBytes_length sender m
  have htotal : conn.rest.length = messageSize + rest.length := by
    rw [h, List.length_append, hlen]
  have hsize : messageSize = headerSize + bodySize := rfl
  have henough := (recvHeader_enough host (s := conn) (by omega)).2
  have hbody : (recvHeader host conn).2.rest.length = bodySize + rest.length := by
    rw [henough, List.length_drop]
    omega
  have hpos : bodySize < taskSize := by decide
  by_cases hfull : taskSize ≤ (recvHeader host conn).2.rest.length
  · -- the read runs into the bytes behind the body
    obtain ⟨hret, _, hdrop⟩ := recvPayload_enough hfull
    simp only [taskBranch, hret, ne_eq, not_true_eq_false, ite_false] at hrest
    rw [hdrop] at hrest
    have hshort := congrArg List.length hrest
    rw [List.length_drop] at hshort
    omega
  · -- the connection ends inside the read
    have hret : (recvPayload taskSize (recvHeader host conn).2).1 = -1 :=
      recvPayload_short (Nat.lt_of_not_le hfull)
    simp [taskBranch, hret] at ht

/-- No task that is popped and sent arrives, whatever it was created from and
whatever follows it on the connection. -/
theorem task_never_arrives {s : Server} {workerId : ℕ} {task : Task} (h : Pops s workerId task)
    (hz : task.taskId ≠ 0) (ht : ∃ t ∈ s.manager.live, t.id = task.taskId) (now : ℤ) :
    ∃ sockfd message, (assignTaskToWorker s workerId now true).2.sent =
        s.sent ++ [(sockfd, message)] ∧
      ∀ (host : Endian) (conn : Source UInt8) (rest data : List UInt8) (n : ℕ),
        conn.rest = netBytes s.host message ++ rest →
          ¬ Arrives host task data n conn rest := by
  obtain ⟨sockfd, hsent⟩ := assign_sent h hz ht now
  exact ⟨sockfd, taskMessage s.host task, hsent,
    fun _ _ _ data n hconn => not_arrives hconn task data n⟩

/-- Worker 1 is registered and IDLE, and a task with the input byte 7 waits. -/
def waitingServer : Server :=
  [Step.register 4 0 0 true, Step.createTask (some [7]) 1 (some blankTask) 10].foldl step
    blankServer

def waitingTask : Task := newTask blankTask 1 [7] 1

theorem waitingServer_pops : Pops waitingServer 1 waitingTask :=
  ⟨Nat.one_ne_zero, ⟨newWorker 1 4 0 0, rfl, rfl⟩, rfl⟩

theorem waitingTask_recorded : ∃ t ∈ waitingServer.manager.live, t.id = waitingTask.taskId :=
  ⟨newInfo waitingTask 10, List.mem_singleton_self _, rfl⟩

theorem task_never_arrives_waitingTask :
    ∃ sockfd message, (assignTaskToWorker waitingServer 1 20 true).2.sent =
        waitingServer.sent ++ [(sockfd, message)] ∧
      ∀ (host : Endian) (conn : Source UInt8) (rest data : List UInt8) (n : ℕ),
        conn.rest = netBytes waitingServer.host message ++ rest →
          ¬ Arrives host waitingTask data n conn rest :=
  task_never_arrives waitingServer_pops Nat.one_ne_zero waitingTask_recorded 20

/-- The worker waits for 1028 more bytes than the message has. -/
theorem task_not_received :
    ∃ sockfd message, (assignTaskToWorker waitingServer 1 20 true).2.sent =
        waitingServer.sent ++ [(sockfd, message)] ∧
      ∀ header, (taskBranch .little header
        (recvHeader .little ⟨netBytes .little message, fun _ => 2000, 0⟩).2).1 = none ∧
      ¬ Arrives .little waitingTask [7] 1 ⟨netBytes .little message, fun _ => 2000, 0⟩ [] := by
  obtain ⟨sockfd, hsent⟩ := assign_sent waitingServer_pops Nat.one_ne_zero waitingTask_recorded 20
  refine ⟨sockfd, _, hsent, fun header => ⟨?_, not_arrives (List.append_nil _).symm _ _ _⟩⟩
  have hlen := netBytes_length .little (taskMessage waitingServer.host waitingTask)
  have hsize : messageSize = headerSize + bodySize := rfl
  have hrest := (recvHeader_enough .little
    (s := ⟨netBytes .little (taskMessage waitingServer.host waitingTask), fun _ => 2000, 0⟩)
    (by rw [hlen]; decide)).2
  have hret := @recvPayload_short taskSize (recvHeader .little
    ⟨netBytes .little (taskMessage waitingServer.host waitingTask), fun _ => 2000, 0⟩).2
    (by rw [hrest, List.length_drop, hlen]; decide)
  simp [taskBranch, hret]

end CSimples.TaskWire
