import CSimples.Central.Handlers

/-!
# What becomes of a received result

`handle_task_result` compares the value `recv_payload` returns with
`sizeof(result)` (central_server.c:167), as if it were a byte count. It is 0 on
success (net_utils.c:64-77, as for `recv_header`), so a result that arrives
complete takes the error exit: its bytes are gone from the stream, the task
stays ASSIGNED, the worker BUSY, and no RESULT_ACK is sent.
-/

namespace CSimples.ResultHandling
open Block Keyed ByteStream Protocol NetUtils WorkerRegistry TaskManager CentralServer

/-- The result `r` of a task that is ASSIGNED to the registered worker arrives
on the worker's connection, in pieces of any size. -/
structure Delivers (s : Server) (workerId : ℕ) (conn : Source UInt8) (r : TaskResult) : Prop where
  recorded : ∃ t, lookup TaskInfo.id r.taskId.toNat s.manager.live = some t ∧
    t.status = .assigned ∧ t.workerId = workerId
  registered : ∃ w, lookup WorkerInfo.workerId workerId s.registry.live = some w
  available : ∃ rest, conn.rest = taskResultBytes s.host r ++ rest

def Counted (w w' : WorkerInfo) : Prop :=
  (w'.tasksCompleted = (w.tasksCompleted + 1) % 2^32 ∧ w'.tasksFailed = w.tasksFailed) ∨
  (w'.tasksFailed = (w.tasksFailed + 1) % 2^32 ∧ w'.tasksCompleted = w.tasksCompleted)

/-- The result `r` of worker `workerId` has been taken in between `s` and `s'`. -/
structure Recorded (s s' : Server) (workerId : ℕ) (sockfd : ℤ) (r : TaskResult) : Prop where
  task : ∃ t, lookup TaskInfo.id r.taskId.toNat s'.manager.live = some t ∧
    t.status = (if r.status.toNat = statusSuccess then .completed else .failed) ∧
    t.execTimeMs = r.execTimeMs.toNat
  worker : ∃ w w', lookup WorkerInfo.workerId workerId s.registry.live = some w ∧
    lookup WorkerInfo.workerId workerId s'.registry.live = some w' ∧
    w'.status = .idle ∧ Counted w w'
  acknowledged : s'.sent = s.sent ++ [(sockfd, resultAck r.taskId.toNat)]
  otherTasks : ∀ id, id ≠ r.taskId.toNat →
    lookup TaskInfo.id id s'.manager.live = lookup TaskInfo.id id s.manager.live
  otherWorkers : ∀ id, id ≠ workerId →
    lookup WorkerInfo.workerId id s'.registry.live = lookup WorkerInfo.workerId id s.registry.live

theorem handleTaskResult_consumes {s : Server} {workerId : ℕ} {conn : Source UInt8}
    {r : TaskResult} {rest : List UInt8} (h : conn.rest = taskResultBytes s.host r ++ rest)
    (sockfd now : ℤ) (sent : Bool) :
    (handleTaskResult s workerId sockfd conn now sent).1 = s ∧
      (handleTaskResult s workerId sockfd conn now sent).2.rest = rest := by
  have hlen := taskResultBytes_length s.host r
  have henough : taskResultSize ≤ conn.rest.length := by
    rw [h, List.length_append]
    omega
  rw [handleTaskResult_eq]
  refine ⟨rfl, ?_⟩
  rw [(recvPayload_enough henough).2.2, h]
  exact List.drop_left' hlen

/-- No delivered result is ever recorded. -/
theorem result_never_recorded {s : Server} {workerId : ℕ} {conn : Source UInt8} {r : TaskResult}
    (h : Delivers s workerId conn r) (sockfd now : ℤ) (sent : Bool) :
    ¬ Recorded s (handleTaskResult s workerId sockfd conn now sent).1 workerId sockfd r := by
  intro hrec
  obtain ⟨rest, hrest⟩ := h.available
  rw [(handleTaskResult_consumes hrest sockfd now sent).1] at hrec
  -- the record is still the ASSIGNED one, which is neither COMPLETED nor FAILED
  obtain ⟨t, ht, hst, _⟩ := h.recorded
  obtain ⟨t', ht', hst', _⟩ := hrec.task
  obtain rfl : t = t' := Option.some.inj (ht.symm.trans ht')
  rw [hst] at hst'
  split at hst' <;> cases hst'

def busyServer : Server :=
  [Step.register 4 0 0 true, Step.createTask (some [7]) 1 (some blankTask) 10,
    Step.heartbeat 1 4 20 true true].foldl step blankServer

def delivered : TaskResult := ⟨1, 0, 250⟩

def delivery : Source UInt8 := ⟨taskResultBytes .little delivered, fun _ => 4, 0⟩

theorem busyServer_delivers : Delivers busyServer 1 delivery delivered :=
  ⟨⟨assigned 1 20 (newInfo (newTask blankTask 1 [7] 1) 10), by rfl, by rfl, by rfl⟩,
    ⟨withStatus .busy (withHeartbeat 20 (newWorker 1 4 0 0)), by rfl⟩, ⟨[], by rfl⟩⟩

theorem result_never_recorded_busyServer :
    ¬ Recorded busyServer (handleTaskResult busyServer 1 4 delivery 30 true).1 1 4 delivered :=
  result_never_recorded busyServer_delivers 4 30 true

/-- The task stays ASSIGNED and the worker BUSY after its result arrived. -/
theorem result_dropped :
    Delivers busyServer 1 delivery delivered ∧
      (handleTaskResult busyServer 1 4 delivery 30 true).2.rest = [] ∧
      (lookup TaskInfo.id 1 (handleTaskResult busyServer 1 4 delivery 30 true).1.manager.live).map
        TaskInfo.status = some .assigned ∧
      (lookup WorkerInfo.workerId 1
        (handleTaskResult busyServer 1 4 delivery 30 true).1.registry.live).map
          WorkerInfo.status = some .busy ∧
      ¬ Recorded busyServer (handleTaskResult busyServer 1 4 delivery 30 true).1 1 4 delivered := by
  have hsame : (handleTaskResult busyServer 1 4 delivery 30 true).1 = busyServer := by
    rw [handleTaskResult_eq]
  have htask : (lookup TaskInfo.id 1 busyServer.manager.live).map TaskInfo.status =
      some .assigned := by rfl
  refine ⟨busyServer_delivers, ?_, ?_, ?_, fun hrec => ?_⟩
  · rw [handleTaskResult_eq]
    rfl
  · rw [hsame]
    exact htask
  · rw [hsame]
    rfl
  · obtain ⟨t, ht, hst, _⟩ := hrec.task
    rw [hsame] at ht
    have ht' : lookup TaskInfo.id 1 busyServer.manager.live = some t := ht
    rw [ht', Option.map_some] at htask
    rw [Option.some.inj htask] at hst
    split at hst <;> cases hst

end CSimples.ResultHandling
