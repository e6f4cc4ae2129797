import CSimples.Central.CentralServer

/-!
# What the handlers do to the tables

One lemma for each handler says every way it can change the live workers, the
task records and the queue. Later modules argue from these lemmas and do not
unfold the handlers.
-/

namespace CSimples.CentralServer
open Block Keyed ByteStream Protocol NetUtils WorkerRegistry TaskManager

theorem send_frame (s : Server) (sockfd : ℤ) (m : Message) (ok : Bool) :
    (s.send sockfd m ok).2.registry = s.registry ∧
      (s.send sockfd m ok).2.manager = s.manager := by
  unfold Server.send
  split <;> exact ⟨rfl, rfl⟩

theorem send_ret (s : Server) (sockfd : ℤ) (m : Message) (ok : Bool) :
    (s.send sockfd m ok).1 < 0 ↔ ok = false := by
  cases ok <;> simp [Server.send]

theorem deref_get {r : Registry} {id p : ℕ} (h : workerRegistryGet r id = some p) :
    lookup WorkerInfo.workerId id r.live = some (deref r p) := by
  obtain ⟨_, _, w, hw, _, hl⟩ := get_spec h
  rw [hl, deref, List.getD_eq_getElem?_getD, hw, Option.getD_some]

theorem get_none {r : Registry} {id : ℕ} (hid : id ≠ 0) (h : workerRegistryGet r id = none) :
    lookup WorkerInfo.workerId id r.live = none := by
  rw [get_eq_find hid] at h
  exact lookup_eq_none.mpr (position_eq_none.mp h)

theorem updateStatus_live {r : Registry} {id : ℕ} {status : WorkerStatus} (hid : id ≠ 0) :
    (workerRegistryUpdateStatus r id status).2.live =
      update WorkerInfo.workerId id (withStatus status) r.live :=
  updateWorker_live hid

theorem initializeServer_start {host : Endian} {workers : Slots WorkerInfo maxWorkers}
    {tasks : Slots TaskInfo maxTasks} {queue : Slots Task taskQueueSize} {s : Server}
    (h : initializeServer host workers tasks queue = some s) :
    s.registry.live = [] ∧ s.manager.live = [] ∧ s.manager.queued = [] := by
  unfold initializeServer at h
  obtain ⟨registry, hr, h⟩ := Option.bind_eq_some_iff.mp h
  obtain ⟨manager, hm, h⟩ := Option.bind_eq_some_iff.mp h
  cases h
  exact ⟨(create_live hr).1, (create_start hm).1, (create_start hm).2.1⟩

theorem initializeServer_sent {host : Endian} {workers : Slots WorkerInfo maxWorkers}
    {tasks : Slots TaskInfo maxTasks} {queue : Slots Task taskQueueSize} {s : Server}
    (h : initializeServer host workers tasks queue = some s) :
    s.sent = [] ∧ s.manager.nextTaskId = 1 := by
  unfold initializeServer at h
  obtain ⟨registry, _, h⟩ := Option.bind_eq_some_iff.mp h
  obtain ⟨manager, hm, h⟩ := Option.bind_eq_some_iff.mp h
  cases h
  exact ⟨rfl, (create_start hm).2.2⟩

/-! ### Registration, heartbeat and departure -/

/-- A registration is refused, or adds the next worker at the end; when the
response cannot be sent the id just given out is removed again. -/
theorem register_cases (s : Server) (sockfd : ℤ) (threadId : ℕ) (now : ℤ) (sent : Bool) :
    (handleWorkerRegistration s sockfd threadId now sent).2.manager = s.manager ∧
      ((handleWorkerRegistration s sockfd threadId now sent).2.registry.live = s.registry.live ∨
        ∃ w, w.workerId = s.registry.count + 1 ∧ w.status = .idle ∧ w.sockfd = sockfd ∧
          s.registry.count < s.registry.capacity ∧
          (handleWorkerRegistration s sockfd threadId now sent).2.registry.live =
            if sent then s.registry.live ++ [w]
            else erase WorkerInfo.workerId w.workerId (s.registry.live ++ [w])) := by
  by_cases hadd : 0 ≤ sockfd ∧ s.registry.count < s.registry.capacity
  · obtain ⟨hid, hlive, _⟩ :=
      add_room threadId now hadd.1 hadd.2
    have hne : s.registry.count + 1 ≠ 0 := Nat.succ_ne_zero _
    unfold handleWorkerRegistration
    simp only [hid, hne, ite_false, send_ret]
    cases sent with
    | false =>
      simp only [ite_true, Server.removeWorker, send_frame]
      refine ⟨trivial, Or.inr ⟨newWorker (s.registry.count + 1) sockfd threadId now,
        rfl, rfl, rfl, hadd.2, ?_⟩⟩
      rw [remove_live hne, hlive]
      rfl
    | true =>
      simp only [Bool.true_eq_false, ite_false, ite_true, send_frame]
      exact ⟨trivial, Or.inr ⟨newWorker (s.registry.count + 1) sockfd threadId now,
        rfl, rfl, rfl, hadd.2, hlive⟩⟩
  · have hfull : sockfd < 0 ∨ s.registry.capacity ≤ s.registry.count := by omega
    unfold handleWorkerRegistration
    simp only [add_full hfull, ite_true]
    exact ⟨trivial, Or.inl trivial⟩

theorem heartbeat_cases (s : Server) (workerId : ℕ) (sockfd now : ℤ) (sent : Bool) :
    (handleWorkerHeartbeat s workerId sockfd now sent).manager = s.manager ∧
      ((handleWorkerHeartbeat s workerId sockfd now sent).registry.live = s.registry.live ∨
        (handleWorkerHeartbeat s workerId sockfd now sent).registry.live =
          update WorkerInfo.workerId workerId (withHeartbeat now) s.registry.live) ∧
      (handleWorkerHeartbeat s workerId sockfd now sent).registry.count = s.registry.count := by
  by_cases hret : (workerRegistryUpdateHeartbeat s.registry workerId now).1 ≠ 0
  · have he : handleWorkerHeartbeat s workerId sockfd now sent = s := if_pos hret
    rw [he]
    exact ⟨rfl, Or.inl rfl, rfl⟩
  · have hid : workerId ≠ 0 := by
      rintro rfl
      exact hret (by simp [workerRegistryUpdateHeartbeat, updateWorker])
    unfold handleWorkerHeartbeat
    rw [if_neg hret]
    simp only [send_frame]
    exact ⟨trivial, Or.inr (updateWorker_live hid), updateWorker_count.1⟩

def idStatus (w : WorkerInfo) : ℕ × WorkerStatus := (w.workerId, w.status)

theorem heartbeat_idStatus (s : Server) (workerId : ℕ) (sockfd now : ℤ) (sent : Bool) :
    (handleWorkerHeartbeat s workerId sockfd now sent).registry.live.map idStatus =
      s.registry.live.map idStatus := by
  rcases (heartbeat_cases s workerId sockfd now sent).2.1 with hlive | hlive
  · rw [hlive]
  · rw [hlive]
    exact map_update fun _ => rfl

/-! ### Results -/

/-- `recv_payload` answers 0 or -1 and the handler compares it with 12, so it
always takes the error exit: it reads the payload and changes nothing. -/
theorem handleTaskResult_eq (s : Server) (workerId : ℕ) (sockfd : ℤ) (conn : Source UInt8)
    (now : ℤ) (sent : Bool) :
    handleTaskResult s workerId sockfd conn now sent =
      (s, (recvPayload taskResultSize conn).2.2) := by
  have hne : (recvPayload taskResultSize conn).1 % 2^64 ≠ taskResultSize := by
    rcases recvPayload_ret taskResultSize conn with h | h <;> rw [h] <;> decide
  unfold handleTaskResult
  exact if_pos hne

/-! ### Assignment -/

/-- `assign_task_to_worker(w)` gets past its checks and pops `task`. -/
def Pops (s : Server) (workerId : ℕ) (task : Task) : Prop :=
  workerId ≠ 0 ∧ (∃ w, lookup WorkerInfo.workerId workerId s.registry.live = some w ∧
    w.status = .idle) ∧ s.manager.queued.head? = some task

theorem pops_heartbeat (s : Server) (workerId : ℕ) (sockfd now : ℤ) (sent : Bool) (task : Task) :
    Pops (handleWorkerHeartbeat s workerId sockfd now sent) workerId task ↔
      Pops s workerId task := by
  obtain ⟨hm, hlive, _⟩ := heartbeat_cases s workerId sockfd now sent
  unfold Pops
  rw [hm]
  rcases hlive with hlive | hlive
  · rw [hlive]
  · rw [hlive, lookup_update (withHeartbeat_workerId now)]
    simp [withHeartbeat]

theorem assign_idle {s : Server} {workerId : ℕ} (h : ∀ task, ¬ Pops s workerId task)
    (now : ℤ) (sent : Bool) : assignTaskToWorker s workerId now sent = (-1, s) := by
  unfold assignTaskToWorker
  split
  · rfl
  · rename_i p hp
    split
    · rfl
    · rename_i hidle
      split
      · rfl
      · rename_i task htask
        rw [(getNextTask_spec s.manager).1] at htask
        exact absurd ⟨(get_spec hp).1, ⟨_, deref_get hp, not_not.mp hidle⟩, htask⟩ (h task)

theorem assign_unrecorded {s : Server} {workerId : ℕ} {task : Task} (h : Pops s workerId task)
    (ht : task.taskId = 0 ∨ ∀ t ∈ s.manager.live, t.id ≠ task.taskId) (now : ℤ) (sent : Bool) :
    (assignTaskToWorker s workerId now sent).1 = -1 ∧
      (assignTaskToWorker s workerId now sent).2.registry = s.registry ∧
      (assignTaskToWorker s workerId now sent).2.manager.live = s.manager.live ∧
      (assignTaskToWorker s workerId now sent).2.manager.queued = s.manager.queued.tail := by
  obtain ⟨hid, ⟨w, hw, hidle⟩, htask⟩ := h
  obtain ⟨hpop, hqueue, hlive⟩ := getNextTask_spec s.manager
  have hret : (taskManagerAssignTask (taskManagerGetNextTask s.manager).2 task.taskId workerId
      now).1 ≠ 0 := by
    unfold taskManagerAssignTask
    rcases ht with ht | ht
    · simp [ht]
    · split
      · exact (by decide : (-1 : ℤ) ≠ 0)
      · rw [ne_eq, updateTask_ret, hlive]
        rintro ⟨t, hm, he⟩
        exact ht t hm he
  have hframe : (taskManagerAssignTask (taskManagerGetNextTask s.manager).2 task.taskId workerId
      now).2 = (taskManagerGetNextTask s.manager).2 := by
    unfold taskManagerAssignTask at hret ⊢
    split
    · rfl
    · rename_i hz
      rw [if_neg hz] at hret
      unfold updateTask at hret ⊢
      split
      · rfl
      · rename_i hs
        rw [hs] at hret
        exact absurd rfl hret
  cases hg : workerRegistryGet s.registry workerId with
  | none => rw [get_none hid hg] at hw; cases hw
  | some p =>
    have hd := deref_get hg
    rw [hw] at hd
    cases hd
    unfold assignTaskToWorker
    simp only [hg, hidle, ne_eq, not_true_eq_false, ite_false, hpop, htask, hret,
      not_false_eq_true, ite_true, hframe, hqueue, hlive, and_self]

theorem assignTask_popped {s : Server} {workerId : ℕ} {task : Task} (hid : workerId ≠ 0)
    (hz : task.taskId ≠ 0) (ht : ∃ t ∈ s.manager.live, t.id = task.taskId) (now : ℤ) :
    taskManagerAssignTask (taskManagerGetNextTask s.manager).2 task.taskId workerId now =
        updateTask (taskManagerGetNextTask s.manager).2 task.taskId (assigned workerId now) ∧
      (updateTask (taskManagerGetNextTask s.manager).2 task.taskId
        (assigned workerId now)).1 = 0 := by
  obtain ⟨_, _, hlive⟩ := getNextTask_spec s.manager
  refine ⟨if_neg (by omega), ?_⟩
  rw [updateTask_ret, hlive]
  exact ht

/-- A popped task with a record becomes ASSIGNED to the worker and leaves the
queue; the worker becomes BUSY, and is set back to IDLE when the message cannot
be sent. -/
theorem assign_recorded {s : Server} {workerId : ℕ} {task : Task} (h : Pops s workerId task)
    (hz : task.taskId ≠ 0) (ht : ∃ t ∈ s.manager.live, t.id = task.taskId) (now : ℤ)
    (sent : Bool) :
    (assignTaskToWorker s workerId now sent).1 = (if sent then 0 else -1) ∧
      (assignTaskToWorker s workerId now sent).2.manager.live =
        update TaskInfo.id task.taskId (assigned workerId now) s.manager.live ∧
      (assignTaskToWorker s workerId now sent).2.manager.queued = s.manager.queued.tail ∧
      (assignTaskToWorker s workerId now sent).2.manager.nextTaskId = s.manager.nextTaskId ∧
      (assignTaskToWorker s workerId now sent).2.registry.live =
        (let busy := update WorkerInfo.workerId workerId (withStatus .busy) s.registry.live
        if sent then busy else update WorkerInfo.workerId workerId (withStatus .idle) busy) := by
  obtain ⟨hid, ⟨w, hw, hidle⟩, htask⟩ := h
  obtain ⟨hpop, hqueue, hlive⟩ := getNextTask_spec s.manager
  obtain ⟨hassign, hret⟩ := assignTask_popped hid hz ht now
  obtain ⟨hq, hn⟩ := updateTask_frame (taskManagerGetNextTask s.manager).2 task.taskId
    (assigned workerId now)
  have hl := updateTask_live (taskManagerGetNextTask s.manager).2 task.taskId
    (assigned workerId now)
  rw [hlive] at hl
  rw [hqueue] at hq
  cases hg : workerRegistryGet s.registry workerId with
  | none => rw [get_none hid hg] at hw; cases hw
  | some p =>
    have hd := deref_get hg
    rw [hw] at hd
    cases hd
    unfold assignTaskToWorker
    simp only [hg, hidle, ne_eq, not_true_eq_false, ite_false, hpop, htask, hassign, hret,
      send_ret]
    cases sent with
    | true =>
      simp only [Bool.true_eq_false, ite_false, ite_true, send_frame, hl, hq,
        updateStatus_live hid, true_and, and_true]
      exact hn
    | false =>
      simp only [Bool.false_eq_true, ite_false, ite_true, send_frame, hl, hq,
        updateStatus_live hid, true_and, and_true]
      exact hn

/-- The check of `task_manager_pending_count` adds nothing: with an empty queue
an assignment does nothing. -/
theorem assignPending_eq (s : Server) (workerId : ℕ) (now : ℤ) (sent : Bool) :
    assignPending s workerId now sent = (assignTaskToWorker s workerId now sent).2 := by
  unfold assignPending
  split
  · rfl
  · rename_i h
    rw [pendingCount_eq] at h
    have hnil : s.manager.queued = [] := List.eq_nil_of_length_eq_zero (by omega)
    rw [assign_idle]
    rintro task ⟨_, _, hhead⟩
    rw [hnil] at hhead
    cases hhead

/-! ### The registry calls of a message (central_server.c:144-249) -/

/-- What a handler does to the registry. `slot` is what `worker_registry_get` answered. -/
inductive Piece where
  | heartbeat (now : ℤ)
  | setStatus (status : WorkerStatus)
  | count (slot status : ℕ)

def Piece.apply (workerId : ℕ) (r : Registry) : Piece → Registry
  | .heartbeat now => (workerRegistryUpdateHeartbeat r workerId now).2
  | .setStatus status => (workerRegistryUpdateStatus r workerId status).2
  | .count slot status => r.store slot (countResult status)

/-- The calls that leave the heartbeat alone and make nobody `DISCONNECTED`. -/
def Piece.Works : Piece → Prop
  | .heartbeat _ => False
  | .setStatus status => status ≠ .disconnected
  | .count _ _ => True

theorem heartbeat_pieces (s : Server) (workerId : ℕ) (sockfd now : ℤ) (sent : Bool) :
    ∃ pieces : List Piece, (handleWorkerHeartbeat s workerId sockfd now sent).registry =
      pieces.foldl (Piece.apply workerId) s.registry := by
  unfold handleWorkerHeartbeat
  dsimp only
  split
  · exact ⟨[], rfl⟩
  · refine ⟨[.heartbeat now], ?_⟩
    rw [(send_frame _ _ _ _).1]
    rfl

theorem taskResult_pieces (s : Server) (workerId : ℕ) (sockfd : ℤ) (conn : Source UInt8)
    (now : ℤ) (sent : Bool) :
    ∃ pieces : List Piece, (∀ p ∈ pieces, p.Works) ∧
      (handleTaskResult s workerId sockfd conn now sent).1.registry =
        pieces.foldl (Piece.apply workerId) s.registry := by
  unfold handleTaskResult
  dsimp only
  split
  · exact ⟨[], nofun, rfl⟩
  · rw [(send_frame _ _ _ _).1]
    dsimp only
    split
    · exact ⟨[], nofun, rfl⟩
    · exact ⟨[.setStatus .idle, .count _ _], by simp [Piece.Works], rfl⟩

theorem assign_pieces (s : Server) (workerId : ℕ) (now : ℤ) (sent : Bool) :
    ∃ pieces : List Piece, (∀ p ∈ pieces, p.Works) ∧
      (assignTaskToWorker s workerId now sent).2.registry =
        pieces.foldl (Piece.apply workerId) s.registry := by
  unfold assignTaskToWorker
  split
  · exact ⟨[], nofun, rfl⟩
  · split
    · exact ⟨[], nofun, rfl⟩
    · split
      · exact ⟨[], nofun, rfl⟩
      · dsimp only
        split
        · exact ⟨[], nofun, rfl⟩
        · split
          · refine ⟨[.setStatus .busy, .setStatus .idle], by simp [Piece.Works], ?_⟩
            rw [(send_frame _ _ _ _).1]
            rfl
          · refine ⟨[.setStatus .busy], by simp [Piece.Works], ?_⟩
            rw [(send_frame _ _ _ _).1]
            rfl

end CSimples.CentralServer
