import CSimples.Central.Handlers
import CSimples.Central.TaskQueue
import CSimples.Lib.Run

/-!
# Worker status against the task table

A BUSY worker should have exactly one task ASSIGNED to its id and an IDLE
worker none. The registry and the task table are changed by separate calls, and
two steps change only one of them: `assign_task_to_worker` sets the worker back
to IDLE when the TASK message cannot be sent (central_server.c:241-245) and
leaves the task ASSIGNED, and `task_manager_check_timeouts` takes a task from a
worker that stays BUSY.
-/

namespace CSimples.StatusAgreement
open Block Keyed WorkerRegistry TaskManager TaskQueue CentralServer Run

def onWorker (workerId : ℕ) (t : TaskInfo) : Bool :=
  decide (t.status = .assigned) && decide (t.workerId = workerId)

/-- How many tasks are ASSIGNED to this worker id. -/
def load (m : Manager) (workerId : ℕ) : ℕ := m.live.countP (onWorker workerId)

def WorkerAgrees (m : Manager) (w : WorkerInfo) : Prop :=
  (w.status = .busy → load m w.workerId = 1) ∧ (w.status = .idle → load m w.workerId = 0)

instance (m : Manager) (w : WorkerInfo) : Decidable (WorkerAgrees m w) :=
  inferInstanceAs (Decidable (_ ∧ _))

/-- Every registered worker's status agrees with the task table. -/
def Agrees (s : Server) : Prop := ∀ w ∈ s.registry.live, WorkerAgrees s.manager w

instance (s : Server) : Decidable (Agrees s) := List.decidableBAll _ _

/-- The steps that keep both tables in agreement: task ids have not come round
to 0, the number a new worker gets is neither in use nor has ASSIGNED tasks, a
TASK message that is to be sent is sent, and no task of a BUSY worker expires. -/
def Careful (s : Server) : Step → Prop
  | .createTask _ _ _ _ => s.manager.nextTaskId ≠ 0
  | .register _ _ _ sent => s.registry.count < s.registry.capacity →
      (∀ w ∈ s.registry.live, w.workerId ≠ s.registry.count + 1) ∧
        (sent = true → load s.manager (s.registry.count + 1) = 0)
  | .heartbeat workerId _ _ _ taskSent => taskSent = true ∨ ∀ task, ¬ Pops s workerId task
  | .taskResult workerId _ _ _ _ taskSent => taskSent = true ∨ ∀ task, ¬ Pops s workerId task
  | .disconnect _ => True
  | .workerTimeouts _ => True
  | .taskTimeouts now => ∀ t ∈ s.manager.live, taskExpired now taskTimeoutSec t = true →
      ∀ w ∈ s.registry.live, w.workerId = t.workerId → w.status ≠ .busy

structure Inv (s : Server) : Prop where
  queue : QueueOk s.manager
  untouched : QueuePending s.manager
  ids : Distinct WorkerInfo.workerId s.registry.live
  agrees : Agrees s

/-! ### Loads -/

theorem load_eq_zero {m : Manager} {workerId : ℕ} :
    load m workerId = 0 ↔ ∀ t ∈ m.live, onWorker workerId t = false := by
  simp [load, List.countP_eq_zero]

theorem load_createTask (m : Manager) (inputData : Option (List UInt8)) (inputSize : ℕ)
    (mem : Option Task) (now : ℤ) (workerId : ℕ) :
    load (taskManagerCreateTask m inputData inputSize mem now).2 workerId = load m workerId := by
  unfold load
  rcases createTask_cases m inputData inputSize mem now with
    ⟨_, hlive, _⟩ | ⟨task, _, _, hlive, _⟩
  · rw [hlive]
  · rw [hlive, List.countP_append]
    simp [onWorker, newInfo]

theorem load_assigned {m m' : Manager} {t : TaskInfo} {taskId workerId : ℕ} {now : ℤ}
    (hlive : m'.live = update TaskInfo.id taskId (assigned workerId now) m.live)
    (ht : lookup TaskInfo.id taskId m.live = some t) (hst : t.status ≠ .assigned) (v : ℕ) :
    load m' v = load m v + (if v = workerId then 1 else 0) := by
  have hcount := countP_update (f := assigned workerId now) (onWorker v) ht
  have hbefore : onWorker v t = false := by simp [onWorker, hst]
  have hafter : onWorker v (assigned workerId now t) = true ↔ v = workerId := by
    simp only [onWorker, assigned, decide_true, Bool.true_and]
    exact decide_eq_true_iff.trans eq_comm
  simp only [hbefore, hafter, ← hlive, Bool.false_eq_true, ite_false, Nat.add_zero] at hcount
  exact hcount

theorem load_timeouts {m : Manager} {now : ℤ} {timeoutSec workerId : ℕ}
    (h : ∀ t ∈ m.live, taskExpired now timeoutSec t = true → onWorker workerId t = false) :
    load (taskManagerCheckTimeouts m now timeoutSec).2 workerId = load m workerId := by
  unfold load
  rw [TaskManager.checkTimeouts_live, List.countP_map]
  refine List.countP_congr fun t ht => ?_
  by_cases he : taskExpired now timeoutSec t = true
  · have hafter : onWorker workerId (expireTask now timeoutSec t) = false := by
      simp [expireTask, he, onWorker]
    simp only [Function.comp_apply, hafter, h t ht he]
  · simp [expireTask, he]

/-! ### The invariant is kept by careful steps -/

theorem inv_workers {s s' : Server} (h : Inv s) (hm : s'.manager = s.manager)
    (hd : Distinct WorkerInfo.workerId s'.registry.live)
    (hw : ∀ w ∈ s'.registry.live, (∃ v ∈ s.registry.live, idStatus v = idStatus w) ∨
      WorkerAgrees s.manager w) : Inv s' := by
  refine ⟨hm ▸ h.queue, hm ▸ h.untouched, hd, fun w hmem => ?_⟩
  rw [hm]
  rcases hw w hmem with ⟨v, hv, he⟩ | hw
  · obtain ⟨hid, hst⟩ := Prod.mk.inj he
    have hv' := h.agrees v hv
    unfold WorkerAgrees at hv' ⊢
    rw [← hid, ← hst]
    exact hv'
  · exact hw

theorem inv_createTask {s : Server} (h : Inv s) (inputData : Option (List UInt8))
    (inputSize : ℕ) (mem : Option Task) (now : ℤ) (hn : s.manager.nextTaskId ≠ 0) :
    Inv (step s (.createTask inputData inputSize mem now)) := by
  refine ⟨queueOk_create h.queue hn inputData inputSize mem now,
    queuePending_create h.queue h.untouched hn inputData inputSize mem now, h.ids, ?_⟩
  intro w hw
  simp only [step, WorkerAgrees, load_createTask]
  exact h.agrees w hw

theorem inv_register {s : Server} (h : Inv s) (sockfd : ℤ) (threadId : ℕ) (now : ℤ)
    (sent : Bool) (hc : Careful s (.register sockfd threadId now sent)) :
    Inv (step s (.register sockfd threadId now sent)) := by
  obtain ⟨hm, hlive⟩ := register_cases s sockfd threadId now sent
  rcases hlive with hlive | ⟨w, hid, hst, _, hroom, hlive⟩
  · refine inv_workers h hm ?_ fun w hw => Or.inl ⟨w, ?_, rfl⟩
    · simp only [step, hlive]
      exact h.ids
    · simp only [step, hlive] at hw
      exact hw
  · obtain ⟨hfree, hload⟩ := hc hroom
    rw [← hid] at hfree hload
    cases sent with
    | false =>
      rw [if_neg (by decide), erase_append_fresh hfree] at hlive
      refine inv_workers h hm ?_ fun v hv => Or.inl ⟨v, ?_, rfl⟩
      · simp only [step, hlive]
        exact h.ids
      · simp only [step, hlive] at hv
        exact hv
    | true =>
      rw [if_pos rfl] at hlive
      refine inv_workers h hm ?_ fun v hv => ?_
      · simp only [step, hlive]
        exact distinct_append_fresh.mpr ⟨h.ids, hfree⟩
      · simp only [step, hlive] at hv
        rcases List.mem_append.mp hv with hv | hv
        · exact Or.inl ⟨v, hv, rfl⟩
        · rw [List.mem_singleton.mp hv]
          refine Or.inr ⟨fun hb => ?_, fun _ => hload rfl⟩
          rw [hst] at hb
          cases hb

theorem inv_heartbeat {s : Server} (h : Inv s) (workerId : ℕ) (sockfd now : ℤ) (sent : Bool) :
    Inv (handleWorkerHeartbeat s workerId sockfd now sent) := by
  have hmap := heartbeat_idStatus s workerId sockfd now sent
  refine inv_workers h (heartbeat_cases s workerId sockfd now sent).1 ?_ fun w hw => Or.inl ?_
  · have hids := congrArg (List.map Prod.fst) hmap
    rw [List.map_map, List.map_map] at hids
    have hd := h.ids
    unfold Distinct at hd ⊢
    exact hids ▸ hd
  · exact List.mem_map.mp (hmap ▸ List.mem_map_of_mem hw)

theorem inv_disconnect {s : Server} (h : Inv s) (workerId : ℕ) :
    Inv (step s (.disconnect workerId)) := by
  refine inv_workers h rfl (remove_distinct h.ids workerId) fun w hw => Or.inl ⟨w, ?_, rfl⟩
  exact (remove_sublist s.registry workerId).subset hw

theorem inv_workerTimeouts {s : Server} (h : Inv s) (now : ℤ) :
    Inv (step s (.workerTimeouts now)) := by
  refine inv_workers h rfl ?_ fun w hw => ?_
  · simp only [step, checkWorkerTimeouts, WorkerRegistry.checkTimeouts_live]
    have hd := h.ids
    unfold Distinct at hd ⊢
    rw [List.map_map]
    exact (List.map_congr_left fun v _ => expireWorker_workerId now workerTimeoutSec v) ▸ hd
  · simp only [step, checkWorkerTimeouts, WorkerRegistry.checkTimeouts_live] at hw
    obtain ⟨v, hv, rfl⟩ := List.mem_map.mp hw
    by_cases he : workerExpired now workerTimeoutSec v = true
    · have hst : (expireWorker now workerTimeoutSec v).status = .disconnected := by
        simp [expireWorker, he]
      refine Or.inr ⟨fun hb => ?_, fun hb => ?_⟩
      all_goals
        rw [hst] at hb
        cases hb
    · refine Or.inl ⟨v, hv, ?_⟩
      simp [expireWorker, he]

theorem inv_taskTimeouts {s : Server} (h : Inv s) (now : ℤ)
    (hc : Careful s (.taskTimeouts now)) : Inv (step s (.taskTimeouts now)) := by
  obtain ⟨hq, hp⟩ := queue_timeouts h.queue h.untouched now taskTimeoutSec
  refine ⟨hq, hp, h.ids, fun w hw => ?_⟩
  by_cases hclaims : w.status = .busy ∨ w.status = .idle
  · -- an expired task is not this worker's: a BUSY one has none expire, an IDLE one has none
    have hload : load (step s (.taskTimeouts now)).manager w.workerId =
        load s.manager w.workerId := by
      refine load_timeouts fun t ht he => ?_
      rcases hclaims with hb | hi
      · have hne : t.workerId ≠ w.workerId := fun hid => hc t ht he w hw hid.symm hb
        simp [onWorker, hne]
      · exact load_eq_zero.mp ((h.agrees w hw).2 hi) t ht
    unfold WorkerAgrees
    rw [hload]
    exact h.agrees w hw
  · exact ⟨fun hb => absurd (Or.inl hb) hclaims, fun hi => absurd (Or.inr hi) hclaims⟩

theorem inv_assign {s : Server} (h : Inv s) (workerId : ℕ) (now : ℤ) (sent : Bool)
    (hc : sent = true ∨ ∀ task, ¬ Pops s workerId task) :
    Inv (assignPending s workerId now sent) := by
  rw [assignPending_eq]
  by_cases hpop : ∃ task, Pops s workerId task
  · obtain ⟨task, hpop⟩ := hpop
    obtain rfl : sent = true := hc.resolve_right fun hn => hn task hpop
    obtain ⟨hz, t, ht, hid⟩ := h.queue.head_recorded hpop.2.2
    obtain ⟨_, hlive, hqueued, hnext, hworkers⟩ := assign_recorded hpop hz ⟨t, ht, hid⟩ now true
    simp only [ite_true] at hworkers
    obtain ⟨hq, hp⟩ := queue_assign h.queue h.untouched hpop.2.2 hlive hqueued hnext
    obtain ⟨_, ⟨w, hw, hidle⟩, htask⟩ := hpop
    have hfound : lookup TaskInfo.id task.taskId s.manager.live = some t :=
      hid ▸ h.queue.distinct.lookup ht
    have hpending : t.status = .pending :=
      h.untouched task (List.mem_of_mem_head? htask) t ht hid
    have hload := load_assigned hlive hfound (by rw [hpending]; decide)
    refine ⟨hq, hp, ?_, ?_⟩
    · unfold Distinct
      rw [hworkers, map_update fun v => withStatus_workerId .busy v]
      exact h.ids
    · intro v hv
      rw [hworkers] at hv
      unfold WorkerAgrees
      rw [hload]
      rcases h.ids.mem_update.mp hv with ⟨hv, hne⟩ | ⟨u, hu, huid, rfl⟩
      · rw [if_neg hne]
        exact h.agrees v hv
      · -- the worker that gets the task was IDLE, with no task
        have hsame : u = w := h.ids.eq hu (lookup_mem hw).1 (huid.trans (lookup_mem hw).2.symm)
        have hnone := (h.agrees u hu).2 (hsame ▸ hidle)
        refine ⟨fun _ => ?_, fun hi => ?_⟩
        · rw [withStatus_workerId, if_pos huid, hnone]
        · cases hi
  · have hno : ∀ task, ¬ Pops s workerId task := fun task hp => hpop ⟨task, hp⟩
    rw [assign_idle hno]
    exact h

theorem inv_step (s : Server) (a : Step) (h : Inv s) (hc : Careful s a) : Inv (step s a) := by
  cases a with
  | createTask inputData inputSize mem now => exact inv_createTask h inputData inputSize mem now hc
  | register sockfd threadId now sent => exact inv_register h sockfd threadId now sent hc
  | heartbeat workerId sockfd now sent taskSent =>
    exact inv_assign (inv_heartbeat h workerId sockfd now sent) workerId now taskSent
      (hc.imp_right fun hn task hp => hn task ((pops_heartbeat _ _ _ _ _ _).mp hp))
  | taskResult workerId sockfd conn now sent taskSent =>
    simp only [step, handleTaskResult_eq]
    exact inv_assign h workerId now taskSent hc
  | disconnect workerId => exact inv_disconnect h workerId
  | workerTimeouts now => exact inv_workerTimeouts h now
  | taskTimeouts now => exact inv_taskTimeouts h now hc

/-- From `initialize_server` on, every worker's status agrees with the task
table in every state of every run whose steps are careful. -/
theorem status_agrees_when_careful {host : Protocol.Endian} {workers : Slots WorkerInfo maxWorkers}
    {tasks : Slots TaskInfo maxTasks} {queue : Slots Task taskQueueSize} {s : Server}
    (h : initializeServer host workers tasks queue = some s) (as : List Step)
    (hc : Meets step Careful s as) : Along step Agrees s as := by
  obtain ⟨hr, hm, hq⟩ := initializeServer_start h
  have h0 : Inv s := by
    refine ⟨queueOk_start hm hq, queuePending_start hq, ?_, ?_⟩
    · simp [hr, Distinct]
    · simp [hr, Agrees]
  exact along_mono (fun _ hi => hi.agrees) (along_of_meets inv_step h0 hc)

/-- A task is created and handed to worker 1; `taskSent` says whether the TASK
message gets through. At time `later` the timeout checker looks at the tasks. -/
def oneTask (taskSent : Bool) (later : ℤ) : List Step :=
  [.register 4 0 0 true, .createTask (some [7]) 1 (some blankTask) 10,
    .heartbeat 1 4 20 true taskSent, .taskTimeouts later]

theorem status_agrees_oneTask : Along step Agrees blankServer (oneTask true 50) := by
  have hquiet : ∀ t ∈ (((oneTask true 50).take 3).foldl step blankServer).manager.live,
      taskExpired 50 taskTimeoutSec t = false := by decide
  refine @status_agrees_when_careful .little blankWorkers blankTasks blankQueue _ rfl
    (oneTask true 50)
    ⟨fun _ => ⟨by decide, fun _ => by decide⟩, Nat.one_ne_zero, Or.inl rfl, fun t ht he => ?_,
      trivial⟩
  rw [hquiet t ht] at he
  cases he

/-- A TASK message that cannot be sent leaves an IDLE worker with an ASSIGNED
task, and a task that expires leaves a BUSY worker without one. -/
theorem status_disagrees :
    initializeServer .little blankWorkers blankTasks blankQueue = some blankServer ∧
      ¬ Along step Agrees blankServer (oneTask false 50) ∧
      ¬ Along step Agrees blankServer (oneTask true 100) := by
  refine ⟨rfl, ?_, ?_⟩
  · intro h
    have hlast := along_iff_prefix.mp h (oneTask false 50) [] (List.append_nil _).symm
    revert hlast
    decide
  · intro h
    have hlast := along_iff_prefix.mp h (oneTask true 100) [] (List.append_nil _).symm
    revert hlast
    decide

end CSimples.StatusAgreement
