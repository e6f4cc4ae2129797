import CSimples.Central.Handlers
import CSimples.Central.TaskQueue
import CSimples.Lib.Run

/-!
# Where a task is

Every task that `create_task` accepted should be waiting in the queue, be with
a busy worker, or be finished. `assign_task_to_worker` breaks this when the
TASK message cannot be sent: it sets the worker back to IDLE but neither queues
the task again nor resets its record (`job_handler_assign`, its counterpart in
server/job_handler.c:214-229, does roll the job back). The departure or the
timeout of a worker leaves its task behind in the same way.
-/

namespace CSimples.TaskTracking
open Block Keyed WorkerRegistry TaskManager TaskQueue CentralServer Run

def BusyFor (s : Server) (workerId : ℕ) : Prop :=
  ∃ w ∈ s.registry.live, w.workerId = workerId ∧ w.status = .busy

/-- The three places a task can be in. -/
def Accounted (s : Server) (t : TaskInfo) : Prop :=
  (t.status = .pending ∧ ∃ q ∈ s.manager.queued, q.taskId = t.id) ∨
  (t.status = .assigned ∧ BusyFor s t.workerId) ∨
  t.status = .completed ∨ t.status = .failed ∨ t.status = .timeout

/-- The server, with the non-zero ids that `create_task` has returned. -/
structure Tracked where
  server : Server
  created : List ℕ

def returnedIds (s : Server) : Step → List ℕ
  | .createTask inputData inputSize mem now =>
    [(taskManagerCreateTask s.manager inputData inputSize mem now).1].filter (· ≠ 0)
  | _ => []

def track (s : Tracked) (a : Step) : Tracked :=
  ⟨step s.server a, s.created ++ returnedIds s.server a⟩

/-- Every created task has a record, and its record says where it is. -/
def NoTaskLost (s : Tracked) : Prop :=
  ∀ id ∈ s.created, (∃ t ∈ s.server.manager.live, t.id = id) ∧
    ∀ t ∈ s.server.manager.live, t.id = id → Accounted s.server t

/-- An assignment that fails after popping a task puts it back: its record is
PENDING and it is queued. -/
def Restores (s : Server) (workerId : ℕ) (now : ℤ) (sent : Bool) : Prop :=
  ∀ task, Pops s workerId task → (assignTaskToWorker s workerId now sent).1 = -1 →
    (∃ q ∈ (assignTaskToWorker s workerId now sent).2.manager.queued, q.taskId = task.taskId) ∧
    ∀ t ∈ (assignTaskToWorker s workerId now sent).2.manager.live, t.id = task.taskId →
      t.status = .pending

def StepRestores (s : Tracked) : Step → Prop
  | .heartbeat workerId sockfd now sent taskSent =>
    Restores (handleWorkerHeartbeat s.server workerId sockfd now sent) workerId now taskSent
  | .taskResult workerId sockfd conn now sent taskSent =>
    Restores (handleTaskResult s.server workerId sockfd conn now sent).1 workerId now taskSent
  | _ => True

def Unloaded (s : Server) (workerId : ℕ) : Prop :=
  ∀ t ∈ s.manager.live, t.status = .assigned → t.workerId ≠ workerId

/-- The steps that lose no task: task ids have not come round to 0, a TASK
message that is to be sent is sent, and no worker with an ASSIGNED task leaves
the registry or expires. -/
def Careful (s : Tracked) : Step → Prop
  | .createTask _ _ _ _ => s.server.manager.nextTaskId ≠ 0
  | .register _ _ _ sent => s.server.registry.count < s.server.registry.capacity →
      sent = true ∨ Unloaded s.server (s.server.registry.count + 1)
  | .heartbeat workerId _ _ _ taskSent => taskSent = true ∨ ∀ task, ¬ Pops s.server workerId task
  | .taskResult workerId _ _ _ _ taskSent =>
    taskSent = true ∨ ∀ task, ¬ Pops s.server workerId task
  | .disconnect workerId => Unloaded s.server workerId
  | .workerTimeouts now => ∀ w ∈ s.server.registry.live,
      workerExpired now workerTimeoutSec w = true → Unloaded s.server w.workerId
  | .taskTimeouts _ => True

structure Inv (s : Tracked) : Prop where
  queue : QueueOk s.server.manager
  untouched : QueuePending s.server.manager
  created : ∀ id ∈ s.created, ∃ t ∈ s.server.manager.live, t.id = id
  accounted : ∀ t ∈ s.server.manager.live, Accounted s.server t

theorem Inv.noTaskLost {s : Tracked} (h : Inv s) : NoTaskLost s :=
  fun id hid => ⟨h.created id hid, fun t ht _ => h.accounted t ht⟩

theorem Accounted.mono {s s' : Server} {t : TaskInfo} (h : Accounted s t)
    (hq : ∀ q ∈ s.manager.queued, q.taskId = t.id → ∃ q' ∈ s'.manager.queued, q'.taskId = t.id)
    (hb : t.status = .assigned → BusyFor s t.workerId → BusyFor s' t.workerId) :
    Accounted s' t := by
  rcases h with ⟨hst, q, hm, he⟩ | ⟨hst, hbusy⟩ | hst
  · exact Or.inl ⟨hst, hq q hm he⟩
  · exact Or.inr (Or.inl ⟨hst, hb hst hbusy⟩)
  · exact Or.inr (Or.inr hst)

theorem BusyFor.mono {s s' : Server} {id : ℕ} (h : BusyFor s id)
    (hw : ∀ w ∈ s.registry.live, w.workerId = id → w.status = .busy →
      ∃ w' ∈ s'.registry.live, w'.workerId = id ∧ w'.status = .busy) : BusyFor s' id := by
  obtain ⟨w, hm, hid, hst⟩ := h
  exact hw w hm hid hst

/-! ### The invariant is kept by careful steps -/

theorem inv_workers {s : Tracked} {server : Server} (h : Inv s)
    (hm : server.manager = s.server.manager)
    (hb : ∀ t ∈ s.server.manager.live, t.status = .assigned → BusyFor s.server t.workerId →
      BusyFor server t.workerId) : Inv ⟨server, s.created ++ []⟩ := by
  refine ⟨hm ▸ h.queue, hm ▸ h.untouched, ?_, ?_⟩
  · intro id hid
    rw [List.append_nil] at hid
    simp only [hm]
    exact h.created id hid
  · intro t ht
    simp only [hm] at ht
    refine (h.accounted t ht).mono ?_ (hb t ht)
    intro q hq he
    simp only [hm]
    exact ⟨q, hq, he⟩

theorem inv_createTask {s : Tracked} (h : Inv s) (inputData : Option (List UInt8))
    (inputSize : ℕ) (mem : Option Task) (now : ℤ)
    (hn : s.server.manager.nextTaskId ≠ 0) :
    Inv (track s (.createTask inputData inputSize mem now)) := by
  have hqueue := queueOk_create h.queue hn inputData inputSize mem now
  have hpending := queuePending_create h.queue h.untouched hn inputData inputSize mem now
  refine ⟨hqueue, hpending, ?_, ?_⟩
  · intro id hid
    simp only [track, step, returnedIds] at hid ⊢
    rcases createTask_cases s.server.manager inputData inputSize mem now with
      ⟨hret, hlive, _⟩ | ⟨task, ht, hret, hlive, _⟩
    · rw [hret] at hid
      rw [hlive]
      exact h.created id (by simpa using hid)
    · rw [hret] at hid
      rw [hlive]
      rcases List.mem_append.mp hid with hid | hid
      · obtain ⟨t, hm, he⟩ := h.created id hid
        exact ⟨t, List.mem_append_left _ hm, he⟩
      · have he : id = s.server.manager.nextTaskId :=
          List.mem_singleton.mp (List.mem_filter.mp hid).1
        refine ⟨newInfo task now, List.mem_append_right _ (List.mem_singleton_self _), ?_⟩
        rw [newInfo_id, ht, he]
  · intro t ht
    simp only [track, step] at ht ⊢
    rcases createTask_cases s.server.manager inputData inputSize mem now with
      ⟨_, hlive, hqueued, _⟩ | ⟨task, _, _, hlive, hqueued, _⟩
    · rw [hlive] at ht
      refine (h.accounted t ht).mono ?_ fun _ hb => hb
      intro q hq he
      rw [hqueued]
      exact ⟨q, hq, he⟩
    · rw [hlive] at ht
      rcases List.mem_append.mp ht with ht | ht
      · refine (h.accounted t ht).mono ?_ fun _ hb => hb
        intro q hq he
        rw [hqueued]
        exact ⟨q, List.mem_append_left _ hq, he⟩
      · rw [List.mem_singleton.mp ht]
        refine Or.inl ⟨rfl, task, ?_, rfl⟩
        rw [hqueued]
        exact List.mem_append_right _ (List.mem_singleton_self _)

theorem inv_assign {s : Tracked} (h : Inv s) (workerId : ℕ) (now : ℤ) (sent : Bool)
    (hc : sent = true ∨ ∀ task, ¬ Pops s.server workerId task) :
    Inv ⟨assignPending s.server workerId now sent, s.created ++ []⟩ := by
  rw [assignPending_eq]
  by_cases hpop : ∃ task, Pops s.server workerId task
  · obtain ⟨task, hpop⟩ := hpop
    obtain rfl : sent = true := hc.resolve_right fun hn => hn task hpop
    obtain ⟨hz, hrec⟩ := h.queue.head_recorded hpop.2.2
    obtain ⟨_, hlive, hqueued, hnext, hworkers⟩ := assign_recorded hpop hz hrec now true
    simp only [ite_true] at hworkers
    obtain ⟨hq, hp⟩ := queue_assign h.queue h.untouched hpop.2.2 hlive hqueued hnext
    obtain ⟨_, ⟨w, hw, _⟩, htask⟩ := hpop
    -- the worker that gets the task is busy now, and the busy ones stay busy
    have hbusy : BusyFor (assignTaskToWorker s.server workerId now true).2 workerId := by
      refine ⟨withStatus .busy w, ?_, (lookup_mem hw).2, rfl⟩
      rw [hworkers]
      exact mem_update_lookup hw
    have hkeep : ∀ id, BusyFor s.server id →
        BusyFor (assignTaskToWorker s.server workerId now true).2 id := by
      intro id hb
      by_cases he : id = workerId
      · rw [he]
        exact hbusy
      · refine hb.mono fun v hv hid hst => ⟨v, ?_, hid, hst⟩
        rw [hworkers]
        exact mem_update_of_ne hv (by rw [hid]; exact he)
    refine ⟨hq, hp, ?_, ?_⟩
    · intro id hid
      rw [List.append_nil] at hid
      have hids : (assignTaskToWorker s.server workerId now true).2.manager.live.map TaskInfo.id =
          s.server.manager.live.map TaskInfo.id := by
        rw [hlive]
        exact map_update fun t => assigned_id workerId now t
      exact mem_of_ids hids (h.created id hid)
    · intro t ht
      simp only [hlive] at ht
      rcases h.queue.distinct.mem_update.mp ht with ⟨ht, hne⟩ | ⟨u, _, _, rfl⟩
      · refine (h.accounted t ht).mono ?_ fun _ hb => hkeep t.workerId hb
        intro q hqm he
        refine ⟨q, ?_, he⟩
        obtain ⟨rest, hr⟩ := List.head?_eq_some_iff.mp htask
        simp only [hqueued, hr, List.tail_cons]
        rw [hr] at hqm
        rcases List.mem_cons.mp hqm with rfl | hqm
        · exact absurd he.symm hne
        · exact hqm
      · exact Or.inr (Or.inl ⟨rfl, hbusy⟩)
  · have hno : ∀ task, ¬ Pops s.server workerId task := fun task hp => hpop ⟨task, hp⟩
    rw [assign_idle hno]
    exact inv_workers h rfl fun _ _ _ hb => hb

theorem inv_heartbeat {s : Tracked} (h : Inv s) (workerId : ℕ) (sockfd now : ℤ) (sent : Bool) :
    Inv ⟨handleWorkerHeartbeat s.server workerId sockfd now sent, s.created ++ []⟩ := by
  have hm := (heartbeat_cases s.server workerId sockfd now sent).1
  refine inv_workers h hm fun t _ _ hb => hb.mono fun w hw hid hst => ?_
  have hmap : idStatus w ∈
      (handleWorkerHeartbeat s.server workerId sockfd now sent).registry.live.map idStatus := by
    rw [heartbeat_idStatus]
    exact List.mem_map_of_mem hw
  obtain ⟨v, hv, he⟩ := List.mem_map.mp hmap
  obtain ⟨hvid, hvst⟩ := Prod.mk.inj he
  exact ⟨v, hv, hvid.trans hid, hvst.trans hst⟩

theorem inv_register {s : Tracked} (h : Inv s) (sockfd : ℤ) (threadId : ℕ) (now : ℤ)
    (sent : Bool) (hc : Careful s (.register sockfd threadId now sent)) :
    Inv (track s (.register sockfd threadId now sent)) := by
  obtain ⟨hm, hlive⟩ := register_cases s.server sockfd threadId now sent
  refine inv_workers h hm fun t ht hst hb => hb.mono fun w hw hid hbusy => ?_
  simp only [step]
  rcases hlive with hlive | ⟨v, hv, _, _, hroom, hlive⟩
  · exact ⟨w, by rw [hlive]; exact hw, hid, hbusy⟩
  · refine ⟨w, ?_, hid, hbusy⟩
    rw [hlive]
    cases sent with
    | true => exact List.mem_append_left _ hw
    | false =>
      have hun := (hc hroom).resolve_left (by decide)
      refine mem_erase_of_ne (List.mem_append_left _ hw) ?_
      rw [hid, hv]
      exact hun t ht hst

theorem inv_disconnect {s : Tracked} (h : Inv s) (workerId : ℕ)
    (hc : Unloaded s.server workerId) : Inv (track s (.disconnect workerId)) := by
  refine inv_workers h rfl fun t ht hst hb => hb.mono fun w hw hid hbusy => ?_
  have hne : w.workerId ≠ workerId := by
    rw [hid]
    exact hc t ht hst
  exact ⟨w, mem_remove_of_ne hw hne, hid, hbusy⟩

theorem inv_workerTimeouts {s : Tracked} (h : Inv s) (now : ℤ)
    (hc : ∀ w ∈ s.server.registry.live,
      workerExpired now workerTimeoutSec w = true → Unloaded s.server w.workerId) :
    Inv (track s (.workerTimeouts now)) := by
  refine inv_workers h rfl fun t ht hst hb => hb.mono fun w hw hid hbusy => ?_
  have hexp : workerExpired now workerTimeoutSec w = false := by
    by_contra hne
    exact hc w hw (by simpa using hne) t ht hst hid.symm
  have hsame : expireWorker now workerTimeoutSec w = w := by simp [expireWorker, hexp]
  refine ⟨w, ?_, hid, hbusy⟩
  simp only [step, checkWorkerTimeouts, WorkerRegistry.checkTimeouts_live]
  exact List.mem_map.mpr ⟨w, hw, hsame⟩

theorem inv_taskTimeouts {s : Tracked} (h : Inv s) (now : ℤ) :
    Inv (track s (.taskTimeouts now)) := by
  obtain ⟨hq, hp⟩ := queue_timeouts h.queue h.untouched now taskTimeoutSec
  refine ⟨hq, hp, ?_, ?_⟩
  · intro id hid
    simp only [track, step, returnedIds, List.append_nil] at hid
    exact mem_of_ids (checkTimeouts_ids s.server.manager now taskTimeoutSec) (h.created id hid)
  · intro t ht
    simp only [track, step, checkTaskTimeouts, TaskManager.checkTimeouts_live] at ht
    obtain ⟨u, hu, rfl⟩ := List.mem_map.mp ht
    by_cases he : taskExpired now taskTimeoutSec u = true
    · have hst : (expireTask now taskTimeoutSec u).status = .timeout := by simp [expireTask, he]
      exact Or.inr (Or.inr (Or.inr (Or.inr hst)))
    · have hsame : expireTask now taskTimeoutSec u = u := by simp [expireTask, he]
      rw [hsame]
      exact (h.accounted u hu).mono (fun q hqm hk => ⟨q, hqm, hk⟩) fun _ hb => hb

theorem inv_step (s : Tracked) (a : Step) (h : Inv s) (hc : Careful s a) : Inv (track s a) := by
  cases a with
  | createTask inputData inputSize mem now => exact inv_createTask h inputData inputSize mem now hc
  | register sockfd threadId now sent => exact inv_register h sockfd threadId now sent hc
  | heartbeat workerId sockfd now sent taskSent =>
    have hb := inv_heartbeat h workerId sockfd now sent
    rw [List.append_nil] at hb
    exact inv_assign hb workerId now taskSent
      (hc.imp_right fun hn task hp => hn task ((pops_heartbeat _ _ _ _ _ _).mp hp))
  | taskResult workerId sockfd conn now sent taskSent =>
    have ha := inv_assign h workerId now taskSent hc
    simp only [track, step, handleTaskResult_eq, returnedIds]
    exact ha
  | disconnect workerId => exact inv_disconnect h workerId hc
  | workerTimeouts now => exact inv_workerTimeouts h now hc
  | taskTimeouts now => exact inv_taskTimeouts h now

theorem restores_of_careful {s : Server} (hq : QueueOk s.manager) {workerId : ℕ} {sent : Bool}
    (hc : sent = true ∨ ∀ task, ¬ Pops s workerId task) (now : ℤ) :
    Restores s workerId now sent := by
  intro task hpop hret
  obtain rfl : sent = true := hc.resolve_right fun hn => hn task hpop
  obtain ⟨hz, hrec⟩ := hq.head_recorded hpop.2.2
  rw [(assign_recorded hpop hz hrec now true).1] at hret
  simp at hret

theorem stepRestores_of_careful {s : Tracked} (h : Inv s) (a : Step) (hc : Careful s a) :
    StepRestores s a := by
  cases a with
  | heartbeat workerId sockfd now sent taskSent =>
    refine restores_of_careful (inv_heartbeat h workerId sockfd now sent).queue ?_ now
    exact hc.imp_right fun hn task hp => hn task ((pops_heartbeat _ _ _ _ _ _).mp hp)
  | taskResult workerId sockfd conn now sent taskSent =>
    simp only [StepRestores, handleTaskResult_eq]
    exact restores_of_careful h.queue hc now
  | _ => trivial

theorem inv_start {s : Server} (hm : s.manager.live = []) (hq : s.manager.queued = []) :
    Inv ⟨s, []⟩ :=
  ⟨queueOk_start hm hq, queuePending_start hq, by simp, by simp [hm]⟩

/-- From `initialize_server` on, in every run whose steps are careful, every
created task is accounted for in every state, and every assignment restores
what it cannot hand over. -/
theorem no_task_lost_when_careful {host : Protocol.Endian} {workers : Slots WorkerInfo maxWorkers}
    {tasks : Slots TaskInfo maxTasks} {queue : Slots Task taskQueueSize} {s : Server}
    (h : initializeServer host workers tasks queue = some s) (as : List Step)
    (hc : Meets track Careful ⟨s, []⟩ as) :
    Along track NoTaskLost ⟨s, []⟩ as ∧ Meets track StepRestores ⟨s, []⟩ as := by
  obtain ⟨_, hm, hq⟩ := initializeServer_start h
  have h0 : Inv ⟨s, []⟩ := inv_start hm hq
  exact ⟨along_mono (fun _ hi => hi.noTaskLost) (along_of_meets inv_step h0 hc),
    meets_of_meets inv_step (fun _ a hi hca => stepRestores_of_careful hi a hca) h0 hc⟩

/-- A worker registers, a task is created, and the worker's heartbeat makes the
server hand the task out; `taskSent` says whether the TASK message gets through. -/
def handOut (taskSent : Bool) : List Step :=
  [.register 4 0 0 true, .createTask (some [7]) 1 (some blankTask) 10,
    .heartbeat 1 4 20 true taskSent]

theorem no_task_lost_handOut :
    Along track NoTaskLost ⟨blankServer, []⟩ (handOut true) ∧
      Meets track StepRestores ⟨blankServer, []⟩ (handOut true) :=
  @no_task_lost_when_careful .little blankWorkers blankTasks blankQueue _
    rfl (handOut true) ⟨fun _ => Or.inl rfl, Nat.one_ne_zero, Or.inl rfl, trivial⟩

/-- When the TASK message cannot be sent, the task is neither queued nor with a
busy worker afterwards. -/
theorem task_lost_when_send_fails :
    initializeServer .little blankWorkers blankTasks blankQueue = some blankServer ∧
      ¬ Along track NoTaskLost ⟨blankServer, []⟩ (handOut false) ∧
      ¬ Meets track StepRestores ⟨blankServer, []⟩ (handOut false) := by
  refine ⟨rfl, ?_, ?_⟩
  · intro h
    have hlast := along_iff_prefix.mp h (handOut false) [] (List.append_nil _).symm
    obtain ⟨⟨t, ht, hid⟩, hacc⟩ := hlast 1 (by decide)
    have hassigned : ∀ t ∈ ((handOut false).foldl track ⟨blankServer, []⟩).server.manager.live,
        t.status = .assigned := by decide
    have hidle : ∀ w ∈ ((handOut false).foldl track ⟨blankServer, []⟩).server.registry.live,
        w.status = .idle := by decide
    have hst := hassigned t ht
    rcases hacc t ht hid with ⟨hf, _⟩ | ⟨_, w, hw, _, hbusy⟩ | hf | hf | hf
    · rw [hst] at hf
      cases hf
    · rw [hidle w hw] at hbusy
      cases hbusy
    all_goals
      rw [hst] at hf
      cases hf
  · intro h
    have hqueued : ((handOut false).foldl track ⟨blankServer, []⟩).server.manager.queued = [] := by
      decide
    obtain ⟨⟨q, hq, _⟩, _⟩ := h.2.2.1 (newTask blankTask 1 [7] 1)
      ⟨by decide, ⟨_, rfl, rfl⟩, rfl⟩ (by decide)
    change q ∈ ((handOut false).foldl track ⟨blankServer, []⟩).server.manager.queued at hq
    rw [hqueued] at hq
    cases hq

end CSimples.TaskTracking
