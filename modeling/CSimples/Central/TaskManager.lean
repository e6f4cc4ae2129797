import CSimples.Lib.Keyed
import CSimples.Shared.Protocol
import CSimples.Shared.RingBuffer

/-!
# The task manager (central_server/task_manager.c)

Every accepted task has a record in `tasks[]`, in order of creation, and until
it is popped a heap copy in the queue. Records are never removed.
-/

namespace CSimples.TaskManager
open Block Keyed Protocol RingBuffer

structure Task where
  taskId : ℕ
  inputData : List UInt8
  outputData : List UInt8
  inputSize : ℕ
  outputSize : ℕ
  deriving Repr, DecidableEq

inductive TaskStatus where
  | pending
  | assigned
  | completed
  | failed
  | timeout
  deriving Repr, DecidableEq

structure TaskInfo where
  task : Task
  workerId : ℕ
  status : TaskStatus
  createdTime : ℤ
  assignedTime : ℤ
  completedTime : ℤ
  execTimeMs : ℕ
  deriving Repr, DecidableEq

def TaskInfo.id (t : TaskInfo) : ℕ := t.task.taskId

structure Manager where
  tasks : List TaskInfo
  capacity : ℕ
  count : ℕ
  nextTaskId : ℕ
  taskQueue : RingBuf Task
  tasks_length : tasks.length = capacity
  count_le : count ≤ capacity
  next_lt : nextTaskId < 2^32

def taskManagerCreate (capacity queueSize : ℕ) (hq : queueSize < 2^32)
    (mem : Slots TaskInfo capacity) (queueMem : Slots Task queueSize) : Option Manager :=
  if capacity = 0 ∨ queueSize = 0 then none
  else do
    let tasks ← mem
    let queue ← ringBufferCreate queueSize hq queueMem
    some ⟨tasks.val, capacity, 0, 1, queue, tasks.property, Nat.zero_le _, by norm_num⟩

def Manager.live (m : Manager) : List TaskInfo := m.tasks.take m.count

def Manager.queued (m : Manager) : List Task := m.taskQueue.content

def Manager.find (m : Manager) (id : ℕ) : Option ℕ := position TaskInfo.id id m.live

/-! ### Operations (task_manager.c:72-276) -/

/-- The heap task of `task_manager_create_task`; the members that are not
assigned keep what `malloc` left in `mem`. -/
def newTask (mem : Task) (id : ℕ) (data : List UInt8) (size : ℕ) : Task :=
  { mem with
    taskId := id
    inputData := memcpy mem.inputData data size
    outputData := List.replicate maxDataSize 0 }

def newInfo (task : Task) (now : ℤ) : TaskInfo := ⟨task, 0, .pending, now, 0, 0, 0⟩

/-- `task_manager_create_task` (task_manager.c:72-126). `next_task_id` is
consumed before the push, also when the queue turns out to be full. -/
def taskManagerCreateTask (m : Manager) (inputData : Option (List UInt8)) (inputSize : ℕ)
    (mem : Option Task) (now : ℤ) : ℕ × Manager :=
  match inputData with
  | none => (0, m)
  | some data =>
    if inputSize = 0 ∨ maxDataSize < inputSize then (0, m)
    else if h : m.capacity ≤ m.count then (0, m)
    else match mem with
    | none => (0, m)
    | some mem =>
      let task := newTask mem m.nextTaskId data inputSize
      let push := ringBufferPush m.taskQueue (some task)
      if push.1 ≠ 0 then
        (0, { m with
          nextTaskId := (m.nextTaskId + 1) % 2^32
          next_lt := Nat.mod_lt _ (by norm_num) })
      else
        (m.nextTaskId,
          { m with
            nextTaskId := (m.nextTaskId + 1) % 2^32
            taskQueue := push.2
            tasks := m.tasks.set m.count (newInfo task now)
            count := m.count + 1
            tasks_length := by rw [List.length_set, m.tasks_length]
            count_le := Nat.not_le.mp h
            next_lt := Nat.mod_lt _ (by norm_num) })

/-- `task_manager_get_next_task` with `timeout_ms == 0` (task_manager.c:129-140). -/
def taskManagerGetNextTask (m : Manager) : Option Task × Manager :=
  ((ringBufferPop m.taskQueue).1, { m with taskQueue := (ringBufferPop m.taskQueue).2 })

def taskManagerPendingCount (m : Manager) : ℕ := ringBufferSize m.taskQueue

/-- The loops of `task_manager_assign_task` and `task_manager_process_result`,
which differ in the fields they assign. -/
def updateTask (m : Manager) (taskId : ℕ) (f : TaskInfo → TaskInfo) : ℤ × Manager :=
  match m.find taskId with
  | none => (-1, m)
  | some i =>
    (0, { m with
      tasks := m.tasks.modify i f
      tasks_length := by rw [List.length_modify, m.tasks_length] })

def assigned (workerId : ℕ) (now : ℤ) (t : TaskInfo) : TaskInfo :=
  { t with workerId := workerId, status := .assigned, assignedTime := now }

def taskManagerAssignTask (m : Manager) (taskId workerId : ℕ) (now : ℤ) : ℤ × Manager :=
  if taskId = 0 ∨ workerId = 0 then (-1, m) else updateTask m taskId (assigned workerId now)

def finished (status execTimeMs : ℕ) (now : ℤ) (t : TaskInfo) : TaskInfo :=
  { t with
    status := if status = statusSuccess then .completed else .failed
    completedTime := now
    execTimeMs := execTimeMs }

/-- `task_manager_process_result` (task_manager.c:172-200); `status` is the
`uint8_t` parameter. -/
def taskManagerProcessResult (m : Manager) (taskId status execTimeMs : ℕ) (now : ℤ) :
    ℤ × Manager :=
  if taskId = 0 then (-1, m) else updateTask m taskId (finished status execTimeMs now)

def taskExpired (now : ℤ) (timeoutSec : ℕ) (t : TaskInfo) : Bool :=
  decide (t.status = .assigned) && decide (t.assignedTime > 0) &&
    decide (now - t.assignedTime > timeoutSec)

def expireTask (now : ℤ) (timeoutSec : ℕ) (t : TaskInfo) : TaskInfo :=
  if taskExpired now timeoutSec t then { t with status := .timeout } else t

def taskManagerCheckTimeouts (m : Manager) (now : ℤ) (timeoutSec : ℕ) : ℕ × Manager :=
  (m.live.countP (taskExpired now timeoutSec),
    { m with
      tasks := sweep (expireTask now timeoutSec) m.count m.tasks
      tasks_length := by rw [sweep_length, m.tasks_length] })

/-! ### What each operation does to the records and the queue -/

@[simp] theorem assigned_id (workerId : ℕ) (now : ℤ) (t : TaskInfo) :
    (assigned workerId now t).id = t.id := rfl

theorem create_start {capacity queueSize : ℕ} {hq : queueSize < 2^32}
    {mem : Slots TaskInfo capacity} {queueMem : Slots Task queueSize} {m : Manager}
    (h : taskManagerCreate capacity queueSize hq mem queueMem = some m) :
    m.live = [] ∧ m.queued = [] ∧ m.nextTaskId = 1 := by
  unfold taskManagerCreate at h
  split at h
  · cases h
  · obtain ⟨tasks, _, h⟩ := Option.bind_eq_some_iff.mp h
    obtain ⟨queue, hqueue, h⟩ := Option.bind_eq_some_iff.mp h
    cases h
    exact ⟨rfl, (create_content hqueue).1, rfl⟩

/-- A call of `create_task` either gives out `next_task_id`, with a pending
record and a queued copy of the task, or returns 0 and leaves records and queue
alone. -/
theorem createTask_cases (m : Manager) (inputData : Option (List UInt8)) (inputSize : ℕ)
    (mem : Option Task) (now : ℤ) :
    ((taskManagerCreateTask m inputData inputSize mem now).1 = 0 ∧
      (taskManagerCreateTask m inputData inputSize mem now).2.live = m.live ∧
      (taskManagerCreateTask m inputData inputSize mem now).2.queued = m.queued ∧
      ((taskManagerCreateTask m inputData inputSize mem now).2.nextTaskId = m.nextTaskId ∨
        (taskManagerCreateTask m inputData inputSize mem now).2.nextTaskId =
          (m.nextTaskId + 1) % 2^32)) ∨
    ∃ task, task.taskId = m.nextTaskId ∧
      (taskManagerCreateTask m inputData inputSize mem now).1 = m.nextTaskId ∧
      (taskManagerCreateTask m inputData inputSize mem now).2.live =
        m.live ++ [newInfo task now] ∧
      (taskManagerCreateTask m inputData inputSize mem now).2.queued = m.queued ++ [task] ∧
      (taskManagerCreateTask m inputData inputSize mem now).2.nextTaskId =
        (m.nextTaskId + 1) % 2^32 := by
  unfold taskManagerCreateTask
  split
  · exact Or.inl ⟨rfl, rfl, rfl, Or.inl rfl⟩
  · rename_i data
    split
    · exact Or.inl ⟨rfl, rfl, rfl, Or.inl rfl⟩
    · split
      · exact Or.inl ⟨rfl, rfl, rfl, Or.inl rfl⟩
      · rename_i hfull
        cases mem with
        | none => exact Or.inl ⟨rfl, rfl, rfl, Or.inl rfl⟩
        | some mem =>
          by_cases hroom : m.taskQueue.size < m.taskQueue.capacity
          · obtain ⟨hp, hc⟩ := push_room (newTask mem m.nextTaskId data inputSize) hroom
            have hlen : m.count < m.tasks.length := by rw [m.tasks_length]; omega
            refine Or.inr ⟨newTask mem m.nextTaskId data inputSize, rfl, ?_⟩
            simp only [hp, ne_eq, not_true_eq_false, ite_false, Manager.live, Manager.queued, hc,
              true_and, and_true]
            exact take_set_next hlen _
          · have hsize := m.taskQueue.size_le
            have hp := push_full (x := some (newTask mem m.nextTaskId data inputSize))
              (by omega : m.taskQueue.size = m.taskQueue.capacity)
            refine Or.inl ?_
            simp [hp, Manager.live, Manager.queued]

theorem getNextTask_spec (m : Manager) :
    (taskManagerGetNextTask m).1 = m.queued.head? ∧
      (taskManagerGetNextTask m).2.queued = m.queued.tail ∧
      (taskManagerGetNextTask m).2.live = m.live :=
  ⟨(pop_content m.taskQueue).1, (pop_content m.taskQueue).2, rfl⟩

theorem pendingCount_eq (m : Manager) : taskManagerPendingCount m = m.queued.length :=
  m.taskQueue.content_length.symm

theorem updateTask_live (m : Manager) (id : ℕ) (f : TaskInfo → TaskInfo) :
    (updateTask m id f).2.live = update TaskInfo.id id f m.live := by
  unfold updateTask
  split
  · rename_i h
    exact (update_of_absent (position_eq_none.mp h)).symm
  · rename_i i h
    rw [← modify_position f h]
    exact List.take_modify f i m.count m.tasks

theorem updateTask_frame (m : Manager) (id : ℕ) (f : TaskInfo → TaskInfo) :
    (updateTask m id f).2.queued = m.queued ∧
      (updateTask m id f).2.nextTaskId = m.nextTaskId := by
  unfold updateTask
  split <;> exact ⟨rfl, rfl⟩

theorem updateTask_ret (m : Manager) (id : ℕ) (f : TaskInfo → TaskInfo) :
    (updateTask m id f).1 = 0 ↔ ∃ t ∈ m.live, t.id = id := by
  rw [← position_isSome]
  unfold updateTask
  split
  · rename_i h
    have hp : position TaskInfo.id id m.live = none := h
    simp [hp]
  · rename_i i h
    have hp : position TaskInfo.id id m.live = some i := h
    simp [hp]

theorem assignTask_cases (m : Manager) (taskId workerId : ℕ) (now : ℤ) :
    ((taskManagerAssignTask m taskId workerId now).2.live = m.live ∨
      (taskManagerAssignTask m taskId workerId now).2.live =
        update TaskInfo.id taskId (assigned workerId now) m.live) ∧
      (taskManagerAssignTask m taskId workerId now).2.queued = m.queued ∧
      (taskManagerAssignTask m taskId workerId now).2.nextTaskId = m.nextTaskId := by
  unfold taskManagerAssignTask
  split
  · exact ⟨Or.inl rfl, rfl, rfl⟩
  · exact ⟨Or.inr (updateTask_live m taskId _), updateTask_frame m taskId _⟩

theorem assignTask_recorded {m : Manager} {taskId workerId : ℕ} {now : ℤ}
    (h : (taskManagerAssignTask m taskId workerId now).1 = 0) :
    ∃ t, lookup TaskInfo.id taskId (taskManagerAssignTask m taskId workerId now).2.live =
      some (assigned workerId now t) := by
  unfold taskManagerAssignTask at h ⊢
  split at h
  · cases h
  · rename_i hz
    rw [if_neg hz, updateTask_live, lookup_update (assigned_id workerId now)]
    obtain ⟨t, ht, hid⟩ := (updateTask_ret m taskId _).mp h
    cases hl : lookup TaskInfo.id taskId m.live with
    | none => exact absurd hid (lookup_eq_none.mp hl t ht)
    | some u => exact ⟨u, rfl⟩

theorem processResult_spec {m : Manager} (hz : ∀ t ∈ m.live, t.id ≠ 0)
    (taskId status execTimeMs : ℕ) (now : ℤ) :
    (taskManagerProcessResult m taskId status execTimeMs now).2.live =
        update TaskInfo.id taskId (finished status execTimeMs now) m.live ∧
      (taskManagerProcessResult m taskId status execTimeMs now).2.queued = m.queued ∧
      (taskManagerProcessResult m taskId status execTimeMs now).2.nextTaskId = m.nextTaskId := by
  unfold taskManagerProcessResult
  split
  · rename_i hid
    subst hid
    exact ⟨(update_of_absent hz).symm, rfl, rfl⟩
  · exact ⟨updateTask_live m taskId _, updateTask_frame m taskId _⟩

theorem checkTimeouts_live (m : Manager) (now : ℤ) (timeoutSec : ℕ) :
    (taskManagerCheckTimeouts m now timeoutSec).2.live =
      m.live.map (expireTask now timeoutSec) := by
  have hn : m.count ≤ m.tasks.length := by rw [m.tasks_length]; exact m.count_le
  exact take_sweep _ hn

@[simp] theorem finished_id (status execTimeMs : ℕ) (now : ℤ) (t : TaskInfo) :
    (finished status execTimeMs now t).id = t.id := rfl

@[simp] theorem expireTask_id (now : ℤ) (timeoutSec : ℕ) (t : TaskInfo) :
    (expireTask now timeoutSec t).id = t.id := by
  unfold expireTask
  split <;> rfl

theorem checkTimeouts_ids (m : Manager) (now : ℤ) (timeoutSec : ℕ) :
    (taskManagerCheckTimeouts m now timeoutSec).2.live.map TaskInfo.id =
      m.live.map TaskInfo.id := by
  rw [checkTimeouts_live, List.map_map]
  exact List.map_congr_left fun t _ => expireTask_id now timeoutSec t

@[simp] theorem newInfo_id (task : Task) (now : ℤ) : (newInfo task now).id = task.taskId := rfl

end CSimples.TaskManager
