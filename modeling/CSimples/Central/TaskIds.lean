import CSimples.Central.TaskResults

/-!
# Task ids (central_server/task_manager.c)

The calls of the task manager in any order, with the ids that `task_manager_create_task`
gave out and the states around every call that it answered with 0. As long as no id is
lost to a full queue, the ids are those of the records: `1` to `count`.
-/

namespace CSimples.TaskIds
open Block CentralServer Protocol RingBuffer Run TaskManager TaskResults

inductive Call where
  | createTask (inputData : Option (List UInt8)) (inputSize : ℕ) (mem : Option Task) (now : ℤ)
  | getNextTask
  | assignTask (taskId workerId : ℕ) (now : ℤ)
  | processResult (taskId status execTimeMs : ℕ) (now : ℤ)
  | checkTimeouts (now : ℤ) (timeoutSec : ℕ)

/-- `refused` has the states before and after each call that returned 0. -/
structure Log where
  manager : Manager
  given : List ℕ
  refused : List (Manager × Manager)

def next (s : Log) : Call → Log
  | .createTask inputData inputSize mem now =>
    let created := taskManagerCreateTask s.manager inputData inputSize mem now
    if created.1 = 0 then ⟨created.2, s.given, s.refused ++ [(s.manager, created.2)]⟩
    else ⟨created.2, s.given ++ [created.1], s.refused⟩
  | .getNextTask => { s with manager := (taskManagerGetNextTask s.manager).2 }
  | .assignTask taskId workerId now =>
    { s with manager := (taskManagerAssignTask s.manager taskId workerId now).2 }
  | .processResult taskId status execTimeMs now =>
    { s with manager := (taskManagerProcessResult s.manager taskId status execTimeMs now).2 }
  | .checkTimeouts now timeoutSec =>
    { s with manager := (taskManagerCheckTimeouts s.manager now timeoutSec).2 }

def IdsSound (s : Log) : Prop := s.given.Nodup ∧ ∀ p ∈ s.refused, p.2 = p.1

/-! ### What a creation can do -/

/-- Everything up to the push succeeds, and the queue is full. -/
def Overflows (m : Manager) (inputData : Option (List UInt8)) (inputSize : ℕ)
    (mem : Option Task) : Prop :=
  inputData.isSome ∧ inputSize ≠ 0 ∧ inputSize ≤ maxDataSize ∧ m.count < m.capacity ∧
    mem.isSome ∧ m.taskQueue.size = m.taskQueue.capacity

instance (m : Manager) (inputData : Option (List UInt8)) (inputSize : ℕ) (mem : Option Task) :
    Decidable (Overflows m inputData inputSize mem) :=
  inferInstanceAs (Decidable (_ ∧ _))

structure Given (m m' : Manager) : Prop where
  room : m.count < m.capacity
  count : m'.count = m.count + 1
  capacity : m'.capacity = m.capacity
  nextTaskId : m'.nextTaskId = (m.nextTaskId + 1) % 2^32

theorem createTask_overflow {m : Manager} {inputData : Option (List UInt8)} {inputSize : ℕ}
    {mem : Option Task} (now : ℤ) (h : Overflows m inputData inputSize mem) :
    taskManagerCreateTask m inputData inputSize mem now = (0, later m 1) := by
  obtain ⟨hdata, hzero, hmax, hroom, hmem, hfull⟩ := h
  obtain ⟨data, rfl⟩ := Option.isSome_iff_exists.mp hdata
  obtain ⟨block, rfl⟩ := Option.isSome_iff_exists.mp hmem
  have hsize : ¬ (inputSize = 0 ∨ maxDataSize < inputSize) := by omega
  have hcap : ¬ m.capacity ≤ m.count := by omega
  have hpush := push_full (x := some (newTask block m.nextTaskId data inputSize)) hfull
  simp only [taskManagerCreateTask, hsize, hcap, ite_false, dite_false, hpush]
  rfl

theorem createTask_fits {m : Manager} {inputData : Option (List UInt8)} {inputSize : ℕ}
    {mem : Option Task} (now : ℤ) (h : ¬ Overflows m inputData inputSize mem) :
    taskManagerCreateTask m inputData inputSize mem now = (0, m) ∨
      (taskManagerCreateTask m inputData inputSize mem now).1 = m.nextTaskId ∧
        Given m (taskManagerCreateTask m inputData inputSize mem now).2 := by
  unfold taskManagerCreateTask
  split
  · exact .inl rfl
  · rename_i data
    split
    · exact .inl rfl
    · rename_i hsize
      split
      · exact .inl rfl
      · rename_i hcap
        cases mem with
        | none => exact .inl rfl
        | some block =>
          have hle := m.taskQueue.size_le
          have hroom : m.taskQueue.size < m.taskQueue.capacity := by
            by_contra hfull
            exact h ⟨rfl, by omega, by omega, by omega, rfl, by omega⟩
          obtain ⟨hpush, _⟩ := push_room (newTask block m.nextTaskId data inputSize) hroom
          right
          simp only [hpush, ne_eq, not_true_eq_false, ite_false, true_and]
          exact ⟨by omega, rfl, rfl, rfl⟩

/-! ### The invariant -/

structure Inv (s : Log) : Prop where
  capacity_lt : s.manager.capacity < 2^32
  nextTaskId : s.manager.nextTaskId = (s.manager.count + 1) % 2^32
  given : s.given = List.range' 1 s.manager.count
  refused : ∀ p ∈ s.refused, p.2 = p.1

def Clean (s : Log) : Call → Prop
  | .createTask inputData inputSize mem _ => ¬ Overflows s.manager inputData inputSize mem
  | _ => True

instance (s : Log) : (a : Call) → Decidable (Clean s a)
  | .createTask _ _ _ _ => inferInstanceAs (Decidable (¬ _))
  | .getNextTask | .assignTask _ _ _ | .processResult _ _ _ _ | .checkTimeouts _ _ =>
    isTrue trivial

theorem Inv.idsSound {s : Log} (h : Inv s) : IdsSound s := by
  refine ⟨?_, h.refused⟩
  rw [h.given]
  exact List.nodup_range'

theorem Inv.frame {s : Log} (h : Inv s) {m : Manager} (hcount : m.count = s.manager.count)
    (hcapacity : m.capacity = s.manager.capacity)
    (hnext : m.nextTaskId = s.manager.nextTaskId) : Inv { s with manager := m } := by
  constructor
  · rw [hcapacity]
    exact h.capacity_lt
  · rw [hnext, hcount]
    exact h.nextTaskId
  · rw [hcount]
    exact h.given
  · exact h.refused

theorem Inv.create {s : Log} (h : Inv s) {inputData : Option (List UInt8)} {inputSize : ℕ}
    {mem : Option Task} (now : ℤ) (hfits : ¬ Overflows s.manager inputData inputSize mem) :
    Inv (next s (.createTask inputData inputSize mem now)) := by
  rcases createTask_fits now hfits with heq | ⟨hid, hgiven⟩
  · simp only [next, heq, if_true]
    refine ⟨h.capacity_lt, h.nextTaskId, h.given, ?_⟩
    intro p hp
    rcases List.mem_append.mp hp with hp | hp
    · exact h.refused p hp
    · cases List.mem_singleton.mp hp
      rfl
  · have hroom := hgiven.room
    have hcapacity := h.capacity_lt
    have hfirst : s.manager.nextTaskId = s.manager.count + 1 := by
      rw [h.nextTaskId, Nat.mod_eq_of_lt (by omega)]
    have hne : s.manager.nextTaskId ≠ 0 := by omega
    simp only [next, hid, if_neg hne]
    constructor
    · rw [hgiven.capacity]
      exact hcapacity
    · rw [hgiven.nextTaskId, hgiven.count, hfirst]
    · rw [hgiven.count, List.range'_1_concat, h.given, hfirst, Nat.add_comm 1]
    · exact h.refused

theorem updateTask_count (m : Manager) (id : ℕ) (f : TaskInfo → TaskInfo) :
    (updateTask m id f).2.count = m.count ∧ (updateTask m id f).2.capacity = m.capacity := by
  unfold updateTask
  split <;> exact ⟨rfl, rfl⟩

theorem Inv.update {s : Log} (h : Inv s) (id : ℕ) (f : TaskInfo → TaskInfo) :
    Inv { s with manager := (updateTask s.manager id f).2 } := by
  obtain ⟨hcount, hcapacity⟩ := updateTask_count s.manager id f
  exact h.frame hcount hcapacity (updateTask_frame s.manager id f).2

theorem inv_next (s : Log) (a : Call) (h : Inv s) (hclean : Clean s a) : Inv (next s a) := by
  cases a with
  | createTask inputData inputSize mem now => exact h.create now hclean
  | getNextTask => exact h.frame rfl rfl rfl
  | assignTask taskId workerId now =>
    simp only [next, taskManagerAssignTask]
    split
    · exact h
    · exact h.update taskId _
  | processResult taskId status execTimeMs now =>
    simp only [next, taskManagerProcessResult]
    split
    · exact h
    · exact h.update taskId _
  | checkTimeouts now timeoutSec => exact h.frame rfl rfl rfl

theorem later_ne (m : Manager) : later m 1 ≠ m := by
  intro he
  have hnext : (m.nextTaskId + 1) % 2^32 = m.nextTaskId := congrArg Manager.nextTaskId he
  have hlt := m.next_lt
  omega

theorem not_idsSound_next (s : Log) (a : Call) (h : ¬ Clean s a) : ¬ IdsSound (next s a) := by
  cases a with
  | createTask inputData inputSize mem now =>
    have heq := createTask_overflow now (not_not.mp h)
    rintro ⟨_, hrefused⟩
    simp only [next, heq, if_true] at hrefused
    exact later_ne s.manager (hrefused _ (List.mem_append_right _ (List.mem_singleton_self _)))
  | getNextTask => exact absurd trivial h
  | assignTask taskId workerId now => exact absurd trivial h
  | processResult taskId status execTimeMs now => exact absurd trivial h
  | checkTimeouts now timeoutSec => exact absurd trivial h

theorem inv_start {capacity queueSize : ℕ} (hc : capacity < 2^32) {hq : queueSize < 2^32}
    {mem : Slots TaskInfo capacity} {queueMem : Slots Task queueSize} {m : Manager}
    (h : taskManagerCreate capacity queueSize hq mem queueMem = some m) : Inv ⟨m, [], []⟩ := by
  unfold taskManagerCreate at h
  split at h
  · cases h
  · obtain ⟨tasks, _, h⟩ := Option.bind_eq_some_iff.mp h
    obtain ⟨queue, _, h⟩ := Option.bind_eq_some_iff.mp h
    cases h
    exact ⟨hc, rfl, rfl, fun p hp => absurd hp List.not_mem_nil⟩

/-! ### Every run -/

theorem task_ids_sound_iff {capacity queueSize : ℕ} (hc : capacity < 2^32)
    {hq : queueSize < 2^32} {mem : Slots TaskInfo capacity} {queueMem : Slots Task queueSize}
    {m : Manager} (h : taskManagerCreate capacity queueSize hq mem queueMem = some m)
    (calls : List Call) :
    Along next IdsSound ⟨m, [], []⟩ calls ↔ Meets next Clean ⟨m, [], []⟩ calls := by
  refine along_iff_meets_of_inv (fun _ => Inv.idsSound) inv_next ?_ (inv_start hc h) calls
  exact fun s a _ hclean => not_idsSound_next s a hclean

def createSecond : Call := .createTask (some [7]) 1 (some blankTask) 10

/-- The third task finds `tasks[]` full, not the queue. -/
theorem task_ids_sound_iff_twoTasks :
    Along next IdsSound ⟨emptyDesk.manager, [], []⟩
      [createSecond, .getNextTask, createSecond, createSecond] := by
  refine (@task_ids_sound_iff 2 1 (by decide) (by decide) twoSlots oneQueued _ rfl _).mpr ?_
  exact ⟨by decide, trivial, by decide, by decide, trivial⟩

/-- The second task finds the queue full, and takes its id with it. -/
theorem task_id_lost :
    ¬ Along next IdsSound ⟨emptyDesk.manager, [], []⟩ [createSecond, createSecond] := by
  rintro ⟨_, _, _, hrefused⟩
  have hnext := congrArg Manager.nextTaskId (hrefused _ (List.mem_singleton_self _))
  exact absurd hnext (by decide)

end CSimples.TaskIds
