import CSimples.Central.CentralServer
import CSimples.Central.TaskQueue
import CSimples.Lib.Run

/-!
# Results that workers report

`task_manager_process_result` is called with whatever task id and status a
worker sends. It looks at neither the record's status nor its worker, and so
takes a result for a task that is still queued, or already finished, or with
another worker. Here the calls of `get_next_task` and `assign_task` by the
handler threads interleave with results and timeout checks: a popped task is in
the hands of its thread until it is assigned.
-/

namespace CSimples.TaskResults
open Block Keyed TaskManager TaskQueue Run
open CentralServer (blankTask)
open Protocol (maxDataSize)
open RingBuffer (push_full)

/-- The manager, and the tasks that were popped and are not yet assigned. -/
structure Desk where
  manager : Manager
  inHand : List Task

inductive Action where
  | createTask (inputData : Option (List UInt8)) (inputSize : ℕ) (mem : Option Task) (now : ℤ)
  | getNextTask
  | assignTask (task : Task) (workerId : ℕ) (now : ℤ)
  | processResult (workerId taskId status execTimeMs : ℕ) (now : ℤ)
  | checkTimeouts (now : ℤ) (timeoutSec : ℕ)

/-- One call. `assign_task` is for a task in hand; the worker that reports a
result is not passed to `process_result` (central_server.c:176-177). -/
def step (s : Desk) : Action → Option Desk
  | .createTask inputData inputSize mem now =>
    some ⟨(taskManagerCreateTask s.manager inputData inputSize mem now).2, s.inHand⟩
  | .getNextTask =>
    let popped := taskManagerGetNextTask s.manager
    some ⟨popped.2, popped.1.toList ++ s.inHand⟩
  | .assignTask task workerId now =>
    if task ∈ s.inHand then
      some ⟨(taskManagerAssignTask s.manager task.taskId workerId now).2, s.inHand.erase task⟩
    else none
  | .processResult _ taskId status execTimeMs now =>
    some ⟨(taskManagerProcessResult s.manager taskId status execTimeMs now).2, s.inHand⟩
  | .checkTimeouts now timeoutSec =>
    some ⟨(taskManagerCheckTimeouts s.manager now timeoutSec).2, s.inHand⟩

def Reported (t : TaskInfo) : Prop := t.status = .completed ∨ t.status = .failed

def outcome (t : TaskInfo) : TaskStatus × ℕ × ℤ × ℕ :=
  (t.status, t.workerId, t.completedTime, t.execTimeMs)

/-- The finished tasks of `s` have the same outcome in `s'`. -/
def KeepsOutcomes (s s' : Desk) : Prop :=
  ∀ (i : ℕ) (t : TaskInfo), s.manager.live[i]? = some t → Reported t →
    ∃ t', s'.manager.live[i]? = some t' ∧ outcome t' = outcome t

/-- A result changes only tasks that are ASSIGNED to the worker reporting it. -/
def FromOwner (s s' : Desk) : Action → Prop
  | .processResult workerId _ _ _ _ => ∀ (i : ℕ) (t : TaskInfo),
      s.manager.live[i]? = some t → s'.manager.live[i]? ≠ some t →
        t.status = .assigned ∧ t.workerId = workerId
  | _ => True

/-- A result changes the record of the task it names and no other, and of that
record the status and the two times of the report. -/
def OnlyNamed (s s' : Desk) : Action → Prop
  | .processResult _ taskId status execTimeMs now => ∀ (i : ℕ) (t : TaskInfo),
      s.manager.live[i]? = some t → s'.manager.live[i]? =
        some (if t.id = taskId then finished status execTimeMs now t else t)
  | _ => True

/-- Results name tasks that are ASSIGNED, to whichever worker. -/
def NamesAssigned (s : Desk) : Action → Prop
  | .processResult _ taskId _ _ _ => ∀ t ∈ s.manager.live, t.id = taskId → t.status = .assigned
  | _ => True

def IdsLeft (s : Desk) : Action → Prop
  | .createTask _ _ _ _ => s.manager.nextTaskId ≠ 0
  | _ => True

def Expected (s : Desk) (a : Action) : Prop := NamesAssigned s a ∧ IdsLeft s a

def Desk.waiting (s : Desk) : List Task := s.inHand ++ s.manager.queued

structure Inv (s : Desk) : Prop where
  queue : QueueOk s.manager
  distinct : Distinct Task.taskId s.waiting
  recorded : ∀ q ∈ s.inHand, ∃ t ∈ s.manager.live, t.id = q.taskId
  untouched : ∀ q ∈ s.waiting, ∀ t ∈ s.manager.live, t.id = q.taskId → t.status = .pending

theorem Inv.waiting_recorded {s : Desk} (h : Inv s) :
    ∀ q ∈ s.waiting, ∃ t ∈ s.manager.live, t.id = q.taskId := by
  intro q hq
  rcases List.mem_append.mp hq with hq | hq
  · exact h.recorded q hq
  · exact h.queue.recorded q hq

/-! ### The invariant is kept -/

theorem inv_createTask {s : Desk} (h : Inv s) (inputData : Option (List UInt8)) (inputSize : ℕ)
    (mem : Option Task) (now : ℤ) (hn : s.manager.nextTaskId ≠ 0) :
    Inv ⟨(taskManagerCreateTask s.manager inputData inputSize mem now).2, s.inHand⟩ := by
  have hqueue := queueOk_create h.queue hn inputData inputSize mem now
  rcases createTask_cases s.manager inputData inputSize mem now with
    ⟨_, hlive, hqueued, _⟩ | ⟨task, hid, _, hlive, hqueued, _⟩
  · refine ⟨hqueue, ?_, ?_, ?_⟩
    · simp only [Desk.waiting, hqueued]
      exact h.distinct
    · simp only [hlive]
      exact h.recorded
    · simp only [Desk.waiting, hqueued, hlive]
      exact h.untouched
  · -- the new task is the only waiting one with its id
    have hfree : ∀ q ∈ s.waiting, q.taskId ≠ task.taskId := by
      intro q hq he
      obtain ⟨t, ht, htq⟩ := h.waiting_recorded q hq
      exact h.queue.fresh hn t ht (by rw [htq, he, hid])
    have hwaiting : Desk.waiting
        ⟨(taskManagerCreateTask s.manager inputData inputSize mem now).2, s.inHand⟩ =
        s.waiting ++ [task] := by
      simp only [Desk.waiting, hqueued, List.append_assoc]
    refine ⟨hqueue, ?_, ?_, ?_⟩
    · rw [hwaiting]
      exact distinct_append_fresh.mpr ⟨h.distinct, hfree⟩
    · intro q hq
      simp only [hlive]
      obtain ⟨t, ht, he⟩ := h.recorded q hq
      exact ⟨t, List.mem_append_left _ ht, he⟩
    · intro q hq t ht he
      rw [hwaiting] at hq
      simp only [hlive] at ht
      rcases List.mem_append.mp ht with ht | ht
      · rcases List.mem_append.mp hq with hq | hq
        · exact h.untouched q hq t ht he
        · rw [List.mem_singleton.mp hq, hid] at he
          exact absurd he (h.queue.fresh hn t ht)
      · rw [List.mem_singleton.mp ht]
        rfl

theorem waiting_getNextTask (s : Desk) :
    (Desk.waiting ⟨(taskManagerGetNextTask s.manager).2,
      (taskManagerGetNextTask s.manager).1.toList ++ s.inHand⟩).Perm s.waiting := by
  obtain ⟨hpop, hqueue, _⟩ := getNextTask_spec s.manager
  simp only [Desk.waiting, hpop, hqueue]
  cases s.manager.queued with
  | nil => exact List.Perm.refl _
  | cons q rest => exact List.perm_middle.symm

theorem inv_getNextTask {s : Desk} (h : Inv s) :
    Inv ⟨(taskManagerGetNextTask s.manager).2,
      (taskManagerGetNextTask s.manager).1.toList ++ s.inHand⟩ := by
  have hperm := waiting_getNextTask s
  obtain ⟨hpop, hqueue, hlive⟩ := getNextTask_spec s.manager
  refine ⟨h.queue.of_ids (by rw [hlive]) rfl ?_, ?_, ?_, ?_⟩
  · rw [hqueue]
    exact List.tail_sublist _
  · exact (hperm.map Task.taskId).nodup_iff.mpr h.distinct
  · intro q hq
    simp only [hlive]
    exact h.waiting_recorded q (hperm.subset (List.mem_append_left _ hq))
  · intro q hq t ht he
    simp only [hlive] at ht
    exact h.untouched q (hperm.subset hq) t ht he

theorem inv_assignTask {s : Desk} (h : Inv s) {task : Task} (hmem : task ∈ s.inHand)
    (workerId : ℕ) (now : ℤ) :
    Inv ⟨(taskManagerAssignTask s.manager task.taskId workerId now).2, s.inHand.erase task⟩ := by
  obtain ⟨hlive, hqueued, hnext⟩ := assignTask_cases s.manager task.taskId workerId now
  have hids : (taskManagerAssignTask s.manager task.taskId workerId now).2.live.map TaskInfo.id =
      s.manager.live.map TaskInfo.id := by
    rcases hlive with hlive | hlive
    · rw [hlive]
    · rw [hlive]
      exact map_update fun t => assigned_id workerId now t
  -- the task leaves the waiting ones, and none of the others has its id
  have hperm : s.waiting.Perm (task :: (s.inHand.erase task ++ s.manager.queued)) :=
    (List.perm_cons_erase hmem).append_right _
  have hdistinct := (hperm.map Task.taskId).nodup_iff.mp h.distinct
  obtain ⟨hgone, hrest⟩ := List.nodup_cons.mp hdistinct
  refine ⟨h.queue.of_ids hids hnext (by rw [hqueued]), ?_, ?_, ?_⟩
  · simp only [Desk.waiting, hqueued]
    exact hrest
  · intro q hq
    exact mem_of_ids hids (h.recorded q (List.mem_of_mem_erase hq))
  · intro q hq t ht he
    simp only [Desk.waiting, hqueued] at hq
    have hq' : q ∈ s.waiting := hperm.symm.subset (List.mem_cons_of_mem _ hq)
    rcases hlive with hlive | hlive
    · simp only [hlive] at ht
      exact h.untouched q hq' t ht he
    · simp only [hlive] at ht
      rcases mem_update ht with ht | ⟨u, _, hk, rfl⟩
      · exact h.untouched q hq' t ht he
      · rw [assigned_id, hk] at he
        exact absurd (List.mem_map.mpr ⟨q, hq, he.symm⟩) hgone

theorem inv_processResult {s : Desk} (h : Inv s) (taskId status execTimeMs : ℕ) (now : ℤ)
    (hc : ∀ t ∈ s.manager.live, t.id = taskId → t.status = .assigned) :
    Inv ⟨(taskManagerProcessResult s.manager taskId status execTimeMs now).2, s.inHand⟩ := by
  obtain ⟨hlive, hqueued, hnext⟩ :=
    processResult_spec h.queue.nonzero taskId status execTimeMs now
  have hids : (taskManagerProcessResult s.manager taskId status execTimeMs now).2.live.map
      TaskInfo.id = s.manager.live.map TaskInfo.id := by
    rw [hlive]
    exact map_update fun t => finished_id status execTimeMs now t
  refine ⟨h.queue.of_ids hids hnext (by rw [hqueued]), ?_, ?_, ?_⟩
  · simp only [Desk.waiting, hqueued]
    exact h.distinct
  · exact fun q hq => mem_of_ids hids (h.recorded q hq)
  · intro q hq t ht he
    simp only [Desk.waiting, hqueued] at hq
    simp only [hlive] at ht
    rcases mem_update ht with ht | ⟨u, hu, hk, rfl⟩
    · exact h.untouched q hq t ht he
    · -- the task reported on was ASSIGNED, a waiting one is PENDING
      rw [finished_id] at he
      have hst := h.untouched q hq u hu he
      rw [hc u hu hk] at hst
      cases hst

theorem inv_checkTimeouts {s : Desk} (h : Inv s) (now : ℤ) (timeoutSec : ℕ) :
    Inv ⟨(taskManagerCheckTimeouts s.manager now timeoutSec).2, s.inHand⟩ := by
  have hlive := checkTimeouts_live s.manager now timeoutSec
  have hids := checkTimeouts_ids s.manager now timeoutSec
  refine ⟨h.queue.of_ids hids rfl (List.Sublist.refl _), h.distinct, ?_, ?_⟩
  · exact fun q hq => mem_of_ids hids (h.recorded q hq)
  · intro q hq t ht he
    simp only [hlive] at ht
    obtain ⟨u, hu, rfl⟩ := List.mem_map.mp ht
    rw [expireTask_id] at he
    have hst := h.untouched q hq u hu he
    simp [expireTask, taskExpired, hst]

theorem inv_step (s : Desk) (a : Action) (s' : Desk) (h : Inv s) (hc : Expected s a)
    (hs : step s a = some s') : Inv s' := by
  cases a with
  | createTask inputData inputSize mem now =>
    cases hs
    exact inv_createTask h inputData inputSize mem now hc.2
  | getNextTask =>
    cases hs
    exact inv_getNextTask h
  | assignTask task workerId now =>
    obtain ⟨hmem, hs⟩ := Option.ite_none_right_eq_some.mp hs
    cases hs
    exact inv_assignTask h hmem workerId now
  | processResult workerId taskId status execTimeMs now =>
    cases hs
    exact inv_processResult h taskId status execTimeMs now hc.1
  | checkTimeouts now timeoutSec =>
    cases hs
    exact inv_checkTimeouts h now timeoutSec

theorem inv_start {m : Manager} (hl : m.live = []) (hq : m.queued = []) : Inv ⟨m, []⟩ := by
  refine ⟨queueOk_start hl hq, ?_, ?_, ?_⟩
  · simp [Desk.waiting, hq, Distinct]
  · simp
  · simp [hl]

/-! ### What a step leaves of the finished tasks -/

theorem KeepsOutcomes.refl (s : Desk) : KeepsOutcomes s s := fun _ t ht _ => ⟨t, ht, rfl⟩

theorem KeepsOutcomes.trans {s u s' : Desk} (h : KeepsOutcomes s u) (h' : KeepsOutcomes u s') :
    KeepsOutcomes s s' := by
  intro i t ht hf
  obtain ⟨v, hv, he⟩ := h i t ht hf
  have hst : v.status = t.status := congrArg Prod.fst he
  have hfv : Reported v := by
    unfold Reported
    rw [hst]
    exact hf
  obtain ⟨t', ht', he'⟩ := h' i v hv hfv
  exact ⟨t', ht', he'.trans he⟩

theorem keeps_update {s s' : Desk} {id : ℕ} {f : TaskInfo → TaskInfo}
    (hlive : s'.manager.live = update TaskInfo.id id f s.manager.live)
    (hopen : ∀ t ∈ s.manager.live, t.id = id → ¬ Reported t) : KeepsOutcomes s s' := by
  intro i t ht hf
  have hne : t.id ≠ id := fun he => hopen t (List.mem_of_getElem? ht) he hf
  refine ⟨t, ?_, rfl⟩
  rw [hlive]
  exact update_get_ne ht hne

theorem keeps_step {s s' : Desk} {a : Action} (h : Inv s) (hc : Expected s a)
    (hs : step s a = some s') : KeepsOutcomes s s' := by
  cases a with
  | createTask inputData inputSize mem now =>
    cases hs
    intro i t ht _
    refine ⟨t, ?_, rfl⟩
    rcases createTask_cases s.manager inputData inputSize mem now with
      ⟨_, hlive, _⟩ | ⟨task, _, _, hlive, _⟩
    · simp only [hlive]
      exact ht
    · simp only [hlive]
      rw [List.getElem?_append_left (List.getElem?_eq_some_iff.mp ht).1]
      exact ht
  | getNextTask =>
    cases hs
    intro i t ht _
    refine ⟨t, ?_, rfl⟩
    simp only [(getNextTask_spec s.manager).2.2]
    exact ht
  | assignTask task workerId now =>
    obtain ⟨hmem, hs⟩ := Option.ite_none_right_eq_some.mp hs
    cases hs
    rcases (assignTask_cases s.manager task.taskId workerId now).1 with hlive | hlive
    · intro i t ht _
      exact ⟨t, by simp only [hlive]; exact ht, rfl⟩
    · refine keeps_update hlive fun t ht he hf => ?_
      have hst := h.untouched task (List.mem_append_left _ hmem) t ht he
      unfold Reported at hf
      rw [hst] at hf
      rcases hf with hf | hf <;> cases hf
  | processResult workerId taskId status execTimeMs now =>
    cases hs
    refine keeps_update (processResult_spec h.queue.nonzero taskId status execTimeMs now).1
      fun t ht he hf => ?_
    unfold Reported at hf
    rw [hc.1 t ht he] at hf
    rcases hf with hf | hf <;> cases hf
  | checkTimeouts now timeoutSec =>
    cases hs
    intro i t ht hf
    have hsame : expireTask now timeoutSec t = t := by
      rcases hf with hf | hf <;> simp [expireTask, taskExpired, hf]
    refine ⟨t, ?_, rfl⟩
    simp only [checkTimeouts_live, List.getElem?_map, ht, Option.map_some, hsame]

theorem onlyNamed_step {s s' : Desk} {a : Action} (h : Inv s) (hs : step s a = some s') :
    OnlyNamed s s' a := by
  cases a with
  | processResult workerId taskId status execTimeMs now =>
    cases hs
    intro i t ht
    simp only [(processResult_spec h.queue.nonzero taskId status execTimeMs now).1]
    split
    · rename_i hid
      exact h.queue.distinct.update_get ht hid
    · rename_i hid
      exact update_get_ne ht hid
  | _ => trivial

/-- In every run in which results name ASSIGNED tasks, from whichever worker, a
result changes the record it names and no other, and a finished task keeps its
outcome for ever. -/
theorem results_of_any_worker {capacity queueSize : ℕ} {hq : queueSize < 2^32}
    {mem : Slots TaskInfo capacity} {queueMem : Slots Task queueSize} {m : Manager}
    (hm : taskManagerCreate capacity queueSize hq mem queueMem = some m) {s : Desk}
    (hs : Reach step Expected ⟨m, []⟩ s) :
    (∀ a s', step s a = some s' → OnlyNamed s s' a) ∧
      ∀ s', Reach step Expected s s' → KeepsOutcomes s s' := by
  obtain ⟨hlive, hqueued, _⟩ := create_start hm
  have hinv : Inv s := hs.invariant (inv_start hlive hqueued) inv_step
  refine ⟨fun a s' ha => onlyNamed_step hinv ha, fun s' hs' => ?_⟩
  have hboth : Inv s' ∧ KeepsOutcomes s s' := by
    refine hs'.invariant (I := fun u => Inv u ∧ KeepsOutcomes s u) ⟨hinv, .refl s⟩ ?_
    intro u a u' hu hc ha
    exact ⟨inv_step u a u' hu.1 hc ha, hu.2.trans (keeps_step hu.1 hc ha)⟩
  exact hboth.2

/-! ### Runs on a small table -/

def twoSlots : Slots TaskInfo 2 := some ⟨[newInfo blankTask 0, newInfo blankTask 0], rfl⟩
def oneQueued : Slots Task 1 := some ⟨[blankTask], rfl⟩
def emptyDesk : Desk := ⟨(taskManagerCreate 2 1 (by decide) twoSlots oneQueued).get rfl, []⟩
def firstTask : Task := newTask blankTask 1 [7] 1
def createFirst : Action := .createTask (some [7]) 1 (some blankTask) 10

def createdDesk : Desk :=
  ⟨(taskManagerCreateTask emptyDesk.manager (some [7]) 1 (some blankTask) 10).2, []⟩
def poppedDesk : Desk := ⟨(taskManagerGetNextTask createdDesk.manager).2, [firstTask]⟩
def assignedDesk : Desk := ⟨(taskManagerAssignTask poppedDesk.manager 1 1 20).2, []⟩
def reportedDesk : Desk := ⟨(taskManagerProcessResult assignedDesk.manager 1 0 5 30).2, []⟩

theorem step_assignTask_only (m : Manager) (task : Task) (workerId : ℕ) (now : ℤ) :
    step ⟨m, [task]⟩ (.assignTask task workerId now) =
      some ⟨(taskManagerAssignTask m task.taskId workerId now).2, []⟩ := by
  simp [step]

theorem reach_assignedDesk {C : Desk → Action → Prop}
    (hcreate : C emptyDesk createFirst)
    (hpop : C createdDesk .getNextTask) (hassign : C poppedDesk (.assignTask firstTask 1 20)) :
    Reach step C emptyDesk assignedDesk :=
  ((Reach.start.next _ hcreate rfl).next _ hpop rfl).next _ hassign
    (step_assignTask_only poppedDesk.manager firstTask 1 20)

theorem results_of_any_worker_reported :
    (∀ a s', step reportedDesk a = some s' → OnlyNamed reportedDesk s' a) ∧
      ∀ s', Reach step Expected reportedDesk s' → KeepsOutcomes reportedDesk s' := by
  have hassigned : ∀ t ∈ assignedDesk.manager.live, t.id = 1 → t.status = .assigned := by decide
  refine @results_of_any_worker 2 1 (by decide) twoSlots oneQueued _ rfl _ ?_
  exact (reach_assignedDesk ⟨trivial, Nat.one_ne_zero⟩ ⟨trivial, trivial⟩ ⟨trivial, trivial⟩).next
    (.processResult 2 1 0 5 30) ⟨hassigned, trivial⟩ rfl

def earlyDesk : Desk := ⟨(taskManagerProcessResult createdDesk.manager 1 0 5 15).2, []⟩
def earlyPoppedDesk : Desk := ⟨(taskManagerGetNextTask earlyDesk.manager).2, [firstTask]⟩

def later (m : Manager) (n : ℕ) : Manager :=
  { m with
    nextTaskId := (m.nextTaskId + n) % 2^32
    next_lt := Nat.mod_lt _ (by norm_num) }

theorem later_zero (m : Manager) : later m 0 = m := by
  cases m with
  | mk tasks capacity count nextTaskId taskQueue tasks_length count_le next_lt =>
    simp only [later, Nat.add_zero, Nat.mod_eq_of_lt next_lt]

theorem later_succ (m : Manager) (n : ℕ) : later (later m n) 1 = later m (n + 1) := by
  simp only [later, Nat.mod_add_mod, Nat.add_assoc]

theorem createTask_queueFull {m : Manager} (hfull : m.taskQueue.size = m.taskQueue.capacity)
    (hroom : m.count < m.capacity) :
    (taskManagerCreateTask m (some [7]) 1 (some blankTask) 10).2 = later m 1 := by
  have hsize : ¬ (1 = 0 ∨ maxDataSize < 1) := by decide
  have hcap : ¬ m.capacity ≤ m.count := by omega
  have hpush := push_full (x := some (newTask blankTask m.nextTaskId [7] 1)) hfull
  simp only [taskManagerCreateTask, hsize, hcap, ite_false, dite_false, hpush]
  rfl

theorem reach_later {C : Desk → Action → Prop} {s₀ : Desk} {m : Manager} {hand : List Task}
    (h : Reach step C s₀ ⟨m, hand⟩) (hfull : m.taskQueue.size = m.taskQueue.capacity)
    (hroom : m.count < m.capacity) (hc : ∀ k, C ⟨later m k, hand⟩ createFirst) (n : ℕ) :
    Reach step C s₀ ⟨later m n, hand⟩ := by
  induction n with
  | zero =>
    rw [later_zero]
    exact h
  | succ n ih =>
    refine ih.next createFirst (hc n) ?_
    simp only [createFirst, step]
    rw [createTask_queueFull (m := later m n) hfull hroom, later_succ]

/-- After 2^32 - 1 refused calls the next task gets the number of task 1. -/
def wrapped : Manager := later createdDesk.manager (2^32 - 1)
def wrappedAssigned : Manager :=
  (taskManagerAssignTask (taskManagerGetNextTask wrapped).2 1 1 20).2
def wrappedReported : Manager := (taskManagerProcessResult wrappedAssigned 1 0 5 30).2
def wrappedAgain : Manager :=
  (taskManagerCreateTask wrappedReported (some [7]) 1 (some blankTask) 10).2

theorem reach_wrappedAgain :
    Reach step NamesAssigned emptyDesk ⟨(taskManagerGetNextTask wrappedAgain).2, [firstTask]⟩ := by
  have hcreated : Reach step NamesAssigned emptyDesk createdDesk :=
    Reach.start.next createFirst trivial rfl
  have hwrapped : Reach step NamesAssigned emptyDesk ⟨wrapped, []⟩ :=
    reach_later hcreated rfl (by decide) (fun _ => trivial) (2^32 - 1)
  have hpopped : Reach step NamesAssigned emptyDesk
      ⟨(taskManagerGetNextTask wrapped).2, [firstTask]⟩ := hwrapped.next .getNextTask trivial rfl
  have hassigned : Reach step NamesAssigned emptyDesk ⟨wrappedAssigned, []⟩ :=
    hpopped.next (.assignTask firstTask 1 20) trivial (step_assignTask_only _ firstTask 1 20)
  have hstatus : ∀ t ∈ wrappedAssigned.live, t.id = 1 → t.status = .assigned := by decide
  have hreported : Reach step NamesAssigned emptyDesk ⟨wrappedReported, []⟩ :=
    hassigned.next (.processResult 1 1 0 5 30) hstatus rfl
  have hagain : Reach step NamesAssigned emptyDesk ⟨wrappedAgain, []⟩ :=
    hreported.next createFirst trivial rfl
  exact hagain.next .getNextTask trivial rfl

/-- Worker 2 finishes the task of worker 1; a task that was reported on while it
was queued is assigned after it was finished; and once task numbers repeat, a
finished task is assigned in place of the new one with its number. -/
theorem results_not_from_owner_nor_once :
    ¬ (∀ s a s', Reach step (fun _ _ => True) emptyDesk s → step s a = some s' →
        FromOwner s s' a) ∧
      ¬ (∀ s a s', Reach step (fun _ _ => True) emptyDesk s → step s a = some s' →
        KeepsOutcomes s s') ∧
      ¬ (∀ s a s', Reach step NamesAssigned emptyDesk s → NamesAssigned s a →
        step s a = some s' → KeepsOutcomes s s') := by
  refine ⟨fun h => ?_, fun h => ?_, fun h => ?_⟩
  · have hchanged : reportedDesk.manager.live[0]? ≠
        some (assigned 1 20 (newInfo firstTask 10)) := by
      intro he
      exact absurd (congrArg (Option.map TaskInfo.status) he) (by decide)
    obtain ⟨_, hw⟩ := h assignedDesk (.processResult 2 1 0 5 30) reportedDesk
      (reach_assignedDesk trivial trivial trivial) rfl 0
      (assigned 1 20 (newInfo firstTask 10)) rfl hchanged
    exact absurd hw (by decide)
  · have hcreated : Reach step (fun _ _ => True) emptyDesk createdDesk :=
      Reach.start.next createFirst trivial rfl
    have hearly : Reach step (fun _ _ => True) emptyDesk earlyDesk :=
      hcreated.next (.processResult 1 1 0 5 15) trivial rfl
    have hreach : Reach step (fun _ _ => True) emptyDesk earlyPoppedDesk :=
      hearly.next .getNextTask trivial rfl
    obtain ⟨t, ht, he⟩ := h earlyPoppedDesk (.assignTask firstTask 1 20) _ hreach
      (step_assignTask_only earlyPoppedDesk.manager firstTask 1 20) 0
      (finished 0 5 15 (newInfo firstTask 10)) rfl (Or.inl rfl)
    have hst : t.status = .completed := congrArg Prod.fst he
    have hnow := congrArg (Option.map TaskInfo.status) ht
    rw [Option.map_some, hst] at hnow
    exact absurd hnow (by decide)
  · obtain ⟨t, ht, he⟩ := h _ (.assignTask firstTask 1 40) _ reach_wrappedAgain trivial
      (step_assignTask_only _ firstTask 1 40) 0
      (finished 0 5 30 (assigned 1 20 (newInfo firstTask 10))) rfl (Or.inl rfl)
    have hst : t.status = .completed := congrArg Prod.fst he
    have hnow := congrArg (Option.map TaskInfo.status) ht
    rw [Option.map_some, hst] at hnow
    exact absurd hnow (by decide)

end CSimples.TaskResults
