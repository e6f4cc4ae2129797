import CSimples.Central.TaskManager

/-!
# Records and queue of the task manager

As long as `create_task` is not called once the 32-bit `next_task_id` has come
round to 0, ids are given out once: records have distinct non-zero ids, the
queue holds each task at most once, and every queued task has its record.
-/

namespace CSimples.TaskQueue
open Keyed TaskManager

structure QueueOk (m : Manager) : Prop where
  distinct : Distinct TaskInfo.id m.live
  nonzero : ∀ t ∈ m.live, t.id ≠ 0
  below : m.nextTaskId ≠ 0 → ∀ t ∈ m.live, t.id < m.nextTaskId
  queueDistinct : Distinct Task.taskId m.queued
  recorded : ∀ q ∈ m.queued, ∃ t ∈ m.live, t.id = q.taskId

/-- No record of a queued task has been touched since it was created. -/
def QueuePending (m : Manager) : Prop :=
  ∀ q ∈ m.queued, ∀ t ∈ m.live, t.id = q.taskId → t.status = .pending

theorem queueOk_start {m : Manager} (hl : m.live = []) (hq : m.queued = []) : QueueOk m := by
  refine ⟨?_, ?_, ?_, ?_, ?_⟩
  · simp [hl, Distinct]
  · simp [hl]
  · simp [hl]
  · simp [hq, Distinct]
  · simp [hq]

theorem queuePending_start {m : Manager} (hq : m.queued = []) : QueuePending m := by
  simp [QueuePending, hq]

theorem QueueOk.fresh {m : Manager} (h : QueueOk m) (hn : m.nextTaskId ≠ 0) :
    ∀ t ∈ m.live, t.id ≠ m.nextTaskId := fun t ht => Nat.ne_of_lt (h.below hn t ht)

theorem queueOk_create {m : Manager} (h : QueueOk m) (hn : m.nextTaskId ≠ 0)
    (inputData : Option (List UInt8)) (inputSize : ℕ) (mem : Option Task) (now : ℤ) :
    QueueOk (taskManagerCreateTask m inputData inputSize mem now).2 := by
  have hlt := m.next_lt
  have hsucc : (m.nextTaskId + 1) % 2^32 ≠ 0 → (m.nextTaskId + 1) % 2^32 = m.nextTaskId + 1 := by
    omega
  rcases createTask_cases m inputData inputSize mem now with
    ⟨_, hlive, hqueued, hnext⟩ | ⟨task, hid, _, hlive, hqueued, hnext⟩
  · refine ⟨?_, ?_, ?_, ?_, ?_⟩
    · rw [hlive]; exact h.distinct
    · rw [hlive]; exact h.nonzero
    · intro hne t ht
      rw [hlive] at ht
      have hb := h.below hn t ht
      rcases hnext with hnext | hnext
      · rw [hnext]; exact hb
      · rw [hnext] at hne ⊢
        rw [hsucc hne]
        omega
    · rw [hqueued]; exact h.queueDistinct
    · rw [hqueued, hlive]; exact h.recorded
  · have hfresh := h.fresh hn
    refine ⟨?_, ?_, ?_, ?_, ?_⟩
    · rw [hlive]
      refine distinct_append_fresh.mpr ⟨h.distinct, fun t ht => ?_⟩
      rw [newInfo_id, hid]
      exact hfresh t ht
    · intro t ht
      rw [hlive] at ht
      rcases List.mem_append.mp ht with ht | ht
      · exact h.nonzero t ht
      · rw [List.mem_singleton.mp ht, newInfo_id, hid]
        exact hn
    · intro hne t ht
      rw [hnext] at hne ⊢
      rw [hsucc hne]
      rw [hlive] at ht
      rcases List.mem_append.mp ht with ht | ht
      · have := h.below hn t ht
        omega
      · rw [List.mem_singleton.mp ht, newInfo_id, hid]
        omega
    · rw [hqueued]
      refine distinct_append_fresh.mpr ⟨h.queueDistinct, fun q hq => ?_⟩
      obtain ⟨t, ht, he⟩ := h.recorded q hq
      rw [hid, ← he]
      exact hfresh t ht
    · intro q hq
      rw [hqueued] at hq
      rw [hlive]
      rcases List.mem_append.mp hq with hq | hq
      · obtain ⟨t, ht, he⟩ := h.recorded q hq
        exact ⟨t, List.mem_append_left _ ht, he⟩
      · rw [List.mem_singleton.mp hq]
        exact ⟨newInfo task now, List.mem_append_right _ (List.mem_singleton_self _), rfl⟩

theorem queuePending_create {m : Manager} (h : QueueOk m) (hp : QueuePending m)
    (hn : m.nextTaskId ≠ 0) (inputData : Option (List UInt8)) (inputSize : ℕ)
    (mem : Option Task) (now : ℤ) :
    QueuePending (taskManagerCreateTask m inputData inputSize mem now).2 := by
  rcases createTask_cases m inputData inputSize mem now with
    ⟨_, hlive, hqueued, _⟩ | ⟨task, hid, _, hlive, hqueued, _⟩
  · intro q hq t ht he
    rw [hqueued] at hq
    rw [hlive] at ht
    exact hp q hq t ht he
  · intro q hq t ht he
    rw [hqueued] at hq
    rw [hlive] at ht
    rcases List.mem_append.mp ht with ht | ht
    · rcases List.mem_append.mp hq with hq | hq
      · exact hp q hq t ht he
      · rw [List.mem_singleton.mp hq, hid] at he
        exact absurd he (h.fresh hn t ht)
    · rw [List.mem_singleton.mp ht]
      rfl

theorem mem_of_ids {l l' : List TaskInfo} (h : l'.map TaskInfo.id = l.map TaskInfo.id) {id : ℕ}
    (ht : ∃ t ∈ l, t.id = id) : ∃ t ∈ l', t.id = id := by
  obtain ⟨t, hm, rfl⟩ := ht
  exact List.mem_map.mp (h ▸ List.mem_map_of_mem hm)

/-- Only the ids of the records and what is queued matter: the invariant
survives any change of other fields and any removal from the queue. -/
theorem QueueOk.of_ids {m m' : Manager} (h : QueueOk m)
    (hids : m'.live.map TaskInfo.id = m.live.map TaskInfo.id) (hnext : m'.nextTaskId = m.nextTaskId)
    (hq : m'.queued.Sublist m.queued) : QueueOk m' := by
  have hmem : ∀ t ∈ m'.live, ∃ u ∈ m.live, u.id = t.id := fun t ht =>
    mem_of_ids hids.symm ⟨t, ht, rfl⟩
  refine ⟨?_, ?_, ?_, h.queueDistinct.sublist (hq.map _), ?_⟩
  · unfold Distinct
    rw [hids]
    exact h.distinct
  · intro t ht
    obtain ⟨u, hu, he⟩ := hmem t ht
    rw [← he]
    exact h.nonzero u hu
  · intro hne t ht
    rw [hnext] at hne ⊢
    obtain ⟨u, hu, he⟩ := hmem t ht
    rw [← he]
    exact h.below hne u hu
  · exact fun q hqm => mem_of_ids hids (h.recorded q (hq.subset hqm))

theorem QueueOk.head_recorded {m : Manager} (h : QueueOk m) {q : Task}
    (hq : m.queued.head? = some q) : q.taskId ≠ 0 ∧ ∃ t ∈ m.live, t.id = q.taskId := by
  obtain ⟨t, ht, he⟩ := h.recorded q (List.mem_of_mem_head? hq)
  exact ⟨he ▸ h.nonzero t ht, t, ht, he⟩

theorem QueueOk.head_not_queued {m : Manager} (h : QueueOk m) {q q' : Task}
    (hq : m.queued.head? = some q) (hq' : q' ∈ m.queued.tail) : q'.taskId ≠ q.taskId := by
  obtain ⟨rest, hr⟩ := List.head?_eq_some_iff.mp hq
  have hd := h.queueDistinct
  rw [hr] at hd hq'
  obtain ⟨hnot, _⟩ := List.nodup_cons.mp hd
  intro he
  exact hnot (List.mem_map.mpr ⟨q', hq', he⟩)

theorem queue_assign {m m' : Manager} {task : Task} {workerId : ℕ} {now : ℤ} (h : QueueOk m)
    (hp : QueuePending m) (htask : m.queued.head? = some task)
    (hlive : m'.live = update TaskInfo.id task.taskId (assigned workerId now) m.live)
    (hqueued : m'.queued = m.queued.tail) (hnext : m'.nextTaskId = m.nextTaskId) :
    QueueOk m' ∧ QueuePending m' := by
  refine ⟨h.of_ids ?_ hnext ?_, ?_⟩
  · rw [hlive]
    exact map_update fun t => assigned_id workerId now t
  · rw [hqueued]
    exact List.tail_sublist _
  · intro q hq t ht he
    rw [hqueued] at hq
    rw [hlive] at ht
    rcases mem_update ht with ht | ⟨u, hu, hk, rfl⟩
    · exact hp q (List.mem_of_mem_tail hq) t ht he
    · rw [assigned_id, hk] at he
      exact absurd he.symm (h.head_not_queued htask hq)

theorem queue_timeouts {m : Manager} (h : QueueOk m) (hp : QueuePending m) (now : ℤ)
    (timeoutSec : ℕ) : QueueOk (taskManagerCheckTimeouts m now timeoutSec).2 ∧
      QueuePending (taskManagerCheckTimeouts m now timeoutSec).2 := by
  refine ⟨h.of_ids ?_ rfl (List.Sublist.refl _), ?_⟩
  · exact checkTimeouts_ids m now timeoutSec
  · intro q hq t ht he
    rw [checkTimeouts_live] at ht
    obtain ⟨u, hu, rfl⟩ := List.mem_map.mp ht
    rw [expireTask_id] at he
    have hst := hp q hq u hu he
    have hne : taskExpired now timeoutSec u = false := by simp [taskExpired, hst]
    rw [expireTask, hne]
    exact hst

end CSimples.TaskQueue
