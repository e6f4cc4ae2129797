import CSimples.Lib.Block
import CSimples.Lib.Keyed
import Mathlib.Tactic.NormNum

/-!
# The worker registry (central_server/worker_registry.c)

The registry is a block of `capacity` slots of which the first `count` hold
the live workers, in order of registration. Removal closes the gap with
`memmove`; the slot that falls out of use keeps its last contents. A pointer
returned by `worker_registry_get` is a slot number.
-/

namespace CSimples.WorkerRegistry
open Block Keyed

inductive WorkerStatus where
  | idle
  | busy
  | disconnected
  deriving Repr, DecidableEq

structure WorkerInfo where
  workerId : ℕ
  sockfd : ℤ
  status : WorkerStatus
  lastHeartbeat : ℤ
  tasksCompleted : ℕ
  tasksFailed : ℕ
  threadId : ℕ
  deriving Repr, DecidableEq

/-- `worker_registry_t`. The mutex is the atomicity of the operations below. -/
structure Registry where
  workers : List WorkerInfo
  capacity : ℕ
  count : ℕ
  workers_length : workers.length = capacity
  count_le : count ≤ capacity
  capacity_lt : capacity < 2^32
  deriving DecidableEq

def workerRegistryCreate (capacity : ℕ) (hc : capacity < 2^32)
    (mem : Slots WorkerInfo capacity) : Option Registry :=
  if capacity = 0 then none
  else mem.map fun ws => ⟨ws.val, capacity, 0, ws.property, Nat.zero_le _, hc⟩

def Registry.live (r : Registry) : List WorkerInfo := r.workers.take r.count

/-- The slot a search for `id` stops at (the loops `for (i = 0; i < count; i++)`
that all four searching functions share). -/
def Registry.find (r : Registry) (id : ℕ) : Option ℕ := position WorkerInfo.workerId id r.live

theorem Registry.live_length (r : Registry) : r.live.length = r.count := by
  have h1 := r.workers_length
  have h2 := r.count_le
  simp only [Registry.live, List.length_take]
  omega

theorem Registry.find_lt {r : Registry} {id i : ℕ} (h : r.find id = some i) : i < r.count := by
  have := position_lt h
  rwa [r.live_length] at this

theorem Registry.live_get {r : Registry} {i : ℕ} (hi : i < r.count) :
    r.live[i]? = r.workers[i]? := List.getElem?_take_of_lt hi

/-! ### Operations (worker_registry.c:68-281) -/

def newWorker (id : ℕ) (sockfd : ℤ) (threadId : ℕ) (now : ℤ) : WorkerInfo :=
  ⟨id, sockfd, .idle, now, 0, 0, threadId⟩

def workerRegistryAdd (r : Registry) (sockfd : ℤ) (threadId : ℕ) (now : ℤ) : ℕ × Registry :=
  if sockfd < 0 then (0, r)
  else if h : r.capacity ≤ r.count then (0, r)
  else
    let workerId := (r.count + 1) % 2^32
    (workerId,
      { r with
        workers := r.workers.set r.count (newWorker workerId sockfd threadId now)
        count := r.count + 1
        workers_length := by rw [List.length_set, r.workers_length]
        count_le := by omega })

/-- What `worker_registry_remove` answers: its return value, the descriptors it
closed, and the registry. -/
structure Removed where
  ret : ℤ
  closed : List ℤ
  registry : Registry

def workerRegistryRemove (r : Registry) (workerId : ℕ) : Removed :=
  if workerId = 0 then ⟨-1, [], r⟩
  else match h : r.find workerId with
  | none => ⟨-1, [], r⟩
  | some i =>
    ⟨0, (r.workers[i]?.filter (0 ≤ ·.sockfd)).toList.map (·.sockfd),
      { r with
        workers := memmove r.workers i (i + 1) (r.count - i - 1)
        count := r.count - 1
        workers_length := by
          have hi := Registry.find_lt h
          have hl := r.workers_length
          have hc := r.count_le
          rw [memmove_length (by omega) (by omega), hl]
        count_le := Nat.le_trans (Nat.sub_le _ _) r.count_le }⟩

def workerRegistryGet (r : Registry) (workerId : ℕ) : Option ℕ :=
  if workerId = 0 then none else r.find workerId

def Registry.store (r : Registry) (i : ℕ) (f : WorkerInfo → WorkerInfo) : Registry :=
  { r with
    workers := r.workers.modify i f
    workers_length := by rw [List.length_modify, r.workers_length] }

/-- The loops of `worker_registry_update_status` and
`worker_registry_update_heartbeat`, which differ in the field they assign. -/
def updateWorker (r : Registry) (workerId : ℕ) (f : WorkerInfo → WorkerInfo) : ℤ × Registry :=
  if workerId = 0 then (-1, r)
  else match r.find workerId with
  | none => (-1, r)
  | some i => (0, r.store i f)

def withStatus (status : WorkerStatus) (w : WorkerInfo) : WorkerInfo := { w with status := status }

def withHeartbeat (now : ℤ) (w : WorkerInfo) : WorkerInfo := { w with lastHeartbeat := now }

def workerRegistryUpdateStatus (r : Registry) (workerId : ℕ) (status : WorkerStatus) :
    ℤ × Registry :=
  updateWorker r workerId (withStatus status)

def workerRegistryUpdateHeartbeat (r : Registry) (workerId : ℕ) (now : ℤ) : ℤ × Registry :=
  updateWorker r workerId (withHeartbeat now)

def workerExpired (now : ℤ) (timeoutSec : ℕ) (w : WorkerInfo) : Bool :=
  decide (w.status ≠ .disconnected) && decide (now - w.lastHeartbeat > timeoutSec)

def expireWorker (now : ℤ) (timeoutSec : ℕ) (w : WorkerInfo) : WorkerInfo :=
  if workerExpired now timeoutSec w then { w with status := .disconnected } else w

def workerRegistryCheckTimeouts (r : Registry) (now : ℤ) (timeoutSec : ℕ) : ℕ × Registry :=
  (r.live.countP (workerExpired now timeoutSec),
    { r with
      workers := sweep (expireWorker now timeoutSec) r.count r.workers
      workers_length := by rw [sweep_length, r.workers_length] })

/-! ### What each operation does to the live workers -/

theorem create_live {capacity : ℕ} {hc : capacity < 2^32} {mem : Slots WorkerInfo capacity}
    {r : Registry} (h : workerRegistryCreate capacity hc mem = some r) :
    r.live = [] ∧ r.count = 0 ∧ r.capacity = capacity := by
  unfold workerRegistryCreate at h
  split at h
  · cases h
  · obtain ⟨ws, _, rfl⟩ := Option.map_eq_some_iff.mp h
    exact ⟨rfl, rfl, rfl⟩

theorem add_full {r : Registry} {sockfd : ℤ} {threadId : ℕ} {now : ℤ}
    (h : sockfd < 0 ∨ r.capacity ≤ r.count) :
    workerRegistryAdd r sockfd threadId now = (0, r) := by
  unfold workerRegistryAdd
  by_cases hs : sockfd < 0
  · rw [if_pos hs]
  · rw [if_neg hs, dif_pos (h.resolve_left hs)]

theorem add_room {r : Registry} {sockfd : ℤ} (threadId : ℕ) (now : ℤ)
    (hs : 0 ≤ sockfd) (hc : r.count < r.capacity) :
    (workerRegistryAdd r sockfd threadId now).1 = r.count + 1 ∧
      (workerRegistryAdd r sockfd threadId now).2.live =
        r.live ++ [newWorker (r.count + 1) sockfd threadId now] ∧
      (workerRegistryAdd r sockfd threadId now).2.count = r.count + 1 := by
  have hcap := r.capacity_lt
  have hid : (r.count + 1) % 2^32 = r.count + 1 := Nat.mod_eq_of_lt (by omega)
  have hlen : r.count < r.workers.length := by rw [r.workers_length]; exact hc
  unfold workerRegistryAdd
  rw [if_neg (by omega), dif_neg (by omega)]
  refine ⟨hid, ?_, rfl⟩
  simp only [Registry.live, hid]
  exact take_set_next hlen _

theorem remove_absent {r : Registry} {id : ℕ} (h : id = 0 ∨ r.find id = none) :
    workerRegistryRemove r id = ⟨-1, [], r⟩ := by
  unfold workerRegistryRemove
  by_cases hz : id = 0
  · rw [if_pos hz]
  · rw [if_neg hz]
    have hn := h.resolve_left hz
    split
    · rfl
    · rename_i i hi
      rw [hn] at hi
      cases hi

theorem remove_found {r : Registry} {id i : ℕ} (hid : id ≠ 0) (h : r.find id = some i) :
    (workerRegistryRemove r id).ret = 0 ∧
      (workerRegistryRemove r id).registry.workers =
        memmove r.workers i (i + 1) (r.count - i - 1) ∧
      (workerRegistryRemove r id).registry.count = r.count - 1 := by
  unfold workerRegistryRemove
  rw [if_neg hid]
  split
  · rename_i hn
    rw [hn] at h
    cases h
  · rename_i j hj
    rw [hj] at h
    cases h
    exact ⟨rfl, rfl, rfl⟩

theorem remove_live_eraseIdx {r : Registry} {id i : ℕ} (hid : id ≠ 0) (h : r.find id = some i) :
    (workerRegistryRemove r id).registry.live = r.live.eraseIdx i := by
  obtain ⟨_, hw, hc⟩ := remove_found hid h
  have hi := Registry.find_lt h
  have hn : r.count ≤ r.workers.length := by rw [r.workers_length]; exact r.count_le
  rw [Registry.live, hw, hc, take_memmove_gap hi hn, Registry.live]

theorem remove_live {r : Registry} {id : ℕ} (hid : id ≠ 0) :
    (workerRegistryRemove r id).registry.live = erase WorkerInfo.workerId id r.live := by
  cases h : r.find id with
  | none =>
    rw [remove_absent (Or.inr h)]
    exact (erase_of_absent (position_eq_none.mp h)).symm
  | some i => rw [remove_live_eraseIdx hid h, eraseIdx_position h]

theorem remove_live_cases (r : Registry) (id : ℕ) :
    (workerRegistryRemove r id).registry.live = r.live ∨
      (workerRegistryRemove r id).registry.live = erase WorkerInfo.workerId id r.live := by
  by_cases hid : id = 0
  · rw [remove_absent (Or.inl hid)]
    exact Or.inl rfl
  · exact Or.inr (remove_live hid)

theorem remove_sublist (r : Registry) (id : ℕ) :
    (workerRegistryRemove r id).registry.live.Sublist r.live := by
  rcases remove_live_cases r id with h | h <;> rw [h]
  exact erase_sublist

theorem remove_distinct {r : Registry} (h : Distinct WorkerInfo.workerId r.live) (id : ℕ) :
    Distinct WorkerInfo.workerId (workerRegistryRemove r id).registry.live :=
  h.sublist ((remove_sublist r id).map WorkerInfo.workerId)

theorem mem_remove_of_ne {r : Registry} {w : WorkerInfo} {id : ℕ} (h : w ∈ r.live)
    (hne : w.workerId ≠ id) : w ∈ (workerRegistryRemove r id).registry.live := by
  rcases remove_live_cases r id with he | he <;> rw [he]
  · exact h
  · exact mem_erase_of_ne h hne

theorem lookup_remove_ne {r : Registry} {id v : ℕ} (hne : v ≠ id) :
    lookup WorkerInfo.workerId v (workerRegistryRemove r id).registry.live =
      lookup WorkerInfo.workerId v r.live := by
  rcases remove_live_cases r id with h | h <;> rw [h]
  exact lookup_erase_ne hne

theorem get_eq_find {r : Registry} {id : ℕ} (hid : id ≠ 0) : workerRegistryGet r id = r.find id :=
  if_neg hid

theorem get_spec {r : Registry} {id p : ℕ} (h : workerRegistryGet r id = some p) :
    id ≠ 0 ∧ p < r.count ∧ ∃ w, r.workers[p]? = some w ∧ w.workerId = id ∧
      lookup WorkerInfo.workerId id r.live = some w := by
  unfold workerRegistryGet at h
  split at h
  · cases h
  · rename_i hid
    have hp := Registry.find_lt h
    obtain ⟨w, hw, hk, hl⟩ := position_get h
    rw [Registry.live_get hp] at hw
    exact ⟨hid, hp, w, hw, hk, hl⟩

theorem store_live {r : Registry} {i : ℕ} {f : WorkerInfo → WorkerInfo} :
    (r.store i f).live = r.live.modify i f := by
  simp only [Registry.live, Registry.store]
  exact List.take_modify f i r.count r.workers

theorem updateWorker_live {r : Registry} {id : ℕ} {f : WorkerInfo → WorkerInfo} (hid : id ≠ 0) :
    (updateWorker r id f).2.live = update WorkerInfo.workerId id f r.live := by
  unfold updateWorker
  rw [if_neg hid]
  cases h : r.find id with
  | none => exact (update_of_absent (position_eq_none.mp h)).symm
  | some i =>
    change (r.store i f).live = _
    rw [store_live, modify_position f h]

theorem updateWorker_map {β : Type*} {g : WorkerInfo → β} {f : WorkerInfo → WorkerInfo}
    (hg : ∀ w, g (f w) = g w) (r : Registry) (id : ℕ) :
    (updateWorker r id f).2.live.map g = r.live.map g := by
  by_cases hid : id = 0
  · unfold updateWorker
    rw [if_pos hid]
  · rw [updateWorker_live hid, map_update hg]

theorem updateWorker_count {r : Registry} {id : ℕ} {f : WorkerInfo → WorkerInfo} :
    (updateWorker r id f).2.count = r.count ∧ (updateWorker r id f).2.capacity = r.capacity := by
  unfold updateWorker
  split
  · exact ⟨rfl, rfl⟩
  · split <;> exact ⟨rfl, rfl⟩

theorem checkTimeouts_live (r : Registry) (now : ℤ) (timeoutSec : ℕ) :
    (workerRegistryCheckTimeouts r now timeoutSec).2.live =
      r.live.map (expireWorker now timeoutSec) := by
  have hn : r.count ≤ r.workers.length := by rw [r.workers_length]; exact r.count_le
  exact take_sweep _ hn

@[simp] theorem withStatus_workerId (status : WorkerStatus) (w : WorkerInfo) :
    (withStatus status w).workerId = w.workerId := rfl

@[simp] theorem withHeartbeat_workerId (now : ℤ) (w : WorkerInfo) :
    (withHeartbeat now w).workerId = w.workerId := rfl

@[simp] theorem expireWorker_workerId (now : ℤ) (timeoutSec : ℕ) (w : WorkerInfo) :
    (expireWorker now timeoutSec w).workerId = w.workerId := by
  unfold expireWorker
  split <;> rfl

end CSimples.WorkerRegistry
