import CSimples.Lib.CString
import CSimples.Lib.SlotTable
import Mathlib.Data.Int.Notation

/-!
# The worker manager (server/worker_manager.c)

The table of workers behind `g_worker_mutex`, with its counters; every call is
one section under the mutex. `MAX_JOB_TYPES` is defined nowhere in the repository
and is a parameter. Signed integers are unbounded here: C leaves their overflow
undefined.
-/

namespace CSimples.WorkerManager
open Block SlotTable CString

/-! ### Data (worker_manager.h:11-29, worker_manager.c:18-26) -/

/-- `worker_manager_update_status` stores any other int as it is given. -/
inductive WorkerStatus where
  | idle
  | busy
  | offline
  | other (code : ℤ)
  deriving Repr, DecidableEq

structure Worker where
  workerId : ℤ
  socket : ℤ
  status : WorkerStatus
  currentJobId : ℤ
  ipAddress : List UInt8
  port : ℤ
  lastHeartbeat : ℤ
  jobTypesSupported : List ℤ
  jobCount : ℤ
  failedJobCount : ℤ
  totalProcessingTime : ℤ
  deriving Repr, DecidableEq

def ipAddressSize : ℕ := 16

/-- What `calloc` and `memset` leave in a slot; `WORKER_STATUS_IDLE` is 0. -/
def freeWorker (maxJobTypes : ℕ) : Worker :=
  ⟨0, 0, .idle, 0, List.replicate ipAddressSize 0, 0, 0, List.replicate maxJobTypes 0, 0, 0, 0⟩

structure WorkerStats where
  total : ℤ
  idle : ℤ
  busy : ℤ
  deriving Repr, DecidableEq

structure Manager where
  workers : List Worker
  nextWorkerId : ℤ
  stats : WorkerStats
  deriving Repr, DecidableEq

/-- The arguments of `worker_manager_register`, with `none` for a NULL pointer. -/
structure Registration where
  socket : ℤ
  ipAddress : Option (List UInt8)
  port : ℤ
  jobTypesSupported : Option (List ℤ)
  numJobTypes : ℤ
  deriving Repr, DecidableEq

/-! ### The table (worker_manager.c:38-81) -/

/-- The worker is returned with the number of its slot, through which it is written. -/
def findWorkerById (m : Manager) (workerId : ℤ) : Option (ℕ × Worker) :=
  if workerId ≤ 0 ∨ m.nextWorkerId ≤ workerId then none
  else slot Worker.workerId workerId m.workers

def findFreeWorkerSlot (m : Manager) : Option (ℕ × Worker) := slot Worker.workerId 0 m.workers

/-- The statics of a process that has not called `worker_manager_init` yet. -/
def freshManager : Manager := ⟨[], 1, ⟨0, 0, 0⟩⟩

def workerManagerInit (maxJobTypes : ℕ) (maxWorkers : ℤ) (alloc : Bool) : ℤ × Manager :=
  if maxWorkers ≤ 0 then (-1, freshManager)
  else if alloc = false then (-1, freshManager)
  else (0, { freshManager with workers := List.replicate maxWorkers.toNat (freeWorker maxJobTypes) })

def Manager.put (m : Manager) (i : ℕ) (w : Worker) (stats : WorkerStats) : Manager :=
  { m with workers := m.workers.set i w, stats := stats }

/-! ### Counters -/

def WorkerStats.leave (st : WorkerStats) : WorkerStatus → WorkerStats
  | .idle => { st with idle := st.idle - 1 }
  | .busy => { st with busy := st.busy - 1 }
  | .offline | .other _ => st

def WorkerStats.enter (st : WorkerStats) : WorkerStatus → WorkerStats
  | .idle => { st with idle := st.idle + 1 }
  | .busy => { st with busy := st.busy + 1 }
  | .offline | .other _ => st

/-! ### Registration (worker_manager.c:98-193) -/

def Registration.valid (maxJobTypes : ℕ) (r : Registration) : Bool :=
  r.ipAddress.isSome && r.jobTypesSupported.isSome && decide (0 < r.numJobTypes) &&
    decide (r.numJobTypes ≤ maxJobTypes)

/-- `memset`, and the loop over the first `num_job_types` entries. -/
def copyJobTypes (maxJobTypes : ℕ) (r : Registration) : List ℤ :=
  fill (fun i => (r.jobTypesSupported.getD []).getD i 0) (min r.numJobTypes.toNat maxJobTypes)
    (List.replicate maxJobTypes 0)

/-- Every field of the slot is written but the last byte of `ip_address`. -/
def Worker.enrol (old : Worker) (maxJobTypes : ℕ) (workerId : ℤ) (r : Registration) (now : ℤ) :
    Worker :=
  ⟨workerId, r.socket, .idle, -1, strncpy old.ipAddress (r.ipAddress.getD []) (ipAddressSize - 1),
    r.port, now, copyJobTypes maxJobTypes r, 0, 0, 0⟩

def workerManagerRegister (maxJobTypes : ℕ) (m : Manager) (r : Registration) (now : ℤ) :
    ℤ × Manager :=
  if r.valid maxJobTypes = false then (-1, m)
  else match findFreeWorkerSlot m with
  | none => (-1, m)
  | some (i, old) =>
    (m.nextWorkerId,
      { m with
        workers := m.workers.set i (old.enrol maxJobTypes m.nextWorkerId r now)
        nextWorkerId := m.nextWorkerId + 1
        stats := { m.stats with total := m.stats.total + 1, idle := m.stats.idle + 1 } })

/-- The calls that find a worker by its id differ in what they write to its slot and
to the counters. -/
def withWorker (m : Manager) (workerId : ℤ) (f : Worker → Worker)
    (g : WorkerStats → Worker → WorkerStats) : ℤ × Manager :=
  match findWorkerById m workerId with
  | none => (-1, m)
  | some (i, w) => (0, m.put i (f w) (g m.stats w))

def WorkerStats.dropped (st : WorkerStats) (w : Worker) : WorkerStats :=
  WorkerStats.leave { st with total := st.total - 1 } w.status

def workerManagerUnregister (maxJobTypes : ℕ) (m : Manager) (workerId : ℤ) : ℤ × Manager :=
  withWorker m workerId (fun _ => freeWorker maxJobTypes) WorkerStats.dropped

def workerManagerFindBySocket (m : Manager) (socket : ℤ) : ℤ :=
  ((m.workers.find? fun w => decide (w.workerId > 0 ∧ w.socket = socket)).map
    Worker.workerId).getD (-1)

/-! ### Status changes (worker_manager.c:195-329) -/

def Worker.withStatus (status : WorkerStatus) (w : Worker) : Worker := { w with status := status }

def WorkerStats.moved (status : WorkerStatus) (st : WorkerStats) (w : Worker) : WorkerStats :=
  if w.status ≠ status then (st.leave w.status).enter status else st

def workerManagerUpdateStatus (m : Manager) (workerId : ℤ) (status : WorkerStatus) : ℤ × Manager :=
  withWorker m workerId (Worker.withStatus status) (WorkerStats.moved status)

def Worker.withHeartbeat (now : ℤ) (w : Worker) : Worker := { w with lastHeartbeat := now }

def workerManagerUpdateHeartbeat (m : Manager) (workerId now : ℤ) : ℤ × Manager :=
  withWorker m workerId (Worker.withHeartbeat now) fun st _ => st

def Worker.startJob (jobId : ℤ) (w : Worker) : Worker :=
  { w with status := .busy, currentJobId := jobId }

/-- The counters move from idle to busy, or back, whatever the status was. -/
def WorkerStats.toBusy (st : WorkerStats) : WorkerStats :=
  { st with idle := st.idle - 1, busy := st.busy + 1 }

def WorkerStats.toIdle (st : WorkerStats) : WorkerStats :=
  { st with busy := st.busy - 1, idle := st.idle + 1 }

def workerManagerAssignJob (m : Manager) (workerId jobId : ℤ) : ℤ × Manager :=
  withWorker m workerId (Worker.startJob jobId) fun st _ => st.toBusy

def Worker.completeJob (processingTimeMs : ℤ) (w : Worker) : Worker :=
  { w with
    status := .idle
    currentJobId := -1
    jobCount := w.jobCount + 1
    totalProcessingTime := w.totalProcessingTime + processingTimeMs }

def workerManagerCompleteJob (m : Manager) (workerId processingTimeMs : ℤ) : ℤ × Manager :=
  withWorker m workerId (Worker.completeJob processingTimeMs) fun st _ => st.toIdle

def Worker.failJob (w : Worker) : Worker :=
  { w with status := .idle, currentJobId := -1, failedJobCount := w.failedJobCount + 1 }

def workerManagerFailJob (m : Manager) (workerId : ℤ) : ℤ × Manager :=
  withWorker m workerId Worker.failJob fun st _ => st.toIdle

/-! ### The sweep and the queries (worker_manager.c:331-419) -/

def overdue (timeoutSeconds now : ℤ) (w : Worker) : Bool :=
  decide (w.workerId ≠ 0 ∧ now - w.lastHeartbeat > timeoutSeconds * 1000)

def Worker.checked (timeoutSeconds now : ℤ) (w : Worker) : Worker :=
  if overdue timeoutSeconds now w = true then { w with status := .offline } else w

/-- What the loop over the slots does to the counters; a worker that is offline
already is counted among the inactive again. -/
def sweepStats (timeoutSeconds now : ℤ) (st : WorkerStats) (workers : List Worker) : WorkerStats :=
  workers.foldl (fun st w => if overdue timeoutSeconds now w = true then st.leave w.status else st) st

def workerManagerCheckInactive (m : Manager) (timeoutSeconds now : ℤ) : ℤ × Manager :=
  (m.workers.countP (overdue timeoutSeconds now),
    { m with
      workers := m.workers.map (Worker.checked timeoutSeconds now)
      stats := sweepStats timeoutSeconds now m.stats m.workers })

/-- The loop of `worker_manager_find_available`, with the worker chosen so far. -/
def leastLoaded (jobType : ℤ) (best : Option Worker) : List Worker → Option Worker
  | [] => best
  | w :: rest =>
    if w.workerId = 0 ∨ w.status ≠ .idle then leastLoaded jobType best rest
    else if jobType ∉ w.jobTypesSupported then leastLoaded jobType best rest
    else if best.all fun b => decide (w.jobCount < b.jobCount) then leastLoaded jobType (some w) rest
    else leastLoaded jobType best rest

def workerManagerFindAvailable (m : Manager) (jobType : ℤ) : ℤ :=
  ((leastLoaded jobType none m.workers).map Worker.workerId).getD (-1)

def workerManagerGetStats (m : Manager) : ℤ × WorkerStats := (0, m.stats)

/-! ### Slots and ids -/

/-- Ids are given out in order and stand in one slot at most. -/
structure Numbered (m : Manager) : Prop where
  next : 0 < m.nextWorkerId
  range : ∀ w ∈ m.workers, w.workerId ≠ 0 → 0 < w.workerId ∧ w.workerId < m.nextWorkerId
  proper : Proper Worker.workerId 0 m.workers

variable {m : Manager} {workerId : ℤ} {i : ℕ} {w v : Worker} {maxJobTypes : ℕ}

theorem Numbered.find (h : Numbered m) : findWorkerById m workerId = some (i, w) ↔
    m.workers[i]? = some w ∧ w.workerId = workerId ∧ workerId ≠ 0 := by
  have hnext := h.next
  rw [findWorkerById]
  constructor
  · intro hfind
    split at hfind
    · cases hfind
    · rename_i hrange
      obtain ⟨hi, hid⟩ := slot_some hfind
      exact ⟨hi, hid, by omega⟩
  · rintro ⟨hi, rfl, hne⟩
    have hrange := h.range w (List.mem_of_getElem? hi) hne
    rw [if_neg (by omega)]
    exact (h.proper.slot hne).mpr ⟨hi, rfl⟩

theorem Numbered.find_none (h : Numbered m) : findWorkerById m workerId = none ↔
    workerId = 0 ∨ ∀ w ∈ m.workers, w.workerId ≠ workerId := by
  constructor
  · intro hnone
    by_contra hsome
    obtain ⟨hne, hall⟩ := not_or.mp hsome
    apply hall
    intro w hw hid
    obtain ⟨i, hi⟩ := List.mem_iff_getElem?.mp hw
    rw [h.find.mpr ⟨hi, hid, hne⟩] at hnone
    cases hnone
  · intro habsent
    cases hf : findWorkerById m workerId with
    | none => rfl
    | some found =>
      obtain ⟨i, w⟩ := found
      obtain ⟨hi, hid, hne⟩ := h.find.mp hf
      rcases habsent with hz | hall
      · exact absurd hz hne
      · exact absurd hid (hall w (List.mem_of_getElem? hi))

theorem Numbered.put (h : Numbered m) (hi : m.workers[i]? = some w)
    (hv : v.workerId = 0 ∨ v.workerId = w.workerId) (st : WorkerStats) :
    Numbered (m.put i v st) := by
  constructor
  · exact h.next
  · intro u hu hne
    rcases List.mem_or_eq_of_mem_set hu with hmem | rfl
    · exact h.range u hmem hne
    · rcases hv with hv | hv
      · exact absurd hv hne
      · rw [hv] at hne ⊢
        exact h.range w (List.mem_of_getElem? hi) hne
  · apply h.proper.set hi
    rcases hv with hv | hv
    · exact .inl hv
    · exact .inr (.inl hv)

def Manager.addWorker (m : Manager) (i : ℕ) (w : Worker) : Manager :=
  { m with
    workers := m.workers.set i w
    nextWorkerId := m.nextWorkerId + 1
    stats := { m.stats with total := m.stats.total + 1, idle := m.stats.idle + 1 } }

theorem Numbered.addWorker (h : Numbered m) (hi : m.workers[i]? = some w)
    (hv : v.workerId = m.nextWorkerId) : Numbered (m.addWorker i v) := by
  have hnext := h.next
  have hadd : (m.addWorker i v).nextWorkerId = m.nextWorkerId + 1 := rfl
  constructor
  · omega
  · intro u hu hne
    rcases List.mem_or_eq_of_mem_set hu with hmem | rfl
    · have hrange := h.range u hmem hne
      omega
    · omega
  · apply h.proper.set hi
    refine .inr (.inr ?_)
    intro u hu hid
    have hrange := h.range u hu (by omega)
    omega

theorem checked_workerId (timeoutSeconds now : ℤ) (w : Worker) :
    (w.checked timeoutSeconds now).workerId = w.workerId := by
  unfold Worker.checked
  split <;> rfl

theorem Numbered.checkInactive (h : Numbered m) (timeoutSeconds now : ℤ) :
    Numbered (workerManagerCheckInactive m timeoutSeconds now).2 := by
  constructor
  · exact h.next
  · intro u hu hne
    obtain ⟨w, hw, rfl⟩ := List.mem_map.mp hu
    rw [checked_workerId] at hne ⊢
    exact h.range w hw hne
  · exact h.proper.map (checked_workerId timeoutSeconds now)

theorem init_numbered {maxWorkers : ℤ} {alloc : Bool}
    (hinit : workerManagerInit maxJobTypes maxWorkers alloc = (0, m)) :
    Numbered m ∧ m.workers = List.replicate maxWorkers.toNat (freeWorker maxJobTypes) ∧
      m.nextWorkerId = 1 ∧ m.stats = ⟨0, 0, 0⟩ ∧ 0 < maxWorkers := by
  unfold workerManagerInit at hinit
  split at hinit
  · cases hinit
  · rename_i hpos
    split at hinit
    · cases hinit
    · cases hinit
      have hfree : ∀ w ∈ List.replicate maxWorkers.toNat (freeWorker maxJobTypes),
          w.workerId = 0 := by
        intro w hw
        rw [List.eq_of_mem_replicate hw]
        rfl
      refine ⟨⟨Int.one_pos, fun w hw hne => absurd (hfree w hw) hne, ?_⟩, rfl, rfl, rfl, by omega⟩
      intro i j a b ha _ _ hne
      exact absurd (hfree a (List.mem_of_getElem? ha)) hne

/-! ### What each call does -/

theorem register_cases (m : Manager) (r : Registration) (now : ℤ) :
    (workerManagerRegister maxJobTypes m r now = (-1, m) ∧
        (r.valid maxJobTypes = false ∨ findFreeWorkerSlot m = none)) ∨
      ∃ (i : ℕ) (old : Worker), m.workers[i]? = some old ∧ old.workerId = 0 ∧
        r.valid maxJobTypes = true ∧ workerManagerRegister maxJobTypes m r now =
          (m.nextWorkerId, m.addWorker i (old.enrol maxJobTypes m.nextWorkerId r now)) := by
  unfold workerManagerRegister
  split
  · rename_i hbad
    exact .inl ⟨rfl, .inl hbad⟩
  · rename_i hok
    split
    · rename_i hfull
      exact .inl ⟨rfl, .inr hfull⟩
    · rename_i i old hfree
      obtain ⟨hi, hid⟩ := slot_some hfree
      exact .inr ⟨i, old, hi, hid, by simpa using hok, rfl⟩

theorem withWorker_cases (h : Numbered m) (workerId : ℤ) (f : Worker → Worker)
    (g : WorkerStats → Worker → WorkerStats) :
    (findWorkerById m workerId = none ∧ withWorker m workerId f g = (-1, m)) ∨
      ∃ (i : ℕ) (w : Worker), findWorkerById m workerId = some (i, w) ∧ m.workers[i]? = some w ∧
        w.workerId = workerId ∧ workerId ≠ 0 ∧
        withWorker m workerId f g = (0, m.put i (f w) (g m.stats w)) := by
  unfold withWorker
  cases hf : findWorkerById m workerId with
  | none => exact .inl ⟨rfl, rfl⟩
  | some found =>
    obtain ⟨i, w⟩ := found
    obtain ⟨hi, hid, hne⟩ := h.find.mp hf
    exact .inr ⟨i, w, rfl, hi, hid, hne, rfl⟩

theorem Numbered.withWorker (h : Numbered m) (workerId : ℤ) {f : Worker → Worker}
    (hf : ∀ w, (f w).workerId = 0 ∨ (f w).workerId = w.workerId)
    (g : WorkerStats → Worker → WorkerStats) : Numbered (withWorker m workerId f g).2 := by
  rcases withWorker_cases h workerId f g with ⟨_, hr⟩ | ⟨i, w, _, hi, _, _, hr⟩
  · rw [hr]
    exact h
  · rw [hr]
    exact h.put hi (hf w) _

theorem Numbered.register (h : Numbered m) (r : Registration) (now : ℤ) :
    Numbered (workerManagerRegister maxJobTypes m r now).2 := by
  rcases @register_cases maxJobTypes m r now with ⟨hr, _⟩ | ⟨i, old, hi, _, _, hr⟩
  · rw [hr]
    exact h
  · rw [hr]
    exact h.addWorker hi rfl

end CSimples.WorkerManager
