import CSimples.Lib.Block
import CSimples.Lib.Keyed
import Mathlib.Data.Int.Notation

/-!
# The job handler (server/job_handler.c)

The table of jobs behind `g_job_mutex`, with its counters. `MAX_JOB_RETRIES` and
`ERR_JOB_TIMEOUT` are defined nowhere in the repository and are parameters.
Signed integers are unbounded here: C leaves their overflow undefined.
-/

namespace CSimples.JobHandler
open Block Keyed

structure Constants where
  maxJobRetries : ℤ
  errJobTimeout : ℤ

def threeRetries : Constants := ⟨3, -20⟩

/-! ### Data (job_handler.h:14-35, job_handler.c:18-28) -/

inductive JobStatus where
  | pending
  | assigned
  | completed
  | failed
  | timeout
  deriving Repr, DecidableEq

def JobStatus.code : JobStatus → ℤ
  | .pending => 0
  | .assigned => 1
  | .completed => 2
  | .failed => 3
  | .timeout => 4

def JobStatus.isLost : JobStatus → Bool
  | .failed | .timeout => true
  | .pending | .assigned | .completed => false

def JobStatus.isFinal : JobStatus → Bool
  | .completed | .failed | .timeout => true
  | .pending | .assigned => false

/-- A data pointer is `none` for NULL, else the bytes it points at. -/
structure Job where
  jobId : ℤ
  clientSocket : ℤ
  workerSocket : ℤ
  jobType : ℤ
  inputData : Option (List UInt8)
  inputSize : ℕ
  resultData : Option (List UInt8)
  resultSize : ℕ
  status : JobStatus
  submitTime : ℤ
  startTime : ℤ
  endTime : ℤ
  retryCount : ℤ
  deriving Repr, DecidableEq

/-- What `calloc` leaves in every slot. -/
def freeJob : Job := ⟨0, 0, 0, 0, none, 0, none, 0, .pending, 0, 0, 0, 0⟩

structure Stats where
  pending : ℤ
  running : ℤ
  completed : ℤ
  failed : ℤ
  deriving Repr, DecidableEq

structure Handler where
  jobs : List Job
  jobTimeoutSeconds : ℤ
  nextJobId : ℤ
  stats : Stats
  deriving Repr, DecidableEq

/-- The statics of a process that has not called `job_handler_init` yet. -/
def freshProcess : Handler := ⟨[], 0, 1, ⟨0, 0, 0, 0⟩⟩

/-- A notification for a client; nothing depends on whether it could be sent. -/
inductive Notice where
  | jobCompleted (clientSocket jobId : ℤ)
  | jobFailed (clientSocket jobId errorCode : ℤ)
  deriving Repr, DecidableEq

structure Reply where
  ret : ℤ
  handler : Handler
  notices : List Notice

/-- The `job_assigned` body, with what its data pointer points at. -/
structure JobAssigned where
  jobId : ℤ
  jobType : ℤ
  data : Option (List UInt8)
  dataSize : ℕ
  deriving Repr, DecidableEq

/-! ### The table (job_handler.c:40-85) -/

/-- The job is returned with the number of its slot, through which it is written. -/
def findJobById (h : Handler) (jobId : ℤ) : Option (ℕ × Job) :=
  if jobId ≤ 0 ∨ h.nextJobId ≤ jobId then none
  else (position Job.jobId jobId h.jobs).bind fun i => h.jobs[i]?.map fun job => (i, job)

def findFreeJobSlot (h : Handler) : Option ℕ := position Job.jobId 0 h.jobs

def jobHandlerInit (maxJobs jobTimeoutSeconds : ℤ) (alloc : Bool) : ℤ × Handler :=
  if maxJobs ≤ 0 then (-1, freshProcess)
  else if alloc = false then (-1, freshProcess)
  else (0, { freshProcess with
    jobs := List.replicate maxJobs.toNat freeJob
    jobTimeoutSeconds := jobTimeoutSeconds })

/-- Slot `i` is written, with the counters as they are afterwards. -/
def Handler.put (h : Handler) (i : ℕ) (job : Job) (stats : Stats) : Handler :=
  { h with jobs := h.jobs.set i job, stats := stats }

/-! ### Submission and assignment (job_handler.c:113-241) -/

/-- `malloc` and `memcpy` of `size` bytes, where no block is needed for none. -/
def copyData (data : Option (List UInt8)) (size : ℕ) : Option (List UInt8) :=
  if size > 0 then some ((data.getD []).take size) else none

def newJob (jobId clientSocket jobType : ℤ) (inputData : Option (List UInt8)) (inputSize : ℕ)
    (now : ℤ) : Job :=
  ⟨jobId, clientSocket, -1, jobType, copyData inputData inputSize, inputSize, none, 0, .pending,
    now, 0, 0, 0⟩

def jobHandlerSubmit (h : Handler) (clientSocket jobType : ℤ) (inputData : Option (List UInt8))
    (inputSize : ℕ) (alloc : Bool) (now : ℤ) : Reply :=
  if inputData = none ∧ inputSize > 0 then ⟨-1, h, []⟩
  else match findFreeJobSlot h with
  | none => ⟨-1, h, []⟩
  | some slot =>
    if inputSize > 0 ∧ alloc = false then ⟨-1, h, []⟩
    else
      ⟨h.nextJobId,
        { h with
          jobs := h.jobs.set slot
            (newJob h.nextJobId clientSocket jobType inputData inputSize now)
          nextJobId := h.nextJobId + 1
          stats := { h.stats with pending := h.stats.pending + 1 } }, []⟩

def olderThan (job : Job) : Option (ℕ × Job) → Bool
  | none => true
  | some oldest => decide (job.submitTime < oldest.2.submitTime)

/-- The loop over the slots from number `i` on, with the oldest job so far. -/
def oldestPending (i : ℕ) (oldest : Option (ℕ × Job)) : List Job → Option (ℕ × Job)
  | [] => oldest
  | job :: rest =>
    if job.jobId > 0 ∧ job.status = .pending ∧ olderThan job oldest = true then
      oldestPending (i + 1) (some (i, job)) rest
    else oldestPending (i + 1) oldest rest

def Job.handOut (job : Job) (workerSocket now : ℤ) : Job :=
  { job with workerSocket := workerSocket, status := .assigned, startTime := now }

def Job.takeBack (job : Job) : Job :=
  { job with workerSocket := -1, status := .pending, startTime := 0 }

/-- `job_handler_assign` up to its unlock: the message to be sent, if there is a
pending job. -/
def assignSelect (h : Handler) (workerSocket now : ℤ) : Option JobAssigned × Handler :=
  match oldestPending 0 none h.jobs with
  | none => (none, h)
  | some (i, job) =>
    (some ⟨job.jobId, job.jobType, job.inputData, job.inputSize⟩,
      h.put i (job.handOut workerSocket now)
        { h.stats with pending := h.stats.pending - 1, running := h.stats.running + 1 })

/-- "Mark job as pending again", after `send_message` has failed. -/
def assignRollBack (h : Handler) (jobId : ℤ) : Handler :=
  match findJobById h jobId with
  | none => h
  | some (i, job) => h.put i job.takeBack
      { h.stats with pending := h.stats.pending + 1, running := h.stats.running - 1 }

def jobHandlerAssign (h : Handler) (workerSocket now : ℤ) (sent : Bool) : Reply :=
  match assignSelect h workerSocket now with
  | (none, h') => ⟨-1, h', []⟩
  | (some msg, h') =>
    if sent then ⟨msg.jobId, h', []⟩ else ⟨-1, assignRollBack h' msg.jobId, []⟩

/-! ### Completion and failure (job_handler.c:243-383) -/

def Job.finish (job : Job) (resultData : Option (List UInt8)) (resultSize : ℕ) (now : ℤ) : Job :=
  { job with
    resultData := copyData resultData resultSize
    resultSize := resultSize
    status := .completed
    endTime := now }

def jobHandlerComplete (h : Handler) (jobId : ℤ) (resultData : Option (List UInt8))
    (resultSize : ℕ) (alloc : Bool) (now : ℤ) : Reply :=
  if resultData = none ∧ resultSize > 0 then ⟨-1, h, []⟩
  else match findJobById h jobId with
  | none => ⟨-1, h, []⟩
  | some (i, job) =>
    if job.status ≠ .assigned then ⟨-1, h, []⟩
    else if resultSize > 0 ∧ alloc = false then ⟨-1, h, []⟩
    else
      ⟨0, h.put i (job.finish resultData resultSize now)
        { h.stats with running := h.stats.running - 1, completed := h.stats.completed + 1 },
        [.jobCompleted job.clientSocket jobId]⟩

section Retry
variable (c : Constants)

/-- A failure or a timeout of an assigned job: one more attempt is used up, and the
job is either queued again or left in status `final`. -/
def Job.charge (job : Job) (final : JobStatus) (now : ℤ) : Job :=
  if job.retryCount + 1 < c.maxJobRetries then
    { job with
      status := .pending
      workerSocket := -1
      startTime := 0
      endTime := 0
      retryCount := job.retryCount + 1 }
  else { job with status := final, endTime := now, retryCount := job.retryCount + 1 }

def Stats.charge (st : Stats) (job : Job) : Stats :=
  if job.retryCount + 1 < c.maxJobRetries then
    { st with running := st.running - 1, pending := st.pending + 1 }
  else { st with running := st.running - 1, failed := st.failed + 1 }

def Job.failureNotices (job : Job) (errorCode : ℤ) : List Notice :=
  if job.retryCount + 1 < c.maxJobRetries then []
  else [.jobFailed job.clientSocket job.jobId errorCode]

def jobHandlerFail (h : Handler) (jobId errorCode now : ℤ) : Reply :=
  match findJobById h jobId with
  | none => ⟨-1, h, []⟩
  | some (i, job) =>
    if job.status ≠ .assigned then ⟨-1, h, []⟩
    else
      ⟨0, h.put i (job.charge c .failed now) (h.stats.charge c job),
        job.failureNotices c errorCode⟩

/-! ### The timeout sweep (job_handler.c:447-517) -/

def due (timeoutSeconds now : ℤ) (job : Job) : Bool :=
  decide (job.jobId ≠ 0 ∧ job.status = .assigned ∧ now - job.startTime > timeoutSeconds * 1000)

/-- Where the loop over the slots stands. Its `timeout_count` is the number of ids
in `timedOut`. -/
structure Sweep where
  jobs : List Job
  stats : Stats
  notices : List Notice
  timedOut : List ℤ

def sweepFrom (timeoutSeconds now : ℤ) (st : Stats) : List Job → Sweep
  | [] => ⟨[], st, [], []⟩
  | job :: rest =>
    if due timeoutSeconds now job = true then
      let r := sweepFrom timeoutSeconds now (st.charge c job) rest
      ⟨job.charge c .timeout now :: r.jobs, r.stats,
        job.failureNotices c c.errJobTimeout ++ r.notices, job.jobId :: r.timedOut⟩
    else
      let r := sweepFrom timeoutSeconds now st rest
      ⟨job :: r.jobs, r.stats, r.notices, r.timedOut⟩

def sweep (h : Handler) (now : ℤ) : Sweep :=
  sweepFrom c h.jobTimeoutSeconds now h.stats h.jobs

def jobHandlerCheckTimeouts (h : Handler) (now : ℤ) : Reply :=
  ⟨(sweep c h now).timedOut.length,
    { h with jobs := (sweep c h now).jobs, stats := (sweep c h now).stats },
    (sweep c h now).notices⟩

end Retry

/-! ### Queries (job_handler.c:385-445, 519-531) -/

def jobHandlerGetStatus (h : Handler) (jobId : ℤ) : ℤ :=
  match findJobById h jobId with
  | none => -1
  | some (_, job) => job.status.code

/-- What is stored through the two result pointers, when both are given. -/
def jobHandlerGetResult (h : Handler) (jobId : ℤ) (pointers alloc : Bool) :
    ℤ × Option (Option (List UInt8) × ℕ) :=
  if pointers = false then (-1, none)
  else match findJobById h jobId with
  | none => (-1, none)
  | some (_, job) =>
    if job.status ≠ .completed then (-1, none)
    else if job.resultSize > 0 ∧ alloc = false then (-1, none)
    else (0, some (copyData job.resultData job.resultSize, job.resultSize))

def jobHandlerGetStats (h : Handler) : ℤ × Stats := (0, h.stats)

/-! ### Slots and ids -/

/-- Slots are taken in order and never given back, so the id tells the slot. -/
structure Filled (h : Handler) (n : ℕ) : Prop where
  next : h.nextJobId = n + 1
  le : n ≤ h.jobs.length
  used : ∀ (i : ℕ) job, h.jobs[i]? = some job → i < n → job.jobId = i + 1
  free : ∀ (i : ℕ) job, h.jobs[i]? = some job → n ≤ i → job.jobId = 0

variable {h : Handler} {n i : ℕ} {job : Job} {jobId : ℤ}

theorem Filled.jobId_ne_zero (hf : Filled h n) (hi : h.jobs[i]? = some job) :
    job.jobId ≠ 0 ↔ i < n := by
  constructor
  · intro hne
    by_contra hle
    exact hne (hf.free i job hi (by omega))
  · intro hlt
    have hid := hf.used i job hi hlt
    omega

theorem Filled.find (hf : Filled h n) : findJobById h jobId = some (i, job) ↔
    h.jobs[i]? = some job ∧ i < n ∧ jobId = i + 1 := by
  constructor
  · intro hfind
    unfold findJobById at hfind
    split at hfind
    · cases hfind
    · rename_i hrange
      obtain ⟨k, hk, hmap⟩ := Option.bind_eq_some_iff.mp hfind
      obtain ⟨a, ha, heq⟩ := Option.map_eq_some_iff.mp hmap
      cases heq
      obtain ⟨⟨b, hb, hid⟩, _⟩ := position_eq_some.mp hk
      rw [ha] at hb
      cases hb
      have hlt := (hf.jobId_ne_zero ha).mp (by omega)
      have huse := hf.used _ _ ha hlt
      exact ⟨ha, hlt, by omega⟩
  · rintro ⟨hi, hlt, rfl⟩
    have hnext := hf.next
    have hpos : position Job.jobId ((i : ℤ) + 1) h.jobs = some i := by
      refine position_eq_some.mpr ⟨⟨job, hi, hf.used i job hi hlt⟩, fun j hj b hb => ?_⟩
      have hid := hf.used j b hb (by omega)
      omega
    rw [findJobById, if_neg (by omega), hpos, Option.bind_some, hi, Option.map_some]

theorem Filled.freeSlot (hf : Filled h n) {slot : ℕ} (hs : findFreeJobSlot h = some slot) :
    slot = n ∧ slot < h.jobs.length := by
  obtain ⟨⟨a, ha, hid⟩, hlt⟩ := position_eq_some.mp hs
  obtain ⟨hlen, _⟩ := List.getElem?_eq_some_iff.mp ha
  have hge : n ≤ slot := by
    by_contra hne
    have huse := hf.used slot a ha (by omega)
    omega
  refine ⟨?_, hlen⟩
  by_contra hne
  have hn : n < h.jobs.length := by omega
  exact hlt n (by omega) h.jobs[n] (List.getElem?_eq_getElem hn)
    (hf.free n _ (List.getElem?_eq_getElem hn) (Nat.le_refl n))

theorem put_self {a : Job} (hi : h.jobs[i]? = some a) (b : Job) (st : Stats) :
    (h.put i b st).jobs[i]? = some b :=
  List.getElem?_set_self (List.getElem?_eq_some_iff.mp hi).1

theorem Filled.put (hf : Filled h n) {a b : Job} (hi : h.jobs[i]? = some a)
    (hid : b.jobId = a.jobId) (st : Stats) : Filled (h.put i b st) n := by
  constructor
  · exact hf.next
  · rw [Handler.put, List.length_set]
    exact hf.le
  · refine slots_set (P := fun (k : ℕ) (job : Job) => k < n → job.jobId = k + 1) ?_ fun k a _ => hf.used k a
    rw [hid]
    exact hf.used i a hi
  · refine slots_set (P := fun (k : ℕ) (job : Job) => n ≤ k → job.jobId = 0) ?_ fun k a _ => hf.free k a
    rw [hid]
    exact hf.free i a hi

theorem init_filled {maxJobs timeoutSeconds : ℤ} {alloc : Bool}
    (hinit : jobHandlerInit maxJobs timeoutSeconds alloc = (0, h)) :
    Filled h 0 ∧ h.jobs = List.replicate maxJobs.toNat freeJob ∧ h.stats = ⟨0, 0, 0, 0⟩ := by
  unfold jobHandlerInit at hinit
  split at hinit
  · cases hinit
  · split at hinit
    · cases hinit
    · cases hinit
      refine ⟨⟨rfl, Nat.zero_le _, fun i job _ hlt => absurd hlt (Nat.not_lt_zero i), fun i job hi _ => ?_⟩, rfl,
        rfl⟩
      obtain ⟨_, rfl⟩ := List.getElem?_eq_some_iff.mp hi
      simp [freeJob]

theorem copyData_copyData (data : Option (List UInt8)) (size : ℕ) :
    copyData (copyData data size) size = copyData data size := by
  unfold copyData
  split
  · rw [Option.getD_some, List.take_take, Nat.min_self]
  · rfl

/-! ### What each section does -/

def Handler.add (h : Handler) (n : ℕ) (job : Job) : Handler :=
  { h with
    jobs := h.jobs.set n job
    nextJobId := h.nextJobId + 1
    stats := { h.stats with pending := h.stats.pending + 1 } }

theorem Filled.add (hf : Filled h n) (hn : n < h.jobs.length) (hid : job.jobId = h.nextJobId) :
    Filled (h.add n job) (n + 1) := by
  have hnext := hf.next
  constructor
  · have hadd : (h.add n job).nextJobId = h.nextJobId + 1 := rfl
    omega
  · rw [Handler.add, List.length_set]
    exact hn
  · refine slots_set (P := fun (k : ℕ) (job : Job) => k < n + 1 → job.jobId = k + 1) ?_ fun k a hk ha _ =>
      hf.used k a ha (by omega)
    intro _
    rw [hid, hnext]
  · refine slots_set (P := fun (k : ℕ) (job : Job) => n + 1 ≤ k → job.jobId = 0) ?_ fun k a _ ha _ =>
      hf.free k a ha (by omega)
    omega

theorem submit_cases (hf : Filled h n) (clientSocket jobType : ℤ)
    (inputData : Option (List UInt8)) (inputSize : ℕ) (alloc : Bool) (now : ℤ) :
    jobHandlerSubmit h clientSocket jobType inputData inputSize alloc now = ⟨-1, h, []⟩ ∨
      n < h.jobs.length ∧ ¬ (inputData = none ∧ inputSize > 0) ∧
        jobHandlerSubmit h clientSocket jobType inputData inputSize alloc now =
          ⟨h.nextJobId,
            h.add n (newJob h.nextJobId clientSocket jobType inputData inputSize now), []⟩ := by
  unfold jobHandlerSubmit
  split
  · exact .inl rfl
  · rename_i hdata
    split
    · exact .inl rfl
    · rename_i slot hslot
      obtain ⟨rfl, hlen⟩ := hf.freeSlot hslot
      split
      · exact .inl rfl
      · exact .inr ⟨hlen, hdata, rfl⟩

theorem oldestPending_some {start : ℕ} {oldest : Option (ℕ × Job)} {jobs : List Job}
    (h : oldestPending start oldest jobs = some (i, job)) :
    oldest = some (i, job) ∨
      start ≤ i ∧ jobs[i - start]? = some job ∧ 0 < job.jobId ∧ job.status = .pending := by
  induction jobs generalizing start oldest with
  | nil => exact .inl h
  | cons c rest ih =>
    rw [oldestPending] at h
    split at h
    · rename_i hc
      rcases ih h with heq | ⟨hle, hget, hrest⟩
      · cases heq
        exact .inr ⟨Nat.le_refl _, by simp, hc.1, hc.2.1⟩
      · have hsub : i - start = (i - (start + 1)) + 1 := by omega
        exact .inr ⟨by omega, by rw [hsub, List.getElem?_cons_succ]; exact hget, hrest⟩
    · rcases ih h with heq | ⟨hle, hget, hrest⟩
      · exact .inl heq
      · have hsub : i - start = (i - (start + 1)) + 1 := by omega
        exact .inr ⟨by omega, by rw [hsub, List.getElem?_cons_succ]; exact hget, hrest⟩

theorem assign_refused (h : Handler) (socket now : ℤ) (jobSent : Bool) :
    (jobHandlerAssign h socket now jobSent).ret < 0 ↔
      oldestPending 0 none h.jobs = none ∨ jobSent = false := by
  unfold jobHandlerAssign assignSelect
  cases hold : oldestPending 0 none h.jobs with
  | none => simp
  | some found =>
    obtain ⟨i, job⟩ := found
    have hpos : 0 < job.jobId := by
      rcases oldestPending_some hold with hnone | ⟨_, _, hpos, _⟩
      · cases hnone
      · exact hpos
    cases jobSent with
    | false => simp
    | true =>
      simp only [if_true, Bool.true_eq_false, or_false]
      constructor
      · intro hneg
        omega
      · intro hnone
        cases hnone

def Job.message (job : Job) : JobAssigned :=
  ⟨job.jobId, job.jobType, job.inputData, job.inputSize⟩

theorem select_cases (hf : Filled h n) (workerSocket now : ℤ) :
    assignSelect h workerSocket now = (none, h) ∨
      ∃ i job, h.jobs[i]? = some job ∧ i < n ∧ job.status = .pending ∧
        assignSelect h workerSocket now = (some job.message,
          h.put i (job.handOut workerSocket now)
            { h.stats with pending := h.stats.pending - 1, running := h.stats.running + 1 }) := by
  unfold assignSelect
  split
  · exact .inl rfl
  · rename_i i job hold
    rcases oldestPending_some hold with hnone | ⟨_, hi, hpos, hp⟩
    · cases hnone
    · rw [Nat.sub_zero] at hi
      exact .inr ⟨i, job, hi, (hf.jobId_ne_zero hi).mp (by omega), hp, rfl⟩

theorem rollBack_cases (hf : Filled h n) (jobId : ℤ) :
    assignRollBack h jobId = h ∨
      ∃ i job, h.jobs[i]? = some job ∧ i < n ∧ jobId = i + 1 ∧
        assignRollBack h jobId = h.put i job.takeBack
          { h.stats with pending := h.stats.pending + 1, running := h.stats.running - 1 } := by
  unfold assignRollBack
  split
  · exact .inl rfl
  · rename_i i job hfind
    obtain ⟨hi, hlt, hid⟩ := hf.find.mp hfind
    exact .inr ⟨i, job, hi, hlt, hid, rfl⟩

theorem complete_cases (hf : Filled h n) (jobId : ℤ) (resultData : Option (List UInt8))
    (resultSize : ℕ) (alloc : Bool) (now : ℤ) :
    jobHandlerComplete h jobId resultData resultSize alloc now = ⟨-1, h, []⟩ ∨
      ∃ i job, h.jobs[i]? = some job ∧ i < n ∧ jobId = i + 1 ∧ job.status = .assigned ∧
        jobHandlerComplete h jobId resultData resultSize alloc now =
          ⟨0, h.put i (job.finish resultData resultSize now)
            { h.stats with running := h.stats.running - 1, completed := h.stats.completed + 1 },
            [.jobCompleted job.clientSocket jobId]⟩ := by
  unfold jobHandlerComplete
  split
  · exact .inl rfl
  · split
    · exact .inl rfl
    · rename_i i job hfind
      obtain ⟨hi, hlt, hid⟩ := hf.find.mp hfind
      split
      · exact .inl rfl
      · rename_i hstatus
        split
        · exact .inl rfl
        · exact .inr ⟨i, job, hi, hlt, hid, not_not.mp hstatus, rfl⟩

section Retry
variable (c : Constants)

theorem fail_cases (hf : Filled h n) (jobId errorCode now : ℤ) :
    jobHandlerFail c h jobId errorCode now = ⟨-1, h, []⟩ ∨
      ∃ i job, h.jobs[i]? = some job ∧ i < n ∧ jobId = i + 1 ∧ job.status = .assigned ∧
        jobHandlerFail c h jobId errorCode now =
          ⟨0, h.put i (job.charge c .failed now) (h.stats.charge c job),
            job.failureNotices c errorCode⟩ := by
  unfold jobHandlerFail
  split
  · exact .inl rfl
  · rename_i i job hfind
    obtain ⟨hi, hlt, hid⟩ := hf.find.mp hfind
    split
    · exact .inl rfl
    · rename_i hstatus
      exact .inr ⟨i, job, hi, hlt, hid, not_not.mp hstatus, rfl⟩

theorem charge_jobId (job : Job) (final : JobStatus) (now : ℤ) :
    (job.charge c final now).jobId = job.jobId := by
  unfold Job.charge
  split <;> rfl

theorem charge_status (job : Job) (final : JobStatus) (now : ℤ) :
    (job.charge c final now).status = .pending ∨ (job.charge c final now).status = final := by
  unfold Job.charge
  split
  · exact .inl rfl
  · exact .inr rfl

def Job.expire (job : Job) (timeoutSeconds now : ℤ) : Job :=
  if due timeoutSeconds now job = true then job.charge c .timeout now else job

theorem sweep_jobs (timeoutSeconds now : ℤ) (st : Stats) (jobs : List Job) :
    (sweepFrom c timeoutSeconds now st jobs).jobs =
      jobs.map fun job => job.expire c timeoutSeconds now := by
  induction jobs generalizing st with
  | nil => rfl
  | cons job rest ih =>
    rw [sweepFrom]
    split
    · rename_i hdue
      simp [ih, Job.expire, hdue]
    · rename_i hdue
      simp [ih, Job.expire, hdue]

theorem expire_jobId (job : Job) (timeoutSeconds now : ℤ) :
    (job.expire c timeoutSeconds now).jobId = job.jobId := by
  unfold Job.expire
  split
  · exact charge_jobId c job .timeout now
  · rfl

theorem checkTimeouts_jobs (h : Handler) (now : ℤ) :
    (jobHandlerCheckTimeouts c h now).handler.jobs =
      h.jobs.map fun job => job.expire c h.jobTimeoutSeconds now :=
  sweep_jobs c _ _ _ _

theorem Filled.checkTimeouts (hf : Filled h n) (now : ℤ) :
    Filled (jobHandlerCheckTimeouts c h now).handler n := by
  constructor
  · exact hf.next
  · rw [checkTimeouts_jobs, List.length_map]
    exact hf.le
  · rw [checkTimeouts_jobs]
    refine slots_map (P := fun (k : ℕ) (job : Job) => k < n → job.jobId = k + 1) fun k a ha => ?_
    rw [expire_jobId]
    exact hf.used k a ha
  · rw [checkTimeouts_jobs]
    refine slots_map (P := fun (k : ℕ) (job : Job) => n ≤ k → job.jobId = 0) fun k a ha => ?_
    rw [expire_jobId]
    exact hf.free k a ha

theorem sweep_timedOut (timeoutSeconds now : ℤ) (st : Stats) (jobs : List Job) :
    (sweepFrom c timeoutSeconds now st jobs).timedOut =
      (jobs.filter (due timeoutSeconds now)).map Job.jobId := by
  induction jobs generalizing st with
  | nil => rfl
  | cons job rest ih =>
    rw [sweepFrom]
    split
    · rename_i hdue
      simp [ih, hdue]
    · rename_i hdue
      simp [ih, hdue]

end Retry

end CSimples.JobHandler
