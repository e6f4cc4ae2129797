import CSimples.Lib.Run
import CSimples.Server.JobHandler

/-!
# Calls of the job handler, one after another (server/job_handler.c)

What a call can do, among calls that do not overlap, from `job_handler_init` on
in a fresh process. A call that is refused leaves no trace.
-/

namespace CSimples.JobCalls
open JobHandler Run
open Block (slots_set slots_map)

inductive Call where
  | submit (clientSocket jobType : ℤ) (inputData : Option (List UInt8)) (inputSize : ℕ)
      (alloc : Bool) (now : ℤ)
  | assign (workerSocket now : ℤ) (sent : Bool)
  | complete (jobId : ℤ) (resultData : Option (List UInt8)) (resultSize : ℕ) (alloc : Bool)
      (now : ℤ)
  | fail (jobId errorCode now : ℤ)
  | checkTimeouts (now : ℤ)
  | getStatus (jobId : ℤ)
  | getResult (jobId : ℤ) (pointers alloc : Bool)
  | getStats

variable (c : Constants)

def answer (h : Handler) : Call → Reply
  | .submit clientSocket jobType inputData inputSize alloc now =>
    jobHandlerSubmit h clientSocket jobType inputData inputSize alloc now
  | .assign workerSocket now sent => jobHandlerAssign h workerSocket now sent
  | .complete jobId resultData resultSize alloc now =>
    jobHandlerComplete h jobId resultData resultSize alloc now
  | .fail jobId errorCode now => jobHandlerFail c h jobId errorCode now
  | .checkTimeouts now => jobHandlerCheckTimeouts c h now
  | .getStatus jobId => ⟨jobHandlerGetStatus h jobId, h, []⟩
  | .getResult jobId pointers alloc => ⟨(jobHandlerGetResult h jobId pointers alloc).1, h, []⟩
  | .getStats => ⟨(jobHandlerGetStats h).1, h, []⟩

def step (h : Handler) (call : Call) : Handler := (answer c h call).handler

/-! ### What a call can do -/

/-- A pending job is as its submission left it: the roll-back of a failed send
restores just these values. -/
structure Sound (h : Handler) (n : ℕ) : Prop where
  filled : Filled h n
  waiting : ∀ (i : ℕ) job, h.jobs[i]? = some job → i < n → job.status = .pending →
    job.workerSocket = -1 ∧ job.startTime = 0

def Call.isQuery : Call → Prop
  | .getStatus _ | .getResult _ _ _ | .getStats => True
  | _ => False

inductive Effect (h : Handler) (n : ℕ) : Call → Reply → Prop where
  | refused (call : Call) (hc : ∀ now, call ≠ .checkTimeouts now) : Effect h n call ⟨-1, h, []⟩
  | queried (call : Call) (ret : ℤ) (hq : call.isQuery) : Effect h n call ⟨ret, h, []⟩
  | submitted (clientSocket jobType : ℤ) (inputData : Option (List UInt8)) (inputSize : ℕ)
      (alloc : Bool) (now : ℤ) (hn : n < h.jobs.length) :
      Effect h n (.submit clientSocket jobType inputData inputSize alloc now)
        ⟨h.nextJobId, h.add n (newJob h.nextJobId clientSocket jobType inputData inputSize now),
          []⟩
  | assigned (i : ℕ) (job : Job) (workerSocket now : ℤ) (hi : h.jobs[i]? = some job)
      (hlt : i < n) (hs : job.status = .pending) :
      Effect h n (.assign workerSocket now true)
        ⟨job.jobId, h.put i (job.handOut workerSocket now)
          { h.stats with pending := h.stats.pending - 1, running := h.stats.running + 1 }, []⟩
  | completed (i : ℕ) (job : Job) (resultData : Option (List UInt8)) (resultSize : ℕ)
      (alloc : Bool) (now : ℤ) (hi : h.jobs[i]? = some job) (hlt : i < n)
      (hs : job.status = .assigned) :
      Effect h n (.complete (i + 1) resultData resultSize alloc now)
        ⟨0, h.put i (job.finish resultData resultSize now)
          { h.stats with running := h.stats.running - 1, completed := h.stats.completed + 1 },
          [.jobCompleted job.clientSocket (i + 1)]⟩
  | failed (i : ℕ) (job : Job) (errorCode now : ℤ) (hi : h.jobs[i]? = some job) (hlt : i < n)
      (hs : job.status = .assigned) :
      Effect h n (.fail (i + 1) errorCode now)
        ⟨0, h.put i (job.charge c .failed now) (h.stats.charge c job),
          job.failureNotices c errorCode⟩
  | swept (now : ℤ) : Effect h n (.checkTimeouts now) (jobHandlerCheckTimeouts c h now)

variable {h : Handler} {n : ℕ}

theorem takeBack_handOut {job : Job} {workerSocket now : ℤ} (hs : job.status = .pending)
    (hw : job.workerSocket = -1) (ht : job.startTime = 0) :
    (job.handOut workerSocket now).takeBack = job := by
  simp [Job.handOut, Job.takeBack, ← hs, ← hw, ← ht]

theorem rollBack_put (hf : Filled h n) {i : ℕ} {job b : Job} (hi : h.jobs[i]? = some job)
    (hlt : i < n) (hid : b.jobId = job.jobId) (hback : b.takeBack = job) :
    assignRollBack (h.put i b
      { h.stats with pending := h.stats.pending - 1, running := h.stats.running + 1 })
      job.jobId = h := by
  have hf' := hf.put hi hid { h.stats with
    pending := h.stats.pending - 1, running := h.stats.running + 1 }
  obtain ⟨hlen, hget⟩ := List.getElem?_eq_some_iff.mp hi
  have hfind : findJobById (h.put i b
      { h.stats with pending := h.stats.pending - 1, running := h.stats.running + 1 })
      job.jobId = some (i, b) :=
    hf'.find.mpr ⟨put_self hi b _, hlt, hf.used i job hi hlt⟩
  simp only [assignRollBack, hfind, hback]
  simp [Handler.put, ← hget]

theorem assign_effect (hs : Sound h n) (workerSocket now : ℤ) (sent : Bool) :
    Effect c h n (.assign workerSocket now sent) (jobHandlerAssign h workerSocket now sent) := by
  unfold jobHandlerAssign
  rcases select_cases hs.filled workerSocket now with hnone | ⟨i, job, hi, hlt, hp, hsel⟩
  · rw [hnone]
    exact .refused _ (by simp)
  · rw [hsel]
    cases sent with
    | true => exact .assigned i job workerSocket now hi hlt hp
    | false =>
      obtain ⟨hw, ht⟩ := hs.waiting i job hi hlt hp
      have hback := rollBack_put hs.filled hi hlt (b := job.handOut workerSocket now) rfl
        (takeBack_handOut hp hw ht)
      simp only [Job.message, hback, Bool.false_eq_true, if_false]
      exact .refused _ (by simp)

theorem answer_effect (hs : Sound h n) (call : Call) : Effect c h n call (answer c h call) := by
  cases call with
  | submit clientSocket jobType inputData inputSize alloc now =>
    rcases submit_cases hs.filled clientSocket jobType inputData inputSize alloc now with
      hr | ⟨hn, _, hr⟩
    · rw [answer, hr]
      exact .refused _ (by simp)
    · rw [answer, hr]
      exact .submitted _ _ _ _ _ _ hn
  | assign workerSocket now sent => exact assign_effect c hs workerSocket now sent
  | complete jobId resultData resultSize alloc now =>
    rcases complete_cases hs.filled jobId resultData resultSize alloc now with
      hr | ⟨i, job, hi, hlt, rfl, ha, hr⟩
    · rw [answer, hr]
      exact .refused _ (by simp)
    · rw [answer, hr]
      exact .completed i job _ _ _ _ hi hlt ha
  | fail jobId errorCode now =>
    rcases fail_cases c hs.filled jobId errorCode now with hr | ⟨i, job, hi, hlt, rfl, ha, hr⟩
    · rw [answer, hr]
      exact .refused _ (by simp)
    · rw [answer, hr]
      exact .failed i job errorCode now hi hlt ha
  | checkTimeouts now => exact .swept now
  | getStatus jobId => exact .queried _ _ trivial
  | getResult jobId pointers alloc => exact .queried _ _ trivial
  | getStats => exact .queried _ _ trivial

/-! ### Soundness -/

theorem charge_waiting {job : Job} {final : JobStatus} {now : ℤ} (hf : final ≠ .pending)
    (hp : (job.charge c final now).status = .pending) :
    (job.charge c final now).workerSocket = -1 ∧ (job.charge c final now).startTime = 0 := by
  unfold Job.charge at hp ⊢
  split
  · exact ⟨rfl, rfl⟩
  · rename_i hlast
    rw [if_neg hlast] at hp
    exact absurd hp hf

theorem Sound.put (hs : Sound h n) {i : ℕ} {a b : Job} (hi : h.jobs[i]? = some a)
    (hid : b.jobId = a.jobId)
    (hb : b.status = .pending → b.workerSocket = -1 ∧ b.startTime = 0) (st : Stats) :
    Sound (h.put i b st) n :=
  ⟨hs.filled.put hi hid st, slots_set
    (P := fun (k : ℕ) (job : Job) => k < n → job.status = .pending →
      job.workerSocket = -1 ∧ job.startTime = 0)
    (fun _ => hb) fun k a _ => hs.waiting k a⟩

theorem sound_effect (hs : Sound h n) {call : Call} {r : Reply} (he : Effect c h n call r) :
    ∃ n', Sound r.handler n' := by
  cases he with
  | refused call hc => exact ⟨n, hs⟩
  | queried call ret hq => exact ⟨n, hs⟩
  | submitted clientSocket jobType inputData inputSize alloc now hn =>
    refine ⟨n + 1, hs.filled.add hn rfl, slots_set
      (P := fun (k : ℕ) (job : Job) => k < n + 1 → job.status = .pending →
        job.workerSocket = -1 ∧ job.startTime = 0)
      (fun _ _ => ⟨rfl, rfl⟩) fun k a hk ha hlt => hs.waiting k a ha (by omega)⟩
  | assigned i job workerSocket now hi hlt hp =>
    exact ⟨n, hs.put (b := job.handOut workerSocket now) hi rfl (by simp [Job.handOut]) _⟩
  | completed i job resultData resultSize alloc now hi hlt ha =>
    exact ⟨n, hs.put (b := job.finish resultData resultSize now) hi rfl (by simp [Job.finish]) _⟩
  | failed i job errorCode now hi hlt ha =>
    exact ⟨n, hs.put hi (charge_jobId c _ _ _) (charge_waiting c (by simp)) _⟩
  | swept now =>
    refine ⟨n, hs.filled.checkTimeouts c now, ?_⟩
    rw [checkTimeouts_jobs]
    refine slots_map (P := fun (k : ℕ) (job : Job) => k < n → job.status = .pending →
      job.workerSocket = -1 ∧ job.startTime = 0) fun k a ha hlt => ?_
    unfold Job.expire
    split
    · exact charge_waiting c (by simp)
    · exact hs.waiting k a ha hlt

theorem Sound.unique (hs : Sound h n) {h' : Handler} {n' : ℕ} (hs' : Sound h' n')
    (hnext : h'.nextJobId = h.nextJobId) : n' = n := by
  have h1 := hs.filled.next
  have h2 := hs'.filled.next
  omega

theorem sound_step (h : Handler) (call : Call) (hs : ∃ n, Sound h n) :
    ∃ n, Sound (step c h call) n := by
  obtain ⟨n, hs⟩ := hs
  exact sound_effect c hs (answer_effect c hs call)

theorem sound_init {maxJobs timeoutSeconds : ℤ} {alloc : Bool}
    (hinit : jobHandlerInit maxJobs timeoutSeconds alloc = (0, h)) : Sound h 0 :=
  ⟨(init_filled hinit).1, fun i _ _ hlt => absurd hlt (Nat.not_lt_zero i)⟩

/-! ### Refused calls -/

theorem refused_unchanged (hs : Sound h n) {call : Call} (hret : (answer c h call).ret = -1) :
    (answer c h call).handler = h := by
  have hnext := hs.filled.next
  have he := answer_effect c hs call
  generalize answer c h call = r at he hret ⊢
  cases he with
  | refused call hc => rfl
  | queried call ret hq => rfl
  | submitted clientSocket jobType inputData inputSize alloc now hn =>
    exact absurd hret (by simp only; omega)
  | assigned i job workerSocket now hi hlt hp =>
    have hid := hs.filled.used i job hi hlt
    exact absurd hret (by simp only; omega)
  | completed i job resultData resultSize alloc now hi hlt ha => exact absurd hret (by simp)
  | failed i job errorCode now hi hlt ha => exact absurd hret (by simp)
  | swept now => exact absurd hret (by simp only [jobHandlerCheckTimeouts]; omega)

/-- In every state of a run, a call that answers -1 leaves table, next id and
counters as they were. -/
theorem failed_calls_atomic {maxJobs timeoutSeconds : ℤ} {alloc : Bool}
    (hinit : jobHandlerInit maxJobs timeoutSeconds alloc = (0, h)) (calls : List Call) :
    Along (step c) (fun h => ∀ call, (answer c h call).ret = -1 → (answer c h call).handler = h)
      h calls := by
  have hsound : Along (step c) (fun h => ∃ n, Sound h n) h calls :=
    along_of_step (sound_step c) ⟨0, sound_init hinit⟩ calls
  refine along_mono (fun s hs call hret => ?_) hsound
  obtain ⟨n, hs⟩ := hs
  exact refused_unchanged c hs hret

def twoSlots : Handler := ⟨[freeJob, freeJob], 10, 1, ⟨0, 0, 0, 0⟩⟩

theorem twoSlots_init : jobHandlerInit 2 10 true = (0, twoSlots) := rfl

/-- Job 1 times out with worker 5, cannot be sent to worker 6, and fails there. -/
def twoRetries : List Call :=
  [.submit 7 2 (some [104, 105]) 2 true 100, .assign 5 200 true, .checkTimeouts 20000,
    .assign 6 20100 false, .assign 6 20200 true, .fail 1 (-3) 20300]

theorem failed_calls_atomic_twoRetries :
    Along (step threeRetries) (fun h => ∀ call, (answer threeRetries h call).ret = -1 →
      (answer threeRetries h call).handler = h) twoSlots twoRetries :=
  failed_calls_atomic threeRetries twoSlots_init twoRetries

end CSimples.JobCalls
