import CSimples.Server.JobCalls
import CSimples.Server.JobCapacity
import Mathlib.Algebra.Order.Ring.Int

/-!
# The timeout in 32 bits (server/job_handler.c:447-517, server_main.c:125-131)

`g_job_timeout_seconds * 1000` is a product of two values of type `int`. `JobHandler` has
it without a bound; here it wraps, which is what becomes of it on the usual machines
although C leaves it undefined. The rest of the sweep is the same.
-/

namespace CSimples.JobTimeouts
open JobHandler JobCalls JobCapacity Run

/-- `g_job_timeout_seconds * 1000` as an `int`. -/
def timeoutMs (timeoutSeconds : ℤ) : ℤ := (timeoutSeconds * 1000).bmod (2^32)

def wrappedDue (timeoutSeconds now : ℤ) (job : Job) : Bool :=
  decide (job.jobId ≠ 0 ∧ job.status = .assigned ∧ now - job.startTime > timeoutMs timeoutSeconds)

section Retry
variable (c : Constants)

/-- The loop of the sweep, whatever its test is. -/
def sweepBy (isDue : Job → Bool) (now : ℤ) (st : Stats) : List Job → Sweep
  | [] => ⟨[], st, [], []⟩
  | job :: rest =>
    if isDue job = true then
      let r := sweepBy isDue now (st.charge c job) rest
      ⟨job.charge c .timeout now :: r.jobs, r.stats,
        job.failureNotices c c.errJobTimeout ++ r.notices, job.jobId :: r.timedOut⟩
    else
      let r := sweepBy isDue now st rest
      ⟨job :: r.jobs, r.stats, r.notices, r.timedOut⟩

def wrappedSweep (h : Handler) (now : ℤ) : Sweep :=
  sweepBy c (wrappedDue h.jobTimeoutSeconds now) now h.stats h.jobs

def wrappedCheckTimeouts (h : Handler) (now : ℤ) : Reply :=
  ⟨(wrappedSweep c h now).timedOut.length,
    { h with jobs := (wrappedSweep c h now).jobs, stats := (wrappedSweep c h now).stats },
    (wrappedSweep c h now).notices⟩

def wrappedStep (h : Handler) : Call → Handler
  | .checkTimeouts now => (wrappedCheckTimeouts c h now).handler
  | call => step c h call

def reached (h : Handler) (calls : List Call) : Handler := calls.foldl (wrappedStep c) h

/-- Exactly the assigned jobs whose time is over are moved, and counted. -/
structure SweepExact (h : Handler) (now : ℤ) (r : Reply) : Prop where
  length : r.handler.jobs.length = h.jobs.length
  moved : ∀ (i : ℕ) job, h.jobs[i]? = some job → due h.jobTimeoutSeconds now job = true →
    r.handler.jobs[i]? = some (job.charge c .timeout now)
  kept : ∀ (i : ℕ) job, h.jobs[i]? = some job → due h.jobTimeoutSeconds now job = false →
    r.handler.jobs[i]? = some job
  ret : r.ret = h.jobs.countP (due h.jobTimeoutSeconds now)

def Early (h : Handler) (now : ℤ) : Prop :=
  ∃ job ∈ h.jobs, job.jobId ≠ 0 ∧ job.status = .assigned ∧
    timeoutMs h.jobTimeoutSeconds < now - job.startTime ∧
    now - job.startTime ≤ h.jobTimeoutSeconds * 1000

/-! ### The sweep -/

theorem sweepBy_due (timeoutSeconds now : ℤ) (st : Stats) (jobs : List Job) :
    sweepBy c (due timeoutSeconds now) now st jobs = sweepFrom c timeoutSeconds now st jobs := by
  induction jobs generalizing st with
  | nil => rfl
  | cons job rest ih => rw [sweepBy, sweepFrom, ih, ih]

theorem sweepBy_congr {isDue isDue' : Job → Bool} {jobs : List Job}
    (h : ∀ job ∈ jobs, isDue job = isDue' job) (now : ℤ) (st : Stats) :
    sweepBy c isDue now st jobs = sweepBy c isDue' now st jobs := by
  induction jobs generalizing st with
  | nil => rfl
  | cons job rest ih =>
    rw [List.forall_mem_cons] at h
    rw [sweepBy, sweepBy, h.1, ih h.2, ih h.2]

theorem sweepBy_jobs (isDue : Job → Bool) (now : ℤ) (st : Stats) (jobs : List Job) :
    (sweepBy c isDue now st jobs).jobs =
      jobs.map fun job => if isDue job = true then job.charge c .timeout now else job := by
  induction jobs generalizing st with
  | nil => rfl
  | cons job rest ih =>
    rw [sweepBy]
    split
    · rename_i hdue
      simp [ih, hdue]
    · rename_i hdue
      simp [ih, hdue]

theorem checkTimeouts_exact (h : Handler) (now : ℤ) :
    SweepExact c h now (jobHandlerCheckTimeouts c h now) := by
  constructor
  · rw [checkTimeouts_jobs, List.length_map]
  · intro i job hi hdue
    rw [checkTimeouts_jobs, List.getElem?_map, hi, Option.map_some, Job.expire, if_pos hdue]
  · intro i job hi hdue
    rw [checkTimeouts_jobs, List.getElem?_map, hi, Option.map_some, Job.expire, hdue]
    rfl
  · rw [jobHandlerCheckTimeouts, sweep, sweep_timedOut, List.length_map,
      List.countP_eq_length_filter]

/-! ### The product -/

theorem timeoutMs_le {t : ℤ} (ht : 0 ≤ t) : timeoutMs t ≤ t * 1000 := by
  have hpos : 0 ≤ t * 1000 := by omega
  unfold timeoutMs Int.bmod
  dsimp only
  split <;> omega

theorem timeoutMs_eq_iff {t : ℤ} (h1 : 1 ≤ t) : timeoutMs t = t * 1000 ↔ t ≤ 2147483 := by
  unfold timeoutMs Int.bmod
  dsimp only
  split <;> omega

theorem wrappedDue_eq {h : Handler} (ht : 1 ≤ h.jobTimeoutSeconds) {now : ℤ}
    (hearly : ¬ Early h now) {job : Job} (hjob : job ∈ h.jobs) :
    wrappedDue h.jobTimeoutSeconds now job = due h.jobTimeoutSeconds now job := by
  have hle := timeoutMs_le (by omega : 0 ≤ h.jobTimeoutSeconds)
  rw [wrappedDue, due, decide_eq_decide]
  refine and_congr_right fun hid => and_congr_right fun hstatus => ?_
  constructor
  · intro hwrapped
    by_contra hlate
    exact hearly ⟨job, hjob, hid, hstatus, hwrapped, Int.not_lt.mp hlate⟩
  · intro hlate
    omega

theorem wrappedCheckTimeouts_eq {h : Handler} (ht : 1 ≤ h.jobTimeoutSeconds) {now : ℤ}
    (hearly : ¬ Early h now) : wrappedCheckTimeouts c h now = jobHandlerCheckTimeouts c h now := by
  have hsweep : wrappedSweep c h now = sweep c h now := by
    rw [wrappedSweep, sweepBy_congr c (fun job hjob => wrappedDue_eq ht hearly hjob) now h.stats,
      sweepBy_due, sweep]
  rw [wrappedCheckTimeouts, hsweep, jobHandlerCheckTimeouts]

theorem sweepExact_iff {h : Handler} (ht : 1 ≤ h.jobTimeoutSeconds) (now : ℤ) :
    SweepExact c h now (wrappedCheckTimeouts c h now) ↔ ¬ Early h now := by
  constructor
  · rintro hexact ⟨job, hjob, hid, hstatus, hwrapped, hlate⟩
    obtain ⟨i, hi⟩ := List.mem_iff_getElem?.mp hjob
    have hdue : due h.jobTimeoutSeconds now job = false :=
      decide_eq_false fun hall => absurd hall.2.2 (Int.not_lt.mpr hlate)
    have hwrappedDue : wrappedDue h.jobTimeoutSeconds now job = true :=
      decide_eq_true ⟨hid, hstatus, hwrapped⟩
    have hkept := hexact.kept i job hi hdue
    change (sweepBy c (wrappedDue h.jobTimeoutSeconds now) now h.stats h.jobs).jobs[i]? =
      some job at hkept
    rw [sweepBy_jobs, List.getElem?_map, hi, Option.map_some, if_pos hwrappedDue] at hkept
    have hsame := congrArg Job.status (Option.some.inj hkept)
    rw [hstatus] at hsame
    rcases charge_status c job .timeout now with hp | hp
    · cases hp.symm.trans hsame
    · cases hp.symm.trans hsame
  · intro hearly
    rw [wrappedCheckTimeouts_eq c ht hearly]
    exact checkTimeouts_exact c h now

/-! ### Runs -/

theorem assignSelect_timeout (h : Handler) (workerSocket now : ℤ) :
    (assignSelect h workerSocket now).2.jobTimeoutSeconds = h.jobTimeoutSeconds := by
  unfold assignSelect
  split <;> rfl

theorem assignRollBack_timeout (h : Handler) (jobId : ℤ) :
    (assignRollBack h jobId).jobTimeoutSeconds = h.jobTimeoutSeconds := by
  unfold assignRollBack
  split <;> rfl

theorem assign_timeout (h : Handler) (workerSocket now : ℤ) (sent : Bool) :
    (jobHandlerAssign h workerSocket now sent).handler.jobTimeoutSeconds =
      h.jobTimeoutSeconds := by
  have hselect := assignSelect_timeout h workerSocket now
  unfold jobHandlerAssign
  split
  · rename_i heq
    rw [heq] at hselect
    exact hselect
  · rename_i heq
    rw [heq] at hselect
    split
    · exact hselect
    · exact (assignRollBack_timeout _ _).trans hselect

theorem wrappedStep_timeout (h : Handler) (call : Call) :
    (wrappedStep c h call).jobTimeoutSeconds = h.jobTimeoutSeconds := by
  cases call with
  | submit clientSocket jobType inputData inputSize alloc now =>
    simp only [wrappedStep, step, answer, jobHandlerSubmit]
    split
    · rfl
    · split
      · rfl
      · split <;> rfl
  | assign workerSocket now sent => exact assign_timeout h workerSocket now sent
  | complete jobId resultData resultSize alloc now =>
    simp only [wrappedStep, step, answer, jobHandlerComplete]
    split
    · rfl
    · split
      · rfl
      · split
        · rfl
        · split <;> rfl
  | fail jobId errorCode now =>
    simp only [wrappedStep, step, answer, jobHandlerFail]
    split
    · rfl
    · split <;> rfl
  | checkTimeouts now => rfl
  | getStatus jobId => rfl
  | getResult jobId pointers alloc => rfl
  | getStats => rfl

theorem reached_timeout (h : Handler) (calls : List Call) :
    (reached c h calls).jobTimeoutSeconds = h.jobTimeoutSeconds := by
  induction calls generalizing h with
  | nil => rfl
  | cons call calls ih => exact (ih (wrappedStep c h call)).trans (wrappedStep_timeout c h call)

theorem init_timeout {maxJobs t : ℤ} {alloc : Bool} {h : Handler}
    (hinit : jobHandlerInit maxJobs t alloc = (0, h)) : h.jobTimeoutSeconds = t := by
  unfold jobHandlerInit at hinit
  split at hinit
  · cases hinit
  · split at hinit
    · cases hinit
    · cases hinit
      rfl

theorem oldestPending_free {jobs : List Job} (h : ∀ job ∈ jobs, job.jobId = 0) (i : ℕ)
    (oldest : Option (ℕ × Job)) : oldestPending i oldest jobs = oldest := by
  induction jobs generalizing i with
  | nil => rfl
  | cons job rest ih =>
    rw [List.forall_mem_cons] at h
    rw [oldestPending, if_neg (by omega), ih h.2]

def oneJob : List Call := [.submit 0 0 none 0 true 0, .assign 0 0 true]

theorem oneJob_assigned {maxJobs t : ℤ} {alloc : Bool} {h : Handler}
    (hinit : jobHandlerInit maxJobs t alloc = (0, h)) :
    ∃ job ∈ (reached c h oneJob).jobs,
      job.jobId ≠ 0 ∧ job.status = .assigned ∧ job.startTime = 0 := by
  obtain ⟨hfilled, hjobs, _⟩ := init_filled hinit
  have hpos := init_pos hinit
  obtain ⟨n, hn⟩ : ∃ n, maxJobs.toNat = n + 1 := ⟨maxJobs.toNat - 1, by omega⟩
  rw [hn, List.replicate_succ] at hjobs
  have hslot : findFreeJobSlot h = some 0 := freeSlot_some hfilled (by simp [hjobs])
  have hnext : h.nextJobId = 1 := hfilled.next
  have hsubmitted : (wrappedStep c h (.submit 0 0 none 0 true 0)).jobs =
      newJob 1 0 0 none 0 0 :: List.replicate n freeJob := by
    simp [wrappedStep, step, answer, jobHandlerSubmit, hslot, hnext, hjobs]
  have hfree : ∀ job ∈ List.replicate n freeJob, job.jobId = 0 := by
    intro job hjob
    rw [List.eq_of_mem_replicate hjob]
    rfl
  have holdest : oldestPending 0 none (wrappedStep c h (.submit 0 0 none 0 true 0)).jobs =
      some (0, newJob 1 0 0 none 0 0) := by
    rw [hsubmitted, oldestPending, if_pos ⟨Int.one_pos, rfl, rfl⟩, oldestPending_free hfree]
  have hassigned : (reached c h oneJob).jobs =
      (newJob 1 0 0 none 0 0).handOut 0 0 :: List.replicate n freeJob := by
    show (jobHandlerAssign (wrappedStep c h (.submit 0 0 none 0 true 0)) 0 0 true).handler.jobs = _
    rw [jobHandlerAssign, assignSelect, holdest]
    show (wrappedStep c h (.submit 0 0 none 0 true 0)).jobs.set 0 _ = _
    rw [hsubmitted, List.set_cons_zero]
  exact ⟨_, hassigned ▸ List.mem_cons_self, Int.one_ne_zero, rfl, rfl⟩

def Exact (h : Handler) (now : ℤ) : Prop := SweepExact c h now (wrappedCheckTimeouts c h now)

theorem oneJob_early {maxJobs t : ℤ} {alloc : Bool} {h : Handler} (h1 : 1 ≤ t)
    (hbig : 2147483 < t) (hinit : jobHandlerInit maxJobs t alloc = (0, h)) :
    Early (reached c h oneJob) (t * 1000) := by
  have hne := mt (timeoutMs_eq_iff h1).mp (Int.not_le.mpr hbig)
  have hle := timeoutMs_le (by omega : 0 ≤ t)
  obtain ⟨job, hjob, hid, hstatus, hstart⟩ := oneJob_assigned c hinit
  have ht : (reached c h oneJob).jobTimeoutSeconds = t :=
    (reached_timeout c h oneJob).trans (init_timeout hinit)
  refine ⟨job, hjob, hid, hstatus, ?_, ?_⟩
  · rw [ht, hstart]
    omega
  · rw [ht, hstart]
    omega

theorem not_early {h : Handler} (h1 : 1 ≤ h.jobTimeoutSeconds)
    (hsmall : h.jobTimeoutSeconds ≤ 2147483) (now : ℤ) : ¬ Early h now := by
  rintro ⟨job, _, _, _, hwrapped, hlate⟩
  rw [(timeoutMs_eq_iff h1).mpr hsmall] at hwrapped
  omega

/-- Up to 2147483 seconds every sweep of every table is exact; beyond, one job is enough for
a sweep that is not. -/
theorem check_timeouts_exact_iff {maxJobs t : ℤ} {alloc : Bool} {h : Handler} (h1 : 1 ≤ t)
    (hinit : jobHandlerInit maxJobs t alloc = (0, h)) :
    (∀ table now, table.jobTimeoutSeconds = t → (Exact c table now ↔ ¬ Early table now)) ∧
      ((∀ table now, table.jobTimeoutSeconds = t → Exact c table now) ↔ t ≤ 2147483) ∧
      ((∀ calls now, Exact c (reached c h calls) now) ↔ t ≤ 2147483) := by
  have hiff : ∀ table now, table.jobTimeoutSeconds = t →
      (Exact c table now ↔ ¬ Early table now) := by
    rintro table now rfl
    exact sweepExact_iff c h1 now
  have hrun : ∀ calls, (reached c h calls).jobTimeoutSeconds = t :=
    fun calls => (reached_timeout c h calls).trans (init_timeout hinit)
  have hall : t ≤ 2147483 → ∀ table now, table.jobTimeoutSeconds = t → Exact c table now := by
    rintro hsmall table now rfl
    exact (hiff table now rfl).mpr (not_early h1 hsmall now)
  have hbound : (∀ calls now, Exact c (reached c h calls) now) → t ≤ 2147483 := by
    intro hexact
    by_contra hbig
    exact (hiff _ _ (hrun oneJob)).mp (hexact oneJob (t * 1000))
      (oneJob_early c h1 (Int.not_le.mp hbig) hinit)
  refine ⟨hiff, ⟨fun hexact => hbound fun calls now => hexact _ now (hrun calls), hall⟩, hbound, ?_⟩
  exact fun hsmall calls now => hall hsmall _ now (hrun calls)

/-- `DEFAULT_JOB_TIMEOUT`. -/
theorem check_timeouts_exact_iff_default :
    (∀ table now, table.jobTimeoutSeconds = 300 →
        (Exact threeRetries table now ↔ ¬ Early table now)) ∧
      ((∀ table now, table.jobTimeoutSeconds = 300 → Exact threeRetries table now) ↔
        (300 : ℤ) ≤ 2147483) ∧
      ((∀ calls now, Exact threeRetries
        (reached threeRetries ⟨[freeJob], 300, 1, ⟨0, 0, 0, 0⟩⟩ calls) now) ↔
        (300 : ℤ) ≤ 2147483) :=
  check_timeouts_exact_iff threeRetries (by decide) (rfl : jobHandlerInit 1 300 true = _)

/-- 2147484 seconds are 2147484000 ms, which an `int` has as a negative number: a job
that has just been handed out is taken back. -/
theorem job_timed_out_early :
    ((wrappedCheckTimeouts threeRetries
        (reached threeRetries ⟨[freeJob], 2147484, 1, ⟨0, 0, 0, 0⟩⟩ oneJob) 0).handler.jobs.map
        Job.status = [.pending]) ∧
      ¬ Exact threeRetries (reached threeRetries ⟨[freeJob], 2147484, 1, ⟨0, 0, 0, 0⟩⟩ oneJob) 0 := by
  have hpending : (wrappedCheckTimeouts threeRetries
      (reached threeRetries ⟨[freeJob], 2147484, 1, ⟨0, 0, 0, 0⟩⟩ oneJob) 0).handler.jobs.map
      Job.status = [.pending] := by decide
  refine ⟨hpending, ?_⟩
  intro hexact
  have hkept := hexact.kept 0 ((newJob 1 0 0 none 0 0).handOut 0 0) (by decide) (by decide)
  have hstatus := congrArg (Option.map Job.status) hkept
  rw [← List.getElem?_map, hpending] at hstatus
  cases hstatus

end Retry

end CSimples.JobTimeouts
