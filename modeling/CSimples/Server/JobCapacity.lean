import CSimples.Server.JobOrder

/-!
# The capacity of the job table (server/job_handler.c:54-62, 113-170)

A submission needs a slot whose id is 0. No function but the clean-up gives a
slot back, whatever became of its job, so the table takes `max_jobs` jobs in all.
-/

namespace CSimples.JobCapacity
open JobHandler JobSections JobOrder Keyed

def unfinished (h : Handler) : ℕ :=
  h.jobs.countP fun job => decide (job.jobId ≠ 0) && !job.status.isFinal

/-- With fewer than `max_jobs` unfinished jobs, a valid submission is accepted. -/
def TakesWork (maxJobs : ℤ) (h : Handler) : Prop :=
  unfinished h < maxJobs → ∀ (clientSocket jobType : ℤ) (inputData : Option (List UInt8))
    (inputSize : ℕ) (now : ℤ), ¬ (inputData = none ∧ inputSize > 0) →
    0 < (jobHandlerSubmit h clientSocket jobType inputData inputSize true now).ret

variable {h : Handler} {n : ℕ}

theorem freeSlot_some (hf : Filled h n) (hn : n < h.jobs.length) : findFreeJobSlot h = some n := by
  apply position_eq_some.mpr
  have hget : h.jobs[n]? = some h.jobs[n] := List.getElem?_eq_getElem hn
  refine ⟨⟨h.jobs[n], hget, hf.free n _ hget (Nat.le_refl n)⟩, ?_⟩
  intro j hj b hb
  exact (hf.jobId_ne_zero hb).mpr hj

theorem freeSlot_none (hf : Filled h n) (hn : h.jobs.length ≤ n) : findFreeJobSlot h = none := by
  apply position_eq_none.mpr
  intro job hjob
  obtain ⟨i, hi⟩ := List.mem_iff_getElem?.mp hjob
  obtain ⟨hlt, _⟩ := List.getElem?_eq_some_iff.mp hi
  exact (hf.jobId_ne_zero hi).mpr (by omega)

theorem submit_accepted (hf : Filled h n) (hn : n < h.jobs.length) (clientSocket jobType : ℤ)
    {inputData : Option (List UInt8)} {inputSize : ℕ} (hdata : ¬ (inputData = none ∧ inputSize > 0))
    (now : ℤ) : 0 < (jobHandlerSubmit h clientSocket jobType inputData inputSize true now).ret := by
  have hnext := hf.next
  rw [jobHandlerSubmit, if_neg hdata, freeSlot_some hf hn]
  simp only [Bool.true_eq_false, and_false, if_false]
  omega

theorem submit_refused (hf : Filled h n) (hn : h.jobs.length ≤ n) (clientSocket jobType : ℤ)
    (inputData : Option (List UInt8)) (inputSize : ℕ) (alloc : Bool) (now : ℤ) :
    (jobHandlerSubmit h clientSocket jobType inputData inputSize alloc now).ret = -1 := by
  rw [jobHandlerSubmit, freeSlot_none hf hn]
  split <;> rfl

theorem unfinished_eq (hf : Filled h n) : unfinished h = h.jobs.length ↔
    n = h.jobs.length ∧ ∀ job ∈ h.jobs, job.jobId ≠ 0 → job.status.isFinal = false := by
  have hle := hf.le
  rw [unfinished, List.countP_eq_length]
  constructor
  · intro hall
    constructor
    · by_contra hne
      have hlt : n < h.jobs.length := by omega
      have hget : h.jobs[n]? = some h.jobs[n] := List.getElem?_eq_getElem hlt
      have hfree := hf.free n _ hget (Nat.le_refl n)
      have hused := hall _ (List.getElem_mem hlt)
      simp [hfree] at hused
    · intro job hjob _
      have hopen := hall job hjob
      simp only [Bool.and_eq_true, Bool.not_eq_true'] at hopen
      exact hopen.2
  · rintro ⟨hfull, hopen⟩ job hjob
    obtain ⟨i, hi⟩ := List.mem_iff_getElem?.mp hjob
    obtain ⟨hlt, _⟩ := List.getElem?_eq_some_iff.mp hi
    have hid := (hf.jobId_ne_zero hi).mpr (by omega)
    simp [hid, hopen job hjob hid]

/-- The table takes work as long as fewer than `max_jobs` jobs were ever submitted; once
it is full it is in order only while no job is finished. -/
theorem takesWork_iff {maxJobs : ℤ} (hf : Filled h n) (hmax : (h.jobs.length : ℤ) = maxJobs) :
    TakesWork maxJobs h ↔
      (n : ℤ) < maxJobs ∨ ∀ job ∈ h.jobs, job.jobId ≠ 0 → job.status.isFinal = false := by
  have hle := hf.le
  by_cases hn : n < h.jobs.length
  · constructor
    · intro _
      left
      omega
    · intro _ _ clientSocket jobType inputData inputSize now hdata
      exact submit_accepted hf hn clientSocket jobType hdata now
  · constructor
    · intro htakes
      right
      have hcount : unfinished h ≤ h.jobs.length := List.countP_le_length
      have hall : unfinished h = h.jobs.length := by
        by_contra hne
        have hacc := htakes (by omega) 0 0 none 0 0 (by simp)
        rw [submit_refused hf (by omega)] at hacc
        omega
      exact ((unfinished_eq hf).mp hall).2
    · rintro (hlt | hopen) hroom
      · omega
      · have hall := (unfinished_eq hf).mpr ⟨by omega, hopen⟩
        omega

/-! ### Every reachable state -/

variable (c : Constants)

theorem init_pos {maxJobs timeoutSeconds : ℤ} {alloc : Bool}
    (hinit : jobHandlerInit maxJobs timeoutSeconds alloc = (0, h)) : 0 < maxJobs := by
  by_contra hle
  rw [jobHandlerInit, if_pos (by omega)] at hinit
  cases hinit

theorem capacity_kept_iff {maxJobs timeoutSeconds : ℤ} {alloc : Bool}
    (hinit : jobHandlerInit maxJobs timeoutSeconds alloc = (0, h)) (as : List Action) :
    TakesWork maxJobs (as.foldl (step c) (start h)).handler ↔
      ((as.foldl (step c) (start h)).submitted.length : ℤ) < maxJobs ∨
        ∀ job ∈ (as.foldl (step c) (start h)).handler.jobs,
          job.jobId ≠ 0 → job.status.isFinal = false := by
  have hpos := init_pos hinit
  have hinv := inv_run c (inv_start hinit) as
  have hlen := hinv.length
  exact takesWork_iff hinv.filled (by omega)

/-- Worker 5 completes the one job the table has room for. -/
def onceThrough : List Action :=
  [.submit 7 1 none 0 true 100, .select 5 200, .sent 0 true, .complete 1 none 0 true 300]

theorem capacity_kept_iff_onceThrough :
    TakesWork 1 (onceThrough.foldl (step threeRetries) (start oneSlot)).handler ↔
      ((onceThrough.foldl (step threeRetries) (start oneSlot)).submitted.length : ℤ) < 1 ∨
        ∀ job ∈ (onceThrough.foldl (step threeRetries) (start oneSlot)).handler.jobs,
          job.jobId ≠ 0 → job.status.isFinal = false :=
  capacity_kept_iff threeRetries oneSlot_init onceThrough

theorem capacity_lost :
    unfinished (onceThrough.foldl (step threeRetries) (start oneSlot)).handler = 0 ∧
      (jobHandlerSubmit (onceThrough.foldl (step threeRetries) (start oneSlot)).handler
        7 1 none 0 true 400).ret = -1 ∧
      ¬ TakesWork 1 (onceThrough.foldl (step threeRetries) (start oneSlot)).handler := by
  have hnone : unfinished (onceThrough.foldl (step threeRetries) (start oneSlot)).handler = 0 := by
    decide
  have hret : (jobHandlerSubmit (onceThrough.foldl (step threeRetries) (start oneSlot)).handler
      7 1 none 0 true 400).ret = -1 := by decide
  refine ⟨hnone, hret, ?_⟩
  intro htakes
  have hacc := htakes (by rw [hnone]; decide) 7 1 none 0 400 (by simp)
  rw [hret] at hacc
  exact absurd hacc (by decide)

end CSimples.JobCapacity
