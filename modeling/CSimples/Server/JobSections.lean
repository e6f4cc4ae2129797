import CSimples.Lib.Run
import CSimples.Server.JobHandler

/-!
# Job handler calls that overlap (server/job_handler.c)

Every call is one section under `g_job_mutex`, but for `job_handler_assign`: it
gives the mutex up while it sends, and takes it again when the send has failed.
That roll-back does not look at the status of the job, which may have been
completed or given up in the meantime.
-/

namespace CSimples.JobSections
open JobHandler Run
open Block (slots_set slots_map)

structure Submission where
  jobId : ℤ
  jobType : ℤ
  inputData : Option (List UInt8)
  inputSize : ℕ

def Submission.bytes (sub : Submission) : List UInt8 := (sub.inputData.getD []).take sub.inputSize

structure Completion where
  jobId : ℤ
  resultData : Option (List UInt8)
  resultSize : ℕ

/-- The handler, the messages that are being sent, and what has happened so far:
accepted submissions and completions, messages built, and jobs seen given up. -/
structure System where
  handler : Handler
  sending : List JobAssigned
  submitted : List Submission
  built : List JobAssigned
  done : List Completion
  lost : List (ℤ × JobStatus)

inductive Action where
  | submit (clientSocket jobType : ℤ) (inputData : Option (List UInt8)) (inputSize : ℕ)
      (alloc : Bool) (now : ℤ)
  | select (workerSocket now : ℤ)
  | sent (k : ℕ) (ok : Bool)
  | complete (jobId : ℤ) (resultData : Option (List UInt8)) (resultSize : ℕ) (alloc : Bool)
      (now : ℤ)
  | fail (jobId errorCode now : ℤ)
  | checkTimeouts (now : ℤ)
  | query

def lostJobs (h : Handler) : List (ℤ × JobStatus) :=
  (h.jobs.filter fun job => decide (job.jobId ≠ 0) && job.status.isLost).map fun job =>
    (job.jobId, job.status)

def System.next (s : System) (h : Handler) : System :=
  { s with handler := h, lost := s.lost ++ lostJobs h }

variable (c : Constants)

def step (s : System) : Action → System
  | .submit clientSocket jobType inputData inputSize alloc now =>
    let r := jobHandlerSubmit s.handler clientSocket jobType inputData inputSize alloc now
    { s.next r.handler with
      submitted := if r.ret = -1 then s.submitted
        else s.submitted ++ [⟨r.ret, jobType, inputData, inputSize⟩] }
  | .select workerSocket now =>
    let r := assignSelect s.handler workerSocket now
    { s.next r.2 with
      sending := s.sending ++ r.1.toList
      built := s.built ++ r.1.toList }
  | .sent k ok => match s.sending[k]? with
    | none => s
    | some msg =>
      { s.next (if ok then s.handler else assignRollBack s.handler msg.jobId) with
        sending := s.sending.eraseIdx k }
  | .complete jobId resultData resultSize alloc now =>
    let r := jobHandlerComplete s.handler jobId resultData resultSize alloc now
    { s.next r.handler with
      done := if r.ret = 0 then s.done ++ [⟨jobId, resultData, resultSize⟩] else s.done }
  | .fail jobId errorCode now => s.next (jobHandlerFail c s.handler jobId errorCode now).handler
  | .checkTimeouts now => s.next (jobHandlerCheckTimeouts c s.handler now).handler
  | .query => s

def start (h : Handler) : System := ⟨h, [], [], [], [], []⟩

/-! ### Finished jobs -/

/-- What was completed can be fetched, and what was given up stays given up. -/
def Finished (s : System) : Prop :=
  (∀ d ∈ s.done, jobHandlerGetStatus s.handler d.jobId = JobStatus.completed.code ∧
    jobHandlerGetResult s.handler d.jobId true true =
      (0, some (copyData d.resultData d.resultSize, d.resultSize))) ∧
  ∀ e ∈ s.lost, jobHandlerGetStatus s.handler e.1 = e.2.code

/-- A roll-back finds its job pending or assigned. -/
def Spares (s : System) : Action → Prop
  | .sent k false => ∀ msg i job, s.sending[k]? = some msg →
      findJobById s.handler msg.jobId = some (i, job) → job.status.isFinal = false
  | _ => True

/-- Jobs in use that are final are the same afterwards. -/
def Keeps (n : ℕ) (h h' : Handler) : Prop :=
  ∀ (i : ℕ) job, h.jobs[i]? = some job → i < n → job.status.isFinal = true →
    h'.jobs[i]? = some job

structure Inv (s : System) (n : ℕ) : Prop where
  filled : Filled s.handler n
  done : ∀ d ∈ s.done, ∃ (i : ℕ) (job : Job), s.handler.jobs[i]? = some job ∧ i < n ∧
    d.jobId = i + 1 ∧ job.status = .completed ∧
    job.resultData = copyData d.resultData d.resultSize ∧ job.resultSize = d.resultSize
  done_all : ∀ (i : ℕ) job, s.handler.jobs[i]? = some job → i < n → job.status = .completed →
    ∃ d ∈ s.done, d.jobId = i + 1
  lost : ∀ e ∈ s.lost, ∃ (i : ℕ) (job : Job), s.handler.jobs[i]? = some job ∧ i < n ∧
    e.1 = i + 1 ∧ job.status = e.2 ∧ e.2.isLost = true
  lost_all : ∀ (i : ℕ) job, s.handler.jobs[i]? = some job → i < n →
    job.status.isLost = true → ∃ e ∈ s.lost, e.1 = i + 1 ∧ e.2 = job.status

variable {s : System} {n : ℕ}

theorem getStatus_of_slot {h : Handler} (hf : Filled h n) {i : ℕ} {job : Job}
    (hi : h.jobs[i]? = some job) (hlt : i < n) :
    jobHandlerGetStatus h (i + 1) = job.status.code := by
  rw [jobHandlerGetStatus, hf.find.mpr ⟨hi, hlt, rfl⟩]

theorem getResult_of_slot {h : Handler} (hf : Filled h n) {i : ℕ} {job : Job}
    (hi : h.jobs[i]? = some job) (hlt : i < n) (hs : job.status = .completed) :
    jobHandlerGetResult h (i + 1) true true =
      (0, some (copyData job.resultData job.resultSize, job.resultSize)) := by
  rw [jobHandlerGetResult, hf.find.mpr ⟨hi, hlt, rfl⟩]
  simp [hs]

theorem Inv.finished (hinv : Inv s n) : Finished s := by
  constructor
  · intro d hd
    obtain ⟨i, job, hi, hlt, hid, hs, hdata, hsize⟩ := hinv.done d hd
    rw [hid, getStatus_of_slot hinv.filled hi hlt, getResult_of_slot hinv.filled hi hlt hs, hs,
      hdata, hsize, copyData_copyData]
    exact ⟨rfl, rfl⟩
  · intro e he
    obtain ⟨i, job, hi, hlt, hid, hs, _⟩ := hinv.lost e he
    rw [hid, getStatus_of_slot hinv.filled hi hlt, hs]

/-! ### Steps of the invariant -/

theorem mem_lostJobs {h : Handler} (hf : Filled h n) {e : ℤ × JobStatus} : e ∈ lostJobs h ↔
    ∃ (i : ℕ) (job : Job), h.jobs[i]? = some job ∧ i < n ∧ e = ((i : ℤ) + 1, job.status) ∧
      job.status.isLost = true := by
  rw [lostJobs, List.mem_map]
  constructor
  · rintro ⟨job, hjob, rfl⟩
    obtain ⟨hmem, hcond⟩ := List.mem_filter.mp hjob
    obtain ⟨hid, hl⟩ := Bool.and_eq_true_iff.mp hcond
    obtain ⟨i, hi⟩ := List.mem_iff_getElem?.mp hmem
    have hlt := (hf.jobId_ne_zero hi).mp (of_decide_eq_true hid)
    exact ⟨i, job, hi, hlt, by rw [hf.used i job hi hlt], hl⟩
  · rintro ⟨i, job, hi, hlt, rfl, hl⟩
    have hid := (hf.jobId_ne_zero hi).mpr hlt
    exact ⟨job, List.mem_filter.mpr ⟨List.mem_of_getElem? hi, by simp [hid, hl]⟩,
      by rw [hf.used i job hi hlt]⟩

theorem isFinal_of_isLost {status : JobStatus} (h : status.isLost = true) :
    status.isFinal = true := by
  cases status <;> simp_all [JobStatus.isLost, JobStatus.isFinal]

theorem Inv.next {t : System} {n' : ℕ} (hinv : Inv s n) (hf : Filled t.handler n')
    (hle : n ≤ n') (hk : Keeps n s.handler t.handler)
    (hlost : t.lost = s.lost ++ lostJobs t.handler) (hsub : ∀ d ∈ s.done, d ∈ t.done)
    (hdone : ∀ d ∈ t.done, d ∈ s.done ∨ ∃ (i : ℕ) (job : Job), t.handler.jobs[i]? = some job ∧
      i < n' ∧ d.jobId = i + 1 ∧ job.status = .completed ∧
      job.resultData = copyData d.resultData d.resultSize ∧ job.resultSize = d.resultSize)
    (hall : ∀ (i : ℕ) job, t.handler.jobs[i]? = some job → i < n' → job.status = .completed →
      (s.handler.jobs[i]? = some job ∧ i < n) ∨ ∃ d ∈ t.done, d.jobId = i + 1) : Inv t n' := by
  constructor
  · exact hf
  · intro d hd
    rcases hdone d hd with hold | hnew
    · obtain ⟨i, job, hi, hlt, hid, hs, hr⟩ := hinv.done d hold
      exact ⟨i, job, hk i job hi hlt (by rw [hs]; rfl), by omega, hid, hs, hr⟩
    · exact hnew
  · intro i job hi hlt hs
    rcases hall i job hi hlt hs with ⟨hi', hlt'⟩ | hnew
    · obtain ⟨d, hd, hid⟩ := hinv.done_all i job hi' hlt' hs
      exact ⟨d, hsub d hd, hid⟩
    · exact hnew
  · intro e he
    rw [hlost] at he
    rcases List.mem_append.mp he with hold | hnew
    · obtain ⟨i, job, hi, hlt, hid, hs, hl⟩ := hinv.lost e hold
      exact ⟨i, job, hk i job hi hlt (by rw [hs]; exact isFinal_of_isLost hl), by omega, hid, hs,
        hl⟩
    · obtain ⟨i, job, hi, hlt, rfl, hl⟩ := (mem_lostJobs hf).mp hnew
      exact ⟨i, job, hi, hlt, rfl, rfl, hl⟩
  · intro i job hi hlt hl
    refine ⟨((i : ℤ) + 1, job.status), ?_, rfl, rfl⟩
    rw [hlost]
    exact List.mem_append_right _ ((mem_lostJobs hf).mpr ⟨i, job, hi, hlt, rfl, hl⟩)

theorem Keeps.refl (n : ℕ) (h : Handler) : Keeps n h h := fun _ _ hi _ _ => hi

theorem Keeps.put {h : Handler} {i : ℕ} {a : Job} (hi : h.jobs[i]? = some a)
    (ha : a.status.isFinal = false) (b : Job) (st : Stats) : Keeps n h (h.put i b st) := by
  intro k job hk _ hfinal
  have hne : i ≠ k := by
    rintro rfl
    rw [hi] at hk
    cases hk
    rw [ha] at hfinal
    cases hfinal
  rw [Handler.put, List.getElem?_set_ne hne]
  exact hk

theorem Inv.same {t : System} (hinv : Inv s n) (hf : Filled t.handler n)
    (hk : Keeps n s.handler t.handler) (hlost : t.lost = s.lost ++ lostJobs t.handler)
    (hdone : t.done = s.done)
    (hall : ∀ (i : ℕ) job, t.handler.jobs[i]? = some job → job.status = .completed →
      s.handler.jobs[i]? = some job) : Inv t n := by
  refine hinv.next hf (Nat.le_refl n) hk hlost ?_ ?_ ?_
  · rw [hdone]
    exact fun d hd => hd
  · rw [hdone]
    exact fun d hd => .inl hd
  · exact fun i job hi hlt hs => .inl ⟨hall i job hi hs, hlt⟩

theorem Inv.unchanged {t : System} (hinv : Inv s n) (hh : t.handler = s.handler)
    (hlost : t.lost = s.lost ++ lostJobs t.handler) (hdone : t.done = s.done) : Inv t n := by
  refine hinv.same ?_ ?_ hlost hdone ?_
  · rw [hh]
    exact hinv.filled
  · rw [hh]
    exact .refl n _
  · rw [hh]
    exact fun i job hi _ => hi

theorem Inv.put {t : System} (hinv : Inv s n) {i : ℕ} {a b : Job} {st : Stats}
    (hi : s.handler.jobs[i]? = some a) (ha : a.status.isFinal = false)
    (hid : b.jobId = a.jobId) (hb : b.status ≠ .completed) (hh : t.handler = s.handler.put i b st)
    (hlost : t.lost = s.lost ++ lostJobs t.handler) (hdone : t.done = s.done) : Inv t n := by
  refine hinv.same ?_ ?_ hlost hdone ?_
  · rw [hh]
    exact hinv.filled.put hi hid st
  · rw [hh]
    exact Keeps.put hi ha b st
  · rw [hh]
    exact slots_set (P := fun (k : ℕ) (job : Job) => job.status = .completed →
      s.handler.jobs[k]? = some job) (fun hs => absurd hs hb) fun k job _ hk _ => hk

theorem charge_ne_completed (job : Job) {final : JobStatus} (hf : final ≠ .completed) (now : ℤ) :
    (job.charge c final now).status ≠ .completed := by
  rcases charge_status c job final now with hs | hs
  · simp [hs]
  · rw [hs]
    exact hf

theorem select_handler {workerSocket now : ℤ} {msg : Option JobAssigned} {h' : Handler}
    (hr : assignSelect s.handler workerSocket now = (msg, h')) :
    (step c s (.select workerSocket now)).handler = h' := by
  simp only [step, hr, System.next]

theorem rollBack_handler {k : ℕ} {msg : JobAssigned} (hk : s.sending[k]? = some msg) {h' : Handler}
    (hr : assignRollBack s.handler msg.jobId = h') :
    (step c s (.sent k false)).handler = h' := by
  simp [step, hk, System.next, hr]

theorem fail_handler {jobId errorCode now : ℤ} {r : Reply}
    (hr : jobHandlerFail c s.handler jobId errorCode now = r) :
    (step c s (.fail jobId errorCode now)).handler = r.handler := by
  simp only [step, hr, System.next]

theorem complete_handler {jobId : ℤ} {resultData : Option (List UInt8)} {resultSize : ℕ}
    {alloc : Bool} {now : ℤ} {r : Reply}
    (hr : jobHandlerComplete s.handler jobId resultData resultSize alloc now = r) :
    (step c s (.complete jobId resultData resultSize alloc now)).handler = r.handler := by
  simp only [step, hr, System.next]

theorem inv_submit (hinv : Inv s n) (clientSocket jobType : ℤ) (inputData : Option (List UInt8))
    (inputSize : ℕ) (alloc : Bool) (now : ℤ) :
    ∃ n', Inv (step c s (.submit clientSocket jobType inputData inputSize alloc now)) n' := by
  rcases submit_cases hinv.filled clientSocket jobType inputData inputSize alloc now with
    hr | ⟨hn, _, hr⟩
  · refine ⟨n, hinv.unchanged ?_ rfl rfl⟩
    simp [step, hr, System.next]
  · refine ⟨n + 1, hinv.next ?_ (Nat.le_succ n) ?_ rfl (fun d hd => hd) (fun d hd => .inl hd) ?_⟩
    · simp only [step, hr, System.next]
      exact hinv.filled.add hn rfl
    · simp only [step, hr, System.next]
      intro i job hi hlt _
      rw [Handler.add, List.getElem?_set_ne (by omega)]
      exact hi
    · simp only [step, hr, System.next, Handler.add]
      refine slots_set (P := fun (k : ℕ) (job : Job) => k < n + 1 → job.status = .completed →
        (s.handler.jobs[k]? = some job ∧ k < n) ∨ ∃ d ∈ s.done, d.jobId = k + 1)
        (fun _ hs => ?_) fun k job hk hget hlt _ => .inl ⟨hget, by omega⟩
      cases hs

theorem inv_complete (hinv : Inv s n) (jobId : ℤ) (resultData : Option (List UInt8))
    (resultSize : ℕ) (alloc : Bool) (now : ℤ) :
    Inv (step c s (.complete jobId resultData resultSize alloc now)) n := by
  rcases complete_cases hinv.filled jobId resultData resultSize alloc now with
    hr | ⟨i, a, hi, hlt, rfl, ha, hr⟩
  · refine hinv.unchanged ?_ rfl ?_
    · simp [step, hr, System.next]
    · simp [step, hr, System.next]
  · refine hinv.next ?_ (Nat.le_refl n) ?_ rfl ?_ ?_ ?_
    · simp only [step, hr, System.next]
      exact hinv.filled.put (b := a.finish resultData resultSize now) hi rfl _
    · simp only [step, hr, System.next]
      exact Keeps.put hi (by rw [ha]; rfl) _ _
    · intro d hd
      simp [step, hr, System.next, hd]
    · intro d hd
      simp only [step, hr, System.next, if_true, List.mem_append, List.mem_singleton] at hd ⊢
      rcases hd with hold | rfl
      · exact .inl hold
      · exact .inr ⟨i, a.finish resultData resultSize now, put_self hi _ _, hlt, rfl, rfl, rfl, rfl⟩
    · simp only [step, hr, System.next, if_true, Handler.put]
      refine slots_set (P := fun (k : ℕ) (job : Job) => k < n → job.status = .completed →
        (s.handler.jobs[k]? = some job ∧ k < n) ∨
          ∃ d ∈ s.done ++ [(⟨i + 1, resultData, resultSize⟩ : Completion)], d.jobId = k + 1)
        (fun _ _ => .inr ⟨_, List.mem_append_right _ (List.mem_singleton_self _), rfl⟩)
        fun k job _ hget hlt _ => .inl ⟨hget, hlt⟩

theorem inv_sweep (hinv : Inv s n) (now : ℤ) : Inv (step c s (.checkTimeouts now)) n := by
  have hjobs := checkTimeouts_jobs c s.handler now
  have hopen : ∀ job : Job, job.status.isFinal = true →
      job.expire c s.handler.jobTimeoutSeconds now = job := fun job hfinal => by
    refine if_neg fun hdue => ?_
    obtain ⟨_, hs, _⟩ := of_decide_eq_true hdue
    rw [hs] at hfinal
    cases hfinal
  refine hinv.same (hinv.filled.checkTimeouts c now) ?_ rfl rfl ?_
  · intro i job hi _ hfinal
    simp only [step, System.next, hjobs, List.getElem?_map, hi, Option.map_some, hopen job hfinal]
  · simp only [step, System.next, hjobs]
    refine slots_map (P := fun (k : ℕ) (job : Job) => job.status = .completed →
      s.handler.jobs[k]? = some job) fun k a ha hs => ?_
    unfold Job.expire at hs ⊢
    split
    · rename_i hdue
      rw [if_pos hdue] at hs
      exact absurd hs (charge_ne_completed c a (by simp) now)
    · exact ha

theorem inv_sent (hinv : Inv s n) {k : ℕ} {ok : Bool} (hspares : Spares s (.sent k ok)) :
    Inv (step c s (.sent k ok)) n := by
  cases hk : s.sending[k]? with
  | none =>
    simp only [step, hk]
    exact hinv
  | some msg =>
    cases ok with
    | true =>
      refine hinv.unchanged ?_ ?_ ?_
      · simp [step, hk, System.next]
      · simp [step, hk, System.next]
      · simp [step, hk, System.next]
    | false =>
      rcases rollBack_cases hinv.filled msg.jobId with hr | ⟨i, job, hi, hlt, hid, hr⟩
      · refine hinv.unchanged ?_ ?_ ?_
        · simp [step, hk, System.next, hr]
        · simp [step, hk, System.next]
        · simp [step, hk, System.next]
      · have hopen := hspares msg i job hk (hinv.filled.find.mpr ⟨hi, hlt, hid⟩)
        refine hinv.put (b := job.takeBack) hi hopen rfl (by simp [Job.takeBack])
          (rollBack_handler c hk hr) ?_ ?_
        · simp [step, hk, System.next]
        · simp [step, hk, System.next]

theorem inv_step (s : System) (a : Action) (hinv : ∃ n, Inv s n) (ha : Spares s a) :
    ∃ n, Inv (step c s a) n := by
  obtain ⟨n, hinv⟩ := hinv
  cases a with
  | submit clientSocket jobType inputData inputSize alloc now =>
    exact inv_submit c hinv clientSocket jobType inputData inputSize alloc now
  | select workerSocket now =>
    rcases select_cases hinv.filled workerSocket now with hr | ⟨i, job, hi, hlt, hp, hr⟩
    · exact ⟨n, hinv.unchanged (select_handler c hr) rfl rfl⟩
    · exact ⟨n, hinv.put (b := job.handOut workerSocket now) hi (by rw [hp]; rfl) rfl
        (by simp [Job.handOut]) (select_handler c hr) rfl rfl⟩
  | sent k ok => exact ⟨n, inv_sent c hinv ha⟩
  | complete jobId resultData resultSize alloc now =>
    exact ⟨n, inv_complete c hinv jobId resultData resultSize alloc now⟩
  | fail jobId errorCode now =>
    rcases fail_cases c hinv.filled jobId errorCode now with hr | ⟨i, job, hi, hlt, _, hs, hr⟩
    · exact ⟨n, hinv.unchanged (fail_handler c hr) rfl rfl⟩
    · exact ⟨n, hinv.put hi (by rw [hs]; rfl) (charge_jobId c job .failed now)
        (charge_ne_completed c job (by simp) now) (fail_handler c hr) rfl rfl⟩
  | checkTimeouts now => exact ⟨n, inv_sweep c hinv now⟩
  | query => exact ⟨n, hinv⟩

/-- Any other roll-back undoes a final status, and that job was recorded. -/
theorem not_finished_of_rollBack (s : System) (a : Action) (hinv : ∃ n, Inv s n)
    (ha : ¬ Spares s a) : ¬ Finished (step c s a) := by
  obtain ⟨n, hinv⟩ := hinv
  cases a with
  | sent k ok =>
    cases ok with
    | true => exact absurd trivial ha
    | false =>
      simp only [Spares, not_forall, Bool.not_eq_false] at ha
      obtain ⟨msg, i, job, hk, hfind, hfinal⟩ := ha
      obtain ⟨hi, hlt, hid⟩ := hinv.filled.find.mp hfind
      have hr : assignRollBack s.handler msg.jobId = s.handler.put i job.takeBack
          { s.handler.stats with
            pending := s.handler.stats.pending + 1
            running := s.handler.stats.running - 1 } := by
        simp only [assignRollBack, hfind]
      have hstatus : jobHandlerGetStatus (step c s (.sent k false)).handler (i + 1) =
          JobStatus.pending.code := by
        rw [rollBack_handler c hk hr]
        exact getStatus_of_slot (hinv.filled.put (b := job.takeBack) hi rfl _)
          (put_self hi job.takeBack _) hlt
      rintro ⟨hdone, hlost⟩
      by_cases hs : job.status = .completed
      · obtain ⟨d, hd, hdid⟩ := hinv.done_all i job hi hlt hs
        have hgone := (hdone d (by simpa [step, hk, System.next] using hd)).1
        rw [hdid, hstatus] at hgone
        exact absurd hgone (by decide)
      · have hl : job.status.isLost = true := by
          cases hst : job.status <;> simp_all [JobStatus.isFinal, JobStatus.isLost]
        obtain ⟨e, he, heid, hes⟩ := hinv.lost_all i job hi hlt hl
        have hgone := hlost e (by simp [step, hk, System.next, he])
        rw [heid, hstatus, hes] at hgone
        cases hst : job.status <;> simp_all [JobStatus.code, JobStatus.isLost]
  | _ => exact absurd trivial ha

/-- A finished job stays finished along a run exactly when no roll-back of the run
finds its job finished. -/
theorem finished_iff_spares {h : Handler} {maxJobs timeoutSeconds : ℤ} {alloc : Bool}
    (hinit : jobHandlerInit maxJobs timeoutSeconds alloc = (0, h)) (as : List Action) :
    Along (step c) Finished (start h) as ↔ Meets (step c) Spares (start h) as := by
  have h0 : ∃ n, Inv (start h) n :=
    ⟨0, (init_filled hinit).1, by simp [start], fun i _ _ hlt => absurd hlt (Nat.not_lt_zero i),
      by simp [start], fun i _ _ hlt => absurd hlt (Nat.not_lt_zero i)⟩
  refine along_iff_meets_of_inv (I := fun s => ∃ n, Inv s n) (fun s hs => ?_) (inv_step c)
    (not_finished_of_rollBack c) h0 as
  obtain ⟨n, hinv⟩ := hs
  exact hinv.finished

def oneSlot : Handler := ⟨[freeJob], 10, 1, ⟨0, 0, 0, 0⟩⟩

theorem oneSlot_init : jobHandlerInit 1 10 true = (0, oneSlot) := rfl

/-- Job 1 times out with worker 5 and is selected for worker 6; worker 5 completes
it, and then the send to worker 6 fails. -/
def lateCompletion : List Action :=
  [.submit 7 1 (some [104, 105]) 2 true 100, .select 5 200, .sent 0 true, .checkTimeouts 20000,
    .select 6 20100, .complete 1 (some [104, 105]) 2 true 20200, .sent 0 false]

theorem finished_iff_spares_lateCompletion :
    Along (step threeRetries) Finished (start oneSlot) lateCompletion ↔
      Meets (step threeRetries) Spares (start oneSlot) lateCompletion :=
  finished_iff_spares threeRetries oneSlot_init lateCompletion

/-- The completed job is pending again. -/
theorem completed_job_lost :
    (lateCompletion.foldl (step threeRetries) (start oneSlot)).done.map Completion.jobId = [1] ∧
      jobHandlerGetStatus (lateCompletion.foldl (step threeRetries) (start oneSlot)).handler 1 =
        JobStatus.pending.code ∧
      ¬ Along (step threeRetries) Finished (start oneSlot) lateCompletion := by
  have hdone : (lateCompletion.foldl (step threeRetries) (start oneSlot)).done.map
      Completion.jobId = [1] := by decide
  have hstatus : jobHandlerGetStatus
      (lateCompletion.foldl (step threeRetries) (start oneSlot)).handler 1 =
        JobStatus.pending.code := by decide
  refine ⟨hdone, hstatus, fun hall => ?_⟩
  obtain ⟨hcompleted, _⟩ := along_iff_prefix.mp hall lateCompletion [] (List.append_nil _).symm
  obtain ⟨d, hd, hid⟩ := List.mem_map.mp (hdone ▸ List.mem_singleton_self (1 : ℤ))
  have hgone := (hcompleted d hd).1
  rw [hid, hstatus] at hgone
  exact absurd hgone (by decide)

end CSimples.JobSections
