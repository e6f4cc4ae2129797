import CSimples.Server.JobSections
import CSimples.Worker.JobProcessing

/-!
# From a submission to its result (server/job_handler.c, worker/worker.c)

Jobs are submitted, handed out, retried and answered in any order. Ids are never
used twice and a stored input never changes, so every message built for a job
carries the input it was submitted with; whichever worker answers, and however
late, what is stored is the output for that input.
-/

namespace CSimples.JobResults
open JobHandler JobSections JobProcessing Run
open Block (slots_set slots_map)

/-- Submitted buffers hold as many bytes as they are said to, and a job is completed
only with what `worker_process_job` made of a message built for it. -/
def Honest (s : System) : Action → Prop
  | .submit _ _ inputData inputSize _ _ => ∀ data, inputData = some data → inputSize ≤ data.length
  | .complete jobId resultData resultSize _ _ => ∃ msg ∈ s.built, msg.jobId = jobId ∧
      ∃ mem, workerProcessJob msg.jobType msg.data msg.dataSize true mem =
        (0, some (resultData, resultSize))
  | _ => True

def Computed (sub : Submission) (resultData : Option (List UInt8)) (resultSize : ℕ) : Prop :=
  jobOutput sub.jobType sub.bytes = some (resultData.getD []) ∧
    resultSize = sub.bytes.length

/-- A successful `job_handler_get_result` gives the output for the submission that
was answered with this job. -/
def Correct (s : System) : Prop :=
  ∀ jobId pointers alloc resultData resultSize,
    jobHandlerGetResult s.handler jobId pointers alloc = (0, some (resultData, resultSize)) →
      (∃ sub ∈ s.submitted, sub.jobId = jobId) ∧
      ∀ sub ∈ s.submitted, sub.jobId = jobId → Computed sub resultData resultSize

/-! ### The invariant -/

structure Stores (sub : Submission) (job : Job) : Prop where
  jobType : job.jobType = sub.jobType
  inputData : job.inputData = copyData sub.inputData sub.inputSize
  inputSize : job.inputSize = sub.inputSize

/-- The slot has the job of the submission of this number, and its output if any. -/
def Holds (submitted : List Submission) (i : ℕ) (job : Job) : Prop :=
  ∃ sub, submitted[i]? = some sub ∧ Stores sub job ∧
    (job.status = .completed → job.resultData = copyData job.resultData job.resultSize ∧
      Computed sub job.resultData job.resultSize)

structure Inv (s : System) (n : ℕ) : Prop where
  filled : Filled s.handler n
  submitted_length : s.submitted.length = n
  submission : ∀ (k : ℕ) sub, s.submitted[k]? = some sub →
    sub.jobId = k + 1 ∧ sub.bytes.length = sub.inputSize
  stores : ∀ (i : ℕ) job, s.handler.jobs[i]? = some job → i < n → Holds s.submitted i job
  built : ∀ msg ∈ s.built, ∃ (i : ℕ) (sub : Submission), s.submitted[i]? = some sub ∧
    msg.jobId = i + 1 ∧ msg.jobType = sub.jobType ∧
    msg.data = copyData sub.inputData sub.inputSize ∧ msg.dataSize = sub.inputSize

variable (c : Constants) {s : System} {n : ℕ}

theorem copyData_getD (data : Option (List UInt8)) (size : ℕ) :
    (copyData data size).getD [] = (data.getD []).take size := by
  unfold copyData
  split
  · rfl
  · rename_i hsize
    obtain rfl : size = 0 := by omega
    simp

theorem Inv.correct (hinv : Inv s n) : Correct s := by
  intro jobId pointers alloc resultData resultSize hget
  unfold jobHandlerGetResult at hget
  split at hget
  · cases hget
  · split at hget
    · cases hget
    · rename_i i job hfind
      obtain ⟨hi, hlt, rfl⟩ := hinv.filled.find.mp hfind
      obtain ⟨sub, hsub, _, hres⟩ := hinv.stores i job hi hlt
      split at hget
      · cases hget
      · rename_i hstatus
        obtain ⟨hcopy, hcomputed⟩ := hres (not_not.mp hstatus)
        split at hget
        · cases hget
        · cases hget
          rw [← hcopy]
          refine ⟨⟨sub, List.mem_of_getElem? hsub, (hinv.submission i sub hsub).1⟩, ?_⟩
          intro sub' hmem hid
          obtain ⟨k, hk⟩ := List.mem_iff_getElem?.mp hmem
          have hkid := (hinv.submission k sub' hk).1
          obtain rfl : k = i := by omega
          rw [hsub] at hk
          cases hk
          exact hcomputed

/-! ### Steps of the invariant -/

structure SameInput (a b : Job) : Prop where
  jobId : b.jobId = a.jobId
  jobType : b.jobType = a.jobType
  inputData : b.inputData = a.inputData
  inputSize : b.inputSize = a.inputSize

theorem SameInput.stores {a b : Job} (hab : SameInput a b) {sub : Submission}
    (h : Stores sub a) : Stores sub b :=
  ⟨hab.jobType.trans h.jobType, hab.inputData.trans h.inputData, hab.inputSize.trans h.inputSize⟩

theorem SameInput.holds {a b : Job} (hab : SameInput a b) {submitted : List Submission} {i : ℕ}
    (h : Holds submitted i a) (hb : b.status ≠ .completed) : Holds submitted i b := by
  obtain ⟨sub, hsub, hstores, _⟩ := h
  exact ⟨sub, hsub, hab.stores hstores, fun hs => absurd hs hb⟩

theorem charge_sameInput (job : Job) (final : JobStatus) (now : ℤ) :
    SameInput job (job.charge c final now) := by
  unfold Job.charge
  split
  · exact ⟨rfl, rfl, rfl, rfl⟩
  · exact ⟨rfl, rfl, rfl, rfl⟩

theorem Inv.unchanged {t : System} (hinv : Inv s n) (hh : t.handler = s.handler)
    (hsub : t.submitted = s.submitted) (hbuilt : t.built = s.built) : Inv t n := by
  obtain ⟨h1, h2, h3, h4, h5⟩ := hinv
  exact ⟨by rwa [hh], by rwa [hsub], by rwa [hsub], by rwa [hh, hsub], by rwa [hbuilt, hsub]⟩

theorem Inv.put {t : System} (hinv : Inv s n) {i : ℕ} {a b : Job} {st : Stats}
    (hi : s.handler.jobs[i]? = some a) (hid : b.jobId = a.jobId) (hb : Holds s.submitted i b)
    (hh : t.handler = s.handler.put i b st) (hsub : t.submitted = s.submitted)
    (hbuilt : t.built = s.built) : Inv t n := by
  obtain ⟨h1, h2, h3, h4, h5⟩ := hinv
  refine ⟨?_, by rwa [hsub], by rwa [hsub], ?_, by rwa [hbuilt, hsub]⟩
  · rw [hh]
    exact h1.put hi hid st
  · rw [hh, hsub]
    exact slots_set (P := fun (k : ℕ) (job : Job) => k < n → Holds s.submitted k job)
      (fun _ => hb) fun k job _ hk => h4 k job hk

theorem Inv.build {t : System} (hinv : Inv s n) {i : ℕ} {job : Job}
    (hi : s.handler.jobs[i]? = some job) (hlt : i < n) (hh : t.handler = s.handler)
    (hsub : t.submitted = s.submitted) (hbuilt : t.built = s.built ++ [job.message]) :
    Inv t n := by
  obtain ⟨h1, h2, h3, h4, h5⟩ := hinv
  obtain ⟨sub, hget, hstores, _⟩ := h4 i job hi hlt
  refine ⟨by rwa [hh], by rwa [hsub], by rwa [hsub], by rwa [hh, hsub], ?_⟩
  rw [hbuilt, hsub]
  intro msg hmsg
  rcases List.mem_append.mp hmsg with hold | hnew
  · exact h5 msg hold
  · obtain rfl := List.mem_singleton.mp hnew
    exact ⟨i, sub, hget, h1.used i job hi hlt, hstores.jobType, hstores.inputData,
      hstores.inputSize⟩

theorem getElem?_append_of_some {l l' : List Submission} {i : ℕ} {sub : Submission}
    (h : l[i]? = some sub) : (l ++ l')[i]? = some sub := by
  rw [List.getElem?_append_left (List.getElem?_eq_some_iff.mp h).1]
  exact h

theorem Holds.append {l l' : List Submission} {i : ℕ} {job : Job} (h : Holds l i job) :
    Holds (l ++ l') i job := by
  obtain ⟨sub, hsub, hrest⟩ := h
  exact ⟨sub, getElem?_append_of_some hsub, hrest⟩

theorem bytes_length {jobId jobType : ℤ} {inputData : Option (List UInt8)} {inputSize : ℕ}
    (hdata : ¬ (inputData = none ∧ inputSize > 0))
    (hlen : ∀ data, inputData = some data → inputSize ≤ data.length) :
    (⟨jobId, jobType, inputData, inputSize⟩ : Submission).bytes.length = inputSize := by
  rw [Submission.bytes, List.length_take]
  cases inputData with
  | none =>
    have hzero : ¬ inputSize > 0 := fun hpos => hdata ⟨rfl, hpos⟩
    simp only [Option.getD_none, List.length_nil]
    omega
  | some data => exact Nat.min_eq_left (hlen data rfl)

theorem inv_submit (hinv : Inv s n) {clientSocket jobType : ℤ} {inputData : Option (List UInt8)}
    {inputSize : ℕ} {alloc : Bool} {now : ℤ}
    (hhonest : Honest s (.submit clientSocket jobType inputData inputSize alloc now)) :
    ∃ n', Inv (step c s (.submit clientSocket jobType inputData inputSize alloc now)) n' := by
  rcases submit_cases hinv.filled clientSocket jobType inputData inputSize alloc now with
    hr | ⟨hn, hdata, hr⟩
  · refine ⟨n, hinv.unchanged ?_ ?_ ?_⟩
    · simp [step, hr, System.next]
    · simp [step, hr, System.next]
    · simp [step, hr, System.next]
  · have hnext := hinv.filled.next
    have hlen := hinv.submitted_length
    have hret : s.handler.nextJobId ≠ -1 := by omega
    have hsub : (step c s (.submit clientSocket jobType inputData inputSize alloc now)).submitted =
        s.submitted ++ [⟨s.handler.nextJobId, jobType, inputData, inputSize⟩] := by
      simp [step, hr, hret]
    refine ⟨n + 1, ?_, ?_, ?_, ?_, ?_⟩
    · simp only [step, hr, System.next]
      exact hinv.filled.add hn rfl
    · rw [hsub, List.length_append, hlen]
      rfl
    · rw [hsub]
      intro k sub hk
      by_cases hlt : k < n
      · rw [List.getElem?_append_left (by omega)] at hk
        exact hinv.submission k sub hk
      · rw [List.getElem?_append_right (by omega), hlen] at hk
        obtain ⟨hzero, rfl⟩ : k - n = 0 ∧ (⟨s.handler.nextJobId, jobType, inputData,
            inputSize⟩ : Submission) = sub := by
          simpa [List.getElem?_singleton] using hk
        exact ⟨by simp only; omega, bytes_length hdata hhonest⟩
    · rw [hsub]
      simp only [step, hr, System.next, Handler.add]
      refine slots_set (P := fun (k : ℕ) (job : Job) => k < n + 1 →
        Holds (s.submitted ++ [⟨s.handler.nextJobId, jobType, inputData, inputSize⟩]) k job)
        (fun _ => ?_) fun k job hk hget hlt => ?_
      · refine ⟨⟨s.handler.nextJobId, jobType, inputData, inputSize⟩, ?_, ⟨rfl, rfl, rfl⟩, ?_⟩
        · rw [List.getElem?_append_right (by omega), hlen, Nat.sub_self]
          rfl
        · intro hs
          cases hs
      · have hold : Holds s.submitted k job := hinv.stores k job hget (by omega)
        exact hold.append
    · rw [hsub]
      intro msg hmsg
      obtain ⟨i, sub, hget, hrest⟩ := hinv.built msg (by simpa [step, hr, System.next] using hmsg)
      exact ⟨i, sub, getElem?_append_of_some hget, hrest⟩

/-- The output for a message built for the job, if it is what the job is completed
with, is the output for its submission. -/
theorem inv_complete (hinv : Inv s n) {jobId : ℤ} {resultData : Option (List UInt8)}
    {resultSize : ℕ} {alloc : Bool} {now : ℤ}
    (hhonest : Honest s (.complete jobId resultData resultSize alloc now)) :
    Inv (step c s (.complete jobId resultData resultSize alloc now)) n := by
  rcases complete_cases hinv.filled jobId resultData resultSize alloc now with
    hr | ⟨i, a, hi, hlt, rfl, ha, hr⟩
  · refine hinv.unchanged ?_ ?_ ?_
    · simp [step, hr, System.next]
    · simp [step, hr, System.next]
    · simp [step, hr, System.next]
  · obtain ⟨msg, hmsg, hmid, mem, hwork⟩ := hhonest
    obtain ⟨k, sub, hk, hkid, htype, hmdata, hmsize⟩ := hinv.built msg hmsg
    obtain rfl : k = i := by omega
    obtain ⟨sub', hsub', hstores, _⟩ := hinv.stores k a hi hlt
    rw [hk] at hsub'
    cases hsub'
    have hbytes : msg.data.getD [] = sub.bytes := by rw [hmdata, copyData_getD, Submission.bytes]
    have hsize : (msg.data.getD []).length = msg.dataSize := by
      rw [hbytes, hmsize]
      exact (hinv.submission k sub hk).2
    obtain ⟨hres, out, rfl, hout⟩ := process_output hsize hwork
    rw [hbytes, htype] at hout
    have houtlen := jobOutput_length hout
    rw [hbytes] at hsize
    have htake : out.take resultSize = out := List.take_of_length_le (by omega)
    have hh : (step c s (.complete (k + 1) (some out) resultSize alloc now)).handler =
        s.handler.put k (a.finish (some out) resultSize now) { s.handler.stats with
          running := s.handler.stats.running - 1
          completed := s.handler.stats.completed + 1 } := by
      simp only [step, hr, System.next]
    refine hinv.put (b := a.finish (some out) resultSize now) hi rfl ?_ hh ?_ ?_
    · refine ⟨sub, hk, ⟨hstores.jobType, hstores.inputData, hstores.inputSize⟩, fun _ =>
        ⟨(copyData_copyData _ _).symm, ?_, ?_⟩⟩
      · rw [hout, Job.finish, copyData_getD, Option.getD_some, htake]
      · exact (by omega : resultSize = sub.bytes.length)
    · simp [step, System.next]
    · simp [step, System.next]

theorem inv_sweep (hinv : Inv s n) (now : ℤ) : Inv (step c s (.checkTimeouts now)) n := by
  have hjobs := checkTimeouts_jobs c s.handler now
  refine ⟨hinv.filled.checkTimeouts c now, hinv.submitted_length, hinv.submission, ?_, hinv.built⟩
  simp only [step, System.next, hjobs]
  refine slots_map (P := fun (k : ℕ) (job : Job) => k < n → Holds s.submitted k job)
    fun k a ha hlt => ?_
  have hold := hinv.stores k a ha hlt
  unfold Job.expire
  split
  · exact (charge_sameInput c a .timeout now).holds hold (charge_ne_completed c a (by simp) now)
  · exact hold

theorem inv_select (hinv : Inv s n) (workerSocket now : ℤ) :
    Inv (step c s (.select workerSocket now)) n := by
  rcases select_cases hinv.filled workerSocket now with hr | ⟨i, job, hi, hlt, hp, hr⟩
  · refine hinv.unchanged (select_handler c hr) ?_ ?_
    · simp [step, System.next]
    · simp [step, hr, System.next]
  · have hbuild := hinv.build (t := { s with built := s.built ++ [job.message] }) hi hlt rfl rfl rfl
    have hsame : SameInput job (job.handOut workerSocket now) := ⟨rfl, rfl, rfl, rfl⟩
    refine hbuild.put hi hsame.jobId (hsame.holds (hinv.stores i job hi hlt) ?_)
      (select_handler c hr) ?_ ?_
    · simp [Job.handOut]
    · simp [step, System.next]
    · simp [step, hr, System.next]

theorem inv_sent (hinv : Inv s n) (k : ℕ) (ok : Bool) : Inv (step c s (.sent k ok)) n := by
  cases hk : s.sending[k]? with
  | none =>
    simp only [step, hk]
    exact hinv
  | some msg =>
    have hsub : (step c s (.sent k ok)).submitted = s.submitted := by simp [step, hk, System.next]
    have hbuilt : (step c s (.sent k ok)).built = s.built := by simp [step, hk, System.next]
    cases ok with
    | true =>
      refine hinv.unchanged ?_ hsub hbuilt
      simp [step, hk, System.next]
    | false =>
      rcases rollBack_cases hinv.filled msg.jobId with hr | ⟨i, job, hi, hlt, _, hr⟩
      · exact hinv.unchanged (rollBack_handler c hk hr) hsub hbuilt
      · have hsame : SameInput job job.takeBack := ⟨rfl, rfl, rfl, rfl⟩
        refine hinv.put hi hsame.jobId (hsame.holds (hinv.stores i job hi hlt) ?_)
          (rollBack_handler c hk hr) hsub hbuilt
        simp [Job.takeBack]

theorem inv_fail (hinv : Inv s n) (jobId errorCode now : ℤ) :
    Inv (step c s (.fail jobId errorCode now)) n := by
  rcases fail_cases c hinv.filled jobId errorCode now with hr | ⟨i, job, hi, hlt, _, hs, hr⟩
  · exact hinv.unchanged (fail_handler c hr) rfl rfl
  · have hsame := charge_sameInput c job .failed now
    exact hinv.put hi hsame.jobId (hsame.holds (hinv.stores i job hi hlt)
      (charge_ne_completed c job (by simp) now)) (fail_handler c hr) rfl rfl

theorem inv_step (s : System) (a : Action) (hinv : ∃ n, Inv s n) (ha : Honest s a) :
    ∃ n, Inv (step c s a) n := by
  obtain ⟨n, hinv⟩ := hinv
  cases a with
  | submit clientSocket jobType inputData inputSize alloc now => exact inv_submit c hinv ha
  | select workerSocket now => exact ⟨n, inv_select c hinv workerSocket now⟩
  | sent k ok => exact ⟨n, inv_sent c hinv k ok⟩
  | complete jobId resultData resultSize alloc now => exact ⟨n, inv_complete c hinv ha⟩
  | fail jobId errorCode now => exact ⟨n, inv_fail c hinv jobId errorCode now⟩
  | checkTimeouts now => exact ⟨n, inv_sweep c hinv now⟩
  | query => exact ⟨n, hinv⟩

/-- With honest workers, every result that can be fetched is the right one. -/
theorem results_correct {h : Handler} {maxJobs timeoutSeconds : ℤ} {alloc : Bool}
    (hinit : jobHandlerInit maxJobs timeoutSeconds alloc = (0, h)) {as : List Action}
    (has : Meets (step c) Honest (start h) as) : Along (step c) Correct (start h) as := by
  have h0 : ∃ n, Inv (start h) n :=
    ⟨0, (init_filled hinit).1, rfl, by simp [start],
      fun i _ _ hlt => absurd hlt (Nat.not_lt_zero i), by simp [start]⟩
  refine along_mono (fun s hs => ?_) (along_of_meets (inv_step c) h0 has)
  obtain ⟨n, hinv⟩ := hs
  exact hinv.correct

/-- Worker 5 answers late, after the job has been handed to worker 6 as well. -/
theorem results_correct_lateCompletion :
    Along (step threeRetries) Correct (start oneSlot) lateCompletion := by
  refine results_correct threeRetries oneSlot_init ⟨?_, trivial, trivial, trivial, trivial, ?_,
    trivial, trivial⟩
  · intro data hdata
    cases hdata
    decide
  · exact ⟨⟨1, 1, some [104, 105], 2⟩, by decide, rfl, some ⟨[0, 0], rfl⟩, rfl⟩

end CSimples.JobResults
