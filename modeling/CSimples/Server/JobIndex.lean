import CSimples.Server.JobSections

/-!
# The job table as an index of ids (server/job_handler.c)

Submissions fill the slots in order and number the jobs from 1; nothing else writes
the id of a slot, the client it belongs to or its input. Whatever the other sections
do to a job and to the counters, the table stays the list of accepted submissions,
and the four counters together their number.
-/

namespace CSimples.JobIndex
open JobHandler JobSections Run
open Block (map_set_slot)

structure Request where
  clientSocket : ℤ
  jobType : ℤ
  inputData : Option (List UInt8)
  inputSize : ℕ

/-- The members of a job that only a submission writes. -/
structure Entry where
  jobId : ℤ
  clientSocket : ℤ
  jobType : ℤ
  inputData : Option (List UInt8)
  inputSize : ℕ

def entry (job : Job) : Entry :=
  ⟨job.jobId, job.clientSocket, job.jobType, job.inputData, job.inputSize⟩

/-- What the `i`-th accepted submission leaves in its slot. -/
def entryOf (i : ℕ) (r : Request) : Entry :=
  ⟨i + 1, r.clientSocket, r.jobType, copyData r.inputData r.inputSize, r.inputSize⟩

def total (st : Stats) : ℤ := st.pending + st.running + st.completed + st.failed

def accepted (s : System) : Action → List Request
  | .submit clientSocket jobType inputData inputSize alloc now =>
    if (jobHandlerSubmit s.handler clientSocket jobType inputData inputSize alloc now).ret = -1
    then []
    else [⟨clientSocket, jobType, inputData, inputSize⟩]
  | _ => []

/-- A section, with the list of accepted submissions. -/
def next (c : Constants) (t : System × List Request) (a : Action) : System × List Request :=
  (step c t.1 a, t.2 ++ accepted t.1 a)

/-- The table after the given submissions were accepted. -/
structure AppendOnly (maxJobs : ℤ) (h : Handler) (requests : List Request) : Prop where
  le : requests.length ≤ maxJobs
  slots : h.jobs.length = maxJobs
  next_le : h.nextJobId ≤ 2147483647
  occupied : ∀ (i : ℕ) job, h.jobs[i]? = some job → (job.jobId ≠ 0 ↔ i < requests.length)
  slot : ∀ (i : ℕ) r, requests[i]? = some r → ∃ job, h.jobs[i]? = some job ∧
    job.jobId = i + 1 ∧ job.clientSocket = r.clientSocket ∧ job.jobType = r.jobType ∧
    job.inputData = copyData r.inputData r.inputSize ∧ job.inputSize = r.inputSize
  found : ∀ jobId : ℤ, 1 ≤ jobId → jobId ≤ requests.length →
    ∃ job, h.jobs[(jobId - 1).toNat]? = some job ∧
      findJobById h jobId = some ((jobId - 1).toNat, job)
  notFound : ∀ jobId : ℤ, jobId < 1 ∨ requests.length < jobId → findJobById h jobId = none
  counted : h.stats.pending + h.stats.running + h.stats.completed + h.stats.failed =
    requests.length

/-! ### What the other sections leave alone -/

structure Frame (h h' : Handler) : Prop where
  entries : h'.jobs.map entry = h.jobs.map entry
  next : h'.nextJobId = h.nextJobId
  total : total h'.stats = total h.stats

variable (c : Constants) {h h' : Handler} {s : System} {n i size : ℕ} {requests : List Request}

theorem Frame.refl (h : Handler) : Frame h h := ⟨rfl, rfl, rfl⟩

theorem Frame.put {a b : Job} {st : Stats} (hi : h.jobs[i]? = some a) (he : entry b = entry a)
    (ht : JobIndex.total st = JobIndex.total h.stats) : Frame h (h.put i b st) :=
  ⟨map_set_slot hi he, rfl, ht⟩

theorem entry_charge (job : Job) (final : JobStatus) (now : ℤ) :
    entry (job.charge c final now) = entry job := by
  unfold Job.charge
  split <;> rfl

theorem entry_expire (job : Job) (timeoutSeconds now : ℤ) :
    entry (job.expire c timeoutSeconds now) = entry job := by
  unfold Job.expire
  split
  · exact entry_charge c job .timeout now
  · rfl

theorem total_charge (st : Stats) (job : Job) : total (st.charge c job) = total st := by
  unfold Stats.charge
  split
  · simp only [total]
    omega
  · simp only [total]
    omega

theorem total_sweepFrom (timeoutSeconds now : ℤ) (st : Stats) (jobs : List Job) :
    total (sweepFrom c timeoutSeconds now st jobs).stats = total st := by
  induction jobs generalizing st with
  | nil => rfl
  | cons job rest ih =>
    rw [sweepFrom]
    split
    · rw [ih, total_charge]
    · exact ih st

theorem Frame.checkTimeouts (h : Handler) (now : ℤ) :
    Frame h (jobHandlerCheckTimeouts c h now).handler := by
  refine ⟨?_, rfl, total_sweepFrom c _ _ _ _⟩
  rw [checkTimeouts_jobs, List.map_map]
  exact List.map_congr_left fun job _ => entry_expire c job _ now

/-- A section that is no submission, also a roll-back that finds its job finished. -/
theorem step_frame (hf : Filled s.handler n) (a : Action) (ha : accepted s a = []) :
    Frame s.handler (step c s a).handler := by
  cases a with
  | submit clientSocket jobType inputData inputSize alloc now =>
    rcases submit_cases hf clientSocket jobType inputData inputSize alloc now with hr | ⟨_, _, hr⟩
    · have hsame : (step c s (.submit clientSocket jobType inputData inputSize alloc now)).handler =
          s.handler := by simp only [step, hr, System.next]
      rw [hsame]
      exact .refl _
    · exfalso
      have hret : s.handler.nextJobId ≠ -1 := by
        have hnext := hf.next
        omega
      simp [accepted, hr, hret] at ha
  | select workerSocket now =>
    rcases select_cases hf workerSocket now with hr | ⟨i, job, hi, _, _, hr⟩
    · rw [select_handler c hr]
      exact .refl _
    · rw [select_handler c hr]
      exact .put hi rfl (by simp only [total]; omega)
  | sent k ok =>
    cases hk : s.sending[k]? with
    | none =>
      have hsame : step c s (.sent k ok) = s := by simp only [step, hk]
      rw [hsame]
      exact .refl _
    | some msg =>
      cases ok with
      | true =>
        have hsame : (step c s (.sent k true)).handler = s.handler := by
          simp [step, hk, System.next]
        rw [hsame]
        exact .refl _
      | false =>
        rcases rollBack_cases hf msg.jobId with hr | ⟨i, job, hi, _, _, hr⟩
        · rw [rollBack_handler c hk hr]
          exact .refl _
        · rw [rollBack_handler c hk hr]
          exact .put hi rfl (by simp only [total]; omega)
  | complete jobId resultData resultSize alloc now =>
    rcases complete_cases hf jobId resultData resultSize alloc now with
      hr | ⟨i, job, hi, _, _, _, hr⟩
    · rw [complete_handler c hr]
      exact .refl _
    · rw [complete_handler c hr]
      exact .put hi rfl (by simp only [total]; omega)
  | fail jobId errorCode now =>
    rcases fail_cases c hf jobId errorCode now with hr | ⟨i, job, hi, _, _, _, hr⟩
    · rw [fail_handler c hr]
      exact .refl _
    · rw [fail_handler c hr]
      exact .put hi (entry_charge c job .failed now) (total_charge c _ job)
  | checkTimeouts now => exact .checkTimeouts c s.handler now
  | query => exact .refl _

/-! ### The index -/

/-- The entries of the table: those of the accepted submissions, then free slots. -/
structure Index (size : ℕ) (h : Handler) (requests : List Request) : Prop where
  le : requests.length ≤ size
  entries : h.jobs.map entry =
    requests.mapIdx entryOf ++ List.replicate (size - requests.length) (entry freeJob)
  next : h.nextJobId = requests.length + 1
  total : total h.stats = requests.length

theorem Index.length (hidx : Index size h requests) : h.jobs.length = size := by
  have hlen := congrArg List.length hidx.entries
  have hle := hidx.le
  simp only [List.length_map, List.length_append, List.length_mapIdx, List.length_replicate] at hlen
  omega

theorem Index.entry_used (hidx : Index size h requests) {job : Job} {r : Request}
    (hi : h.jobs[i]? = some job) (hr : requests[i]? = some r) : entry job = entryOf i r := by
  have hget := congrArg (fun l : List Entry => l[i]?) hidx.entries
  have hlt := (List.getElem?_eq_some_iff.mp hr).1
  simp only [List.getElem?_map, hi, Option.map_some] at hget
  rw [List.getElem?_append_left (by rw [List.length_mapIdx]; exact hlt), List.getElem?_mapIdx, hr]
    at hget
  exact Option.some.inj hget

theorem Index.entry_free (hidx : Index size h requests) {job : Job}
    (hi : h.jobs[i]? = some job) (hge : requests.length ≤ i) : entry job = entry freeJob := by
  have hget := congrArg (fun l : List Entry => l[i]?) hidx.entries
  have hlt := (List.getElem?_eq_some_iff.mp hi).1
  have hlen := hidx.length
  simp only [List.getElem?_map, hi, Option.map_some] at hget
  rw [List.getElem?_append_right (by rw [List.length_mapIdx]; exact hge), List.length_mapIdx,
    List.getElem?_replicate_of_lt (by omega)] at hget
  exact Option.some.inj hget

theorem Index.filled (hidx : Index size h requests) : Filled h requests.length := by
  refine ⟨hidx.next, by rw [hidx.length]; exact hidx.le, fun i job hi hlt => ?_,
    fun i job hi hge => ?_⟩
  · exact congrArg Entry.jobId (hidx.entry_used hi (List.getElem?_eq_getElem hlt))
  · exact congrArg Entry.jobId (hidx.entry_free hi hge)

theorem Index.frame (hidx : Index size h requests) (hf : Frame h h') : Index size h' requests :=
  ⟨hidx.le, hf.entries.trans hidx.entries, hf.next.trans hidx.next, hf.total.trans hidx.total⟩

theorem Index.submit (hidx : Index size h requests) (hn : requests.length < size) (r : Request)
    (now : ℤ) :
    Index size (h.add requests.length
      (newJob h.nextJobId r.clientSocket r.jobType r.inputData r.inputSize now))
      (requests ++ [r]) := by
  have hlen : (requests ++ [r]).length = requests.length + 1 := List.length_append
  have hfree : size - requests.length = size - (requests.length + 1) + 1 := by omega
  have hentry : entry (newJob h.nextJobId r.clientSocket r.jobType r.inputData r.inputSize now) =
      entryOf requests.length r := by
    simp only [entry, newJob, entryOf, hidx.next]
  refine ⟨by rw [hlen]; exact hn, ?_, ?_, ?_⟩
  · rw [Handler.add, List.map_set, hidx.entries, hentry,
      List.set_append_right _ _ (Nat.le_of_eq List.length_mapIdx), List.length_mapIdx, Nat.sub_self,
      hfree, List.replicate_succ, List.set_cons_zero, List.mapIdx_concat, List.append_assoc, hlen]
    rfl
  · rw [hlen, Handler.add, hidx.next]
    rfl
  · have htotal := hidx.total
    simp only [JobIndex.total, Handler.add] at htotal ⊢
    omega

theorem index_next (t : System × List Request) (a : Action) (hidx : Index size t.1.handler t.2) :
    Index size (next c t a).1.handler (next c t a).2 := by
  obtain ⟨s, requests⟩ := t
  by_cases ha : accepted s a = []
  · have hlist : (next c (s, requests) a).2 = requests := by
      rw [next, ha, List.append_nil]
    rw [hlist]
    exact hidx.frame (step_frame c hidx.filled a ha)
  · cases a with
    | submit clientSocket jobType inputData inputSize alloc now =>
      rcases submit_cases hidx.filled clientSocket jobType inputData inputSize alloc now with
        hr | ⟨hn, _, hr⟩
      · exact absurd (by simp only [accepted, hr, if_true]) ha
      · rw [hidx.length] at hn
        have hid : s.handler.nextJobId = requests.length + 1 := hidx.next
        have hret : s.handler.nextJobId ≠ -1 := by omega
        have hnext := hidx.submit hn ⟨clientSocket, jobType, inputData, inputSize⟩ now
        simp only [next, accepted, step, hr, hret, if_false, System.next]
        exact hnext
    | _ => exact absurd rfl ha

theorem Index.appendOnly {maxJobs : ℤ} (hidx : Index size h requests) (hsize : size = maxJobs)
    (hmax : maxJobs < 2147483647) : AppendOnly maxJobs h requests := by
  have hf := hidx.filled
  have hle := hidx.le
  have hlen := hidx.length
  refine ⟨by omega, by omega, by rw [hidx.next]; omega, fun i job hi => hf.jobId_ne_zero hi,
    fun i r hr => ?_, fun jobId hlow hhigh => ?_, fun jobId hout => ?_, hidx.total⟩
  · have hlt := (List.getElem?_eq_some_iff.mp hr).1
    have hi : h.jobs[i]? = some h.jobs[i] := List.getElem?_eq_getElem (by omega)
    have he := hidx.entry_used hi hr
    exact ⟨_, hi, congrArg Entry.jobId he, congrArg Entry.clientSocket he,
      congrArg Entry.jobType he, congrArg Entry.inputData he, congrArg Entry.inputSize he⟩
  · have hi : h.jobs[(jobId - 1).toNat]? = some h.jobs[(jobId - 1).toNat] :=
      List.getElem?_eq_getElem (by omega)
    exact ⟨_, hi, hf.find.mpr ⟨hi, by omega, by omega⟩⟩
  · cases hfind : findJobById h jobId with
    | none => rfl
    | some found =>
      obtain ⟨_, hlt, hid⟩ := hf.find.mp hfind
      omega

/-- After any interleaving the table is the list of accepted submissions. -/
theorem job_table_index {maxJobs timeoutSeconds : ℤ} {alloc : Bool}
    (hinit : jobHandlerInit maxJobs timeoutSeconds alloc = (0, h)) (hmax : maxJobs < 2147483647)
    (as : List Action) :
    Along (next c) (fun t => AppendOnly maxJobs t.1.handler t.2) (start h, []) as := by
  obtain ⟨hfilled, hjobs, hstats⟩ := init_filled hinit
  have hpos : 0 < maxJobs := by
    by_contra hle
    rw [jobHandlerInit, if_pos (by omega)] at hinit
    cases hinit
  have hstart : Index maxJobs.toNat (start h).handler [] := by
    refine ⟨Nat.zero_le _, ?_, hfilled.next, ?_⟩
    · show h.jobs.map entry = _
      rw [hjobs, List.map_replicate]
      rfl
    · show total h.stats = _
      rw [hstats]
      rfl
  refine along_mono (P := fun t => Index maxJobs.toNat t.1.handler t.2) (fun t hidx => ?_)
    (along_of_step (index_next c) hstart as)
  exact hidx.appendOnly (Int.toNat_of_nonneg (by omega)) hmax

theorem job_table_index_lateCompletion :
    Along (next threeRetries) (fun t => AppendOnly 1 t.1.handler t.2) (start oneSlot, [])
      lateCompletion :=
  job_table_index threeRetries oneSlot_init (by decide) lateCompletion

end CSimples.JobIndex
