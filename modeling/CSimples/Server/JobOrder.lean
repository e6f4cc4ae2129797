import CSimples.Server.JobSections

/-!
# The order of dispatch (server/job_handler.c:172-215)

`job_handler_assign` takes the first slot among the pending jobs of least submit
time. Slots are taken in the order of submission and never given back, so the
submit times in the table are the clock readings of the submissions, in order;
where these do not go back, the slot taken is that of the least job id.
-/

namespace CSimples.JobOrder
open JobHandler JobSections Block

/-! ### The scan for the oldest pending job -/

def Waiting (job : Job) : Prop := 0 < job.jobId ∧ job.status = .pending

theorem oldestPending_none {start : ℕ} {oldest : Option (ℕ × Job)} {jobs : List Job} :
    oldestPending start oldest jobs = none ↔ oldest = none ∧ ∀ job ∈ jobs, ¬ Waiting job := by
  induction jobs generalizing start oldest with
  | nil => simp [oldestPending]
  | cons b rest ih =>
    rw [oldestPending]
    split
    · rename_i hb
      have hw : Waiting b := ⟨hb.1, hb.2.1⟩
      simp [ih, hw]
    · rename_i hb
      rw [ih, List.forall_mem_cons]
      constructor
      · rintro ⟨rfl, hrest⟩
        exact ⟨rfl, fun hw => hb ⟨hw.1, hw.2, rfl⟩, hrest⟩
      · rintro ⟨rfl, _, hrest⟩
        exact ⟨rfl, hrest⟩

/-- The job found was submitted before the one that the scan starts with, unless it is that. -/
theorem oldestPending_kept {start i : ℕ} {o : ℕ × Job} {jobs : List Job} {job : Job}
    (h : oldestPending start (some o) jobs = some (i, job)) :
    o = (i, job) ∨ job.submitTime < o.2.submitTime := by
  induction jobs generalizing start o with
  | nil => exact .inl (Option.some.inj h)
  | cons b rest ih =>
    rw [oldestPending] at h
    split at h
    · rename_i hb
      have hlt : b.submitTime < o.2.submitTime := of_decide_eq_true hb.2.2
      rcases ih h with heq | hlt'
      · obtain ⟨_, rfl⟩ := Prod.mk.inj heq
        exact .inr hlt
      · exact .inr (Int.lt_trans hlt' hlt)
    · exact ih h

theorem oldestPending_first {start i : ℕ} {oldest : Option (ℕ × Job)} {jobs : List Job}
    {job : Job} (hold : ∀ o, oldest = some o → o.1 < start)
    (h : oldestPending start oldest jobs = some (i, job)) (k : ℕ) {other : Job}
    (hk : jobs[k]? = some other) (hw : Waiting other) (hi : start + k < i) :
    job.submitTime < other.submitTime := by
  induction jobs generalizing start oldest k with
  | nil => simp at hk
  | cons b rest ih =>
    rw [oldestPending] at h
    split at h
    · rename_i hb
      cases k with
      | zero =>
        obtain rfl : b = other := by simpa using hk
        rcases oldestPending_kept h with heq | hlt
        · obtain ⟨rfl, _⟩ := Prod.mk.inj heq
          omega
        · exact hlt
      | succ k =>
        have hnew : ∀ o, some (start, b) = some o → o.1 < start + 1 := by
          intro o ho
          cases ho
          exact Nat.lt_succ_self start
        exact ih hnew h k (by simpa using hk) (by omega)
    · rename_i hb
      cases k with
      | zero =>
        obtain rfl : b = other := by simpa using hk
        cases ho : oldest with
        | none => exact absurd ⟨hw.1, hw.2, by rw [ho]; rfl⟩ hb
        | some o =>
          have hle : o.2.submitTime ≤ b.submitTime := by
            by_contra hlt
            exact hb ⟨hw.1, hw.2, by rw [ho]; exact decide_eq_true (by omega)⟩
          have hidx := hold o ho
          rw [ho] at h
          rcases oldestPending_kept h with rfl | hlt
          · have : i < start := hidx
            omega
          · omega
      | succ k =>
        have hnext : ∀ o, oldest = some o → o.1 < start + 1 :=
          fun o ho => Nat.lt_succ_of_lt (hold o ho)
        exact ih hnext h k (by simpa using hk) (by omega)

theorem oldestPending_least {start i : ℕ} {oldest : Option (ℕ × Job)} {jobs : List Job}
    {job other : Job} (h : oldestPending start oldest jobs = some (i, job)) (hm : other ∈ jobs)
    (hw : Waiting other) : job.submitTime ≤ other.submitTime := by
  induction jobs generalizing start oldest with
  | nil => cases hm
  | cons b rest ih =>
    rw [oldestPending] at h
    split at h
    · rcases List.mem_cons.mp hm with rfl | hrest
      · rcases oldestPending_kept h with heq | hlt
        · obtain ⟨_, rfl⟩ := Prod.mk.inj heq
          exact Int.le_refl _
        · exact Int.le_of_lt hlt
      · exact ih h hrest
    · rename_i hb
      rcases List.mem_cons.mp hm with rfl | hrest
      · cases ho : oldest with
        | none => exact absurd ⟨hw.1, hw.2, by rw [ho]; rfl⟩ hb
        | some o =>
          have hle : o.2.submitTime ≤ other.submitTime := by
            by_contra hlt
            exact hb ⟨hw.1, hw.2, by rw [ho]; exact decide_eq_true (by omega)⟩
          rw [ho] at h
          rcases oldestPending_kept h with rfl | hlt
          · exact hle
          · omega
      · exact ih h hrest

/-- A pending job of the least submit time, and of the least id among those. -/
def Oldest (jobs : List Job) (job : Job) : Prop :=
  job ∈ jobs ∧ Waiting job ∧ ∀ other ∈ jobs, Waiting other →
    job.submitTime < other.submitTime ∨
      job.submitTime = other.submitTime ∧ job.jobId ≤ other.jobId

theorem oldest_of_scan {h : Handler} {n i : ℕ} {job : Job} (hf : Filled h n)
    (hscan : oldestPending 0 none h.jobs = some (i, job)) :
    h.jobs[i]? = some job ∧ Oldest h.jobs job := by
  rcases oldestPending_some hscan with hnone | ⟨_, hi, hw⟩
  · cases hnone
  rw [Nat.sub_zero] at hi
  refine ⟨hi, List.mem_of_getElem? hi, hw, fun other hm hwo => ?_⟩
  have hle := oldestPending_least hscan hm hwo
  obtain ⟨k, hk⟩ := List.mem_iff_getElem?.mp hm
  by_cases hki : k < i
  · exact .inl (oldestPending_first (by simp) hscan k hk hwo (by omega))
  · have hid := hf.used i job hi ((hf.jobId_ne_zero hi).mp (by have := hw.1; omega))
    have hidk := hf.used k other hk ((hf.jobId_ne_zero hk).mp (by have := hwo.1; omega))
    omega

theorem Oldest.eq {h : Handler} {n : ℕ} {a b : Job} (hf : Filled h n) (ha : Oldest h.jobs a)
    (hb : Oldest h.jobs b) : a = b := by
  have hab := ha.2.2 b hb.1 hb.2.1
  have hba := hb.2.2 a ha.1 ha.2.1
  obtain ⟨i, hi⟩ := List.mem_iff_getElem?.mp ha.1
  obtain ⟨k, hk⟩ := List.mem_iff_getElem?.mp hb.1
  have hposa := ha.2.1.1
  have hposb := hb.2.1.1
  have hidi := hf.used i a hi ((hf.jobId_ne_zero hi).mp (by omega))
  have hidk := hf.used k b hk ((hf.jobId_ne_zero hk).mp (by omega))
  obtain rfl : i = k := by omega
  exact Option.some.inj (hi.symm.trans hk)

theorem scan_of_oldest {h : Handler} {n : ℕ} {job : Job} (hf : Filled h n)
    (hold : Oldest h.jobs job) :
    ∃ i, oldestPending 0 none h.jobs = some (i, job) := by
  cases hscan : oldestPending 0 none h.jobs with
  | none => exact absurd hold.2.1 ((oldestPending_none.mp hscan).2 job hold.1)
  | some found =>
    obtain ⟨i, a⟩ := found
    obtain rfl := (oldest_of_scan hf hscan).2.eq hf hold
    exact ⟨i, rfl⟩

/-! ### The clock readings of the submissions -/

variable (c : Constants)

/-- A submission reads the clock when it has found a slot and its memory. -/
def reading (s : System) : Action → List ℤ
  | .submit clientSocket jobType inputData inputSize alloc now =>
    if (jobHandlerSubmit s.handler clientSocket jobType inputData inputSize alloc now).ret = -1
    then [] else [now]
  | _ => []

def readings : System → List Action → List ℤ
  | _, [] => []
  | s, a :: as => reading s a ++ readings (step c s a) as

/-- The slots in use are those of the accepted submissions, with their readings. -/
structure Inv (size : ℕ) (s : System) (times : List ℤ) : Prop where
  filled : Filled s.handler s.submitted.length
  length : s.handler.jobs.length = size
  times_eq : (s.handler.jobs.map Job.submitTime).take s.submitted.length = times

variable {size : ℕ} {s t : System} {times : List ℤ}

theorem Inv.unchanged (h : Inv size s times) (hh : t.handler = s.handler)
    (hs : t.submitted = s.submitted) : Inv size t times := by
  constructor
  · rw [hh, hs]
    exact h.filled
  · rw [hh]
    exact h.length
  · rw [hh, hs]
    exact h.times_eq

theorem Inv.put (h : Inv size s times) {i : ℕ} {a b : Job} {st : Stats}
    (hi : s.handler.jobs[i]? = some a) (hid : b.jobId = a.jobId)
    (htime : b.submitTime = a.submitTime) (hh : t.handler = s.handler.put i b st)
    (hs : t.submitted = s.submitted) : Inv size t times := by
  constructor
  · rw [hh, hs]
    exact h.filled.put hi hid st
  · rw [hh, Handler.put, List.length_set]
    exact h.length
  · rw [hh, hs, Handler.put, map_set_slot hi htime]
    exact h.times_eq

theorem charge_submitTime (job : Job) (final : JobStatus) (now : ℤ) :
    (job.charge c final now).submitTime = job.submitTime := by
  unfold Job.charge
  split <;> rfl

theorem expire_submitTime (job : Job) (timeoutSeconds now : ℤ) :
    (job.expire c timeoutSeconds now).submitTime = job.submitTime := by
  unfold Job.expire
  split
  · exact charge_submitTime c job .timeout now
  · rfl

theorem inv_submit (h : Inv size s times) (clientSocket jobType : ℤ)
    (inputData : Option (List UInt8)) (inputSize : ℕ) (alloc : Bool) (now : ℤ) :
    Inv size (step c s (.submit clientSocket jobType inputData inputSize alloc now))
      (times ++ reading s (.submit clientSocket jobType inputData inputSize alloc now)) := by
  have hnext := h.filled.next
  rcases submit_cases h.filled clientSocket jobType inputData inputSize alloc now with
    hr | ⟨hn, _, hr⟩
  · have hread : reading s (.submit clientSocket jobType inputData inputSize alloc now) = [] := by
      simp [reading, hr]
    rw [hread, List.append_nil]
    apply h.unchanged
    · simp [step, hr, System.next]
    · simp [step, hr, System.next]
  · have hid : s.handler.nextJobId ≠ -1 := by omega
    have hread : reading s (.submit clientSocket jobType inputData inputSize alloc now) = [now] := by
      simp [reading, hr, hid]
    have hlen := h.length
    rw [hread]
    constructor
    · simp only [step, hr, System.next, hid, if_false, List.length_append, List.length_singleton]
      exact h.filled.add hn rfl
    · simp only [step, hr, System.next, Handler.add, List.length_set]
      exact hlen
    · simp only [step, hr, System.next, hid, if_false, List.length_append, List.length_singleton,
        Handler.add, List.map_set]
      rw [take_set_next (by simpa using hn), h.times_eq]
      rfl

theorem inv_step (h : Inv size s times) (a : Action) :
    Inv size (step c s a) (times ++ reading s a) := by
  cases a with
  | submit clientSocket jobType inputData inputSize alloc now =>
    exact inv_submit c h clientSocket jobType inputData inputSize alloc now
  | select workerSocket now =>
    simp only [reading, List.append_nil]
    rcases select_cases h.filled workerSocket now with hr | ⟨i, job, hi, _, _, hr⟩
    · exact h.unchanged (select_handler c hr) rfl
    · exact h.put (b := job.handOut workerSocket now) hi rfl rfl (select_handler c hr) rfl
  | sent k ok =>
    simp only [reading, List.append_nil]
    cases hk : s.sending[k]? with
    | none =>
      simp only [step, hk]
      exact h
    | some msg =>
      have hsub : (step c s (.sent k ok)).submitted = s.submitted := by
        simp [step, hk, System.next]
      cases ok with
      | true =>
        refine h.unchanged ?_ hsub
        simp [step, hk, System.next]
      | false =>
        rcases rollBack_cases h.filled msg.jobId with hr | ⟨i, job, hi, _, _, hr⟩
        · exact h.unchanged (rollBack_handler c hk hr) hsub
        · exact h.put (b := job.takeBack) hi rfl rfl (rollBack_handler c hk hr) hsub
  | complete jobId resultData resultSize alloc now =>
    simp only [reading, List.append_nil]
    rcases complete_cases h.filled jobId resultData resultSize alloc now with
      hr | ⟨i, job, hi, _, _, _, hr⟩
    · exact h.unchanged (complete_handler c hr) rfl
    · exact h.put (b := job.finish resultData resultSize now) hi rfl rfl (complete_handler c hr) rfl
  | fail jobId errorCode now =>
    simp only [reading, List.append_nil]
    rcases fail_cases c h.filled jobId errorCode now with hr | ⟨i, job, hi, _, _, _, hr⟩
    · exact h.unchanged (fail_handler c hr) rfl
    · exact h.put hi (charge_jobId c job .failed now) (charge_submitTime c job .failed now)
        (fail_handler c hr) rfl
  | checkTimeouts now =>
    simp only [reading, List.append_nil]
    have hjobs := checkTimeouts_jobs c s.handler now
    constructor
    · exact h.filled.checkTimeouts c now
    · simp only [step, System.next, hjobs, List.length_map]
      exact h.length
    · simp only [step, System.next, hjobs, List.map_map, Function.comp_def, expire_submitTime]
      exact h.times_eq
  | query =>
    simp only [reading, List.append_nil]
    exact h

theorem inv_run (h : Inv size s times) (as : List Action) :
    Inv size (as.foldl (step c) s) (times ++ readings c s as) := by
  induction as generalizing s times with
  | nil =>
    rw [readings, List.append_nil]
    exact h
  | cons a as ih =>
    rw [readings, ← List.append_assoc]
    exact ih (inv_step c h a)

theorem inv_start {h : Handler} {maxJobs timeoutSeconds : ℤ} {alloc : Bool}
    (hinit : jobHandlerInit maxJobs timeoutSeconds alloc = (0, h)) :
    Inv maxJobs.toNat (start h) [] := by
  obtain ⟨hf, hjobs, _⟩ := init_filled hinit
  constructor
  · exact hf
  · show h.jobs.length = maxJobs.toNat
    rw [hjobs, List.length_replicate]
  · exact List.take_zero

/-! ### Dispatch in submission order -/

/-- What `job_handler_assign` marks is the waiting job of least id, and it finds none
only where none waits. -/
def Dispatches (h : Handler) : Prop := ∀ workerSocket now : ℤ,
  ((assignSelect h workerSocket now).1 = none ↔ ∀ job ∈ h.jobs, ¬ Waiting job) ∧
    ∀ msg, (assignSelect h workerSocket now).1 = some msg →
      ∃ (i : ℕ) (job : Job), h.jobs[i]? = some job ∧ Waiting job ∧ msg = job.message ∧
        (assignSelect h workerSocket now).2.jobs = h.jobs.set i (job.handOut workerSocket now) ∧
        ∀ other ∈ h.jobs, Waiting other → job.jobId ≤ other.jobId

theorem Inv.submitTime_le (h : Inv size s times) (hclock : times.Pairwise (· ≤ ·)) {i j : ℕ}
    {a b : Job} (hij : i < j) (hj : j < s.submitted.length) (ha : s.handler.jobs[i]? = some a)
    (hb : s.handler.jobs[j]? = some b) : a.submitTime ≤ b.submitTime := by
  have htimes := h.times_eq
  have hle := h.filled.le
  obtain ⟨hi', rfl⟩ := List.getElem?_eq_some_iff.mp ha
  obtain ⟨hj', rfl⟩ := List.getElem?_eq_some_iff.mp hb
  subst htimes
  have hlen : ((s.handler.jobs.map Job.submitTime).take s.submitted.length).length =
      s.submitted.length := by
    rw [List.length_take, List.length_map]
    omega
  have hpair := List.pairwise_iff_getElem.mp hclock i j (by omega) (by omega) hij
  simpa using hpair

theorem Inv.dispatches (h : Inv size s times) (hclock : times.Pairwise (· ≤ ·)) :
    Dispatches s.handler := by
  intro workerSocket now
  cases hold : oldestPending 0 none s.handler.jobs with
  | none =>
    have hnone := (oldestPending_none.mp hold).2
    simp only [assignSelect, hold, true_iff]
    exact ⟨hnone, by simp⟩
  | some found =>
    obtain ⟨i, job⟩ := found
    have hmem : ∃ job ∈ s.handler.jobs, Waiting job := by
      by_contra hno
      have hnone : oldestPending 0 none s.handler.jobs = none :=
        oldestPending_none.mpr ⟨rfl, fun job hjob hw => hno ⟨job, hjob, hw⟩⟩
      rw [hold] at hnone
      cases hnone
    rcases oldestPending_some hold with hnone | ⟨_, hi, hw⟩
    · cases hnone
    · rw [Nat.sub_zero] at hi
      obtain ⟨w, hw', hwait⟩ := hmem
      simp only [assignSelect, hold]
      constructor
      · constructor
        · intro habs
          cases habs
        · intro hno
          exact absurd hwait (hno w hw')
      · intro msg hmsg
        refine ⟨i, job, hi, hw, (Option.some.inj hmsg).symm, rfl, ?_⟩
        intro other hother hwo
        obtain ⟨k, hk⟩ := List.mem_iff_getElem?.mp hother
        have hwpos := hw.1
        have hopos := hwo.1
        have hilt := (h.filled.jobId_ne_zero hi).mp (by omega)
        have hklt := (h.filled.jobId_ne_zero hk).mp (by omega)
        have hid := h.filled.used i job hi hilt
        have hido := h.filled.used k other hk hklt
        have hik : i ≤ k := by
          by_contra hlt
          have hearlier := h.submitTime_le hclock (by omega) hilt hk hi
          have hlater := oldestPending_first (by simp) hold k hk hwo (by omega)
          omega
        omega

theorem dispatched_in_order {h : Handler} {maxJobs timeoutSeconds : ℤ} {alloc : Bool}
    (hinit : jobHandlerInit maxJobs timeoutSeconds alloc = (0, h)) (as : List Action)
    (hclock : (readings c (start h) as).Pairwise (· ≤ ·)) :
    Dispatches (as.foldl (step c) (start h)).handler := by
  have hinv := inv_run c (inv_start hinit) as
  rw [List.nil_append] at hinv
  exact hinv.dispatches hclock

/-- Job 1 comes back twice, after a timeout and after a failed send, in front of job 2. -/
theorem dispatched_in_order_requeued :
    Dispatches (([.submit 7 1 none 0 true 100, .submit 8 1 none 0 true 100, .select 5 200,
      .sent 0 true, .checkTimeouts 20000, .select 6 20100, .sent 0 false] : List Action).foldl
        (step threeRetries) (start (jobHandlerInit 2 10 true).2)).handler :=
  have hinit : jobHandlerInit 2 10 true = (0, (jobHandlerInit 2 10 true).2) := rfl
  dispatched_in_order threeRetries hinit _ (by decide)

end CSimples.JobOrder
