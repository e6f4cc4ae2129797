import CSimples.Server.JobCalls

/-!
# Retries (server/job_handler.c:316-383, 447-517)

Failure reports and timeouts share one budget of `MAX_JOB_RETRIES` for each job;
a send that fails is not charged to it.
-/

namespace CSimples.JobRetries
open JobHandler JobCalls Run
open Block (slots_set slots_map)

variable (c : Constants) {h : Handler} {n : ℕ}

inductive Event where
  | assigned (jobId : ℤ)
  | failed (jobId : ℤ)
  | swept (timedOut : List ℤ)
  deriving DecidableEq

def Event.assigns (jobId : ℤ) : Event → Bool
  | .assigned id => decide (id = jobId)
  | _ => false

def Event.charges (jobId : ℤ) : Event → Bool
  | .failed id => decide (id = jobId)
  | .swept timedOut => decide (jobId ∈ timedOut)
  | .assigned _ => false

/-- What is worth recording of a call that answered `ret`: a job handed out, a
failure that was accepted, a sweep with the jobs it timed out. -/
def events (h : Handler) : Call → ℤ → List Event
  | .assign _ _ _, ret => if ret = -1 then [] else [.assigned ret]
  | .fail jobId _ _, ret => if ret = 0 then [.failed jobId] else []
  | .checkTimeouts now, _ => [.swept (sweep c h now).timedOut]
  | _, _ => []

structure Trace where
  handler : Handler
  history : List Event

def record (t : Trace) (call : Call) : Trace :=
  ⟨step c t.handler call, t.history ++ events c t.handler call (answer c t.handler call).ret⟩

/-- The retries of a job, against the record of the run. -/
structure Ledger (history : List Event) (job : Job) : Prop where
  charged : job.retryCount = history.countP (Event.charges job.jobId)
  handedOut : (history.countP (Event.assigns job.jobId) : ℤ) =
    job.retryCount + if job.status = .assigned ∨ job.status = .completed then 1 else 0
  remaining : job.status ≠ .failed → job.status ≠ .timeout → job.retryCount < c.maxJobRetries
  exhausted : job.status = .failed ∨ job.status = .timeout → job.retryCount = c.maxJobRetries

/-- These events are about other jobs. -/
def Silent (es : List Event) (jobId : ℤ) : Prop :=
  es.countP (Event.assigns jobId) = 0 ∧ es.countP (Event.charges jobId) = 0

structure Counted (t : Trace) (n : ℕ) : Prop where
  ledger : ∀ (i : ℕ) job, t.handler.jobs[i]? = some job → i < n → Ledger c t.history job
  unused : ∀ j : ℤ, j ≤ 0 ∨ n < j → Silent t.history j

section Ledger
variable {history : List Event} {job : Job}

theorem Ledger.other (hl : Ledger c history job) {es : List Event} (he : Silent es job.jobId) :
    Ledger c (history ++ es) job := by
  obtain ⟨h1, h2, h3, h4⟩ := hl
  obtain ⟨ha, hc⟩ := he
  exact ⟨by rw [List.countP_append, hc]; exact h1, by rw [List.countP_append, ha]; exact h2, h3,
    h4⟩

theorem Ledger.handOut (hl : Ledger c history job) (hp : job.status = .pending)
    (workerSocket now : ℤ) :
    Ledger c (history ++ [.assigned job.jobId]) (job.handOut workerSocket now) := by
  obtain ⟨h1, h2, h3, _⟩ := hl
  have hlt := h3 (by simp [hp]) (by simp [hp])
  rw [hp] at h2
  constructor
  · simpa [Job.handOut, Event.charges] using h1
  · simpa [Job.handOut, Event.assigns] using h2
  · intro _ _
    exact hlt
  · simp [Job.handOut]

theorem Ledger.finish (hl : Ledger c history job) (ha : job.status = .assigned)
    (resultData : Option (List UInt8)) (resultSize : ℕ) (now : ℤ) :
    Ledger c history (job.finish resultData resultSize now) := by
  obtain ⟨h1, h2, h3, _⟩ := hl
  have hlt := h3 (by simp [ha]) (by simp [ha])
  rw [ha] at h2
  exact ⟨h1, by simpa [Job.finish] using h2, fun _ _ => hlt, by simp [Job.finish]⟩

theorem Ledger.charge (hl : Ledger c history job) (ha : job.status = .assigned)
    {final : JobStatus} (hf : final = .failed ∨ final = .timeout) (now : ℤ) {e : Event}
    (hea : e.assigns job.jobId = false) (hec : e.charges job.jobId = true) :
    Ledger c (history ++ [e]) (job.charge c final now) := by
  obtain ⟨h1, h2, h3, _⟩ := hl
  have hlt := h3 (by simp [ha]) (by simp [ha])
  rw [ha] at h2
  have hcharged : ((history ++ [e]).countP (Event.charges job.jobId) : ℤ) =
      job.retryCount + 1 := by
    simp [hec, h1]
  have hassigned : ((history ++ [e]).countP (Event.assigns job.jobId) : ℤ) =
      job.retryCount + 1 := by
    simpa [hea] using h2
  unfold Job.charge
  split
  · rename_i hretry
    refine ⟨hcharged.symm, ?_, fun _ _ => hretry, by simp⟩
    simpa using hassigned
  · rename_i hlast
    refine ⟨hcharged.symm, ?_, ?_, fun _ => by simp only; omega⟩
    · rcases hf with rfl | rfl
      · simpa using hassigned
      · simpa using hassigned
    · rcases hf with rfl | rfl
      · simp
      · simp

theorem Ledger.handedOut_le (hl : Ledger c history job) :
    (history.countP (Event.assigns job.jobId) : ℤ) ≤ c.maxJobRetries := by
  obtain ⟨_, h2, h3, h4⟩ := hl
  by_cases hend : job.status = .failed ∨ job.status = .timeout
  · have hnot : ¬ (job.status = .assigned ∨ job.status = .completed) := by
      rcases hend with hst | hst <;> simp [hst]
    rw [if_neg hnot, h4 hend] at h2
    omega
  · have hlt := h3 (fun hst => hend (.inl hst)) (fun hst => hend (.inr hst))
    split at h2 <;> omega

theorem Silent.append {es es' : List Event} {jobId : ℤ} (h : Silent es jobId)
    (h' : Silent es' jobId) : Silent (es ++ es') jobId := by
  obtain ⟨h1, h2⟩ := h
  obtain ⟨h1', h2'⟩ := h'
  exact ⟨by rw [List.countP_append, h1, h1'], by rw [List.countP_append, h2, h2']⟩

theorem Counted.put (hc : Counted c ⟨h, history⟩ n) (hf : Filled h n) {i : ℕ} {b : Job}
    {es : List Event} (hlt : i < n) (hb : Ledger c (history ++ es) b)
    (hother : ∀ j : ℤ, j ≠ i + 1 → Silent es j) (st : Stats) :
    Counted c ⟨h.put i b st, history ++ es⟩ n := by
  constructor
  · refine slots_set (P := fun (k : ℕ) (job : Job) => k < n → Ledger c (history ++ es) job)
      (fun _ => hb) fun k a hk ha hlt' => (hc.ledger k a ha hlt').other c (hother _ ?_)
    have hid := hf.used k a ha hlt'
    omega
  · intro j hj
    exact (hc.unused j hj).append (hother j (by omega))

theorem Counted.add (hc : Counted c ⟨h, history⟩ n) (hnext : job.jobId = n + 1)
    (hR : 1 ≤ c.maxJobRetries) (hp : job.status = .pending) (h0 : job.retryCount = 0) :
    Counted c ⟨h.add n job, history⟩ (n + 1) := by
  obtain ⟨ha, hch⟩ := hc.unused job.jobId (by omega)
  constructor
  · refine slots_set (P := fun (k : ℕ) (job : Job) => k < n + 1 → Ledger c history job)
      (fun _ => ?_) fun k a hk hget hlt => hc.ledger k a hget (by omega)
    exact ⟨by rw [h0, hch]; rfl, by simp [ha, h0, hp], fun _ _ => by omega, by simp [hp]⟩
  · intro j hj
    exact hc.unused j (by omega)

theorem mem_timedOut (hf : Filled h n) {i : ℕ} (hi : h.jobs[i]? = some job) (hlt : i < n)
    (now : ℤ) : job.jobId ∈ (sweep c h now).timedOut ↔ due h.jobTimeoutSeconds now job = true := by
  rw [sweep, sweep_timedOut, List.mem_map]
  constructor
  · rintro ⟨a, ha, hid⟩
    obtain ⟨hmem, hdue⟩ := List.mem_filter.mp ha
    obtain ⟨k, hk⟩ := List.mem_iff_getElem?.mp hmem
    have hjob := hf.used i job hi hlt
    have hka := (hf.jobId_ne_zero hk).mp (by omega)
    have haid := hf.used k a hk hka
    obtain rfl : k = i := by omega
    rw [hi] at hk
    cases hk
    exact hdue
  · intro hdue
    exact ⟨job, List.mem_filter.mpr ⟨List.mem_of_getElem? hi, hdue⟩, rfl⟩

theorem timedOut_range (hf : Filled h n) {now jobId : ℤ} (hj : jobId ≤ 0 ∨ n < jobId) :
    jobId ∉ (sweep c h now).timedOut := by
  rw [sweep, sweep_timedOut, List.mem_map]
  rintro ⟨a, ha, hid⟩
  obtain ⟨hmem, hdue⟩ := List.mem_filter.mp ha
  obtain ⟨k, hk⟩ := List.mem_iff_getElem?.mp hmem
  obtain ⟨hne, _⟩ := of_decide_eq_true hdue
  have hlt := (hf.jobId_ne_zero hk).mp hne
  have haid := hf.used k a hk hlt
  omega

theorem Counted.sweep (hc : Counted c ⟨h, history⟩ n) (hf : Filled h n) (now : ℤ) :
    Counted c ⟨(jobHandlerCheckTimeouts c h now).handler,
      history ++ [.swept (JobHandler.sweep c h now).timedOut]⟩ n := by
  constructor
  · rw [checkTimeouts_jobs]
    refine slots_map (P := fun (k : ℕ) (job : Job) => k < n →
      Ledger c (history ++ [.swept (JobHandler.sweep c h now).timedOut]) job)
      fun k a ha hlt => ?_
    have hl := hc.ledger k a ha hlt
    have hmem := mem_timedOut c hf ha hlt now
    unfold Job.expire
    split
    · rename_i hdue
      obtain ⟨_, hs, _⟩ := of_decide_eq_true hdue
      exact hl.charge c hs (.inr rfl) now rfl (decide_eq_true (hmem.mpr hdue))
    · rename_i hdue
      have hnot : a.jobId ∉ (JobHandler.sweep c h now).timedOut := fun hm => hdue (hmem.mp hm)
      exact hl.other c ⟨by simp [Event.assigns], by simp [Event.charges, hnot]⟩
  · intro j hj
    have hnot : j ∉ (JobHandler.sweep c h now).timedOut := timedOut_range c hf hj
    exact (hc.unused j hj).append ⟨by simp [Event.assigns], by simp [Event.charges, hnot]⟩

end Ledger

theorem events_refused {call : Call} (hc : ∀ now, call ≠ .checkTimeouts now) :
    events c h call (-1) = [] := by
  cases call with
  | checkTimeouts now => exact absurd rfl (hc now)
  | _ => rfl

theorem events_queried {call : Call} (hq : call.isQuery) (ret : ℤ) : events c h call ret = [] := by
  cases call <;> first | rfl | exact absurd hq id

theorem counted_effect {history : List Event} (hR : 1 ≤ c.maxJobRetries) (hs : Sound h n)
    (hc : Counted c ⟨h, history⟩ n) {call : Call} {r : Reply} (he : Effect c h n call r) {n' : ℕ}
    (hs' : Sound r.handler n') : Counted c ⟨r.handler, history ++ events c h call r.ret⟩ n' := by
  cases he with
  | refused call hcall =>
    obtain rfl := hs.unique hs' rfl
    rw [events_refused c hcall, List.append_nil]
    exact hc
  | queried call ret hq =>
    obtain rfl := hs.unique hs' rfl
    rw [events_queried c hq, List.append_nil]
    exact hc
  | submitted clientSocket jobType inputData inputSize alloc now hn =>
    have hnext := hs.filled.next
    have hnext' : h.nextJobId + 1 = n' + 1 := hs'.filled.next
    obtain rfl : n' = n + 1 := by omega
    have hid : (newJob h.nextJobId clientSocket jobType inputData inputSize now).jobId = n + 1 :=
      hnext
    have hadd := hc.add c hid hR rfl rfl
    rw [← List.append_nil history] at hadd
    exact hadd
  | assigned i job workerSocket now hi hlt hp =>
    obtain rfl := hs.unique hs' rfl
    have hid := hs.filled.used i job hi hlt
    have hne : job.jobId ≠ -1 := by omega
    rw [events, if_neg hne]
    refine hc.put c hs.filled hlt ((hc.ledger i job hi hlt).handOut c hp workerSocket now)
      (fun j hj => ?_) _
    have hji : job.jobId ≠ j := by omega
    exact ⟨by simp [Event.assigns, hji], by simp [Event.charges]⟩
  | completed i job resultData resultSize alloc now hi hlt ha =>
    obtain rfl := hs.unique hs' rfl
    have hl := (hc.ledger i job hi hlt).finish c ha resultData resultSize now
    rw [← List.append_nil history] at hl
    exact hc.put c hs.filled hlt hl (fun j _ => ⟨rfl, rfl⟩) _
  | failed i job errorCode now hi hlt ha =>
    obtain rfl := hs.unique hs' rfl
    have hid := hs.filled.used i job hi hlt
    rw [events, if_pos rfl]
    refine hc.put c hs.filled hlt ((hc.ledger i job hi hlt).charge c ha (.inl rfl) now rfl
      (by simp [Event.charges, hid])) (fun j hj => ?_) _
    exact ⟨by simp [Event.assigns], by simp [Event.charges, Ne.symm hj]⟩
  | swept now =>
    obtain rfl := hs.unique hs' rfl
    exact hc.sweep c hs.filled now

theorem counted_record (hR : 1 ≤ c.maxJobRetries) (t : Trace) (call : Call)
    (ht : ∃ n, Sound t.handler n ∧ Counted c t n) :
    ∃ n, Sound (record c t call).handler n ∧ Counted c (record c t call) n := by
  obtain ⟨n, hs, hc⟩ := ht
  have he := answer_effect c hs call
  obtain ⟨n', hs'⟩ := sound_effect c hs he
  exact ⟨n', hs', counted_effect c hR hs hc he hs'⟩

/-- `job_handler_assign` answers a job at most `MAX_JOB_RETRIES` times, and the job
is given up exactly when its failures and timeouts have used these up. -/
theorem retries_exact (hR : 1 ≤ c.maxJobRetries) {maxJobs timeoutSeconds : ℤ} {alloc : Bool}
    (hinit : jobHandlerInit maxJobs timeoutSeconds alloc = (0, h)) (calls : List Call) :
    Along (record c) (fun t =>
      (∀ jobId, (t.history.countP (Event.assigns jobId) : ℤ) ≤ c.maxJobRetries) ∧
      ∀ job ∈ t.handler.jobs, job.jobId ≠ 0 →
        job.retryCount = t.history.countP (Event.charges job.jobId) ∧
        (job.status = .pending ∨ job.status = .assigned → job.retryCount < c.maxJobRetries) ∧
        (job.status = .failed ∨ job.status = .timeout ↔ job.retryCount = c.maxJobRetries))
      ⟨h, []⟩ calls := by
  have h0 : ∃ n, Sound h n ∧ Counted c ⟨h, []⟩ n :=
    ⟨0, sound_init hinit, fun i _ _ hlt => absurd hlt (Nat.not_lt_zero i), fun _ _ => ⟨rfl, rfl⟩⟩
  refine along_mono (fun t ht => ?_) (along_of_step (counted_record c hR) h0 calls)
  obtain ⟨n, hs, hc⟩ := ht
  constructor
  · intro jobId
    by_cases hrange : jobId ≤ 0 ∨ n < jobId
    · rw [(hc.unused jobId hrange).1]
      omega
    · have hlen := hs.filled.le
      have hlt : (jobId - 1).toNat < t.handler.jobs.length := by omega
      have hget := List.getElem?_eq_getElem hlt
      have hid := hs.filled.used _ _ hget (by omega)
      have hl := hc.ledger _ _ hget (by omega)
      have hjob : t.handler.jobs[(jobId - 1).toNat].jobId = jobId := by omega
      rw [← hjob]
      exact hl.handedOut_le
  · intro job hmem hne
    obtain ⟨i, hi⟩ := List.mem_iff_getElem?.mp hmem
    have hl := hc.ledger i job hi ((hs.filled.jobId_ne_zero hi).mp hne)
    refine ⟨hl.charged, ?_, hl.exhausted, ?_⟩
    · rintro (hst | hst)
      · exact hl.remaining (by simp [hst]) (by simp [hst])
      · exact hl.remaining (by simp [hst]) (by simp [hst])
    · intro hall
      by_contra hopen
      have hrem := hl.remaining (fun hst => hopen (.inl hst)) (fun hst => hopen (.inr hst))
      omega

theorem retries_exact_twoRetries :
    Along (record threeRetries) (fun t =>
      (∀ jobId, (t.history.countP (Event.assigns jobId) : ℤ) ≤ threeRetries.maxJobRetries) ∧
      ∀ job ∈ t.handler.jobs, job.jobId ≠ 0 →
        job.retryCount = t.history.countP (Event.charges job.jobId) ∧
        (job.status = .pending ∨ job.status = .assigned →
          job.retryCount < threeRetries.maxJobRetries) ∧
        (job.status = .failed ∨ job.status = .timeout ↔
          job.retryCount = threeRetries.maxJobRetries))
      ⟨twoSlots, []⟩ twoRetries :=
  retries_exact threeRetries (by decide) twoSlots_init twoRetries

example : (twoRetries.foldl (record threeRetries) ⟨twoSlots, []⟩).history =
    [.assigned 1, .swept [1], .assigned 1, .failed 1] := by decide

end CSimples.JobRetries
