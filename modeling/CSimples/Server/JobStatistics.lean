import CSimples.Server.JobCalls

/-!
# The job counters (server/job_handler.c)

Six operations change the counters by hand, on several branches each. What they
add to one counter and take from another is always what happens to the slots.
-/

namespace CSimples.JobStatistics
open JobHandler JobCalls Run
open Block (countP_set_slot)

variable (c : Constants) {h : Handler} {n : ℕ}

def occupied (statuses : List JobStatus) (job : Job) : Bool :=
  decide (job.jobId ≠ 0 ∧ job.status ∈ statuses)

/-- The counters are the numbers of occupied slots with their statuses. -/
structure Tallied (h : Handler) : Prop where
  pending : h.stats.pending = h.jobs.countP (occupied [.pending])
  running : h.stats.running = h.jobs.countP (occupied [.assigned])
  completed : h.stats.completed = h.jobs.countP (occupied [.completed])
  failed : h.stats.failed = h.jobs.countP (occupied [.failed, .timeout])

inductive Counter where
  | pending
  | running
  | completed
  | failed

def Counter.value : Counter → Stats → ℤ
  | .pending, st => st.pending
  | .running, st => st.running
  | .completed, st => st.completed
  | .failed, st => st.failed

def Counter.statuses : Counter → List JobStatus
  | .pending => [.pending]
  | .running => [.assigned]
  | .completed => [.completed]
  | .failed => [.failed, .timeout]

/-- The counters change from `st` to `st'` as the slots do from `l` to `l'`. -/
def Balanced (st st' : Stats) (l l' : List Job) : Prop :=
  ∀ k : Counter, k.value st' + l.countP (occupied k.statuses) =
    k.value st + l'.countP (occupied k.statuses)

section Balance
variable {st st' st'' : Stats} {l l' : List Job} {a b : Job}

theorem Balanced.refl (st : Stats) (l : List Job) : Balanced st st l l := fun _ => rfl

theorem Balanced.cons (h1 : Balanced st st' [a] [b]) (h2 : Balanced st' st'' l l') :
    Balanced st st'' (a :: l) (b :: l') := by
  intro k
  have hsplit : ∀ (x : Job) (xs : List Job), (x :: xs).countP (occupied k.statuses) =
      [x].countP (occupied k.statuses) + xs.countP (occupied k.statuses) := fun x xs => by
    rw [← List.countP_append, List.singleton_append]
  have hhead := h1 k
  have htail := h2 k
  rw [hsplit a l, hsplit b l']
  omega

theorem Balanced.set {i : ℕ} (hb : Balanced st st' [a] [b]) (hi : l[i]? = some a) :
    Balanced st st' l (l.set i b) := by
  intro k
  have hslot := hb k
  have hcount : (l.set i b).countP (occupied k.statuses) + [a].countP (occupied k.statuses) =
      l.countP (occupied k.statuses) + [b].countP (occupied k.statuses) := by
    simpa [List.countP_cons] using countP_set_slot (occupied k.statuses) hi
  omega

theorem Tallied.value (ht : Tallied h) (k : Counter) :
    k.value h.stats = h.jobs.countP (occupied k.statuses) := by
  cases k with
  | pending => exact ht.pending
  | running => exact ht.running
  | completed => exact ht.completed
  | failed => exact ht.failed

theorem Tallied.of_balanced (ht : Tallied h) {h' : Handler}
    (hb : Balanced h.stats h'.stats h.jobs h'.jobs) : Tallied h' := by
  have hvalue : ∀ k : Counter, k.value h'.stats = h'.jobs.countP (occupied k.statuses) :=
    fun k => by
      have hold := ht.value k
      have hchange := hb k
      omega
  exact ⟨hvalue .pending, hvalue .running, hvalue .completed, hvalue .failed⟩

theorem charge_balanced {final : JobStatus} (hf : final = .failed ∨ final = .timeout)
    (hid : a.jobId ≠ 0) (ha : a.status = .assigned) (st : Stats) (now : ℤ) :
    Balanced st (st.charge c a) [a] [a.charge c final now] := by
  unfold Stats.charge Job.charge
  intro k
  split
  · cases k <;> simp [Counter.value, Counter.statuses, occupied, hid, ha]
  · rcases hf with rfl | rfl
    · cases k <;> simp [Counter.value, Counter.statuses, occupied, hid, ha]
    · cases k <;> simp [Counter.value, Counter.statuses, occupied, hid, ha]

theorem sweep_balanced (timeoutSeconds now : ℤ) (st : Stats) (jobs : List Job) :
    Balanced st (sweepFrom c timeoutSeconds now st jobs).stats jobs
      (sweepFrom c timeoutSeconds now st jobs).jobs := by
  induction jobs generalizing st with
  | nil => exact .refl st []
  | cons job rest ih =>
    rw [sweepFrom]
    split
    · rename_i hdue
      obtain ⟨hid, ha, _⟩ := of_decide_eq_true hdue
      exact (charge_balanced c (.inr rfl) hid ha st now).cons (ih _)
    · exact (Balanced.refl st [job]).cons (ih _)

end Balance

theorem effect_balanced (hs : Sound h n) {call : Call} {r : Reply} (he : Effect c h n call r) :
    Balanced h.stats r.handler.stats h.jobs r.handler.jobs := by
  cases he with
  | refused call hc => exact .refl _ _
  | queried call ret hq => exact .refl _ _
  | submitted clientSocket jobType inputData inputSize alloc now hn =>
    have hget : h.jobs[n]? = some h.jobs[n] := List.getElem?_eq_getElem hn
    have hfree := hs.filled.free n _ hget (Nat.le_refl n)
    have hnext := hs.filled.next
    have hid : h.nextJobId ≠ 0 := by omega
    refine Balanced.set (fun k => ?_) hget
    cases k <;> simp [Counter.value, Counter.statuses, occupied, hfree, newJob, Handler.add, hid]
  | assigned i job workerSocket now hi hlt hp =>
    have hid := (hs.filled.jobId_ne_zero hi).mpr hlt
    refine Balanced.set (fun k => ?_) hi
    cases k <;> simp [Counter.value, Counter.statuses, occupied, Handler.put, Job.handOut, hid, hp]
  | completed i job resultData resultSize alloc now hi hlt ha =>
    have hid := (hs.filled.jobId_ne_zero hi).mpr hlt
    refine Balanced.set (fun k => ?_) hi
    cases k <;> simp [Counter.value, Counter.statuses, occupied, Handler.put, Job.finish, hid, ha]
  | failed i job errorCode now hi hlt ha =>
    have hid := (hs.filled.jobId_ne_zero hi).mpr hlt
    exact Balanced.set (charge_balanced c (.inl rfl) hid ha h.stats now) hi
  | swept now => exact sweep_balanced c _ _ _ _

theorem tallied_init {maxJobs timeoutSeconds : ℤ} {alloc : Bool}
    (hinit : jobHandlerInit maxJobs timeoutSeconds alloc = (0, h)) : Tallied h := by
  obtain ⟨_, hjobs, hstats⟩ := init_filled hinit
  have hnone : ∀ ss, h.jobs.countP (occupied ss) = 0 := fun ss => by
    rw [hjobs, List.countP_replicate]
    simp [occupied, freeJob]
  constructor <;> simp [hnone, hstats]

/-- In every state of a run the four counters are exact. -/
theorem statistics_exact {maxJobs timeoutSeconds : ℤ} {alloc : Bool}
    (hinit : jobHandlerInit maxJobs timeoutSeconds alloc = (0, h)) (calls : List Call) :
    Along (step c) (fun h => Tallied h ∧ 0 ≤ h.stats.pending ∧ 0 ≤ h.stats.running ∧
      0 ≤ h.stats.completed ∧ 0 ≤ h.stats.failed) h calls := by
  have hrun : Along (step c) (fun h => (∃ n, Sound h n) ∧ Tallied h) h calls := by
    refine along_of_step (fun s call => ?_) ⟨⟨0, sound_init hinit⟩, tallied_init hinit⟩ calls
    rintro ⟨hs, ht⟩
    refine ⟨sound_step c s call hs, ?_⟩
    obtain ⟨n, hs⟩ := hs
    exact ht.of_balanced (effect_balanced c hs (answer_effect c hs call))
  refine along_mono (fun s hs => ?_) hrun
  obtain ⟨_, hp, hr, hc, hf⟩ := hs
  exact ⟨⟨hp, hr, hc, hf⟩, by omega, by omega, by omega, by omega⟩

theorem statistics_exact_twoRetries :
    Along (step threeRetries) (fun h => Tallied h ∧ 0 ≤ h.stats.pending ∧ 0 ≤ h.stats.running ∧
      0 ≤ h.stats.completed ∧ 0 ≤ h.stats.failed) twoSlots twoRetries :=
  statistics_exact threeRetries twoSlots_init twoRetries

example : (twoRetries.foldl (step threeRetries) twoSlots).stats = ⟨1, 0, 0, 0⟩ := by decide

end CSimples.JobStatistics
