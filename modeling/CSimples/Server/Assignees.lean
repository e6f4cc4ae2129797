import CSimples.Server.JobOrder
import CSimples.Server.ServerMessages
import CSimples.Server.WorkerDirectory

/-!
# Who gets and who ends a job (server/server.c:655-758)

An assignment is kept by socket in the job table, while a message names its job
and its worker by ids of the sender's choice; and the types that a worker has
registered are kept, but `job_handler_assign` does not see them.
-/

namespace CSimples.Assignees
open JobHandler JobOrder WorkerManager ServerMessages Run Keyed SlotTable

variable (c : Settings)

/-! ### The end of a job -/

/-- A JOB_COMPLETED or JOB_FAILED message changes no job but one assigned to its socket,
and no worker but one registered with its socket. -/
def Rightful (srv : Server) : Event → Prop
  | .worker socket msg out => msg.body.endsJob = true →
      (∀ (i : ℕ) job, srv.handler.jobs[i]? = some job →
        (serverHandleWorkerMessage c srv socket msg out).server.handler.jobs[i]? ≠ some job →
        job.status = .assigned ∧ job.workerSocket = socket) ∧
      ∀ (i : ℕ) w, srv.manager.workers[i]? = some w →
        (serverHandleWorkerMessage c srv socket msg out).server.manager.workers[i]? ≠ some w →
        w.workerId ≠ 0 ∧ w.socket = socket
  | _ => True

/-- The job that the message ends was given to its socket, and so was the id of the
worker that it names. -/
def Entitled (srv : Server) : Event → Prop
  | .worker socket msg out => ∀ found, srv.finishes msg out = some found →
      found.2.workerSocket = socket ∧
        ∀ w, findWorkerById srv.manager msg.header.workerId = some w → w.2.socket = socket
  | _ => True

variable {c} {srv : Server}

theorem finishes_slot (hs : Sound srv) {msg : Message} {out : Outcome} {i : ℕ} {job : Job}
    (h : srv.finishes msg out = some (i, job)) :
    srv.handler.jobs[i]? = some job ∧ job.status = .assigned := by
  obtain ⟨n, hjobs⟩ := hs.jobs
  have hslot : ∀ jobId, assignedJob srv.handler jobId = some (i, job) →
      srv.handler.jobs[i]? = some job ∧ job.status = .assigned := by
    intro jobId hassigned
    obtain ⟨hfind, hstatus⟩ := assignedJob_some.mp hassigned
    exact ⟨(hjobs.filled.find.mp hfind).1, hstatus⟩
  unfold Server.finishes at h
  split at h
  · split at h
    · cases h
    · exact hslot _ h
  · exact hslot _ h
  · cases h

/-- A message that ends a job writes the slot of that job, and of a registered worker that
it names. -/
theorem rightful_of_entitled (hs : Sound srv) {socket : ℤ} {msg : Message} {out : Outcome} {i : ℕ}
    {job : Job} (hfin : srv.finishes msg out = some (i, job)) (hjob : job.workerSocket = socket)
    (hworker : ∀ w, findWorkerById srv.manager msg.header.workerId = some w →
      w.2.socket = socket) :
    Rightful c srv (.worker socket msg out) := by
  obtain ⟨hi, hassigned⟩ := finishes_slot hs hfin
  obtain ⟨job', st, f, _, hserver⟩ := finish_accepted c socket hfin
  intro _
  rw [hserver]
  constructor
  · intro k a hk hne
    obtain ⟨_, rfl⟩ := set_changed hi hk hne
    exact ⟨hassigned, hjob⟩
  · intro k w hk hne
    rcases withWorker_cases hs.workers msg.header.workerId f fun st _ => st.toIdle with
      ⟨_, hr⟩ | ⟨j, v, hfound, hj, hid, hid0, hr⟩
    · rw [hr] at hne
      exact absurd hk hne
    · rw [hr] at hne
      obtain ⟨_, rfl⟩ := set_changed hj hk hne
      exact ⟨by omega, hworker _ hfound⟩

theorem entitled_of_rightful (hs : Sound srv) {socket : ℤ} {msg : Message} {out : Outcome} {i : ℕ}
    {job : Job} (hfin : srv.finishes msg out = some (i, job))
    (hright : Rightful c srv (.worker socket msg out)) :
    job.workerSocket = socket ∧
      ∀ w, findWorkerById srv.manager msg.header.workerId = some w → w.2.socket = socket := by
  obtain ⟨hi, hassigned⟩ := finishes_slot hs hfin
  obtain ⟨job', st, f, hf, hserver⟩ := finish_accepted c socket hfin
  obtain ⟨hjobs, hworkers⟩ := hright (finishes_endsJob hfin)
  rw [hserver] at hjobs hworkers
  constructor
  · refine (hjobs i job hi ?_).2
    intro hsame
    rw [put_self hi job' st] at hsame
    cases hsame
    exact hf.status hassigned
  · intro w hw
    obtain ⟨k, w⟩ := w
    obtain ⟨hk, _, _⟩ := hs.workers.find.mp hw
    refine (hworkers k w hk ?_).2
    intro hsame
    simp only [withWorker, hw, Manager.put] at hsame
    rw [List.getElem?_set_self (List.getElem?_eq_some_iff.mp hk).1] at hsame
    exact hf.counted w (Option.some.inj hsame)

theorem rightful_iff_entitled (hs : Sound srv) (e : Event) :
    Rightful c srv e ↔ Entitled srv e := by
  cases e with
  | client clientSocket msg out => exact Iff.rfl
  | checkTimeouts now => exact Iff.rfl
  | checkInactive timeoutSeconds now => exact Iff.rfl
  | worker socket msg out =>
    cases hfin : srv.finishes msg out with
    | none =>
      constructor
      · intro _ found hsome
        rw [hfin] at hsome
        cases hsome
      · intro _ hends
        rw [finish_refused hfin hends]
        exact ⟨fun i job hi hne => absurd hi hne, fun i w hi hne => absurd hi hne⟩
    | some found =>
      obtain ⟨i, job⟩ := found
      constructor
      · intro hright found hsome
        rw [hfin] at hsome
        cases hsome
        exact entitled_of_rightful hs hfin hright
      · intro hent
        obtain ⟨hjob, hworker⟩ := hent _ hfin
        exact rightful_of_entitled hs hfin hjob hworker

/-- Jobs are ended by their assignees alone exactly in the runs whose messages say the
truth about both ids. -/
theorem ended_by_assignee_iff {maxJobs jobTimeoutSeconds maxWorkers : ℤ}
    {jobsAlloc workersAlloc : Bool}
    (hinit : serverInit c maxJobs jobTimeoutSeconds maxWorkers jobsAlloc workersAlloc = some srv)
    (es : List Event) :
    Meets (step c) (Rightful c) srv es ↔ Meets (step c) Entitled srv es := by
  have hstep : ∀ s e, Sound s → Sound (step c s e) := fun s e hs => sound_step hs e
  have hiff : ∀ s e, Sound s → (Rightful c s e ↔ Entitled s e) :=
    fun s e hs => rightful_iff_entitled hs e
  exact meets_iff_meets hstep hiff (init_server hinit).1 es

def submit (jobType : ℤ) (now : ℤ) : Event :=
  .client 9 ⟨⟨1, 1, 0⟩, .submitJob jobType none 0⟩ (clockAt now)

def enrol (socket : ℤ) (jobTypes : List ℤ) (now : ℤ) : Event :=
  .worker socket ⟨⟨1, 0, 0⟩, .workerRegister [49] 7000 jobTypes jobTypes.length⟩ (clockAt now)

def request (socket workerId now : ℤ) : Event :=
  .worker socket ⟨⟨2, 0, workerId⟩, .requestJob⟩ (clockAt now)

/-- Job 1 times out at worker 1 and goes to worker 2; then worker 1 reports it done. -/
def lateWorker : List Event :=
  [submit 1 100, enrol 5 [1] 200, enrol 6 [1] 210, request 5 1 300, .checkTimeouts 20000,
    request 6 2 20100, .worker 5 ⟨⟨3, 0, 1⟩, .jobCompleted 1 none 0 19000⟩ (clockAt 20200)]

theorem ended_by_assignee_iff_lateWorker :
    Meets (step fourTypes) (Rightful fourTypes) smallServer lateWorker ↔
      Meets (step fourTypes) Entitled smallServer lateWorker :=
  ended_by_assignee_iff smallServer_init lateWorker

/-- Worker 1 ends the job that is assigned to worker 2. -/
theorem ended_by_other :
    ((lateWorker.take 6).foldl (step fourTypes) smallServer).handler.jobs.map
        (fun job => (job.status, job.workerSocket)) = [(.assigned, 6), (.pending, 0)] ∧
      (lateWorker.foldl (step fourTypes) smallServer).handler.jobs.map Job.status =
        [.completed, .pending] ∧
      ¬ Meets (step fourTypes) (Rightful fourTypes) smallServer lateWorker := by
  refine ⟨by decide, by decide, ?_⟩
  intro hright
  have hlast : Rightful fourTypes ((lateWorker.take 6).foldl (step fourTypes) smallServer)
      (.worker 5 ⟨⟨3, 0, 1⟩, .jobCompleted 1 none 0 19000⟩ (clockAt 20200)) :=
    hright.2.2.2.2.2.2.1
  obtain ⟨hjobs, _⟩ := hlast rfl
  have hchanged := (hjobs 0 _ rfl (by decide)).2
  exact absurd hchanged (by decide)

/-! ### The types of the jobs given out -/

structure Ledger where
  server : Server
  registered : List (ℤ × List ℤ)

def typesOf (s : Ledger) (workerId : ℤ) : List ℤ :=
  ((lookup Prod.fst workerId s.registered).map Prod.snd).getD []

variable (c)

def newEntry (srv : Server) : Event → List (ℤ × List ℤ)
  | .worker socket ⟨_, .workerRegister ipAddress port jobTypesSupported numJobTypes⟩ out =>
    let r : Registration :=
      ⟨socket, some ipAddress, port, some jobTypesSupported, numJobTypes⟩
    let id := (workerManagerRegister c.maxJobTypes srv.manager r out.now).1
    if id < 0 then [] else [(id, WorkerDirectory.jobTypes r)]
  | _ => []

def Ledger.step (s : Ledger) (e : Event) : Ledger :=
  ⟨ServerMessages.step c s.server e, s.registered ++ newEntry c s.server e⟩

/-- The jobs at the unlock of `job_handler_assign`, before it sends; a failed send takes the
mark back. A request that names no registered worker does not come there. -/
def marked (srv : Server) (socket : ℤ) (header : Header) (now : ℤ) : List Job :=
  if (workerManagerUpdateStatus srv.manager header.workerId .idle).1 < 0 then srv.handler.jobs
  else (assignSelect srv.handler socket now).2.jobs

/-- The jobs that a request marks for the socket it came in on are of a type that every
worker registered with that socket has registered. -/
def Capable (s : Ledger) : Event → Prop
  | .worker socket ⟨header, .requestJob⟩ out =>
    ∀ w ∈ s.server.manager.workers, w.workerId ≠ 0 → w.socket = socket →
      ∀ (i : ℕ) job job', s.server.handler.jobs[i]? = some job →
        (marked s.server socket header out.now)[i]? = some job' →
        job.status ≠ .assigned → job'.status = .assigned ∧ job'.workerSocket = socket →
        job'.jobType ∈ typesOf s w.workerId
  | _ => True

/-- The oldest pending job happens to be of such a type. -/
def Suited (s : Ledger) : Event → Prop
  | .worker socket ⟨header, .requestJob⟩ _ =>
    (∃ named ∈ s.server.manager.workers, named.workerId ≠ 0 ∧
      named.workerId = header.workerId) →
      ∀ w ∈ s.server.manager.workers, w.workerId ≠ 0 → w.socket = socket →
        ∀ job, Oldest s.server.handler.jobs job → job.jobType ∈ typesOf s w.workerId
  | _ => True

theorem marked_unnamed {header : Header}
    (h : findWorkerById srv.manager header.workerId = none) (socket now : ℤ) :
    marked srv socket header now = srv.handler.jobs := by
  simp [marked, workerManagerUpdateStatus, withWorker, h]

theorem marked_named {header : Header} {found : ℕ × Worker}
    (h : findWorkerById srv.manager header.workerId = some found) (socket now : ℤ) :
    marked srv socket header now = (assignSelect srv.handler socket now).2.jobs := by
  simp [marked, workerManagerUpdateStatus, withWorker, h]

theorem named_iff (hs : Sound srv) (workerId : ℤ) :
    (∃ named ∈ srv.manager.workers, named.workerId ≠ 0 ∧ named.workerId = workerId) ↔
      ∃ found, findWorkerById srv.manager workerId = some found := by
  constructor
  · rintro ⟨named, hm, hne, rfl⟩
    obtain ⟨i, hi⟩ := List.mem_iff_getElem?.mp hm
    exact ⟨(i, named), hs.workers.find.mpr ⟨hi, rfl, hne⟩⟩
  · rintro ⟨⟨i, named⟩, hfind⟩
    obtain ⟨hi, hid, hne⟩ := hs.workers.find.mp hfind
    exact ⟨named, List.mem_of_getElem? hi, by omega, hid⟩

/-- `job_handler_assign` marks the oldest pending job and no other. -/
theorem assignSelect_marks {h : Handler} {n : ℕ} (hf : Filled h n) (socket now : ℤ)
    (P : ℤ → Prop) :
    (∀ (i : ℕ) job job', h.jobs[i]? = some job →
      (assignSelect h socket now).2.jobs[i]? = some job' → job.status ≠ .assigned →
      job'.status = .assigned ∧ job'.workerSocket = socket → P job'.jobType) ↔
      ∀ job, Oldest h.jobs job → P job.jobType := by
  unfold assignSelect
  cases hscan : oldestPending 0 none h.jobs with
  | none =>
    constructor
    · intro _ job hold
      obtain ⟨i, hsome⟩ := scan_of_oldest hf hold
      rw [hscan] at hsome
      cases hsome
    · intro _ i job job' hi hi' hne hmarked
      rw [hi] at hi'
      cases hi'
      exact absurd hmarked.1 hne
  | some found =>
    obtain ⟨k, a⟩ := found
    obtain ⟨hk, hold⟩ := oldest_of_scan hf hscan
    constructor
    · intro hmarks job hjob
      obtain rfl := hold.eq hf hjob
      exact hmarks k a (a.handOut socket now) hk (put_self hk _ _) (by rw [hold.2.1.2]; simp)
        ⟨rfl, rfl⟩
    · intro hsuited i job job' hi hi' hne hmarked
      by_cases hik : k = i
      · subst i
        rw [hk] at hi
        cases hi
        rw [put_self hk _ _] at hi'
        cases hi'
        exact hsuited a hold
      · simp only [Handler.put, List.getElem?_set_ne hik] at hi'
        rw [hi] at hi'
        cases hi'
        exact absurd hmarked.1 hne

theorem capable_iff_suited {s : Ledger} (hs : Sound s.server) (e : Event) :
    Capable s e ↔ Suited s e := by
  cases e with
  | client clientSocket msg out => exact Iff.rfl
  | checkTimeouts now => exact Iff.rfl
  | checkInactive timeoutSeconds now => exact Iff.rfl
  | worker socket msg out =>
    obtain ⟨header, body⟩ := msg
    cases body with
    | requestJob =>
      obtain ⟨n, hjobs⟩ := hs.jobs
      have hnamed := named_iff hs header.workerId
      simp only [Capable, Suited]
      cases hfind : findWorkerById s.server.manager header.workerId with
      | none =>
        rw [marked_unnamed hfind]
        constructor
        · intro _ hexists
          obtain ⟨found, hsome⟩ := hnamed.mp hexists
          rw [hfind] at hsome
          cases hsome
        · intro _ w _ _ _ i job job' hi hi' hne hmarked
          rw [hi] at hi'
          cases hi'
          exact absurd hmarked.1 hne
      | some found =>
        rw [marked_named hfind]
        have hmarks := fun w : Worker => assignSelect_marks hjobs.filled socket out.now
          fun jobType => jobType ∈ typesOf s w.workerId
        constructor
        · intro h _ w hw hne hsocket
          exact (hmarks w).mp (h w hw hne hsocket)
        · intro h w hw hne hsocket
          exact (hmarks w).mpr (h (hnamed.mpr ⟨found, hfind⟩) w hw hne hsocket)
    | _ => exact Iff.rfl

variable {c}

/-- Jobs go to capable workers exactly in the runs where every request finds the oldest
job of a type that the worker on its connection has registered. -/
theorem given_to_capable_iff {maxJobs jobTimeoutSeconds maxWorkers : ℤ}
    {jobsAlloc workersAlloc : Bool}
    (hinit : serverInit c maxJobs jobTimeoutSeconds maxWorkers jobsAlloc workersAlloc = some srv)
    (es : List Event) :
    Meets (Ledger.step c) Capable ⟨srv, []⟩ es ↔ Meets (Ledger.step c) Suited ⟨srv, []⟩ es := by
  have hstep : ∀ (s : Ledger) e, Sound s.server → Sound (Ledger.step c s e).server :=
    fun s e hs => sound_step hs e
  have hiff : ∀ (s : Ledger) e, Sound s.server → (Capable s e ↔ Suited s e) :=
    fun s e hs => capable_iff_suited hs e
  have hstart : Sound (Ledger.mk srv []).server := (init_server hinit).1
  exact meets_iff_meets hstep hiff hstart es

/-- A job of type 2 goes to worker 2, which knows it, though worker 1 asks first. -/
def knownType : List Event :=
  [enrol 5 [1] 200, enrol 6 [1, 2] 210, request 5 1 300, submit 2 310, request 6 2 320]

theorem given_to_capable_iff_knownType :
    (knownType.foldl (Ledger.step fourTypes) ⟨smallServer, []⟩).server.handler.jobs.map
        (fun job => (job.jobType, job.status, job.workerSocket)) =
        [(2, .assigned, 6), (0, .pending, 0)] ∧
      Meets (Ledger.step fourTypes) Capable ⟨smallServer, []⟩ knownType := by
  refine ⟨by decide, (given_to_capable_iff smallServer_init knownType).mpr
    ⟨trivial, trivial, ?_, trivial, ?_, trivial⟩⟩
  · have hnone : ∀ job ∈ ((knownType.take 2).foldl (Ledger.step fourTypes)
        ⟨smallServer, []⟩).server.handler.jobs, ¬ 0 < job.jobId := by decide
    intro _ w _ _ _ job hold
    exact absurd hold.2.1.1 (hnone job hold.1)
  · have htypes : ∀ w ∈ ((knownType.take 4).foldl (Ledger.step fourTypes)
        ⟨smallServer, []⟩).server.manager.workers, w.socket = 6 →
        ∀ job ∈ ((knownType.take 4).foldl (Ledger.step fourTypes)
          ⟨smallServer, []⟩).server.handler.jobs, 0 < job.jobId →
          job.jobType ∈ typesOf ((knownType.take 4).foldl (Ledger.step fourTypes)
            ⟨smallServer, []⟩) w.workerId := by decide
    intro _ w hw _ hsocket job hold
    exact htypes w hw hsocket job hold.1 hold.2.1.1

/-- A worker that knows type 1 asks while a job of type 2 waits. -/
def wrongType : List Event := [submit 2 100, enrol 5 [1] 200, request 5 1 300]

theorem given_to_incapable :
    (wrongType.foldl (Ledger.step fourTypes) ⟨smallServer, []⟩).registered = [(1, [1])] ∧
      (wrongType.foldl (Ledger.step fourTypes) ⟨smallServer, []⟩).server.handler.jobs.map
        (fun job => (job.jobType, job.status, job.workerSocket)) =
        [(2, .assigned, 5), (0, .pending, 0)] ∧
      ¬ Meets (Ledger.step fourTypes) Capable ⟨smallServer, []⟩ wrongType := by
  refine ⟨by decide, by decide, ?_⟩
  intro hcapable
  have hlast := hcapable.2.2.1
  have htype := hlast _ (List.mem_of_getElem? (i := 0) rfl) (by decide) rfl 0 _ _ rfl rfl
    (by decide) (by decide)
  exact absurd htype (by decide)

end CSimples.Assignees
