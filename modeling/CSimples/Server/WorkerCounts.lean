import CSimples.Server.ServerMessages

/-!
# The worker counters (server/worker_manager.c:150-419)

Unregistering a worker, setting its status and the sweep adjust the counters by
the status that the worker had; the end of a job always moves one from busy to
idle. So the counters hold as long as the workers whose jobs end are busy.
-/

namespace CSimples.WorkerCounts
open JobHandler WorkerManager ServerMessages Run
open Block (countP_set_slot)

def registered (w : Worker) : Bool := decide (w.workerId ≠ 0)

def inStatus (status : WorkerStatus) (w : Worker) : Bool :=
  registered w && decide (w.status = status)

structure Exact (m : Manager) : Prop where
  total : m.stats.total = m.workers.countP registered
  idle : m.stats.idle = m.workers.countP (inStatus .idle)
  busy : m.stats.busy = m.workers.countP (inStatus .busy)

variable {m : Manager} {i : ℕ} {v w : Worker}

/-! ### One slot -/

def one (b : Bool) : ℤ := if b then 1 else 0

theorem countP_put (p : Worker → Bool) (hi : m.workers[i]? = some w) :
    ((m.workers.set i v).countP p : ℤ) = m.workers.countP p - one (p w) + one (p v) := by
  have hcount := countP_set_slot p (b := v) hi
  unfold one
  cases hw : p w <;> cases hv : p v <;>
    simp only [hw, hv, Bool.false_eq_true, if_true, if_false] at hcount ⊢ <;> omega

theorem exact_put_iff (h : Exact m) (hi : m.workers[i]? = some w) (st : WorkerStats) :
    Exact (m.put i v st) ↔
      st.total = m.stats.total - one (registered w) + one (registered v) ∧
      st.idle = m.stats.idle - one (inStatus .idle w) + one (inStatus .idle v) ∧
      st.busy = m.stats.busy - one (inStatus .busy w) + one (inStatus .busy v) := by
  have ht := h.total
  have hidle := h.idle
  have hbusy := h.busy
  constructor
  · intro hput
    have ht' := hput.total
    have hidle' := hput.idle
    have hbusy' := hput.busy
    simp only [Manager.put, countP_put _ hi] at ht' hidle' hbusy'
    omega
  · rintro ⟨ht', hidle', hbusy'⟩
    constructor
    · simp only [Manager.put, countP_put _ hi]
      omega
    · simp only [Manager.put, countP_put _ hi]
      omega
    · simp only [Manager.put, countP_put _ hi]
      omega

theorem withWorker_exact (hn : Numbered m) (h : Exact m) (workerId : ℤ) {f : Worker → Worker}
    {g : WorkerStats → Worker → WorkerStats}
    (hf : ∀ (i : ℕ) w, m.workers[i]? = some w → w.workerId = workerId → workerId ≠ 0 →
      Exact (m.put i (f w) (g m.stats w))) : Exact (withWorker m workerId f g).2 := by
  rcases withWorker_cases hn workerId f g with ⟨_, hr⟩ | ⟨i, w, _, hi, hid, hne, hr⟩
  · rw [hr]
    exact h
  · rw [hr]
    exact hf i w hi hid hne

theorem updateStatus_exact (hn : Numbered m) (h : Exact m) (workerId : ℤ) (status : WorkerStatus) :
    Exact (workerManagerUpdateStatus m workerId status).2 := by
  apply withWorker_exact hn h
  intro i w hi hid hne
  have hreg : w.workerId ≠ 0 := by omega
  rw [exact_put_iff h hi]
  cases hw : w.status <;> cases status <;>
    simp [WorkerStats.moved, WorkerStats.leave, WorkerStats.enter, Worker.withStatus, inStatus,
      registered, one, hreg, hw]

theorem updateHeartbeat_exact (hn : Numbered m) (h : Exact m) (workerId now : ℤ) :
    Exact (workerManagerUpdateHeartbeat m workerId now).2 := by
  apply withWorker_exact hn h
  intro i w hi _ _
  have hreg : registered (w.withHeartbeat now) = registered w := rfl
  have hstatus : ∀ status, inStatus status (w.withHeartbeat now) = inStatus status w :=
    fun _ => rfl
  rw [exact_put_iff h hi, hreg, hstatus, hstatus]
  omega

theorem unregister_exact (hn : Numbered m) (h : Exact m) (maxJobTypes : ℕ) (workerId : ℤ) :
    Exact (workerManagerUnregister maxJobTypes m workerId).2 := by
  apply withWorker_exact hn h
  intro i w hi hid hne
  have hreg : w.workerId ≠ 0 := by omega
  rw [exact_put_iff h hi]
  cases hw : w.status <;>
    simp [WorkerStats.dropped, WorkerStats.leave, freeWorker, inStatus, registered, one, hreg, hw]

theorem assignJob_exact (hn : Numbered m) (h : Exact m) (workerId jobId : ℤ)
    (hidle : ∀ w ∈ m.workers, w.workerId = workerId → w.status = .idle) :
    Exact (workerManagerAssignJob m workerId jobId).2 := by
  apply withWorker_exact hn h
  intro i w hi hid hne
  have hreg : w.workerId ≠ 0 := by omega
  have hw := hidle w (List.mem_of_getElem? hi) hid
  rw [exact_put_iff h hi]
  simp [WorkerStats.toBusy, Worker.startJob, inStatus, registered, one, hreg, hw]

/-- The end of a job keeps the counters right exactly when its worker was busy. -/
theorem finishJob_exact_iff (h : Exact m) (hi : m.workers[i]? = some w) (hw : w.workerId ≠ 0)
    (hid : v.workerId = w.workerId) (hv : v.status = .idle) :
    Exact (m.put i v m.stats.toIdle) ↔ w.status = .busy := by
  have hidle : m.stats.idle + 1 ≠ m.stats.idle := by omega
  have hbusy : m.stats.busy - 1 ≠ m.stats.busy := by omega
  rw [exact_put_iff h hi]
  cases hs : w.status <;>
    simp [WorkerStats.toIdle, inStatus, registered, one, hid, hw, hv, hs, hidle, hbusy]

theorem register_exact (h : Exact m) (maxJobTypes : ℕ) (r : Registration) (now : ℤ)
    (hnext : 0 < m.nextWorkerId) : Exact (workerManagerRegister maxJobTypes m r now).2 := by
  rcases @register_cases maxJobTypes m r now with ⟨hr, _⟩ | ⟨i, old, hi, hold, _, hr⟩
  · rw [hr]
    exact h
  · have hne : m.nextWorkerId ≠ 0 := by omega
    have hput := (exact_put_iff (v := old.enrol maxJobTypes m.nextWorkerId r now) h hi
      { m.stats with total := m.stats.total + 1, idle := m.stats.idle + 1 }).mpr (by
        simp [Worker.enrol, inStatus, registered, one, hold, hne])
    rw [hr]
    exact ⟨hput.total, hput.idle, hput.busy⟩

/-! ### The sweep -/

theorem sweep_counts (timeoutSeconds now : ℤ) (st : WorkerStats) (ws : List Worker) :
    (sweepStats timeoutSeconds now st ws).total = st.total ∧
      (ws.map (Worker.checked timeoutSeconds now)).countP registered = ws.countP registered ∧
      (sweepStats timeoutSeconds now st ws).idle + ws.countP (inStatus .idle) =
        st.idle + (ws.map (Worker.checked timeoutSeconds now)).countP (inStatus .idle) ∧
      (sweepStats timeoutSeconds now st ws).busy + ws.countP (inStatus .busy) =
        st.busy + (ws.map (Worker.checked timeoutSeconds now)).countP (inStatus .busy) := by
  induction ws generalizing st with
  | nil => simp [sweepStats]
  | cons w ws ih =>
    by_cases hdue : overdue timeoutSeconds now w = true
    · have hid : w.workerId ≠ 0 := (of_decide_eq_true hdue).1
      have hrest := ih (st.leave w.status)
      have hcons : sweepStats timeoutSeconds now st (w :: ws) =
          sweepStats timeoutSeconds now (st.leave w.status) ws := by
        simp [sweepStats, hdue]
      rw [hcons]
      simp only [List.map_cons, List.countP_cons, Worker.checked, hdue, if_true]
      cases hw : w.status <;>
        simp [hw, WorkerStats.leave, inStatus, registered, hid] at hrest ⊢ <;> omega
    · have hrest := ih st
      have hcons : sweepStats timeoutSeconds now st (w :: ws) =
          sweepStats timeoutSeconds now st ws := by
        simp [sweepStats, hdue]
      rw [hcons]
      simp only [List.map_cons, List.countP_cons, Worker.checked, hdue]
      refine ⟨hrest.1, ?_, ?_, ?_⟩
      · simp [hrest.2.1]
      · simp only [Bool.false_eq_true, if_false]
        omega
      · simp only [Bool.false_eq_true, if_false]
        omega

theorem checkInactive_exact (h : Exact m) (timeoutSeconds now : ℤ) :
    Exact (workerManagerCheckInactive m timeoutSeconds now).2 := by
  obtain ⟨ht, hreg, hidle, hbusy⟩ := sweep_counts timeoutSeconds now m.stats m.workers
  have ht0 := h.total
  have hidle0 := h.idle
  have hbusy0 := h.busy
  simp only [workerManagerCheckInactive]
  constructor
  · dsimp only
    omega
  · dsimp only
    omega
  · dsimp only
    omega

/-! ### Messages -/

variable {c : Settings} {srv : Server}

/-- When a worker's message ends a job, the worker it names is busy, if registered. -/
def Orderly (srv : Server) : Event → Prop
  | .worker _ msg out => ∀ found w, srv.finishes msg out = some found →
      findWorkerById srv.manager msg.header.workerId = some w → w.2.status = .busy
  | _ => True

theorem request_exact (hs : Sound srv) (h : Exact srv.manager) (socket : ℤ) (header : Header)
    (out : Outcome) :
    Exact (serverHandleWorkerMessage c srv socket ⟨header, .requestJob⟩ out).server.manager := by
  cases hf : findWorkerById srv.manager header.workerId with
  | none =>
    rw [worker_request_unknown hf]
    exact h
  | some found =>
    obtain ⟨i, w⟩ := found
    have hidle := updateStatus_exact hs.workers h header.workerId .idle
    have hnum : Numbered (workerManagerUpdateStatus srv.manager header.workerId .idle).2 :=
      hs.workers.withWorker (f := Worker.withStatus .idle) _ (fun _ => .inr rfl) _
    rw [worker_request hf]
    dsimp only
    split
    · exact hidle
    · apply assignJob_exact hnum hidle
      -- the worker has just been set to idle
      obtain ⟨hi, hid, hne⟩ := hs.workers.find.mp hf
      have hput : (workerManagerUpdateStatus srv.manager header.workerId .idle).2 =
          srv.manager.put i (w.withStatus .idle) (srv.manager.stats.moved .idle w) := by
        simp only [workerManagerUpdateStatus, withWorker, hf]
      intro u hu huid
      obtain ⟨j, hj⟩ := List.mem_iff_getElem?.mp hu
      have hfound := hnum.find.mpr ⟨hj, huid, hne⟩
      have hself : findWorkerById (workerManagerUpdateStatus srv.manager header.workerId .idle).2
          header.workerId = some (i, w.withStatus .idle) := by
        apply hnum.find.mpr
        rw [hput]
        exact ⟨List.getElem?_set_self (List.getElem?_eq_some_iff.mp hi).1, hid, hne⟩
      rw [hself] at hfound
      cases hfound
      rfl

theorem finish_exact_iff (hs : Sound srv) (h : Exact srv.manager) (socket : ℤ) (msg : Message)
    (out : Outcome) (hends : msg.body.endsJob = true) :
    Exact (serverHandleWorkerMessage c srv socket msg out).server.manager ↔
      Orderly srv (.worker socket msg out) := by
  cases hfin : srv.finishes msg out with
  | none =>
    rw [finish_refused hfin hends]
    refine ⟨fun _ found w hsome => ?_, fun _ => h⟩
    rw [hfin] at hsome
    cases hsome
  | some found =>
    obtain ⟨i, job⟩ := found
    obtain ⟨job', st, f, hf, hserver⟩ := finish_accepted c socket hfin
    rw [hserver]
    rcases withWorker_cases hs.workers msg.header.workerId f fun st _ => st.toIdle with
      ⟨hnone, hr⟩ | ⟨j, w, hsome, hj, hid, hne, hr⟩
    · rw [hr]
      refine ⟨fun _ found w _ hw => ?_, fun _ => h⟩
      rw [hnone] at hw
      cases hw
    · rw [hr]
      have hiff := finishJob_exact_iff h hj (by omega) (hf.workerId w) (hf.idle w)
      constructor
      · intro hexact found u _ hu
        rw [hsome] at hu
        cases hu
        exact hiff.mp hexact
      · intro horderly
        exact hiff.mpr (horderly _ _ hfin hsome)

theorem step_exact_iff (hs : Sound srv) (h : Exact srv.manager) (e : Event) :
    Exact (step c srv e).manager ↔ Orderly srv e := by
  cases e with
  | client clientSocket msg out =>
    rw [step, client_manager]
    exact ⟨fun _ => trivial, fun _ => h⟩
  | checkTimeouts now => exact ⟨fun _ => trivial, fun _ => h⟩
  | checkInactive timeoutSeconds now =>
    exact ⟨fun _ => trivial, fun _ => checkInactive_exact h timeoutSeconds now⟩
  | worker socket msg out =>
    obtain ⟨header, body⟩ := msg
    have hfree : ∀ body : Body, srv.finishes ⟨header, body⟩ out = none →
        Orderly srv (.worker socket ⟨header, body⟩ out) := by
      intro body hnone found w hsome
      rw [hnone] at hsome
      cases hsome
    cases body with
    | jobCompleted jobId data size time =>
      exact finish_exact_iff hs h socket _ out rfl
    | jobFailed jobId code => exact finish_exact_iff hs h socket _ out rfl
    | workerRegister ipAddress port jobTypesSupported numJobTypes =>
      rw [step, worker_register]
      exact ⟨fun _ => hfree _ rfl, fun _ => register_exact h _ _ _ hs.workers.next⟩
    | workerHeartbeat =>
      rw [step, worker_heartbeat]
      exact ⟨fun _ => hfree _ rfl, fun _ => updateHeartbeat_exact hs.workers h _ _⟩
    | requestJob => exact ⟨fun _ => hfree _ rfl, fun _ => request_exact hs h socket header out⟩
    | workerDisconnect =>
      rw [step, worker_disconnect]
      exact ⟨fun _ => hfree _ rfl, fun _ => unregister_exact hs.workers h _ _⟩
    | submitJob jobType data dataSize => exact ⟨fun _ => hfree _ rfl, fun _ => h⟩
    | getJobStatus jobId => exact ⟨fun _ => hfree _ rfl, fun _ => h⟩
    | getJobResult jobId => exact ⟨fun _ => hfree _ rfl, fun _ => h⟩
    | other messageType => exact ⟨fun _ => hfree _ rfl, fun _ => h⟩

/-- The counters are exact along a run exactly when every job that ends in it ends at a
busy worker. -/
theorem counters_exact_iff {maxJobs jobTimeoutSeconds maxWorkers : ℤ}
    {jobsAlloc workersAlloc : Bool}
    (hinit : serverInit c maxJobs jobTimeoutSeconds maxWorkers jobsAlloc workersAlloc = some srv)
    (es : List Event) :
    Along (step c) (fun s => Exact s.manager) srv es ↔ Meets (step c) Orderly srv es := by
  obtain ⟨hs, _, hm⟩ := init_server hinit
  obtain ⟨_, hworkers, _, hstats, _⟩ := init_numbered hm
  have hnone : ∀ w ∈ srv.manager.workers, registered w = false := by
    intro w hw
    rw [hworkers] at hw
    rw [List.eq_of_mem_replicate hw]
    rfl
  have hzero : ∀ p : Worker → Bool, (∀ w, registered w = false → p w = false) →
      srv.manager.workers.countP p = 0 := by
    intro p hp
    rw [List.countP_eq_zero]
    intro w hw hpw
    rw [hp w (hnone w hw)] at hpw
    cases hpw
  have hexact : Exact srv.manager := by
    constructor
    · rw [hstats, hzero registered (fun _ h => h)]
      rfl
    · rw [hstats, hzero (inStatus .idle) (fun w h => by simp [inStatus, h])]
      rfl
    · rw [hstats, hzero (inStatus .busy) (fun w h => by simp [inStatus, h])]
      rfl
  have hinv : Sound srv ∧ Exact srv.manager := ⟨hs, hexact⟩
  refine along_iff_meets_of_inv (I := fun s => Sound s ∧ Exact s.manager) (fun s h => h.2) ?_ ?_
    hinv es
  · intro s e h horderly
    exact ⟨sound_step h.1 e, (step_exact_iff h.1 h.2 e).mpr horderly⟩
  · intro s e h hne hexact
    exact hne ((step_exact_iff h.1 h.2 e).mp hexact)

/-- A worker that sends no heartbeat while it works is set offline, then completes. -/
def silentWorker : List Event :=
  [.client 9 ⟨⟨1, 1, 0⟩, .submitJob 1 none 0⟩ (clockAt 100),
    .worker 5 ⟨⟨1, 0, 0⟩, .workerRegister [49] 7000 [1] 1⟩ (clockAt 200),
    .worker 5 ⟨⟨2, 0, 1⟩, .requestJob⟩ (clockAt 300), .checkInactive 60 90000,
    .worker 5 ⟨⟨3, 0, 1⟩, .jobCompleted 1 none 0 89000⟩ (clockAt 90100)]

theorem counters_exact_iff_silentWorker :
    Along (step fourTypes) (fun s => Exact s.manager) smallServer silentWorker ↔
      Meets (step fourTypes) Orderly smallServer silentWorker :=
  counters_exact_iff smallServer_init silentWorker

theorem busy_negative :
    (silentWorker.foldl (step fourTypes) smallServer).manager.stats = ⟨1, 1, -1⟩ ∧
      ¬ Along (step fourTypes) (fun s => Exact s.manager) smallServer silentWorker := by
  have hstats : (silentWorker.foldl (step fourTypes) smallServer).manager.stats = ⟨1, 1, -1⟩ := by
    decide
  refine ⟨hstats, fun hall => ?_⟩
  have hexact := along_iff_prefix.mp hall silentWorker [] (List.append_nil _).symm
  have hbusy := hexact.busy
  rw [hstats] at hbusy
  simp only at hbusy
  omega

end CSimples.WorkerCounts
