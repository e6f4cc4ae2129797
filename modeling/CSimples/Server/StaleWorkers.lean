import CSimples.Server.Connections

/-!
# Workers and their connections (server/server.c:205-266, 600-630)

`handle_worker_connection` under the convention that it is written for. A worker
is unregistered when its connection ends only where the loop meets the end of the
stream, and then one worker at most. Descriptors are used again.
-/

namespace CSimples.StaleWorkers
open JobHandler WorkerManager ServerMessages Connections Run SlotTable

/-! ### Ids and their sockets -/

def Registered (m : Manager) (workerId socket : ℤ) : Prop :=
  workerId ≠ 0 ∧ ∃ w ∈ m.workers, w.workerId = workerId ∧ w.socket = socket

variable {m : Manager} {c : Settings} {srv : Server}

theorem Registered.lt (hn : Numbered m) {workerId socket : ℤ} (h : Registered m workerId socket) :
    workerId < m.nextWorkerId := by
  obtain ⟨hne, w, hw, rfl, _⟩ := h
  exact (hn.range w hw hne).2

theorem registered_set {i : ℕ} {w v : Worker} (hi : m.workers[i]? = some w)
    (hid : v.workerId = w.workerId) (hs : v.socket = w.socket) (st : WorkerStats)
    (workerId socket : ℤ) :
    Registered (m.put i v st) workerId socket ↔ Registered m workerId socket := by
  unfold Registered
  rw [Manager.put, exists_mem_set hi, exists_mem_slot hi, hid, hs]

theorem registered_withWorker (hn : Numbered m) (workerId : ℤ) {f : Worker → Worker}
    (hf : ∀ w, (f w).workerId = w.workerId ∧ (f w).socket = w.socket)
    (g : WorkerStats → Worker → WorkerStats) (id socket : ℤ) :
    Registered (withWorker m workerId f g).2 id socket ↔ Registered m id socket := by
  rcases withWorker_cases hn workerId f g with ⟨_, hr⟩ | ⟨i, w, _, hi, _, _, hr⟩
  · rw [hr]
  · rw [hr]
    exact registered_set hi (hf w).1 (hf w).2 _ id socket

theorem registered_unregister (hn : Numbered m) (maxJobTypes : ℕ) (workerId id socket : ℤ) :
    Registered (workerManagerUnregister maxJobTypes m workerId).2 id socket ↔
      Registered m id socket ∧ id ≠ workerId := by
  rw [workerManagerUnregister]
  rcases withWorker_cases hn workerId (fun _ => freeWorker maxJobTypes) WorkerStats.dropped with
    ⟨hnone, hr⟩ | ⟨i, w, _, hi, rfl, hne, hr⟩
  · rw [hr]
    constructor
    · intro h
      refine ⟨h, ?_⟩
      rintro rfl
      obtain ⟨hne, w, hw, hid, _⟩ := h
      rcases hn.find_none.mp hnone with hz | hall
      · exact hne hz
      · exact hall w hw hid
    · exact fun h => h.1
  · rw [hr]
    unfold Registered
    rw [Manager.put, exists_mem_set hi, exists_mem_slot hi]
    constructor
    · rintro ⟨hid, ⟨hfree, _⟩ | ⟨k, u, hk, hu, rfl, hs⟩⟩
      · exact absurd hfree.symm hid
      · refine ⟨⟨hid, .inr ⟨k, u, hk, hu, rfl, hs⟩⟩, ?_⟩
        intro heq
        exact hk (hn.proper k i u w hu hi heq hid)
    · rintro ⟨⟨hid, ⟨heq, _⟩ | hother⟩, hne'⟩
      · exact absurd heq.symm hne'
      · exact ⟨hid, .inr hother⟩

theorem registered_checkInactive (timeoutSeconds now id socket : ℤ) :
    Registered (workerManagerCheckInactive m timeoutSeconds now).2 id socket ↔
      Registered m id socket := by
  have hsocket : ∀ w : Worker, (w.checked timeoutSeconds now).socket = w.socket := by
    intro w
    unfold Worker.checked
    split <;> rfl
  simp only [Registered, workerManagerCheckInactive, List.mem_map, exists_exists_and_eq_and,
    checked_workerId, hsocket]

theorem registered_addWorker {i : ℕ} {w v : Worker} (hn : Numbered m) (hi : m.workers[i]? = some w)
    (hw : w.workerId = 0) (hid : v.workerId = m.nextWorkerId) (id socket : ℤ) :
    Registered (m.addWorker i v) id socket ↔
      Registered m id socket ∨ id = m.nextWorkerId ∧ socket = v.socket := by
  have hnext := hn.next
  unfold Registered
  rw [Manager.addWorker, exists_mem_set hi, exists_mem_slot hi]
  constructor
  · rintro ⟨hne, ⟨hnew, hs⟩ | hother⟩
    · exact .inr ⟨by omega, hs.symm⟩
    · exact .inl ⟨hne, .inr hother⟩
  · rintro (⟨hne, ⟨hfree, _⟩ | hother⟩ | ⟨rfl, rfl⟩)
    · omega
    · exact ⟨hne, .inr hother⟩
    · exact ⟨by omega, .inl ⟨hid, rfl⟩⟩

theorem findBySocket_cases (hn : Numbered m) (socket : ℤ) :
    (workerManagerFindBySocket m socket = -1 ∧ ∀ id, ¬ Registered m id socket) ∨
      0 ≤ workerManagerFindBySocket m socket ∧
        Registered m (workerManagerFindBySocket m socket) socket := by
  unfold workerManagerFindBySocket
  cases hf : m.workers.find? fun w => decide (w.workerId > 0 ∧ w.socket = socket) with
  | none =>
    refine .inl ⟨rfl, ?_⟩
    rintro id ⟨hne, w, hw, rfl, hs⟩
    have hno := List.find?_eq_none.mp hf w hw
    have hpos := (hn.range w hw hne).1
    simp [hpos, hs] at hno
  | some w =>
    have hw := List.mem_of_find?_eq_some hf
    have hp := List.find?_some hf
    obtain ⟨hpos, hs⟩ := of_decide_eq_true hp
    right
    show 0 ≤ w.workerId ∧ Registered m w.workerId socket
    exact ⟨by omega, by omega, w, hw, rfl, hs⟩

/-! ### One message -/

/-- A WORKER_REGISTER message that finds a slot. -/
def Accepted (c : Settings) (srv : Server) (socket : ℤ) (msg : Message) : Prop :=
  match msg.body with
  | .workerRegister ipAddress port jobTypesSupported numJobTypes =>
    (⟨socket, some ipAddress, port, some jobTypesSupported, numJobTypes⟩ : Registration).valid
      c.maxJobTypes = true ∧ findFreeWorkerSlot srv.manager ≠ none
  | _ => False

instance (c : Settings) (srv : Server) (socket : ℤ) (msg : Message) :
    Decidable (Accepted c srv socket msg) := by
  unfold Accepted
  cases msg.body <;> infer_instance

theorem registered_register (hn : Numbered srv.manager) (socket : ℤ) (header : Header)
    (ipAddress : List UInt8) (port : ℤ) (jobTypesSupported : List ℤ) (numJobTypes now id s : ℤ) :
    Registered (workerManagerRegister c.maxJobTypes srv.manager
        ⟨socket, some ipAddress, port, some jobTypesSupported, numJobTypes⟩ now).2 id s ↔
      Registered srv.manager id s ∨
        Accepted c srv socket
          ⟨header, .workerRegister ipAddress port jobTypesSupported numJobTypes⟩ ∧
        id = srv.manager.nextWorkerId ∧ s = socket := by
  set r : Registration := ⟨socket, some ipAddress, port, some jobTypesSupported, numJobTypes⟩
  rcases @register_cases c.maxJobTypes srv.manager r now with ⟨hr, hwhy⟩ | ⟨i, old, hi, hid, hok, hr⟩
  · rw [hr]
    constructor
    · exact .inl
    · rintro (h | ⟨⟨hvalid, hslot⟩, _, _⟩)
      · exact h
      · rcases hwhy with hbad | hfull
        · exact absurd (hbad.symm.trans hvalid) (by simp)
        · exact absurd hfull hslot
  · have hslot : findFreeWorkerSlot srv.manager ≠ none := by
      intro hnone
      exact slot_eq_none.mp hnone old (List.mem_of_getElem? hi) hid
    rw [hr]
    have hiff := registered_addWorker (v := old.enrol c.maxJobTypes srv.manager.nextWorkerId r now)
      hn hi hid rfl id s
    constructor
    · intro h
      rcases hiff.mp h with h | ⟨hnew, hs⟩
      · exact .inl h
      · exact .inr ⟨⟨hok, hslot⟩, hnew, hs⟩
    · rintro (h | ⟨_, hnew, hs⟩)
      · exact hiff.mpr (.inl h)
      · exact hiff.mpr (.inr ⟨hnew, hs⟩)

theorem registered_after (hs : Sound srv) (socket : ℤ) (msg : Message) (out : Outcome)
    (id s : ℤ) :
    Registered (serverHandleWorkerMessage c srv socket msg out).server.manager id s ↔
      Registered srv.manager id s ∧ ¬ (msg.body = .workerDisconnect ∧ id = msg.header.workerId) ∨
        Accepted c srv socket msg ∧ id = srv.manager.nextWorkerId ∧ s = socket := by
  have hn := hs.workers
  obtain ⟨header, body⟩ := msg
  cases body with
  | workerRegister ipAddress port jobTypesSupported numJobTypes =>
    rw [worker_register]
    simpa using registered_register hn socket header ipAddress port jobTypesSupported numJobTypes
      out.now id s
  | workerDisconnect =>
    rw [worker_disconnect]
    simpa [Accepted] using registered_unregister hn c.maxJobTypes header.workerId id s
  | workerHeartbeat =>
    rw [worker_heartbeat]
    simp only [Accepted, reduceCtorEq, false_and, not_false_eq_true, and_true, or_false]
    exact registered_withWorker hn header.workerId
      (f := Worker.withHeartbeat out.now) (fun w => ⟨rfl, rfl⟩) _ id s
  | requestJob =>
    simp only [Accepted, reduceCtorEq, false_and, not_false_eq_true, and_true, or_false]
    cases hf : findWorkerById srv.manager header.workerId with
    | none => rw [worker_request_unknown hf]
    | some found =>
      obtain ⟨i, w⟩ := found
      have hidle := registered_withWorker hn header.workerId
        (f := Worker.withStatus .idle) (fun w => ⟨rfl, rfl⟩) (WorkerStats.moved .idle) id s
      have hnumbered : Numbered (workerManagerUpdateStatus srv.manager header.workerId .idle).2 :=
        hn.withWorker (f := Worker.withStatus .idle) _ (fun _ => .inr rfl) _
      rw [worker_request hf]
      dsimp only
      split
      · exact hidle
      · have hbusy := registered_withWorker hnumbered header.workerId
          (f := Worker.startJob (jobHandlerAssign srv.handler socket out.now out.jobSent).ret)
          (fun w => ⟨rfl, rfl⟩) (fun st _ => st.toBusy) id s
        exact hbusy.trans hidle
  | jobCompleted jobId resultData resultSize processingTimeMs =>
    rw [worker_completed]
    simp only [Accepted, reduceCtorEq, false_and, not_false_eq_true, and_true, or_false]
    split
    · exact Iff.rfl
    · exact registered_withWorker hn header.workerId
        (f := Worker.completeJob processingTimeMs) (fun w => ⟨rfl, rfl⟩) _ id s
  | jobFailed jobId errorCode =>
    rw [worker_failed]
    simp only [Accepted, reduceCtorEq, false_and, not_false_eq_true, and_true, or_false]
    split
    · exact Iff.rfl
    · exact registered_withWorker hn header.workerId
        (f := Worker.failJob) (fun w => ⟨rfl, rfl⟩) _ id s
  | submitJob jobType data dataSize =>
    simp [Accepted, serverHandleWorkerMessage, sendErrorResponse, Server.reply]
  | getJobStatus jobId =>
    simp [Accepted, serverHandleWorkerMessage, sendErrorResponse, Server.reply]
  | getJobResult jobId =>
    simp [Accepted, serverHandleWorkerMessage, sendErrorResponse, Server.reply]
  | other messageType =>
    simp [Accepted, serverHandleWorkerMessage, sendErrorResponse, Server.reply]

/-- The handler fails: the answer cannot be sent, or the worker that ended a job is not
registered. -/
def Fails (srv : Server) (msg : Message) (out : Outcome) : Prop :=
  let unknown := findWorkerById srv.manager msg.header.workerId = none
  match msg.body with
  | .requestJob => out.sent = false ∧
      (unknown ∨ oldestPending 0 none srv.handler.jobs = none ∨ out.jobSent = false)
  | .jobCompleted _ _ _ _ | .jobFailed _ _ =>
    out.sent = false ∨ srv.finishes msg out ≠ none ∧ unknown
  | _ => out.sent = false

theorem reply_error (srv : Server) (out : Outcome) (header : Header) (answer : Answer)
    (sends : List Response) (notices : List Notice) :
    (srv.reply out header answer sends notices).ret < 0 ↔ out.sent = false := by
  rw [Server.reply]
  cases out.sent <;> simp

theorem withWorker_error (m : Manager) (workerId : ℤ) (f : Worker → Worker)
    (g : WorkerStats → Worker → WorkerStats) :
    (withWorker m workerId f g).1 < 0 ↔ findWorkerById m workerId = none := by
  unfold withWorker
  cases findWorkerById m workerId <;> simp

theorem withWorker_known (hn : Numbered m) {i : ℕ} {w : Worker} {workerId : ℤ}
    (h : findWorkerById m workerId = some (i, w)) {f : Worker → Worker}
    (hid : (f w).workerId = w.workerId) (g : WorkerStats → Worker → WorkerStats) :
    findWorkerById (withWorker m workerId f g).2 workerId = some (i, f w) := by
  obtain ⟨hi, rfl, hne⟩ := hn.find.mp h
  have hput : withWorker m w.workerId f g = (0, m.put i (f w) (g m.stats w)) := by
    simp only [withWorker, h]
  rw [hput]
  apply (hn.put hi (.inr hid) (g m.stats w)).find.mpr
  exact ⟨List.getElem?_set_self (List.getElem?_eq_some_iff.mp hi).1, hid, hne⟩

theorem request_error (hs : Sound srv) (socket : ℤ) (header : Header) (out : Outcome) :
    (serverHandleWorkerMessage c srv socket ⟨header, .requestJob⟩ out).ret < 0 ↔
      Fails srv ⟨header, .requestJob⟩ out := by
  have hunknown := withWorker_error srv.manager header.workerId (Worker.withStatus .idle)
    (WorkerStats.moved .idle)
  have hrefused := assign_refused srv.handler socket out.now out.jobSent
  simp only [Fails, serverHandleWorkerMessage, handleRequestJob]
  split
  · rename_i hneg
    rw [sendErrorResponse, reply_error]
    simp [hunknown.mp hneg]
  · rename_i hok
    have hsome : findWorkerById srv.manager header.workerId ≠ none := mt hunknown.mpr hok
    split
    · rename_i hneg
      rw [reply_error]
      simp [hrefused.mp hneg]
    · rename_i hassigned
      obtain ⟨⟨i, w⟩, hf⟩ := Option.ne_none_iff_exists'.mp hsome
      have hknown := withWorker_known hs.workers hf (f := Worker.withStatus .idle) rfl
        (WorkerStats.moved .idle)
      have hbusy := withWorker_error (workerManagerUpdateStatus srv.manager header.workerId .idle).2
        header.workerId (Worker.startJob (jobHandlerAssign srv.handler socket out.now out.jobSent).ret)
        (fun st _ => st.toBusy)
      have hnone : ¬ (workerManagerAssignJob
          (workerManagerUpdateStatus srv.manager header.workerId .idle).2 header.workerId
          (jobHandlerAssign srv.handler socket out.now out.jobSent).ret).1 < 0 := by
        intro hneg
        have habsent := hbusy.mp hneg
        rw [workerManagerUpdateStatus, hknown] at habsent
        cases habsent
      simp only [if_neg hnone, mt hrefused.mpr hassigned, hsome, or_false, and_false, iff_false]
      omega

theorem finish_error (header : Header) {body : Body} (hends : body.endsJob = true) (socket : ℤ)
    (out : Outcome) :
    (serverHandleWorkerMessage c srv socket ⟨header, body⟩ out).ret < 0 ↔
      Fails srv ⟨header, body⟩ out := by
  cases body with
  | jobCompleted jobId data size time =>
    have hunknown := withWorker_error srv.manager header.workerId (Worker.completeJob time)
      (fun st _ => st.toIdle)
    simp only [Fails, serverHandleWorkerMessage, handleJobCompleted]
    cases hfin : srv.finishes ⟨header, .jobCompleted jobId data size time⟩ out with
    | none => simp [complete_refused hfin, sendErrorResponse, reply_error]
    | some found =>
      obtain ⟨i, job⟩ := found
      simp only [complete_accepted hfin, workerManagerCompleteJob, hunknown]
      by_cases hf : findWorkerById srv.manager header.workerId = none
      · simp [hf]
      · simp [hf, reply_error]
  | jobFailed jobId code =>
    have hunknown := withWorker_error srv.manager header.workerId Worker.failJob
      (fun st _ => st.toIdle)
    simp only [Fails, serverHandleWorkerMessage, handleJobFailed]
    cases hfin : srv.finishes ⟨header, .jobFailed jobId code⟩ out with
    | none => simp [fail_refused hfin, sendErrorResponse, reply_error]
    | some found =>
      obtain ⟨i, job⟩ := found
      simp only [fail_accepted hfin, workerManagerFailJob, hunknown]
      by_cases hf : findWorkerById srv.manager header.workerId = none
      · simp [hf]
      · simp [hf, reply_error]
  | _ => cases hends

theorem handler_error (hs : Sound srv) (socket : ℤ) (msg : Message) (out : Outcome) :
    (serverHandleWorkerMessage c srv socket msg out).ret < 0 ↔ Fails srv msg out := by
  obtain ⟨header, body⟩ := msg
  cases body with
  | workerRegister ipAddress port jobTypesSupported numJobTypes =>
    simp only [Fails, serverHandleWorkerMessage, handleRegister, sendErrorResponse]
    split <;> exact reply_error _ _ _ _ _ _
  | workerHeartbeat =>
    simp only [Fails, serverHandleWorkerMessage, handleHeartbeat, sendErrorResponse]
    split <;> exact reply_error _ _ _ _ _ _
  | workerDisconnect =>
    simp only [Fails, serverHandleWorkerMessage, handleDisconnect, sendErrorResponse]
    split <;> exact reply_error _ _ _ _ _ _
  | requestJob => exact request_error hs socket header out
  | jobCompleted jobId data size time => exact finish_error header rfl socket out
  | jobFailed jobId code => exact finish_error header rfl socket out
  | submitJob jobType data dataSize => exact reply_error _ _ _ _ _ _
  | getJobStatus jobId => exact reply_error _ _ _ _ _ _
  | getJobResult jobId => exact reply_error _ _ _ _ _ _
  | other messageType => exact reply_error _ _ _ _ _ _

/-! ### One pass of the loop -/

theorem registered_unregisterSocket (hn : Numbered srv.manager) (socket id s : ℤ) :
    Registered (unregisterSocket c srv socket).manager id s ↔
      Registered srv.manager id s ∧ id ≠ workerManagerFindBySocket srv.manager socket := by
  unfold unregisterSocket
  rcases findBySocket_cases hn socket with ⟨hf, _⟩ | ⟨hpos, _⟩
  · dsimp only
    rw [hf, if_neg (by omega)]
    constructor
    · intro h
      refine ⟨h, ?_⟩
      obtain ⟨hne, w, hw, rfl, _⟩ := h
      have hrange := hn.range w hw hne
      omega
    · exact fun h => h.1
  · dsimp only
    rw [if_pos hpos]
    exact registered_unregister hn _ _ id s

theorem pass_sound (hs : Sound srv) (socket : ℤ) (t : Turn) (result : ℤ) (msg : Message) :
    Sound (Connections.pass c .worker srv socket t result msg).2 := by
  unfold Connections.pass
  split
  · exact hs
  · split
    · show Sound (unregisterSocket c srv socket)
      unfold unregisterSocket
      dsimp only
      split
      · exact ⟨hs.jobs, hs.workers.withWorker _ (fun _ => .inl rfl) _⟩
      · exact hs
    · split
      · exact hs
      · exact sound_worker hs msg

theorem pass_elsewhere (hs : Sound srv) {socket s : ℤ} (hne : s ≠ socket) (t : Turn) (result : ℤ)
    (msg : Message) {id : ℤ}
    (h : Registered (Connections.pass c .worker srv socket t result msg).2.manager id s) :
    Registered srv.manager id s := by
  unfold Connections.pass at h
  split at h
  · exact h
  · split at h
    · exact ((registered_unregisterSocket hs.workers socket id s).mp h).1
    · split at h
      · exact h
      · rcases (registered_after hs socket msg t.out id s).mp h with h | ⟨_, _, hs⟩
        · exact h.1
        · exact absurd hs hne

/-- The pass may end the loop: no worker is left on the connection afterwards. -/
def EndsClean (c : Settings) (srv : Server) (socket : ℤ) (t : Turn) (result : ℤ) (msg : Message) :
    Prop :=
  if t.running = false ∨ result < 0 then ∀ id, ¬ Registered srv.manager id socket
  else if result = 0 then
    ∀ id id', Registered srv.manager id socket → Registered srv.manager id' socket → id = id'
  else Fails srv msg t.out → ¬ Accepted c srv socket msg ∧
    ∀ id, Registered srv.manager id socket →
      msg.body = .workerDisconnect ∧ id = msg.header.workerId

theorem unregisterSocket_none (hn : Numbered srv.manager) (socket : ℤ) :
    (∀ id, ¬ Registered (unregisterSocket c srv socket).manager id socket) ↔
      ∀ id id', Registered srv.manager id socket → Registered srv.manager id' socket →
        id = id' := by
  constructor
  · intro hnone id id' h h'
    have hfound : ∀ id, Registered srv.manager id socket →
        id = workerManagerFindBySocket srv.manager socket := by
      intro id h
      by_contra hne
      exact hnone id ((registered_unregisterSocket hn socket id socket).mpr ⟨h, hne⟩)
    rw [hfound id h, hfound id' h']
  · intro hone id h
    obtain ⟨hreg, hne⟩ := (registered_unregisterSocket hn socket id socket).mp h
    rcases findBySocket_cases hn socket with ⟨_, habsent⟩ | ⟨_, hfound⟩
    · exact habsent id hreg
    · exact hne (hone id _ hreg hfound)

theorem handled_none (hs : Sound srv) (socket : ℤ) (msg : Message) (out : Outcome) :
    (∀ id, ¬ Registered (serverHandleWorkerMessage c srv socket msg out).server.manager id socket) ↔
      ¬ Accepted c srv socket msg ∧ ∀ id, Registered srv.manager id socket →
        msg.body = .workerDisconnect ∧ id = msg.header.workerId := by
  have hafter := fun id => registered_after (c := c) hs socket msg out id socket
  constructor
  · intro hnone
    constructor
    · intro hacc
      exact hnone _ ((hafter _).mpr (.inr ⟨hacc, rfl, rfl⟩))
    · intro id hreg
      by_contra hne
      exact hnone id ((hafter id).mpr (.inl ⟨hreg, hne⟩))
  · intro ⟨hacc, hall⟩ id h
    rcases (hafter id).mp h with ⟨hreg, hne⟩ | ⟨hnew, _, _⟩
    · exact hne (hall id hreg)
    · exact hacc hnew

theorem endsClean_iff (hs : Sound srv) (socket : ℤ) (t : Turn) (result : ℤ) (msg : Message)
    (hend : (Connections.pass c .worker srv socket t result msg).1 = false) :
    EndsClean c srv socket t result msg ↔
      ∀ id, ¬ Registered (Connections.pass c .worker srv socket t result msg).2.manager
        id socket := by
  unfold Connections.pass at hend ⊢
  unfold EndsClean
  by_cases hrun : t.running = false
  · simp only [hrun, true_or, if_true]
  · by_cases hzero : result = 0
    · simp only [hrun, hzero, lt_self_iff_false, if_true, if_false]
      exact (unregisterSocket_none hs.workers socket).symm
    · by_cases hneg : result < 0
      · simp [hrun, hzero, hneg]
      · simp only [hrun, hzero, hneg, if_false] at hend ⊢
        have hfails : Fails srv msg t.out :=
          (handler_error (c := c) hs socket msg t.out).mp (by simpa [handle] using hend)
        have hnone := handled_none (c := c) hs socket msg t.out
        constructor
        · intro h
          exact hnone.mpr (h hfails)
        · intro h _
          exact hnone.mp h

theorem endsClean_of_continues (hs : Sound srv) (socket : ℤ) (t : Turn) (result : ℤ)
    (msg : Message) (hgo : (Connections.pass c .worker srv socket t result msg).1 = true) :
    EndsClean c srv socket t result msg ∧
      (Connections.pass c .worker srv socket t result msg).2 =
        (serverHandleWorkerMessage c srv socket msg t.out).server := by
  unfold Connections.pass at hgo ⊢
  unfold EndsClean
  by_cases hrun : t.running = false
  · simp [hrun] at hgo
  · by_cases hzero : result = 0
    · simp [hrun, hzero] at hgo
    · by_cases hneg : result < 0
      · simp [hrun, hzero, hneg] at hgo
      · simp only [hrun, hzero, hneg, if_false] at hgo ⊢
        have hfine := mt (handler_error (c := c) hs socket msg t.out).mpr
          (by simpa [handle] using hgo)
        exact ⟨fun hfails => absurd hfails hfine, rfl⟩

/-! ### Connections over time -/

/-- The worker connections that are open, by descriptor, each with its number, and the
number of the connection that each id was registered on. -/
structure Net where
  server : Server
  running : Bool
  conns : ℤ → Option ℕ
  accepted : ℕ
  registeredOn : ℤ → ℕ

/-- A descriptor is given out again once its connection is closed. -/
inductive Action where
  | accept (socket : ℤ) (ackSent : Bool)
  | pass (socket result : ℤ) (msg : Message) (out : Outcome)
  | client (clientSocket : ℤ) (msg : Message) (out : Outcome)
  | checkTimeouts (now : ℤ)
  | checkInactive (timeoutSeconds now : ℤ)
  | stop

variable (c)

def Net.step (n : Net) : Action → Net
  | .accept socket ackSent =>
    if ackSent = false ∨ n.conns socket ≠ none then n
    else { n with
      conns := Function.update n.conns socket (some n.accepted)
      accepted := n.accepted + 1 }
  | .pass socket result msg out =>
    match n.conns socket with
    | none => n
    | some k =>
      let p := Connections.pass c .worker n.server socket ⟨n.running, out⟩ result msg
      { n with
        server := p.2
        conns := Function.update n.conns socket (if p.1 then some k else none)
        registeredOn := fun id =>
          if n.server.manager.nextWorkerId ≤ id then k else n.registeredOn id }
  | .client clientSocket msg out =>
    { n with server := ServerMessages.step c n.server (.client clientSocket msg out) }
  | .checkTimeouts now => { n with server := ServerMessages.step c n.server (.checkTimeouts now) }
  | .checkInactive timeoutSeconds now =>
    { n with server := ServerMessages.step c n.server (.checkInactive timeoutSeconds now) }
  | .stop => { n with running := false }

def startNet (srv : Server) : Net := ⟨srv, true, fun _ => none, 0, fun _ => 0⟩

/-- No worker carries a socket without a connection, and a lookup returns a worker of the
connection that is open now. -/
def NoStale (n : Net) : Prop :=
  (∀ socket, n.conns socket = none →
      ∀ w ∈ n.server.manager.workers, w.workerId ≠ 0 → w.socket ≠ socket) ∧
    ∀ socket k, n.conns socket = some k →
      workerManagerFindBySocket n.server.manager socket = -1 ∨
        n.registeredOn (workerManagerFindBySocket n.server.manager socket) = k

/-- What `NoStale` says of one lookup, said of every worker. -/
structure Fresh (n : Net) : Prop where
  sound : Sound n.server
  current : ∀ id socket, Registered n.server.manager id socket →
    n.conns socket = some (n.registeredOn id)

/-- The passes that may leave a worker behind leave none. -/
def LeavesNone (n : Net) : Action → Prop
  | .pass socket result msg out =>
    n.conns socket ≠ none → EndsClean c n.server socket ⟨n.running, out⟩ result msg
  | _ => True

variable {c} {n : Net}

/-! ### The loop as passes -/

section Loop
variable {γ : Type*} (receive : γ → ℤ × Message × γ) (socket : ℤ)

def passes : List Turn → γ → List Action
  | [], _ => []
  | t :: ts, conn =>
    .pass socket (receive conn).1 (receive conn).2.1 t.out :: passes ts (receive conn).2.2

theorem passes_closed (hclosed : n.conns socket = none) (ts : List Turn) (conn : γ) :
    (passes receive socket ts conn).foldl (Net.step c) n = n := by
  induction ts generalizing conn with
  | nil => rfl
  | cons t ts ih =>
    rw [passes, List.foldl_cons]
    simp only [Net.step, hclosed]
    exact ih _

/-- While nothing else happens, the machine's passes are the loop of
`handle_worker_connection`. -/
theorem passes_loop (ts : List Turn) (conn : γ) {k : ℕ} (hopen : n.conns socket = some k)
    (hrun : ∀ t ∈ ts, t.running = n.running) :
    ((passes receive socket ts conn).foldl (Net.step c) n).server =
      (loop c .worker socket receive ts conn n.server).1 := by
  induction ts generalizing n conn with
  | nil => rfl
  | cons t ts ih =>
    have ht : t = ⟨n.running, t.out⟩ := by rw [← hrun t (by simp)]
    rw [passes, List.foldl_cons, loop]
    dsimp only
    rw [ht]
    simp only [Net.step, hopen]
    split
    · apply ih
      · exact Function.update_self ..
      · exact fun t ht => hrun t (List.mem_cons_of_mem _ ht)
    · rw [passes_closed receive socket (Function.update_self ..)]

end Loop

/-! ### What a run keeps -/

theorem Fresh.noStale (h : Fresh n) : NoStale n := by
  constructor
  · intro socket hclosed w hw hid hs
    have hopen := h.current w.workerId socket ⟨hid, w, hw, rfl, hs⟩
    rw [hclosed] at hopen
    cases hopen
  · intro socket k hopen
    rcases findBySocket_cases h.sound.workers socket with ⟨hnone, _⟩ | ⟨_, hreg⟩
    · exact .inl hnone
    · have hcurrent := h.current _ _ hreg
      rw [hopen] at hcurrent
      exact .inr (Option.some.inj hcurrent).symm

theorem pass_fresh (h : Fresh n) {socket : ℤ} {k : ℕ} (hopen : n.conns socket = some k)
    (result : ℤ) (msg : Message) (out : Outcome)
    (hends : EndsClean c n.server socket ⟨n.running, out⟩ result msg) :
    Fresh (n.step c (.pass socket result msg out)) := by
  have hn := h.sound.workers
  simp only [Net.step, hopen]
  constructor
  · exact pass_sound h.sound socket _ result msg
  · intro id s hreg
    dsimp only at hreg ⊢
    cases hgo : (Connections.pass c .worker n.server socket ⟨n.running, out⟩ result msg).1 with
    | false =>
      have hnone := (endsClean_iff h.sound socket _ result msg hgo).mp hends
      have hne : s ≠ socket := by
        rintro rfl
        exact hnone id hreg
      have hold := pass_elsewhere h.sound hne _ result msg hreg
      have hlt := hold.lt hn
      rw [Function.update_of_ne hne, if_neg (by omega)]
      exact h.current id s hold
    | true =>
      rw [(endsClean_of_continues h.sound socket _ result msg hgo).2] at hreg
      rcases (registered_after h.sound socket msg out id s).mp hreg with
        ⟨hold, _⟩ | ⟨_, hid, hs⟩
      · have hlt := hold.lt hn
        have hcurrent := h.current id s hold
        rw [if_pos rfl, if_neg (by omega), ← hcurrent]
        by_cases hne : s = socket
        · rw [hne, Function.update_self, hopen]
        · rw [Function.update_of_ne hne]
      · rw [hid, hs, Function.update_self, if_pos rfl, if_pos le_rfl]

theorem pass_stale (h : Fresh n) {socket : ℤ} {k : ℕ} (hopen : n.conns socket = some k)
    (result : ℤ) (msg : Message) (out : Outcome)
    (hbad : ¬ EndsClean c n.server socket ⟨n.running, out⟩ result msg) :
    ¬ NoStale (n.step c (.pass socket result msg out)) := by
  intro hclean
  have hend : (Connections.pass c .worker n.server socket ⟨n.running, out⟩ result msg).1 =
      false := by
    by_contra hgo
    exact hbad (endsClean_of_continues h.sound socket _ result msg (by simpa using hgo)).1
  apply hbad
  apply (endsClean_iff h.sound socket _ result msg hend).mpr
  rintro id ⟨hne, w, hw, rfl, hs⟩
  have hnone := hclean.1 socket
  simp only [Net.step, hopen, hend, Function.update_self] at hnone
  exact hnone rfl w hw hne hs

theorem step_fresh (h : Fresh n) (a : Action) (hleaves : LeavesNone c n a) :
    Fresh (n.step c a) := by
  cases a with
  | accept socket ackSent =>
    rw [Net.step]
    split
    · exact h
    · rename_i hopens
      have hclosed : n.conns socket = none := by
        by_contra hne
        exact hopens (.inr hne)
      constructor
      · exact h.sound
      · intro id s hreg
        have hcurrent := h.current id s hreg
        have hne : s ≠ socket := by
          rintro rfl
          rw [hclosed] at hcurrent
          cases hcurrent
        show Function.update n.conns socket (some n.accepted) s = _
        rw [Function.update_of_ne hne]
        exact hcurrent
  | pass socket result msg out =>
    cases hopen : n.conns socket with
    | none =>
      simp only [Net.step, hopen]
      exact h
    | some k => exact pass_fresh h hopen result msg out (hleaves (by simp [hopen]))
  | client clientSocket msg out =>
    constructor
    · exact sound_step (c := c) h.sound (.client clientSocket msg out)
    · intro id s hreg
      simp only [Net.step, ServerMessages.step, client_manager] at hreg
      exact h.current id s hreg
  | checkTimeouts now => exact ⟨sound_step (c := c) h.sound (.checkTimeouts now), h.current⟩
  | checkInactive timeoutSeconds now =>
    constructor
    · exact sound_step (c := c) h.sound (.checkInactive timeoutSeconds now)
    · intro id s hreg
      exact h.current id s ((registered_checkInactive timeoutSeconds now id s).mp hreg)
  | stop => exact ⟨h.sound, h.current⟩

theorem step_stale (h : Fresh n) (a : Action) (hbad : ¬ LeavesNone c n a) :
    ¬ NoStale (n.step c a) := by
  cases a with
  | pass socket result msg out =>
    obtain ⟨hopen, hends⟩ := Classical.not_imp.mp hbad
    obtain ⟨k, hk⟩ := Option.ne_none_iff_exists'.mp hopen
    exact pass_stale h hk result msg out hends
  | _ => exact absurd trivial hbad

/-- No stale worker is left along a run exactly when the loops of the run end without one. -/
theorem no_stale_iff {maxJobs jobTimeoutSeconds maxWorkers : ℤ}
    {jobsAlloc workersAlloc : Bool}
    (hinit : serverInit c maxJobs jobTimeoutSeconds maxWorkers jobsAlloc workersAlloc = some srv)
    (as : List Action) :
    Along (Net.step c) NoStale (startNet srv) as ↔
      Meets (Net.step c) (LeavesNone c) (startNet srv) as := by
  obtain ⟨hs, _, hm⟩ := init_server hinit
  obtain ⟨_, hworkers, _, _, _⟩ := init_numbered hm
  have hfresh : Fresh (startNet srv) := by
    constructor
    · exact hs
    · rintro id socket ⟨hne, w, hw, rfl, _⟩
      rw [startNet, hworkers] at hw
      rw [List.eq_of_mem_replicate hw] at hne
      exact absurd rfl hne
  exact along_iff_meets_of_inv (I := Fresh) (fun _ h => h.noStale)
    (fun _ a h hc => step_fresh h a hc) (fun _ a h hne => step_stale h a hne) hfresh as

def registration (jobType : ℤ) : Message :=
  ⟨⟨1, 0, 0⟩, .workerRegister [49] 7000 [jobType] 1⟩

/-- Worker 1 registers, its connection breaks, and the descriptor is used again. -/
def brokenConnection : List Action :=
  [.accept 5 true, .pass 5 1 (registration 1) (clockAt 100), .pass 5 (-1) blankMessage (clockAt 200),
    .accept 5 true]

theorem no_stale_iff_brokenConnection :
    Along (Net.step fourTypes) NoStale (startNet smallServer) brokenConnection ↔
      Meets (Net.step fourTypes) (LeavesNone fourTypes) (startNet smallServer) brokenConnection :=
  no_stale_iff smallServer_init brokenConnection

def reused : Net := brokenConnection.foldl (Net.step fourTypes) (startNet smallServer)

def leftBehind : Net :=
  [Action.accept 5 true, .pass 5 1 (registration 1) (clockAt 100),
    .pass 5 1 (registration 2) (clockAt 150), .pass 5 0 blankMessage (clockAt 200)].foldl
    (Net.step fourTypes) (startNet smallServer)

/-- The new connection is taken for worker 1, and worker 2 is left without one. -/
theorem stale_worker_found :
    (reused.conns 5 = some 1 ∧ workerManagerFindBySocket reused.server.manager 5 = 1 ∧
        reused.registeredOn 1 = 0) ∧
      (leftBehind.conns 5 = none ∧ workerManagerFindBySocket leftBehind.server.manager 5 = 2) ∧
      ¬ Along (Net.step fourTypes) NoStale (startNet smallServer) brokenConnection := by
  have hfound : reused.conns 5 = some 1 ∧
      workerManagerFindBySocket reused.server.manager 5 = 1 ∧ reused.registeredOn 1 = 0 := by
    decide
  refine ⟨hfound, by decide, fun hall => ?_⟩
  have hclean : NoStale reused :=
    along_iff_prefix.mp hall brokenConnection [] (List.append_nil _).symm
  have hlookup := hclean.2 5 1 hfound.1
  rw [hfound.2.1, hfound.2.2] at hlookup
  omega

end CSimples.StaleWorkers
