import CSimples.Central.Handlers
import CSimples.Lib.Run

/-!
# Where the TASK message goes

`worker_registry_get` returns a pointer into the array and gives up the
registry's mutex (worker_registry.c:143-163). `assign_task_to_worker` uses the
pointer three steps later for the descriptor it sends to
(central_server.c:240). In between, other handler threads may add and remove
workers, and a removal moves the workers behind it one slot forward: the
pointer then refers to another worker, or to a slot that the next registration
fills.
-/

namespace CSimples.StalePointer
open Block Keyed WorkerRegistry TaskManager CentralServer Run

/-- The next atomic step of `assign_task_to_worker(w)` (central_server.c:204-249).
`worker` is the pointer, `sockfd` the value read through it. -/
inductive Pc where
  | get
  | checkIdle (worker : ℕ)
  | getNextTask (worker : ℕ)
  | assignTask (worker : ℕ) (task : Task)
  | setBusy (worker : ℕ) (task : Task)
  | readSockfd (worker : ℕ) (task : Task)
  | send (sockfd : ℤ) (task : Task)
  | setIdle
  | done (ret : ℤ)

def Pc.pointer : Pc → Option ℕ
  | .checkIdle worker | .getNextTask worker => some worker
  | .assignTask worker _ | .setBusy worker _ | .readSockfd worker _ => some worker
  | _ => none

/-- One call for worker `workerId`, and the TASKs it has written. -/
structure Assignment where
  server : Server
  workerId : ℕ
  pc : Pc
  written : List (ℤ × Task)

inductive Action where
  | call (now : ℤ) (sent : Bool)
  | add (sockfd : ℤ) (threadId : ℕ) (now : ℤ)
  | remove (workerId : ℕ)

def setStatus (s : Server) (workerId : ℕ) (status : WorkerStatus) : Server :=
  { s with registry := (workerRegistryUpdateStatus s.registry workerId status).2 }

def callStep (s : Assignment) (now : ℤ) (sent : Bool) : Assignment :=
  match s.pc with
  | .get => match workerRegistryGet s.server.registry s.workerId with
    | none => { s with pc := .done (-1) }
    | some worker => { s with pc := .checkIdle worker }
  | .checkIdle worker =>
    if (deref s.server.registry worker).status ≠ .idle then { s with pc := .done (-1) }
    else { s with pc := .getNextTask worker }
  | .getNextTask worker =>
    let popped := taskManagerGetNextTask s.server.manager
    { s with
      server := { s.server with manager := popped.2 }
      pc := match popped.1 with
        | none => .done (-1)
        | some task => .assignTask worker task }
  | .assignTask worker task =>
    let assigned := taskManagerAssignTask s.server.manager task.taskId s.workerId now
    { s with
      server := { s.server with manager := assigned.2 }
      pc := if assigned.1 ≠ 0 then .done (-1) else .setBusy worker task }
  | .setBusy worker task =>
    { s with server := setStatus s.server s.workerId .busy, pc := .readSockfd worker task }
  | .readSockfd worker task =>
    { s with pc := .send (deref s.server.registry worker).sockfd task }
  | .send sockfd task =>
    let r := s.server.send sockfd (taskMessage s.server.host task) sent
    if r.1 < 0 then { s with server := r.2, pc := .setIdle }
    else { s with server := r.2, pc := .done 0, written := s.written ++ [(sockfd, task)] }
  | .setIdle =>
    { s with server := setStatus s.server s.workerId .idle, pc := .done (-1) }
  | .done _ => s

def step (s : Assignment) : Action → Assignment
  | .call now sent => callStep s now sent
  | .add sockfd threadId now =>
    { s with server := { s.server with
        registry := (workerRegistryAdd s.server.registry sockfd threadId now).2 } }
  | .remove workerId => { s with server := s.server.removeWorker workerId }

def RegisteredAt (s : Server) (workerId : ℕ) (sockfd : ℤ) : Prop :=
  ∃ w, lookup WorkerInfo.workerId workerId s.registry.live = some w ∧ w.sockfd = sockfd

def RecordedFor (s : Server) (workerId : ℕ) (task : Task) : Prop :=
  ∃ t, lookup TaskInfo.id task.taskId s.manager.live = some t ∧ t.status = .assigned ∧
    t.workerId = workerId

/-- Every TASK the call has written went to the worker its task is recorded for. -/
def Directed (s : Assignment) : Prop :=
  ∀ m ∈ s.written, RegisteredAt s.server s.workerId m.1 ∧ RecordedFor s.server s.workerId m.2

/-- Other threads keep ids distinct and do not remove the worker itself. -/
def Allowed (s : Assignment) : Action → Prop
  | .call _ _ => True
  | .add sockfd _ _ => 0 ≤ sockfd → s.server.registry.count < s.server.registry.capacity →
      ∀ w ∈ s.server.registry.live, w.workerId ≠ s.server.registry.count + 1
  | .remove workerId => workerId ≠ s.workerId

/-- The step writes slot `p`: a removal moves slots `i + 1` to `count - 1` one
forward, an addition fills slot `count`. -/
def Overwrites (r : Registry) (p : ℕ) : Action → Prop
  | .call _ _ => False
  | .add sockfd _ _ => 0 ≤ sockfd ∧ r.count < r.capacity ∧ p = r.count
  | .remove workerId => ∃ i, workerId ≠ 0 ∧ r.find workerId = some i ∧ i ≤ p ∧ p + 1 < r.count

/-- The slot behind the pointer is left alone while the pointer is in use. -/
def Spared (s : Assignment) (a : Action) : Prop :=
  ∀ p, s.pc.pointer = some p → ¬ Overwrites s.server.registry p a

/-! ### The invariant -/

/-- Slot `p` holds the worker's descriptor, and if the slot is in use the worker
itself: after removals it may be a copy left behind the workers in use. -/
def PointsAt (r : Registry) (workerId p : ℕ) : Prop :=
  ∃ w v, lookup WorkerInfo.workerId workerId r.live = some w ∧ r.workers[p]? = some v ∧
    v.sockfd = w.sockfd ∧ (p < r.count → v.workerId = workerId)

def Pc.marked : Pc → Option Task
  | .setBusy _ task | .readSockfd _ task | .send _ task => some task
  | _ => none

def Pc.target : Pc → Option ℤ
  | .send sockfd _ => some sockfd
  | _ => none

structure Inv (s : Assignment) : Prop where
  distinct : Distinct WorkerInfo.workerId s.server.registry.live
  points : ∀ p, s.pc.pointer = some p → PointsAt s.server.registry s.workerId p
  marked : ∀ task, s.pc.marked = some task → RecordedFor s.server s.workerId task
  target : ∀ sockfd, s.pc.target = some sockfd → RegisteredAt s.server s.workerId sockfd
  unwritten : (∀ ret, s.pc ≠ .done ret) → s.written = []
  directed : Directed s

theorem pointsAt_get {r : Registry} {workerId p : ℕ} (h : workerRegistryGet r workerId = some p) :
    PointsAt r workerId p := by
  obtain ⟨_, _, w, hw, hid, hl⟩ := get_spec h
  exact ⟨w, w, hl, hw, rfl, fun _ => hid⟩

theorem PointsAt.registeredAt {s : Server} {workerId p : ℕ} (h : PointsAt s.registry workerId p) :
    RegisteredAt s workerId (deref s.registry p).sockfd := by
  obtain ⟨w, v, hl, hv, hfd, _⟩ := h
  refine ⟨w, hl, ?_⟩
  rw [deref, List.getD_eq_getElem?_getD, hv, Option.getD_some, hfd]

/-! ### What the other steps leave of a pointer -/

theorem updateStatus_get {r : Registry} {p : ℕ} {v : WorkerInfo} (h : r.workers[p]? = some v)
    (workerId : ℕ) (status : WorkerStatus) :
    ∃ v', (workerRegistryUpdateStatus r workerId status).2.workers[p]? = some v' ∧
      v'.sockfd = v.sockfd ∧ v'.workerId = v.workerId := by
  unfold workerRegistryUpdateStatus updateWorker
  split
  · exact ⟨v, h, rfl, rfl⟩
  · split
    · exact ⟨v, h, rfl, rfl⟩
    · rename_i i _
      simp only [Registry.store, List.getElem?_modify, h]
      by_cases hi : i = p
      · exact ⟨withStatus status v, by simp [hi], rfl, rfl⟩
      · exact ⟨v, by simp [hi], rfl, rfl⟩

theorem RegisteredAt.setStatus {s : Server} {workerId : ℕ} {sockfd : ℤ}
    (h : RegisteredAt s workerId sockfd) (status : WorkerStatus) :
    RegisteredAt (setStatus s workerId status) workerId sockfd := by
  obtain ⟨w, hl, hfd⟩ := h
  by_cases hz : workerId = 0
  · subst hz
    exact ⟨w, hl, hfd⟩
  · have hlive : (StalePointer.setStatus s workerId status).registry.live =
        update WorkerInfo.workerId workerId (withStatus status) s.registry.live :=
      updateStatus_live hz
    refine ⟨withStatus status w, ?_, hfd⟩
    rw [hlive, lookup_update (withStatus_workerId status), hl, Option.map_some]

theorem PointsAt.setStatus {s : Server} {workerId p : ℕ} (h : PointsAt s.registry workerId p)
    (status : WorkerStatus) : PointsAt (setStatus s workerId status).registry workerId p := by
  obtain ⟨w, v, hl, hv, hfd, huse⟩ := h
  obtain ⟨w', hl', hw'⟩ := RegisteredAt.setStatus ⟨w, hl, rfl⟩ status
  obtain ⟨v', hv', hfd', hid'⟩ := updateStatus_get hv workerId status
  refine ⟨w', v', hl', hv', by rw [hfd', hfd, hw'], fun hp => ?_⟩
  rw [hid']
  exact huse (updateWorker_count.1 ▸ hp)

theorem add_cases (r : Registry) (sockfd : ℤ) (threadId : ℕ) (now : ℤ) :
    workerRegistryAdd r sockfd threadId now = (0, r) ∨
      0 ≤ sockfd ∧ r.count < r.capacity ∧
      (workerRegistryAdd r sockfd threadId now).2.live =
        r.live ++ [newWorker (r.count + 1) sockfd threadId now] ∧
      (workerRegistryAdd r sockfd threadId now).2.count = r.count + 1 ∧
      ∀ p, p ≠ r.count →
        (workerRegistryAdd r sockfd threadId now).2.workers[p]? = r.workers[p]? := by
  by_cases hadd : 0 ≤ sockfd ∧ r.count < r.capacity
  · obtain ⟨_, hlive, hcount⟩ := add_room threadId now hadd.1 hadd.2
    refine Or.inr ⟨hadd.1, hadd.2, hlive, hcount, fun p hp => ?_⟩
    unfold workerRegistryAdd
    rw [if_neg (by omega), dif_neg (by omega)]
    exact List.getElem?_set_ne (Ne.symm hp)
  · exact Or.inl (add_full (by omega))

theorem RegisteredAt.add {s : Server} {workerId : ℕ} {fd : ℤ} (h : RegisteredAt s workerId fd)
    (sockfd : ℤ) (threadId : ℕ) (now : ℤ) :
    RegisteredAt { s with registry := (workerRegistryAdd s.registry sockfd threadId now).2 }
      workerId fd := by
  obtain ⟨w, hl, hfd⟩ := h
  rcases add_cases s.registry sockfd threadId now with hsame | ⟨_, _, hlive, _⟩
  · exact ⟨w, by simp only [hsame]; exact hl, hfd⟩
  · exact ⟨w, by simp only [hlive]; exact lookup_append_left hl, hfd⟩

theorem PointsAt.add {r : Registry} {workerId p : ℕ} (h : PointsAt r workerId p) (sockfd : ℤ)
    (threadId : ℕ) (now : ℤ) (hs : ¬ Overwrites r p (.add sockfd threadId now)) :
    PointsAt (workerRegistryAdd r sockfd threadId now).2 workerId p := by
  obtain ⟨w, v, hl, hv, hfd, huse⟩ := h
  rcases add_cases r sockfd threadId now with hsame | ⟨hfdnew, hroom, hlive, hcount, hslots⟩
  · rw [hsame]
    exact ⟨w, v, hl, hv, hfd, huse⟩
  · have hne : p ≠ r.count := fun he => hs ⟨hfdnew, hroom, he⟩
    refine ⟨w, v, ?_, by rw [hslots p hne]; exact hv, hfd, fun hp => huse ?_⟩
    · rw [hlive]
      exact lookup_append_left hl
    · rw [hcount] at hp
      omega

theorem RegisteredAt.remove {s : Server} {workerId id : ℕ} {fd : ℤ}
    (h : RegisteredAt s workerId fd) (hne : id ≠ workerId) :
    RegisteredAt (s.removeWorker id) workerId fd := by
  obtain ⟨w, hl, hfd⟩ := h
  exact ⟨w, (lookup_remove_ne hne.symm).trans hl, hfd⟩

theorem PointsAt.remove {r : Registry} {workerId p id : ℕ} (h : PointsAt r workerId p)
    (hne : id ≠ workerId) (hs : ¬ Overwrites r p (.remove id)) :
    PointsAt (workerRegistryRemove r id).registry workerId p := by
  obtain ⟨w, v, hl, hv, hfd, huse⟩ := h
  by_cases habsent : id = 0 ∨ r.find id = none
  · rw [remove_absent habsent]
    exact ⟨w, v, hl, hv, hfd, huse⟩
  · obtain ⟨hz, hsome⟩ := not_or.mp habsent
    obtain ⟨i, hi⟩ := Option.ne_none_iff_exists'.mp hsome
    obtain ⟨_, hslots, hcount⟩ := remove_found hz hi
    have hlt := Registry.find_lt hi
    have hlen := r.workers_length
    have hle := r.count_le
    have hspared : p < i ∨ r.count ≤ p + 1 := by
      by_contra hno
      exact hs ⟨i, hz, hi, by omega, by omega⟩
    -- the slots that move are `i` to `count - 2`
    have hkept : (workerRegistryRemove r id).registry.workers[p]? = r.workers[p]? := by
      rw [hslots]
      rcases hspared with hp | hp
      · exact memmove_below hp (by omega)
      · exact memmove_above (by omega) (by omega) (by omega)
    refine ⟨w, v, ?_, by rw [hkept]; exact hv, hfd, fun hp => huse ?_⟩
    · exact (lookup_remove_ne hne.symm).trans hl
    · rw [hcount] at hp
      omega

/-! ### The invariant is kept -/

theorem inv_other {s : Assignment} {server : Server} (h : Inv s)
    (hm : server.manager = s.server.manager)
    (hd : Distinct WorkerInfo.workerId server.registry.live)
    (hp : ∀ p, s.pc.pointer = some p → PointsAt server.registry s.workerId p)
    (hr : ∀ fd, RegisteredAt s.server s.workerId fd → RegisteredAt server s.workerId fd) :
    Inv { s with server := server } := by
  have hrec : ∀ task, RecordedFor s.server s.workerId task →
      RecordedFor server s.workerId task := by
    intro task ht
    unfold RecordedFor
    rw [hm]
    exact ht
  exact ⟨hd, hp, fun task ht => hrec task (h.marked task ht),
    fun fd hfd => hr fd (h.target fd hfd), h.unwritten,
    fun m hmem => ⟨hr m.1 (h.directed m hmem).1, hrec m.2 (h.directed m hmem).2⟩⟩

theorem inv_add {s : Assignment} (h : Inv s) (sockfd : ℤ) (threadId : ℕ) (now : ℤ)
    (ha : Allowed s (.add sockfd threadId now)) (hs : Spared s (.add sockfd threadId now)) :
    Inv (step s (.add sockfd threadId now)) := by
  refine inv_other h rfl ?_
    (fun p hp => (h.points p hp).add sockfd threadId now (hs p hp))
    (fun fd hfd => hfd.add sockfd threadId now)
  rcases add_cases s.server.registry sockfd threadId now with hsame | ⟨hfd, hroom, hlive, _⟩
  · simp only [hsame]
    exact h.distinct
  · simp only [hlive]
    exact distinct_append_fresh.mpr ⟨h.distinct, ha hfd hroom⟩

theorem inv_remove {s : Assignment} (h : Inv s) (workerId : ℕ)
    (ha : Allowed s (.remove workerId)) (hs : Spared s (.remove workerId)) :
    Inv (step s (.remove workerId)) := by
  exact inv_other h rfl (remove_distinct h.distinct workerId)
    (fun p hp => (h.points p hp).remove ha (hs p hp)) (fun fd hfd => hfd.remove ha)

theorem distinct_setStatus {s : Server} (h : Distinct WorkerInfo.workerId s.registry.live)
    (workerId : ℕ) (status : WorkerStatus) :
    Distinct WorkerInfo.workerId (setStatus s workerId status).registry.live := by
  unfold Distinct at h ⊢
  have hids : (setStatus s workerId status).registry.live.map WorkerInfo.workerId =
      s.registry.live.map WorkerInfo.workerId :=
    updateWorker_map (withStatus_workerId status) s.registry workerId
  rw [hids]
  exact h

theorem directed_nil {s : Assignment} (h : s.written = []) : Directed s := by
  intro m hm
  rw [h] at hm
  cases hm

theorem inv_done {s : Assignment} (ret : ℤ)
    (hd : Distinct WorkerInfo.workerId s.server.registry.live) (hw : s.written = []) :
    Inv { s with pc := .done ret } :=
  ⟨hd, by simp [Pc.pointer], by simp [Pc.marked], by simp [Pc.target], fun _ => hw,
    directed_nil hw⟩

/-- A step that leaves the call with the pointer, before anything is written. -/
theorem inv_pointing {s : Assignment} {worker : ℕ}
    (hd : Distinct WorkerInfo.workerId s.server.registry.live)
    (hpoints : PointsAt s.server.registry s.workerId worker)
    (hmarked : ∀ task, s.pc.marked = some task → RecordedFor s.server s.workerId task)
    (hw : s.written = []) (hpc : s.pc.pointer = some worker) (ht : s.pc.target = none) :
    Inv s := by
  refine ⟨hd, ?_, hmarked, by simp [ht], fun _ => hw, directed_nil hw⟩
  intro p hp
  rw [hpc] at hp
  cases hp
  exact hpoints

theorem inv_send {s : Assignment} (h : Inv s) {sockfd : ℤ} {task : Task}
    (hpc : s.pc = .send sockfd task) (now : ℤ) (sent : Bool) : Inv (callStep s now sent) := by
  have hw := h.unwritten (by simp [hpc])
  have hmarked := h.marked task (by rw [hpc]; rfl)
  have htarget := h.target sockfd (by rw [hpc]; rfl)
  obtain ⟨hregistry, hmanager⟩ := send_frame s.server sockfd (taskMessage s.server.host task) sent
  have hd : Distinct WorkerInfo.workerId
      (s.server.send sockfd (taskMessage s.server.host task) sent).2.registry.live := by
    rw [hregistry]
    exact h.distinct
  simp only [callStep, hpc]
  split
  · exact ⟨hd, by simp [Pc.pointer], by simp [Pc.marked], by simp [Pc.target], fun _ => hw,
      directed_nil hw⟩
  · refine ⟨hd, by simp [Pc.pointer], by simp [Pc.marked], by simp [Pc.target], ?_, ?_⟩
    · exact fun hno => absurd rfl (hno 0)
    · intro m hm
      simp only [hw, List.nil_append, List.mem_singleton] at hm
      subst hm
      unfold RegisteredAt RecordedFor
      simp only [hregistry, hmanager]
      exact ⟨htarget, hmarked⟩

theorem inv_call {s : Assignment} (h : Inv s) (now : ℤ) (sent : Bool) :
    Inv (callStep s now sent) := by
  have hunwritten := h.unwritten
  cases hpc : s.pc with
  | get =>
    have hw := hunwritten (by simp [hpc])
    simp only [callStep, hpc]
    split
    · exact inv_done (-1) h.distinct hw
    · rename_i worker hget
      exact inv_pointing h.distinct (pointsAt_get hget) (by simp [Pc.marked]) hw rfl rfl
  | checkIdle worker =>
    have hw := hunwritten (by simp [hpc])
    have hpoints := h.points worker (by rw [hpc]; rfl)
    simp only [callStep, hpc]
    split
    · exact inv_done (-1) h.distinct hw
    · exact inv_pointing h.distinct hpoints (by simp [Pc.marked]) hw rfl rfl
  | getNextTask worker =>
    have hw := hunwritten (by simp [hpc])
    have hpoints := h.points worker (by rw [hpc]; rfl)
    simp only [callStep, hpc]
    split
    · exact inv_done (s := { s with server := _ }) (-1) h.distinct hw
    · exact inv_pointing h.distinct hpoints (by simp [Pc.marked]) hw rfl rfl
  | assignTask worker task =>
    have hw := hunwritten (by simp [hpc])
    have hpoints := h.points worker (by rw [hpc]; rfl)
    simp only [callStep, hpc]
    split
    · exact inv_done (s := { s with server := _ }) (-1) h.distinct hw
    · rename_i hret
      refine inv_pointing h.distinct hpoints ?_ hw rfl rfl
      intro u hu
      cases hu
      obtain ⟨t, ht⟩ := assignTask_recorded (not_not.mp hret)
      exact ⟨_, ht, rfl, rfl⟩
  | setBusy worker task =>
    have hw := hunwritten (by simp [hpc])
    have hpoints := h.points worker (by rw [hpc]; rfl)
    have hmarked := h.marked task (by rw [hpc]; rfl)
    simp only [callStep, hpc]
    refine inv_pointing (distinct_setStatus h.distinct s.workerId .busy)
      (hpoints.setStatus .busy) ?_ hw rfl rfl
    intro u hu
    cases hu
    exact hmarked
  | readSockfd worker task =>
    have hw := hunwritten (by simp [hpc])
    have hpoints := h.points worker (by rw [hpc]; rfl)
    have hmarked := h.marked task (by rw [hpc]; rfl)
    simp only [callStep, hpc]
    refine ⟨h.distinct, by simp [Pc.pointer], ?_, ?_, fun _ => hw, directed_nil hw⟩
    · intro u hu
      cases hu
      exact hmarked
    · intro fd hfd
      cases hfd
      exact hpoints.registeredAt
  | send sockfd task => exact inv_send h hpc now sent
  | setIdle =>
    have hw := hunwritten (by simp [hpc])
    simp only [callStep, hpc]
    exact inv_done (s := { s with server := _ }) (-1)
      (distinct_setStatus h.distinct s.workerId .idle) hw
  | done ret =>
    simp only [callStep, hpc]
    exact h

theorem inv_step (s : Assignment) (a : Action) (h : Inv s) (hc : Allowed s a ∧ Spared s a) :
    Inv (step s a) := by
  cases a with
  | call now sent => exact inv_call h now sent
  | add sockfd threadId now => exact inv_add h sockfd threadId now hc.1 hc.2
  | remove workerId => exact inv_remove h workerId hc.1 hc.2

/-- A call that begins with distinct ids sends its task to the worker it is
recorded for, in every interleaving in which no other thread writes the slot
behind the pointer. -/
theorem directed_when_spared {server : Server}
    (hd : Distinct WorkerInfo.workerId server.registry.live) (workerId : ℕ) (as : List Action)
    (h : Meets step (fun s a => Allowed s a ∧ Spared s a) ⟨server, workerId, .get, []⟩ as) :
    Along step Directed ⟨server, workerId, .get, []⟩ as := by
  have h0 : Inv ⟨server, workerId, .get, []⟩ :=
    ⟨hd, by simp [Pc.pointer], by simp [Pc.marked], by simp [Pc.target], fun _ => rfl,
      directed_nil rfl⟩
  exact along_mono (fun _ hi => hi.directed) (along_of_meets inv_step h0 h)

def threeWorkers : Server :=
  [Step.register 5 0 0 true, Step.register 6 0 0 true, Step.register 7 0 0 true,
    Step.createTask (some [7]) 1 (some blankTask) 10].foldl CentralServer.step blankServer

def assignTwo (id : ℕ) : List Action :=
  [.call 20 true, .call 20 true, .call 20 true, .call 20 true, .call 20 true, .remove id,
    .call 20 true, .call 20 true]

def assignTwoHeld : Assignment :=
  ((assignTwo 0).take 5).foldl step ⟨threeWorkers, 2, .get, []⟩
def assignTwoDone (id : ℕ) : Assignment :=
  (assignTwo id).foldl step ⟨threeWorkers, 2, .get, []⟩

theorem threeWorkers_distinct : Distinct WorkerInfo.workerId threeWorkers.registry.live := by decide

theorem call_spared (s : Assignment) (now : ℤ) (sent : Bool) : Spared s (.call now sent) :=
  fun _ _ hwrite => hwrite

theorem directed_assignTwo : Along step Directed ⟨threeWorkers, 2, .get, []⟩ (assignTwo 3) := by
  have hspared : Spared assignTwoHeld (.remove 3) := by
    intro p hp ⟨i, _, hi, hle, _⟩
    have hpointer : assignTwoHeld.pc.pointer = some 1 := by decide
    have hi' : assignTwoHeld.server.registry.find 3 = some 2 := by decide
    rw [hpointer] at hp
    rw [hi'] at hi
    cases hp
    cases hi
    omega
  have hcall : ∀ s, Allowed s (.call 20 true) ∧ Spared s (.call 20 true) :=
    fun s => ⟨trivial, call_spared s 20 true⟩
  exact directed_when_spared threeWorkers_distinct 2 (assignTwo 3)
    ⟨hcall _, hcall _, hcall _, hcall _, hcall _, ⟨show (3 : ℕ) ≠ 2 by decide, hspared⟩, hcall _,
      hcall _, trivial⟩

/-- Worker 1, in front of worker 2, leaves: worker 3 moves into the slot, and
gets the task that is recorded for worker 2. -/
theorem misdirected_assignTwo :
    Distinct WorkerInfo.workerId threeWorkers.registry.live ∧
      Meets step Allowed ⟨threeWorkers, 2, .get, []⟩ (assignTwo 1) ∧
      ¬ Along step Directed ⟨threeWorkers, 2, .get, []⟩ (assignTwo 1) := by
  refine ⟨threeWorkers_distinct, ?_, ?_⟩
  · exact ⟨trivial, trivial, trivial, trivial, trivial, show (1 : ℕ) ≠ 2 by decide, trivial,
      trivial, trivial⟩
  · intro h
    have hlast : Directed (assignTwoDone 1) :=
      along_iff_prefix.mp h (assignTwo 1) [] (List.append_nil _).symm
    have hwritten : (assignTwoDone 1).written.map Prod.fst = [7] := by decide
    have hregistered : (lookup WorkerInfo.workerId 2
        (assignTwoDone 1).server.registry.live).map WorkerInfo.sockfd = some 6 := by decide
    obtain ⟨m, hm, hfd⟩ := List.mem_map.mp (hwritten ▸ List.mem_singleton_self (7 : ℤ))
    obtain ⟨⟨w, hw, hsock⟩, _⟩ := hlast m hm
    have hw' : lookup WorkerInfo.workerId 2 (assignTwoDone 1).server.registry.live = some w := hw
    rw [hw', Option.map_some, hsock, hfd] at hregistered
    exact absurd hregistered (by decide)

end CSimples.StalePointer
