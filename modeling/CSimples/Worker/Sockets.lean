import CSimples.Lib.Run
import CSimples.Worker.Process

/-!
# The sockets of a worker (worker/worker.c:61-277, 711-807)

A socket is created by the thread that is in `worker_connect_to_server`, stored under
the lock, and closed by `worker_disconnect_from_server` or by the call that failed. In
every run at most one of them is open, unless `worker_start` has cancelled its heartbeat
thread while that was connecting.
-/

namespace CSimples.WorkerProcess
open JobHandler ServerMessages Requests Run

variable {κ : Type}

/-! ### Who may be where -/

def bodyFits : Role → Body → Bool
  | .main, .workerRegister _ _ _ _ => true
  | .heartbeat, .workerRegister _ _ _ _ | .heartbeat, .workerHeartbeat => true
  | .job, .requestJob | .job, .jobCompleted _ _ _ _ | .job, .jobFailed _ _ => true
  | _, _ => false

def wireFits (r : Role) : Wire → Bool
  | .connect => decide (r ≠ .job)
  | .message _ body => bodyFits r body

def afterFits : Role → After → Bool
  | .main, .refused | .main, .stopped => true
  | .heartbeat, .redial | .heartbeat, .retry => true
  | _, _ => false

def fits (r : Role) : Point → Bool
  | .rest => true
  | .top => decide (r ≠ .main)
  | .dial | .dialing _ | .connected _ | .registered _ => decide (r ≠ .job)
  | .before body => bodyFits r body
  | .ready _ m | .waiting _ m => wireFits r m
  | .leaving next | .goodbye _ _ next | .drained _ next | .closing next => afterFits r next
  | .creatingHeartbeat | .creatingJob | .cancelling | .refusing | .joining | .over =>
    decide (r = .main)

/-- In `worker_connect_to_server`. -/
def Point.dials : Point → Bool
  | .dial => true
  | q => q.held.isSome

def Point.locked : Point → Bool
  | .goodbye _ _ _ | .drained _ _ | .closing _ => true
  | _ => false

/-- In `worker_start`, where it goes on. -/
def Point.launches : Point → Bool
  | .dial | .dialing _ | .connected _ | .registered _ => true
  | .before _ | .ready _ _ | .waiting _ _ => true
  | .creatingHeartbeat | .creatingJob => true
  | _ => false

/-- What the place of the main thread says about the other two. -/
def Place (p : Process κ) : Prop :=
  match p.points .main with
  | .rest => p.isRunning = false →
      p.isConnected = false ∧ p.points .heartbeat = .rest ∧ p.points .job = .rest
  | .joining => True
  | .creatingJob | .cancelling => p.points .job = .rest
  | .refusing | .over => p.isConnected = false ∧ p.points .heartbeat = .rest ∧ p.points .job = .rest
  | _ => p.points .heartbeat = .rest ∧ p.points .job = .rest

structure Stage (p : Process κ) : Prop where
  running : (p.points .main).launches = true → p.isRunning = true
  place : Place p

/-- The open descriptors and those that anything tells of. -/
def Tracked (p : Process κ) : Prop :=
  ∀ fd, p.sockets fd ≠ none ↔ (p.isConnected = true ∧ p.serverSocket = fd) ∨
    (∃ r, (p.points r).held = some fd) ∨ fd ∈ p.lost

/-- No lost descriptor is in use. -/
def Fresh (p : Process κ) : Prop :=
  ∀ fd ∈ p.lost, (p.isConnected = true → p.serverSocket ≠ fd) ∧ ∀ r, (p.points r).held ≠ some fd

structure Inv (p : Process κ) : Prop where
  fits : ∀ r, fits r (p.points r) = true
  tracked : Tracked p
  dials : ∀ r, (p.points r).dials = true →
    p.isConnected = false ∧ ∀ u, u ≠ r → (p.points u).dials = false
  locked : ∀ r, (p.points r).locked = true → p.lock = some r ∧ p.isConnected = true
  stage : Stage p
  fresh : Fresh p

theorem workerInit_inv : Inv (workerInit : Process κ) := by
  refine ⟨fun _ => rfl, ?_, ?_, ?_, ⟨nofun, fun _ => ⟨rfl, rfl, rfl⟩⟩,
    fun _ h => absurd h List.not_mem_nil⟩
  · intro fd
    simp [workerInit, Point.held]
  · intro r h
    cases h
  · intro r h
    cases h

variable {p p' : Process κ} {r : Role} {q : Point}

@[simp] theorem goto_sockets : (p.goto r q).sockets = p.sockets := rfl

@[simp] theorem hold_self {fd : ℤ} {conn : Option κ} : (p.hold fd conn).sockets fd = some conn :=
  Function.update_self ..

theorem hold_other {x fd : ℤ} (h : x ≠ fd) (conn : Option κ) :
    (p.hold fd conn).sockets x = p.sockets x := Function.update_of_ne h ..

@[simp] theorem shut_self {fd : ℤ} : (p.shut fd).sockets fd = none := Function.update_self ..

theorem shut_other {x fd : ℤ} (h : x ≠ fd) : (p.shut fd).sockets x = p.sockets x :=
  Function.update_of_ne h ..

theorem held_dials (h : q.held ≠ none) : q.dials = true := by
  cases q with
  | dial => rfl
  | _ => simpa [Point.dials, Option.isSome_iff_ne_none] using h

/-- A thread that is there may go on without the main thread noticing. -/
theorem Stage.thread (h : Stage p) (hr : r ≠ .main) (hthere : p.points r ≠ .rest)
    (hrun : p'.isRunning = p.isRunning) (hother : ∀ u, u ≠ r → p'.points u = p.points u) :
    Stage p' := by
  have hmain := hother .main hr.symm
  refine ⟨by rw [hmain, hrun]; exact h.running, ?_⟩
  have hplace := h.place
  cases r with
  | main => exact absurd rfl hr
  | heartbeat =>
    have hjob := hother .job (by decide)
    unfold Place at hplace ⊢
    rw [hmain, hrun, hjob]
    split at hplace <;> simp_all
  | job =>
    have hbeat := hother .heartbeat (by decide)
    unfold Place at hplace ⊢
    rw [hmain, hrun, hbeat]
    split at hplace <;> simp_all

theorem Stage.dialing (h : Stage p) (hmain : (p.points .main).dials = true) :
    p.points .heartbeat = .rest ∧ p.points .job = .rest := by
  have hplace := h.place
  unfold Place at hplace
  split at hplace <;> simp_all [Point.dials, Point.held]

theorem job_dials (h : fits .job q = true) : q.dials = false := by
  cases q with
  | ready fd m => cases m <;> simp_all [fits, wireFits, Point.dials, Point.held]
  | waiting fd m => cases m <;> simp_all [fits, wireFits, Point.dials, Point.held]
  | _ => simp_all [fits, Point.dials, Point.held]

theorem Inv.quiet (hs : Inv p) (hr : r ≠ .job) (hthere : r ≠ .main → p.points r ≠ .rest)
    (hmain : r = .main → p.points .heartbeat = .rest) (u : Role) (hu : u ≠ r) :
    (p.points u).dials = false := by
  cases u with
  | job => exact job_dials (hs.fits .job)
  | heartbeat =>
    cases r with
    | main => simp [hmain rfl, Point.dials, Point.held]
    | heartbeat => exact absurd rfl hu
    | job => exact absurd rfl hr
  | main =>
    by_contra hd
    have hrest := (hs.stage.dialing (by simpa using hd)).1
    cases r with
    | main => exact hu rfl
    | heartbeat => exact hthere (by decide) hrest
    | job => exact hr rfl

/-- Thread `r` is at `q` afterwards, and the other threads are where they were. -/
structure Moves (r : Role) (q : Point) (p p' : Process κ) : Prop where
  point : p'.points r = q
  other : ∀ u, u ≠ r → p'.points u = p.points u

theorem moves (h : p'.points = Function.update p.points r q) : Moves r q p p' :=
  ⟨by rw [h, Function.update_self], fun u hu => by rw [h, Function.update_of_ne hu]⟩

theorem Moves.all (hm : Moves r q p p') {P : Role → Point → Prop} (hq : P r q)
    (h : ∀ u, u ≠ r → P u (p.points u)) (u : Role) : P u (p'.points u) := by
  by_cases hu : u = r
  · rw [hu, hm.point]
    exact hq
  · rw [hm.other u hu]
    exact h u hu

theorem Moves.held (hm : Moves r q p p') (fd : ℤ) : (∃ u, (p'.points u).held = some fd) ↔
    q.held = some fd ∨ ∃ u, u ≠ r ∧ (p.points u).held = some fd := by
  constructor
  · rintro ⟨u, hu⟩
    by_cases hur : u = r
    · rw [hur, hm.point] at hu
      exact .inl hu
    · rw [hm.other u hur] at hu
      exact .inr ⟨u, hur, hu⟩
  · rintro (hq | ⟨u, hur, hu⟩)
    · exact ⟨r, by rw [hm.point, hq]⟩
    · exact ⟨u, by rw [hm.other u hur, hu]⟩

/-- One thread moves on, neither taking nor giving up the lock. -/
theorem Inv.go (hs : Inv p) (hm : Moves r q p p') (hconnected : p'.isConnected = p.isConnected)
    (hlock : p'.lock = p.lock) (hfits : WorkerProcess.fits r q = true)
    (hdials : q.dials = true →
      p.isConnected = false ∧ ∀ u, u ≠ r → (p.points u).dials = false)
    (hlocked : q.locked = true → (p.points r).locked = true) (htracked : Tracked p')
    (hfresh : Fresh p') (hstage : Stage p') : Inv p' := by
  refine ⟨?_, htracked, ?_, ?_, hstage, hfresh⟩
  · exact hm.all (P := fun u q => WorkerProcess.fits u q = true) hfits fun u _ => hs.fits u
  · intro u hu
    rw [hconnected]
    by_cases hur : u = r
    · subst hur
      rw [hm.point] at hu
      obtain ⟨hnot, hothers⟩ := hdials hu
      refine ⟨hnot, fun v hv => ?_⟩
      rw [hm.other v hv]
      exact hothers v hv
    · rw [hm.other u hur] at hu
      obtain ⟨hnot, hothers⟩ := hs.dials u hu
      have hq : q.dials = false := by
        by_contra hq
        have hquiet := (hdials (by simpa using hq)).2 u hur
        rw [hquiet] at hu
        cases hu
      exact ⟨hnot, hm.all (P := fun v q => v ≠ u → q.dials = false) (fun _ => hq)
        fun w _ hw => hothers w hw⟩
  · rw [hlock, hconnected]
    exact hm.all (P := fun u q => q.locked = true → p.lock = some u ∧ p.isConnected = true)
      (fun hq => hs.locked r (hlocked hq)) fun u _ => hs.locked u

/-- The descriptors stay as they are too. -/
theorem Inv.move (hs : Inv p) (hm : Moves r q p p') (hsockets : p'.sockets = p.sockets)
    (hconnected : p'.isConnected = p.isConnected) (hserver : p'.serverSocket = p.serverSocket)
    (hlock : p'.lock = p.lock) (hlost : p'.lost = p.lost)
    (hfits : WorkerProcess.fits r q = true) (hheld : q.held = (p.points r).held)
    (hdials : q.dials = true →
      p.isConnected = false ∧ ∀ u, u ≠ r → (p.points u).dials = false)
    (hlocked : q.locked = true → (p.points r).locked = true) (hstage : Stage p') : Inv p' := by
  refine hs.go hm hconnected hlock hfits hdials hlocked ?_ ?_ hstage
  · intro fd
    rw [hsockets, hconnected, hserver, hlost, hm.held, hs.tracked fd]
    refine or_congr_right (or_congr_left ?_)
    constructor
    · rintro ⟨u, hu⟩
      by_cases hur : u = r
      · rw [hur] at hu
        exact .inl (hheld.trans hu)
      · exact .inr ⟨u, hur, hu⟩
    · rintro (hq | ⟨u, _, hu⟩)
      · exact ⟨r, hheld.symm.trans hq⟩
      · exact ⟨u, hu⟩
  · intro fd hfd
    rw [hlost] at hfd
    rw [hconnected, hserver]
    obtain ⟨hserver, hothers⟩ := hs.fresh fd hfd
    refine ⟨hserver, hm.all (P := fun _ q => q.held ≠ some fd) ?_ fun u _ => hothers u⟩
    rw [hheld]
    exact hothers r

/-- While a thread dials, the others hold nothing. -/
theorem Inv.others (hs : Inv p) (hr : (p.points r).dials = true) {u : Role} (hu : u ≠ r) (x : ℤ) :
    (p.points u).held ≠ some x := by
  intro hx
  have hquiet := (hs.dials r hr).2 u hu
  rw [held_dials (by simp [hx])] at hquiet
  cases hquiet

theorem Inv.held_iff (hs : Inv p) (hr : (p.points r).dials = true) (x : ℤ) :
    (∃ u, (p.points u).held = some x) ↔ (p.points r).held = some x := by
  constructor
  · rintro ⟨u, hu⟩
    by_cases hur : u = r
    · rwa [hur] at hu
    · exact absurd hu (hs.others hr hur x)
  · exact fun h => ⟨r, h⟩

/-- What a thread that dials does to the descriptors: it takes, keeps or closes one. -/
theorem Inv.dialled (hs : Inv p) (hdials : (p.points r).dials = true) (hm : Moves r q p p')
    (hconnected : p'.isConnected = p.isConnected) (hlock : p'.lock = p.lock)
    (hlost : p'.lost = p.lost) (hfits : WorkerProcess.fits r q = true)
    (hlocked : q.locked = false)
    (hsockets : ∀ x, p'.sockets x ≠ none ↔ q.held = some x ∨ x ∈ p.lost)
    (hnew : ∀ x ∈ p.lost, q.held ≠ some x) (hstage : Stage p') : Inv p' := by
  have hd := hs.dials r hdials
  have hnot := hconnected.trans hd.1
  refine hs.go hm hconnected hlock hfits (fun _ => hd) (fun h => ?_) ?_ ?_ hstage
  · rw [hlocked] at h
    cases h
  · intro x
    have hnone : ¬ ∃ u, u ≠ r ∧ (p.points u).held = some x := by
      rintro ⟨u, hu, hx⟩
      exact hs.others hdials hu x hx
    rw [hsockets, hlost, hm.held, hnot]
    simp [hnone]
  · intro x hx
    rw [hlost] at hx
    refine ⟨fun h => ?_, hm.all (P := fun _ q => q.held ≠ some x) (hnew x hx)
      fun u hu => hs.others hdials hu x⟩
    rw [hnot] at h
    cases h

theorem Inv.open_iff (hs : Inv p) (hdials : (p.points r).dials = true) (x : ℤ) :
    p.sockets x ≠ none ↔ (p.points r).held = some x ∨ x ∈ p.lost := by
  rw [hs.tracked x, hs.held_iff hdials, (hs.dials r hdials).1]
  simp

/-- `socket` has succeeded. -/
theorem Inv.opened (hs : Inv p) (hat : p.points r = .dial) {fd : ℤ} (hfd : p.sockets fd = none)
    (hstage : Stage ((p.hold fd none).goto r (.dialing fd))) :
    Inv ((p.hold fd none).goto r (.dialing fd)) := by
  have hfits := hs.fits r
  rw [hat] at hfits
  have hdials : (p.points r).dials = true := by rw [hat]; rfl
  have hopen := hs.open_iff hdials
  rw [hat] at hopen
  refine hs.dialled hdials (moves rfl) rfl rfl rfl hfits rfl ?_ ?_ hstage
  · intro x
    by_cases hx : x = fd
    · simp [hx, Point.held]
    · rw [goto_sockets, hold_other hx, hopen]
      simp [Point.held, Ne.symm hx]
  · rintro x hx ⟨⟩
    exact (hopen fd).mpr (.inr hx) hfd

/-- `connect` has succeeded. -/
theorem Inv.established (hs : Inv p) {fd : ℤ} (hat : p.points r = .dialing fd) (k : κ)
    (hstage : Stage ((p.hold fd (some k)).goto r (.ready fd .connect))) :
    Inv ((p.hold fd (some k)).goto r (.ready fd .connect)) := by
  have hfits := hs.fits r
  rw [hat] at hfits
  have hdials : (p.points r).dials = true := by rw [hat]; rfl
  have hopen := hs.open_iff hdials
  rw [hat] at hopen
  refine hs.dialled hdials (moves rfl) rfl rfl rfl hfits rfl ?_ ?_ hstage
  · intro x
    by_cases hx : x = fd
    · simp [hx, Point.held]
    · rw [goto_sockets, hold_other hx, hopen]
      rfl
  · rintro x hx ⟨⟩
    refine (hs.fresh fd hx).2 r ?_
    rw [hat]
    rfl

theorem unconnected_plain (r : Role) : (unconnected r).held = none ∧
    (unconnected r).dials = false ∧ (unconnected r).locked = false ∧
      WorkerProcess.fits r (unconnected r) = true := by
  cases r <;> exact ⟨rfl, rfl, rfl, rfl⟩

/-- `worker_connect_to_server` closes its socket when it fails. -/
theorem Inv.shut (hs : Inv p) {fd : ℤ} (hheld : (p.points r).held = some fd)
    (hstage : Stage ((p.shut fd).goto r (unconnected r))) :
    Inv ((p.shut fd).goto r (unconnected r)) := by
  have hdials := held_dials (q := p.points r) (by simp [hheld])
  have hopen := hs.open_iff hdials
  obtain ⟨hnone, _, hunlocked, hfits⟩ := unconnected_plain r
  refine hs.dialled hdials (moves rfl) rfl rfl rfl hfits hunlocked ?_ ?_ hstage
  · intro x
    rw [hnone]
    by_cases hx : x = fd
    · have hlost : fd ∉ p.lost := fun h => (hs.fresh fd h).2 r hheld
      simp [hx, hlost]
    · rw [goto_sockets, shut_other hx, hopen, hheld]
      simp [Ne.symm hx]
  · rw [hnone]
    exact nofun

/-- The section that stores the socket. -/
theorem Inv.stored (hs : Inv p) {fd : ℤ} (hat : p.points r = .connected fd)
    {body : Body} (hfits : bodyFits r body = true)
    (hstage : Stage { p.goto r (.before body) with serverSocket := fd, isConnected := true }) :
    Inv { p.goto r (.before body) with serverSocket := fd, isConnected := true } := by
  have hdials : (p.points r).dials = true := by rw [hat]; rfl
  have hopen : ∀ x, p.sockets x ≠ none ↔ fd = x ∨ x ∈ p.lost := by
    intro x
    rw [hs.open_iff hdials, hat]
    exact or_congr_left Option.some_inj
  have hm : Moves r (.before body) p
      { p.goto r (.before body) with serverSocket := fd, isConnected := true } := moves rfl
  refine ⟨?_, ?_, ?_, ?_, hstage, ?_⟩
  · exact hm.all (P := fun u q => WorkerProcess.fits u q = true) hfits fun u _ => hs.fits u
  · intro x
    have hnone : ¬ ∃ u, u ≠ r ∧ (p.points u).held = some x := by
      rintro ⟨u, hu, hx⟩
      exact hs.others hdials hu x hx
    have hbefore : (Point.before body).held ≠ some x := nofun
    rw [hm.held]
    simp only [hnone, hbefore, false_or, true_and]
    exact hopen x
  · exact hm.all (P := fun u q => q.dials = true → true = false ∧
        ∀ v, v ≠ u → ((p.goto r (.before body)).points v).dials = false)
      nofun fun u hu h => by
        rw [(hs.dials r hdials).2 u hu] at h
        cases h
  · refine hm.all (P := fun u q => q.locked = true → p.lock = some u ∧ true = true)
      nofun fun u _ h => ?_
    exact ⟨(hs.locked u h).1, rfl⟩
  · intro x hx
    have hfresh := (hs.fresh x hx).2 r
    rw [hat] at hfresh
    refine ⟨fun _ h => hfresh (congrArg some h), hm.all (P := fun _ q => q.held ≠ some x) ?_
      fun u _ => (hs.fresh x hx).2 u⟩
    exact nofun

/-- `worker_disconnect_from_server` takes the lock. -/
theorem Inv.locks (hs : Inv p) (hlock : p.lock = none) (hconnected : p.isConnected = true)
    (hheld : (p.points r).held = none) (hfits : WorkerProcess.fits r q = true)
    (hq : q.locked = true) (hstage : Stage { p.goto r q with lock := some r }) :
    Inv { p.goto r q with lock := some r } := by
  have hnone : q.held = none ∧ q.dials = false := by
    cases q <;> first | exact ⟨rfl, rfl⟩ | cases hq
  have hm : Moves r q p { p.goto r q with lock := some r } := moves rfl
  have hunlocked : ∀ u, (p.points u).locked = false := by
    intro u
    by_contra hu
    have hl := (hs.locked u (by simpa using hu)).1
    rw [hlock] at hl
    cases hl
  refine ⟨?_, ?_, ?_, ?_, hstage, ?_⟩
  · exact hm.all (P := fun u q => WorkerProcess.fits u q = true) hfits fun u _ => hs.fits u
  · intro x
    have hmine : (∃ u, (p.points u).held = some x) ↔
        q.held = some x ∨ ∃ u, u ≠ r ∧ (p.points u).held = some x := by
      rw [hnone.1]
      constructor
      · rintro ⟨u, hu⟩
        refine .inr ⟨u, ?_, hu⟩
        rintro rfl
        rw [hheld] at hu
        cases hu
      · rintro (h | ⟨u, _, hu⟩)
        · cases h
        · exact ⟨u, hu⟩
    rw [hm.held, ← hmine]
    exact hs.tracked x
  · intro u hu
    by_cases hur : u = r
    · rw [hur, hm.point, hnone.2] at hu
      cases hu
    · rw [hm.other u hur] at hu
      rw [(hs.dials u hu).1] at hconnected
      cases hconnected
  · refine hm.all (P := fun u q => q.locked = true → some r = some u ∧ p.isConnected = true)
      (fun _ => ⟨rfl, hconnected⟩) fun u _ h => ?_
    rw [hunlocked u] at h
    cases h
  · intro x hx
    refine ⟨(hs.fresh x hx).1, hm.all (P := fun _ q => q.held ≠ some x) ?_
      fun u _ => (hs.fresh x hx).2 u⟩
    rw [hnone.1]
    exact nofun

/-- The end of `worker_disconnect_from_server`. -/
theorem Inv.closed (hs : Inv p) (hlocked : (p.points r).locked = true)
    (hfits : WorkerProcess.fits r q = true) (hq : q.held = none ∧ q.locked = false)
    (hstage : Stage { (p.shut p.serverSocket).goto r q with
      serverSocket := -1, isConnected := false, lock := none }) :
    Inv { (p.shut p.serverSocket).goto r q with
      serverSocket := -1, isConnected := false, lock := none } := by
  obtain ⟨hlock, hconnected⟩ := hs.locked r hlocked
  have hm : Moves r q p { (p.shut p.serverSocket).goto r q with
      serverSocket := -1, isConnected := false, lock := none } := moves rfl
  have hnobody : ∀ u, (p.points u).dials = false := by
    intro u
    by_contra hu
    rw [(hs.dials u (by simpa using hu)).1] at hconnected
    cases hconnected
  have hnone : ∀ u x, (p.points u).held ≠ some x := by
    intro u x hx
    have hquiet := hnobody u
    rw [held_dials (by simp [hx])] at hquiet
    cases hquiet
  refine ⟨?_, ?_, ?_, ?_, hstage, ?_⟩
  · exact hm.all (P := fun u q => WorkerProcess.fits u q = true) hfits fun u _ => hs.fits u
  · intro x
    have hheld : ¬ ∃ u, u ≠ r ∧ (p.points u).held = some x := fun ⟨u, _, hu⟩ => hnone u x hu
    rw [hm.held, hq.1]
    simp only [hheld, reduceCtorEq, false_and, false_or, Process.goto]
    by_cases hx : x = p.serverSocket
    · have hlost : p.serverSocket ∉ p.lost := fun h => (hs.fresh _ h).1 hconnected rfl
      simp [hx, hlost, Process.shut]
    · have hopen := hs.tracked x
      simp only [hconnected, true_and, Ne.symm hx, false_or] at hopen
      rw [shut_other hx, hopen]
      exact or_iff_right fun ⟨u, hu⟩ => hnone u x hu
  · intro u hu
    refine ⟨rfl, fun v hv => ?_⟩
    by_cases hur : u = r
    · rw [hur] at hv
      rw [hm.other v hv]
      exact hnobody v
    · rw [hm.other u hur, hnobody u] at hu
      cases hu
  · refine hm.all (P := fun u q => q.locked = true → none = some u ∧ false = true) ?_
      fun u hu h => ?_
    · rw [hq.2]
      exact nofun
    · have hother := (hs.locked u h).1
      rw [hlock] at hother
      exact absurd (Option.some.inj hother).symm hu
  · intro x hx
    refine ⟨nofun, hm.all (P := fun _ q => q.held ≠ some x) ?_ fun u _ => hnone u x⟩
    rw [hq.1]
    exact nofun

/-! ### Steps -/

/-- Where the main thread is only while the other two are not there. -/
def Point.starts : Point → Bool
  | .rest | .joining | .creatingJob | .cancelling | .refusing | .over => false
  | _ => true

def Point.ends : Point → Bool
  | .refusing | .over => true
  | _ => false

theorem Stage.alone (h : Stage p) (hq : (p.points .main).starts = true) :
    p.points .heartbeat = .rest ∧ p.points .job = .rest := by
  have hplace := h.place
  unfold Place at hplace
  split at hplace <;> simp_all [Point.starts]

theorem stage_alone (hrunning : (p.points .main).launches = true → p.isRunning = true)
    (hq : (p.points .main).starts = true ∨
      (p.points .main).ends = true ∧ p.isConnected = false) (hbeat : p.points .heartbeat = .rest)
    (hjob : p.points .job = .rest) : Stage p := by
  refine ⟨hrunning, ?_⟩
  unfold Place
  split <;> simp_all [Point.starts, Point.ends]

theorem Inv.stage_move (hs : Inv p) (hm : Moves r q p p') (hrun : p'.isRunning = p.isRunning)
    (hfrom : (p.points r).starts = true)
    (hlaunches : r = .main → q.launches = true → (p.points r).launches = true)
    (hto : q.starts = true ∨ q.ends = true ∧ p'.isConnected = false) : Stage p' := by
  by_cases hr : r = .main
  · subst hr
    obtain ⟨hbeat, hjob⟩ := hs.stage.alone hfrom
    refine stage_alone ?_ (by rwa [hm.point]) ?_ ?_
    · rw [hm.point, hrun]
      exact fun hq => hs.stage.running (hlaunches rfl hq)
    · rw [hm.other _ (by decide), hbeat]
    · rw [hm.other _ (by decide), hjob]
  · refine hs.stage.thread hr (fun hrest => ?_) hrun hm.other
    rw [hrest] at hfrom
    cases hfrom

theorem unconnected_ends (r : Role) :
    (unconnected r).starts = true ∨ (unconnected r).ends = true := by
  cases r <;> decide

theorem unconnected_launches (r : Role) : (unconnected r).launches = false := by
  cases r <;> rfl

theorem afterDisconnect_ends (next : After) :
    (afterDisconnect next).starts = true ∨ (afterDisconnect next).ends = true := by
  cases next <;> decide

theorem afterDisconnect_fits {next : After} (h : afterFits r next = true) :
    WorkerProcess.fits r (afterDisconnect next) = true := by
  cases r <;> cases next <;> first | rfl | cases h

theorem afterDisconnect_launches {next : After} (h : afterFits .main next = true) :
    (afterDisconnect next).launches = false := by
  cases next <;> first | rfl | cases h

theorem failed_plain (r : Role) (body : Body) : (failed r body).held = none ∧
    (failed r body).dials = false ∧ (failed r body).locked = false ∧
      (failed r body).starts = true := by
  cases body <;> first | exact ⟨rfl, rfl, rfl, rfl⟩ | (cases r <;> exact ⟨rfl, rfl, rfl, rfl⟩)

theorem failed_fits {body : Body} (h : bodyFits r body = true) :
    WorkerProcess.fits r (failed r body) = true := by
  cases r <;> cases body <;> first | rfl | cases h

theorem report_fits (err : ℤ) (w : Work) (msg : JobAssigned) :
    bodyFits .job (report err w msg) = true := by
  unfold report
  dsimp only
  split <;> rfl

theorem answered_plain (cfg : Config) (w : Work) (r : Role) (body : Body) (a : Answer) :
    (answered cfg w r body a).held = none ∧ (answered cfg w r body a).dials = false ∧
      (answered cfg w r body a).locked = false ∧ (answered cfg w r body a).starts = true := by
  unfold answered
  split
  · exact ⟨rfl, rfl, rfl, rfl⟩
  · exact ⟨rfl, rfl, rfl, rfl⟩
  · exact ⟨rfl, rfl, rfl, rfl⟩
  · exact failed_plain r _

theorem answered_fits (cfg : Config) (w : Work) {body : Body} (h : bodyFits r body = true)
    (a : Answer) : WorkerProcess.fits r (answered cfg w r body a) = true := by
  unfold answered
  split
  · cases r <;> first | rfl | cases h
  · cases r <;> first | rfl | cases h
  · cases r <;> first | exact report_fits _ w _ | cases h
  · exact failed_fits h

theorem inv_start (hs : Inv p) (h : start p = some p') : Inv p' := by
  unfold start at h
  split at h
  · cases h
  · rename_i hfree
    obtain ⟨hlock, hmain⟩ := not_or.mp hfree
    have hmain : p.points .main = .rest := not_not.mp hmain
    split at h
    · cases h
      exact hs
    · rename_i hrun
      cases h
      have hstage := hs.stage.place
      simp only [Place, hmain] at hstage
      obtain ⟨hnot, hbeat, hjob⟩ := hstage (by simpa using hrun)
      refine hs.move (moves rfl) rfl rfl rfl rfl rfl rfl (by rw [hmain]; rfl)
        (fun _ => ⟨hnot, ?_⟩) nofun ?_
      · exact hs.quiet (by decide) (fun h => absurd rfl h) (fun _ => hbeat)
      · exact stage_alone (fun _ => rfl) (.inl rfl) hbeat hjob

theorem inv_stop (hs : Inv p) (h : stop p = some p') : Inv p' := by
  unfold stop at h
  split at h
  · cases h
  · rename_i hfree
    have hmain : p.points .main = .rest := not_not.mp (not_or.mp hfree).2
    split at h
    · cases h
      exact hs
    · cases h
      exact hs.move (moves rfl) rfl rfl rfl rfl rfl rfl (by rw [hmain]; rfl) nofun nofun
        ⟨nofun, trivial⟩

theorem inv_socket (hs : Inv p) {fd : Option ℤ} (h : socket p r fd = some p') : Inv p' := by
  unfold socket at h
  split at h
  · rename_i hat
    cases h
    have hdials := hs.dials r (by rw [hat]; rfl)
    obtain ⟨hnone, hquiet, hunlocked, hfits⟩ := unconnected_plain r
    refine hs.move (moves rfl) rfl rfl rfl rfl rfl hfits ?_ ?_ ?_ ?_
    · rw [hnone, hat]
      rfl
    · rw [hquiet]
      exact nofun
    · rw [hunlocked]
      exact nofun
    · exact hs.stage_move (moves rfl) rfl (by rw [hat]; rfl) (fun _ _ => by rw [hat]; rfl)
        ((unconnected_ends r).imp_right fun h => ⟨h, hdials.1⟩)
  · rename_i hat
    split at h
    · rename_i hfd
      cases h
      exact hs.opened hat hfd.2 (hs.stage_move (moves rfl) rfl (by rw [hat]; rfl)
        (fun _ _ => by rw [hat]; rfl) (.inl rfl))
    · cases h
  · cases h

/-- Every failure of `worker_connect_to_server` after `socket`. -/
theorem Inv.given_up (hs : Inv p) {fd : ℤ} (hheld : (p.points r).held = some fd) :
    Inv ((p.shut fd).goto r (unconnected r)) := by
  have hdials := hs.dials r (held_dials (by simp [hheld]))
  have hfrom : (p.points r).starts = true := by
    cases hq : p.points r <;> first | rfl | (rw [hq] at hheld; cases hheld)
  have hlaunches : r = .main → (unconnected r).launches = true →
      (p.points r).launches = true := by
    rw [unconnected_launches]
    exact nofun
  exact hs.shut hheld (hs.stage_move (moves rfl) rfl hfrom hlaunches
    ((unconnected_ends r).imp_right fun h => ⟨h, hdials.1⟩))

theorem inv_connect (hs : Inv p) {conn : Option κ} (h : connect p r conn = some p') : Inv p' := by
  unfold connect at h
  split at h
  · rename_i hat
    cases h
    exact hs.given_up (by rw [hat]; rfl)
  · rename_i hat
    cases h
    exact hs.established hat _ (hs.stage_move (moves rfl) rfl (by rw [hat]; rfl)
      (fun _ _ => by rw [hat]; rfl) (.inl rfl))
  · cases h

/-- A thread goes to a point at which it holds nothing. -/
theorem Inv.plain (hs : Inv p) (hm : Moves r q p p') (hsockets : p'.sockets = p.sockets)
    (hconnected : p'.isConnected = p.isConnected) (hserver : p'.serverSocket = p.serverSocket)
    (hlock : p'.lock = p.lock) (hlost : p'.lost = p.lost) (hrun : p'.isRunning = p.isRunning)
    (hheld : (p.points r).held = none) (hfrom : (p.points r).starts = true)
    (hlaunches : r = .main → q.launches = true → (p.points r).launches = true)
    (hq : q.held = none ∧ q.dials = false ∧ q.locked = false ∧ q.starts = true)
    (hfits : WorkerProcess.fits r q = true) : Inv p' := by
  refine hs.move hm hsockets hconnected hserver hlock hlost hfits (hq.1.trans hheld.symm) ?_ ?_
    (hs.stage_move hm hrun hfrom hlaunches (.inl hq.2.2.2))
  · rw [hq.2.1]
    exact nofun
  · rw [hq.2.2.1]
    exact nofun

theorem inv_prepare (hs : Inv p) {body : Body} (hat : p.points r = .before body) :
    Inv (prepare p r body) := by
  have hfits := hs.fits r
  rw [hat] at hfits
  have hgo : ∀ {q}, q.held = none ∧ q.dials = false ∧ q.locked = false ∧ q.starts = true →
      WorkerProcess.fits r q = true → Inv (p.goto r q) := fun hq hf =>
    hs.plain (moves rfl) rfl rfl rfl rfl rfl rfl (by rw [hat]; rfl) (by rw [hat]; rfl)
      (fun _ _ => by rw [hat]; rfl) hq hf
  unfold prepare
  split
  · split
    · cases r with
      | job => cases hfits
      | _ => exact hgo ⟨rfl, rfl, rfl, rfl⟩ rfl
    · exact hgo ⟨rfl, rfl, rfl, rfl⟩ hfits
  · split
    · exact hgo (failed_plain r body) (failed_fits hfits)
    · exact hgo ⟨rfl, rfl, rfl, rfl⟩ hfits

theorem inv_loopHead (hs : Inv p) (hat : p.points r = .top) : Inv (loopHead p r) := by
  have hfits := hs.fits r
  rw [hat] at hfits
  have hr : r ≠ .main := of_decide_eq_true hfits
  unfold loopHead
  split
  · refine hs.move (moves rfl) rfl rfl rfl rfl rfl rfl (by rw [hat]; rfl) nofun nofun ?_
    exact hs.stage.thread hr (by rw [hat]; nofun) rfl fun u hu => goto_other hu
  · split
    · rename_i hbeat
      subst hbeat
      exact hs.plain (moves rfl) rfl rfl rfl rfl rfl rfl (by rw [hat]; rfl) (by rw [hat]; rfl)
        nofun ⟨rfl, rfl, rfl, rfl⟩ rfl
    · split
      · exact hs
      · cases r with
        | main => exact absurd rfl hr
        | heartbeat => contradiction
        | job =>
          exact hs.plain (moves rfl) rfl rfl rfl rfl rfl rfl (by rw [hat]; rfl) (by rw [hat]; rfl)
            nofun ⟨rfl, rfl, rfl, rfl⟩ rfl

theorem inv_leave (hs : Inv p) (hlock : p.lock = none) {next : After}
    (hat : p.points r = .leaving next) : Inv (leave p r next) := by
  have hfits := hs.fits r
  rw [hat] at hfits
  have hfrom : (p.points r).starts = true := by rw [hat]; rfl
  unfold leave
  split
  · rename_i hnot
    refine hs.move (moves rfl) rfl rfl rfl rfl rfl (afterDisconnect_fits hfits) ?_ ?_ ?_ ?_
    · rw [hat]
      cases next <;> rfl
    · refine fun _ => ⟨hnot, hs.quiet ?_ ?_ ?_⟩
      · rintro rfl
        cases next <;> cases hfits
      · intro _ hrest
        rw [hat] at hrest
        cases hrest
      · rintro rfl
        exact (hs.stage.alone hfrom).1
    · cases next <;> exact nofun
    · refine hs.stage_move (moves rfl) rfl hfrom (fun hr hq => ?_)
        ((afterDisconnect_ends next).imp_right fun h => ⟨h, hnot⟩)
      rw [afterDisconnect_launches (hr ▸ hfits)] at hq
      cases hq
  · rename_i hconnected
    have hconnected : p.isConnected = true := by simpa using hconnected
    split
    · exact hs.locks hlock hconnected (by rw [hat]; rfl) hfits rfl
        (hs.stage_move (moves rfl) rfl hfrom nofun (.inl rfl))
    · exact hs.locks hlock hconnected (by rw [hat]; rfl) hfits rfl
        (hs.stage_move (moves rfl) rfl hfrom nofun (.inl rfl))

variable {cfg : Config}

theorem inv_enter (hs : Inv p) (h : enter cfg p r = some p') : Inv p' := by
  unfold enter at h
  split at h
  · cases h
  · rename_i hlock
    have hlock : p.lock = none := not_not.mp hlock
    have hfits := hs.fits r
    split at h
    · rename_i hat
      cases h
      exact inv_loopHead hs hat
    · rename_i body hat
      cases h
      exact inv_prepare hs hat
    · rename_i fd hat
      cases h
      rw [hat] at hfits
      refine hs.stored hat ?_ (hs.stage_move (moves rfl) rfl (by rw [hat]; rfl)
        (fun _ _ => by rw [hat]; rfl) (.inl rfl))
      cases r <;> first | rfl | cases hfits
    · rename_i workerId hat
      cases h
      rw [hat] at hfits
      cases r with
      | job => cases hfits
      | _ =>
        exact hs.plain (moves rfl) rfl rfl rfl rfl rfl rfl (by rw [hat]; rfl) (by rw [hat]; rfl)
          (fun _ _ => by rw [hat]; rfl) ⟨rfl, rfl, rfl, rfl⟩ rfl
    · rename_i next hat
      cases h
      exact inv_leave hs hlock hat
    · rename_i hat
      cases h
      rw [hat] at hfits
      obtain rfl : r = .main := of_decide_eq_true hfits
      have hstage := hs.stage.place
      simp only [Place, hat] at hstage
      refine hs.move (moves rfl) rfl rfl rfl rfl rfl rfl (by rw [hat]; rfl) nofun nofun ?_
      exact ⟨nofun, fun _ => hstage⟩
    · rename_i hat
      rw [hat] at hfits
      obtain rfl : r = .main := of_decide_eq_true hfits
      split at h
      · rename_i hgone
        cases h
        exact hs.move (moves rfl) rfl rfl rfl rfl rfl rfl (by rw [hat]; rfl) nofun nofun
          (stage_alone nofun (.inl rfl) hgone.1 hgone.2)
      · cases h
    · cases h

theorem Inv.unlocked (hs : Inv p) {fd workerId : ℤ} {next : After}
    (hat : p.points r = .goodbye fd workerId next ∨ p.points r = .drained fd next)
    (hq : q = .drained fd next ∨ q = .closing next) : Inv (p.goto r q) := by
  have hfits := hs.fits r
  have hplain : (p.points r).held = none ∧ (p.points r).locked = true ∧
      (p.points r).starts = true ∧ afterFits r next = true := by
    rcases hat with hat | hat <;> rw [hat] at hfits ⊢ <;> exact ⟨rfl, rfl, rfl, hfits⟩
  have hto : q.held = none ∧ q.dials = false ∧ q.starts = true ∧
      WorkerProcess.fits r q = true := by
    rcases hq with rfl | rfl <;> exact ⟨rfl, rfl, rfl, hplain.2.2.2⟩
  refine hs.move (moves rfl) rfl rfl rfl rfl rfl hto.2.2.2 (hto.1.trans hplain.1.symm) ?_
    (fun _ => hplain.2.1) (hs.stage_move (moves rfl) rfl hplain.2.2.1 ?_ (.inl hto.2.2.1))
  · rw [hto.2.1]
    exact nofun
  · rcases hq with rfl | rfl <;> exact nofun

theorem inv_send (hs : Inv p) {ok : Bool} (h : send p r ok = some p') : Inv p' := by
  unfold send at h
  have hfits := hs.fits r
  split at h
  · rename_i fd m hat
    rw [hat] at hfits
    split at h
    · split at h
      · cases h
      · cases h
        refine hs.move (moves rfl) rfl rfl rfl rfl rfl hfits ?_ ?_ nofun
          (hs.stage_move (moves rfl) rfl (by rw [hat]; rfl)
            (fun _ _ => by rw [hat]; rfl) (.inl rfl))
        · rw [hat]
          cases m <;> rfl
        · intro hd
          refine hs.dials r ?_
          rw [hat]
          cases m <;> first | rfl | cases hd
    · split at h
      · cases h
        exact hs.given_up (by rw [hat]; rfl)
      · cases h
        exact hs.plain (moves rfl) rfl rfl rfl rfl rfl rfl (by rw [hat]; rfl) (by rw [hat]; rfl)
          (fun _ _ => by rw [hat]; rfl) (failed_plain r _) (failed_fits hfits)
  · rename_i fd workerId next hat
    split at h
    · cases h
    · cases h
      exact hs.unlocked (.inl hat) (.inl rfl)
  · cases h

theorem inv_receive (hs : Inv p) {reply : Option Reply} {w : Work}
    (h : receive cfg p r reply w = some p') : Inv p' := by
  unfold receive at h
  have hfits := hs.fits r
  split at h
  · rename_i fd m hat
    rw [hat] at hfits
    split at h
    · cases h
    · split at h
      · cases h
        refine hs.move (moves rfl) rfl rfl rfl rfl rfl hfits (by rw [hat]; rfl)
          (fun _ => hs.dials r (by rw [hat]; rfl)) nofun
          (hs.stage_move (moves rfl) rfl (by rw [hat]; rfl)
            (fun _ _ => by rw [hat]; rfl) (.inl rfl))
      · cases h
        exact hs.given_up (by rw [hat]; rfl)
      · cases h
        exact hs.plain (moves rfl) rfl rfl rfl rfl rfl rfl (by rw [hat]; rfl) (by rw [hat]; rfl)
          (fun _ _ => by rw [hat]; rfl) (answered_plain cfg w r _ _) (answered_fits cfg w hfits _)
      · cases h
        exact hs.plain (moves rfl) rfl rfl rfl rfl rfl rfl (by rw [hat]; rfl) (by rw [hat]; rfl)
          (fun _ _ => by rw [hat]; rfl) (failed_plain r _) (failed_fits hfits)
  · rename_i fd next hat
    split at h
    · cases h
    · cases h
      exact @Inv.unlocked κ p r _ hs fd 0 next (.inr hat) (.inr rfl)
  · cases h

theorem inv_close (hs : Inv p) (h : close p r = some p') : Inv p' := by
  unfold close at h
  split at h
  · rename_i next hat
    cases h
    have hfits := hs.fits r
    rw [hat] at hfits
    refine hs.closed (by rw [hat]; rfl) (afterDisconnect_fits hfits) ?_ ?_
    · cases next <;> exact ⟨rfl, rfl⟩
    · refine hs.stage_move (moves rfl) rfl (by rw [hat]; rfl) (fun hr hq => ?_)
        ((afterDisconnect_ends next).imp_right fun h => ⟨h, rfl⟩)
      rw [afterDisconnect_launches (hr ▸ hfits)] at hq
      cases hq
  · cases h

theorem inv_create (hs : Inv p) {ok : Bool} (h : create p ok = some p') : Inv p' := by
  unfold create at h
  have hplace := hs.stage.place
  split at h
  · rename_i hat
    cases h
    simp only [Place, hat] at hplace
    have hrunning := hs.stage.running (by rw [hat]; rfl)
    have hmain : Inv (p.goto .main .creatingJob) :=
      hs.move (moves rfl) rfl rfl rfl rfl rfl rfl (by rw [hat]; rfl) nofun nofun
        ⟨fun _ => hrunning, hplace.2⟩
    have hrest : (p.goto .main .creatingJob).points .heartbeat = .rest := hplace.1
    exact hmain.move (moves rfl) rfl rfl rfl rfl rfl rfl (by rw [hrest]; rfl) nofun nofun
      ⟨fun _ => hrunning, hplace.2⟩
  · rename_i hat
    cases h
    simp only [Place, hat] at hplace
    exact hs.move (moves rfl) rfl rfl rfl rfl rfl rfl (by rw [hat]; rfl) nofun nofun
      ⟨nofun, hplace⟩
  · rename_i hat
    cases h
    simp only [Place, hat] at hplace
    have hrunning := hs.stage.running (by rw [hat]; rfl)
    have hstays : ∀ {Q : Prop}, p.isRunning = false → Q := fun h => by
      rw [hrunning] at h
      cases h
    have hmain : Inv (p.goto .main .rest) :=
      hs.move (moves rfl) rfl rfl rfl rfl rfl rfl (by rw [hat]; rfl) nofun nofun
        ⟨nofun, fun h => hstays h⟩
    have hrest : (p.goto .main .rest).points .job = .rest := hplace
    exact hmain.move (moves rfl) rfl rfl rfl rfl rfl rfl (by rw [hrest]; rfl) nofun nofun
      ⟨nofun, fun h => hstays h⟩
  · rename_i hat
    cases h
    simp only [Place, hat] at hplace
    exact hs.move (moves rfl) rfl rfl rfl rfl rfl rfl (by rw [hat]; rfl) nofun nofun
      ⟨nofun, hplace⟩
  · cases h

/-- What the heartbeat thread was setting up is lost. -/
theorem inv_cancel (hs : Inv p) (h : cancel p = some p') : Inv p' := by
  unfold cancel at h
  split at h
  · rename_i hat
    cases h
    have hplace := hs.stage.place
    simp only [Place, hat] at hplace
    have hpoint : ∀ u, ((p.goto .heartbeat .rest).goto .main (.leaving .refused)).points u =
        .rest ∨ ((p.goto .heartbeat .rest).goto .main (.leaving .refused)).points u =
          .leaving .refused := by
      intro u
      cases u with
      | main => exact .inr rfl
      | heartbeat => exact .inl rfl
      | job => exact .inl hplace
    have hnone : ∀ u, (((p.goto .heartbeat .rest).goto .main (.leaving .refused)).points u).held =
        none := by
      intro u
      rcases hpoint u with hu | hu <;> rw [hu] <;> rfl
    have hheld : ∀ x, (∃ u, (p.points u).held = some x) ↔ (p.points .heartbeat).held = some x := by
      intro x
      constructor
      · rintro ⟨u, hu⟩
        cases u with
        | main => rw [hat] at hu; cases hu
        | heartbeat => exact hu
        | job => rw [hplace] at hu; cases hu
      · exact fun hx => ⟨_, hx⟩
    refine ⟨?_, ?_, ?_, ?_, ⟨nofun, rfl, hplace⟩, ?_⟩
    · intro u
      cases u with
      | main => rfl
      | heartbeat => rfl
      | job => exact hs.fits .job
    · intro x
      have hopen := hs.tracked x
      rw [hheld] at hopen
      simp only [hnone, List.mem_append, Option.mem_toList, reduceCtorEq, exists_false, false_or]
      exact hopen.trans (or_congr_right or_comm)
    · intro u hu
      rcases hpoint u with hq | hq <;> rw [hq] at hu <;> cases hu
    · intro u hu
      rcases hpoint u with hq | hq <;> rw [hq] at hu <;> cases hu
    · intro x hx
      refine ⟨fun hconnected => ?_, fun u => by rw [hnone u]; exact nofun⟩
      rcases List.mem_append.mp hx with hx | hx
      · exact (hs.fresh x hx).1 hconnected
      · have hheart : (p.points .heartbeat).held = some x := by simpa using hx
        have hnot := (hs.dials .heartbeat (held_dials (by simp [hheart]))).1
        rw [show p.isConnected = true from hconnected] at hnot
        cases hnot
  · cases h

theorem inv_step (hs : Inv p) (a : Action κ) (h : step cfg p a = some p') : Inv p' := by
  cases a with
  | start => exact inv_start hs h
  | stop => exact inv_stop hs h
  | socket r fd => exact inv_socket hs h
  | connect r conn => exact inv_connect hs h
  | enter r => exact inv_enter hs h
  | send r ok => exact inv_send hs h
  | receive r reply w => exact inv_receive hs h
  | close r => exact inv_close hs h
  | create ok => exact inv_create hs h
  | cancel => exact inv_cancel hs h

/-- Whatever the peer answers and however the threads interleave, every open descriptor is
the stored socket while connected, the one that a thread is setting up, or one that was
lost when `worker_start`, whose second `pthread_create` failed, cancelled its heartbeat thread;
of the others at most one is open at a time, and none when `worker_stop` has returned. -/
theorem sockets_tracked
    (h : Reach (step cfg) (fun _ _ => True) (workerInit : Process κ) p) :
    Tracked p ∧ (∀ x y, p.sockets x ≠ none → p.sockets y ≠ none → x ∉ p.lost → y ∉ p.lost → x = y) ∧
      (p.points .main = .over → ∀ x, p.sockets x ≠ none → x ∈ p.lost) := by
  have hs : Inv p := h.invariant workerInit_inv fun p a p' hp _ hstep => inv_step hp a hstep
  refine ⟨hs.tracked, ?_, ?_⟩
  · intro x y hx hy hxlost hylost
    have hx := (or_assoc.mpr ((hs.tracked x).mp hx)).resolve_right hxlost
    have hy := (or_assoc.mpr ((hs.tracked y).mp hy)).resolve_right hylost
    rcases hx with hx | ⟨u, hu⟩
    · rcases hy with hy | ⟨v, hv⟩
      · exact hx.2.symm.trans hy.2
      · rw [(hs.dials v (held_dials (by simp [hv]))).1] at hx
        cases hx.1
    · have hdials := held_dials (q := p.points u) (by simp [hu])
      rcases hy with hy | ⟨v, hv⟩
      · rw [(hs.dials u hdials).1] at hy
        cases hy.1
      · have hsame := (hs.held_iff hdials y).mp ⟨v, hv⟩
        rw [hu] at hsame
        exact Option.some.inj hsame
  · intro hover x hx
    have hplace := hs.stage.place
    simp only [Place, hover] at hplace
    rcases (hs.tracked x).mp hx with hserver | ⟨u, hu⟩ | hlost
    · rw [hplace.1] at hserver
      cases hserver.1
    · cases u with
      | main => rw [hover] at hu; cases hu
      | heartbeat => rw [hplace.2.1] at hu; cases hu
      | job => rw [hplace.2.2] at hu; cases hu
    · exact hlost

def anyWorker : Config := ⟨[49], 9000, [1, 2, 3], 3, 8, -30⟩

def noWork : Work := ⟨fun _ => none, 0⟩

/-- `worker_start`, and then a heartbeat that is not answered. -/
def lostConnection : List (Action Bool) :=
  [.start, .socket .main (some 3), .connect .main (some true), .send .main true,
    .receive .main (some .connectAck) noWork, .enter .main, .enter .main, .send .main true,
    .receive .main (some (.answer (.workerRegistered 7))) noWork, .enter .main, .create true,
    .create true, .enter .heartbeat, .enter .heartbeat, .send .heartbeat true,
    .receive .heartbeat none noWork, .enter .heartbeat, .send .heartbeat false,
    .receive .heartbeat none noWork, .close .heartbeat, .socket .heartbeat (some 3)]

theorem sockets_tracked_lostConnection : ∃ p : Process Bool,
    lostConnection.foldlM (step anyWorker) workerInit = some p ∧
      p.points .heartbeat = .dialing 3 ∧ p.isConnected = false ∧ Tracked p := by
  have hrun : lostConnection.foldlM (step anyWorker) workerInit = some _ := rfl
  have hreach : Reach (step anyWorker) (fun _ _ => True) (workerInit : Process Bool) _ :=
    Reach.of_run lostConnection (fun _ _ _ => trivial) hrun
  exact ⟨_, hrun, rfl, rfl, (sockets_tracked hreach).1⟩

end CSimples.WorkerProcess
