import CSimples.Central.Handlers
import CSimples.Lib.Run

/-!
# Heartbeats and `DISCONNECTED` (central_server/worker_registry.c:166-281)

`worker_registry_check_timeouts` makes every worker `DISCONNECTED` whose heartbeat is
overdue, and passes over those that are so already. A heartbeat sets the time and not the
status, an assignment goes to IDLE workers alone, and a result that would set the status
back is dropped before that. So a worker once `DISCONNECTED` stays so, and a check is right
as long as it does not come soon after a heartbeat of such a worker.
-/

namespace CSimples.HeartbeatStatus
open Keyed WorkerRegistry TaskManager CentralServer Run

inductive Event where
  | add (sockfd : ℤ) (threadId : ℕ) (now : ℤ)
  | createTask (inputData : Option (List UInt8)) (inputSize : ℕ) (mem : Option Task) (now : ℤ)
  | heartbeat (workerId : ℕ) (sockfd now : ℤ) (sent : Bool)
  | assign (workerId : ℕ) (now : ℤ) (sent : Bool)
  | result (workerId : ℕ) (sockfd : ℤ) (conn : ByteStream.Source UInt8) (now : ℤ) (sent : Bool)
  | checkTimeouts (now : ℤ)

def Event.time : Event → ℤ
  | .add _ _ now | .createTask _ _ _ now | .heartbeat _ _ now _ | .assign _ now _
  | .result _ _ _ now _ | .checkTimeouts now => now

variable (timeoutSec : ℕ)

def next (s : Server) : Event → Server
  | .add sockfd threadId now =>
    { s with registry := (workerRegistryAdd s.registry sockfd threadId now).2 }
  | .createTask inputData inputSize mem now =>
    { s with manager := (taskManagerCreateTask s.manager inputData inputSize mem now).2 }
  | .heartbeat workerId sockfd now sent => handleWorkerHeartbeat s workerId sockfd now sent
  | .assign workerId now sent => (assignTaskToWorker s workerId now sent).2
  | .result workerId sockfd conn now sent => (handleTaskResult s workerId sockfd conn now sent).1
  | .checkTimeouts now =>
    { s with registry := (workerRegistryCheckTimeouts s.registry now timeoutSec).2 }

/-- Right after the check, exactly the overdue workers are `DISCONNECTED`. -/
def Exact (s : Server) : Event → Prop
  | .checkTimeouts now => ∀ w ∈ s.registry.live,
    (w.status = .disconnected ↔ now - w.lastHeartbeat > timeoutSec)
  | _ => True

/-! ### Late heartbeats -/

/-- The time of a heartbeat that finds its worker `DISCONNECTED`. -/
def lateHeartbeat (s : Server) : Event → List ℤ
  | .heartbeat workerId _ now _ =>
    if workerId ≠ 0 ∧ ∃ w ∈ lookup WorkerInfo.workerId workerId s.registry.live,
      w.status = .disconnected then [now] else []
  | _ => []

/-- The server, with the times of the late heartbeats so far. -/
structure Watch where
  server : Server
  late : List ℤ

def Watch.next (w : Watch) (e : Event) : Watch :=
  ⟨HeartbeatStatus.next timeoutSec w.server e, w.late ++ lateHeartbeat w.server e⟩

/-- No check comes within the timeout of a late heartbeat. -/
def Spaced (w : Watch) : Event → Prop
  | .checkTimeouts now => ∀ t ∈ w.late, now - t > timeoutSec
  | _ => True

variable {timeoutSec}

theorem lateHeartbeat_some {s : Server} {e : Event} {t : ℤ} (h : t ∈ lateHeartbeat s e) :
    t = e.time ∧ ∃ workerId sockfd sent w, e = .heartbeat workerId sockfd t sent ∧ workerId ≠ 0 ∧
      lookup WorkerInfo.workerId workerId s.registry.live = some w ∧
      w.status = .disconnected := by
  cases e with
  | heartbeat workerId sockfd now sent =>
    simp only [lateHeartbeat] at h
    split at h
    · rename_i hlate
      obtain ⟨hid, w, hw, hstatus⟩ := hlate
      obtain rfl := List.mem_singleton.mp h
      exact ⟨rfl, workerId, sockfd, sent, w, rfl, hid, hw, hstatus⟩
    · cases h
  | _ => cases h

/-! ### One check -/

theorem expireWorker_lastHeartbeat (now : ℤ) (w : WorkerInfo) :
    (expireWorker now timeoutSec w).lastHeartbeat = w.lastHeartbeat := by
  unfold expireWorker
  split <;> rfl

theorem expireWorker_status (now : ℤ) (w : WorkerInfo) :
    (expireWorker now timeoutSec w).status = .disconnected ↔
      w.status = .disconnected ∨ now - w.lastHeartbeat > timeoutSec := by
  unfold expireWorker workerExpired
  by_cases hstatus : w.status = .disconnected
  · simp [hstatus]
  · by_cases hlate : now - w.lastHeartbeat > timeoutSec
    · simp [hstatus, hlate]
    · simp [hstatus, hlate]

/-- The check goes wrong by the workers that it passes over. -/
theorem exact_check (s : Server) (now : ℤ) :
    Exact timeoutSec (next timeoutSec s (.checkTimeouts now)) (.checkTimeouts now) ↔
      ∀ w ∈ s.registry.live, w.status = .disconnected → now - w.lastHeartbeat > timeoutSec := by
  simp only [Exact, next, WorkerRegistry.checkTimeouts_live, List.forall_mem_map,
    expireWorker_status, expireWorker_lastHeartbeat]
  refine forall₂_congr fun w _ => ?_
  constructor
  · intro h hstatus
    exact h.mp (.inl hstatus)
  · intro h
    exact ⟨fun hor => hor.elim h id, .inr⟩

/-! ### Heartbeats and assignments -/

theorem heartbeat_live (s : Server) {workerId : ℕ} (hid : workerId ≠ 0) (sockfd now : ℤ)
    (sent : Bool) :
    (handleWorkerHeartbeat s workerId sockfd now sent).registry.live =
      update WorkerInfo.workerId workerId (withHeartbeat now) s.registry.live := by
  have hlive := updateWorker_live (r := s.registry) (f := withHeartbeat now) hid
  by_cases hret : (workerRegistryUpdateHeartbeat s.registry workerId now).1 ≠ 0
  · have hsame : handleWorkerHeartbeat s workerId sockfd now sent = s := if_pos hret
    rw [hsame, ← hlive]
    unfold workerRegistryUpdateHeartbeat at hret
    unfold updateWorker at hret ⊢
    rw [if_neg hid] at hret ⊢
    cases hfind : s.registry.find workerId with
    | none => rfl
    | some i => simp [hfind] at hret
  · unfold handleWorkerHeartbeat
    rw [if_neg hret, (send_frame _ _ _ _).1]
    exact hlive

theorem heartbeat_zero (s : Server) (sockfd now : ℤ) (sent : Bool) :
    handleWorkerHeartbeat s 0 sockfd now sent = s := by
  have hret : (workerRegistryUpdateHeartbeat s.registry 0 now).1 ≠ 0 := by
    simp [workerRegistryUpdateHeartbeat, updateWorker]
  unfold handleWorkerHeartbeat
  exact if_pos hret

/-- Whoever is `DISCONNECTED` in `r'` was so in `r`, and has sent nothing since. -/
def Carries (r r' : Registry) : Prop :=
  ∀ w' ∈ r'.live, w'.status = .disconnected →
    ∃ w ∈ r.live, w.status = .disconnected ∧ w.lastHeartbeat = w'.lastHeartbeat

theorem Carries.refl (r : Registry) : Carries r r := fun w hw hstatus => ⟨w, hw, hstatus, rfl⟩

theorem Carries.trans {r u r' : Registry} (h : Carries r u) (h' : Carries u r') :
    Carries r r' := by
  intro w' hw' hstatus'
  obtain ⟨w, hw, hstatus, hsame⟩ := h' w' hw' hstatus'
  obtain ⟨v, hv, hdisconnected, hlast⟩ := h w hw hstatus
  exact ⟨v, hv, hdisconnected, hlast.trans hsame⟩

theorem carries_add (r : Registry) (sockfd : ℤ) (threadId : ℕ) (now : ℤ) :
    Carries r (workerRegistryAdd r sockfd threadId now).2 := by
  by_cases hfull : sockfd < 0 ∨ r.capacity ≤ r.count
  · rw [add_full hfull]
    exact .refl r
  · rw [not_or, not_lt, not_le] at hfull
    obtain ⟨_, hlive, _⟩ := add_room threadId now hfull.1 hfull.2
    intro w hw hstatus
    rw [hlive, List.mem_append, List.mem_singleton] at hw
    rcases hw with hw | rfl
    · exact ⟨w, hw, hstatus, rfl⟩
    · cases hstatus

theorem carries_update {r : Registry} {workerId : ℕ} {f : WorkerInfo → WorkerInfo}
    (h : ∀ w ∈ r.live, w.workerId = workerId → (f w).status = .disconnected →
      w.status = .disconnected ∧ w.lastHeartbeat = (f w).lastHeartbeat) :
    Carries r (updateWorker r workerId f).2 := by
  by_cases hid : workerId = 0
  · rw [updateWorker, if_pos hid]
    exact .refl r
  · intro w' hw' hstatus'
    rw [updateWorker_live hid] at hw'
    rcases mem_update hw' with hw | ⟨w, hw, hkey, rfl⟩
    · exact ⟨w', hw, hstatus', rfl⟩
    · obtain ⟨hstatus, hlast⟩ := h w hw hkey hstatus'
      exact ⟨w, hw, hstatus, hlast⟩

theorem carries_store {r : Registry} {slot : ℕ} {f : WorkerInfo → WorkerInfo}
    (h : ∀ w, (f w).status = w.status ∧ (f w).lastHeartbeat = w.lastHeartbeat) :
    Carries r (r.store slot f) := by
  intro w' hw' hstatus'
  rw [store_live] at hw'
  obtain ⟨i, hi⟩ := List.mem_iff_getElem?.mp hw'
  rw [List.getElem?_modify] at hi
  obtain ⟨w, hw, hmod⟩ := Option.map_eq_some_iff.mp hi
  refine ⟨w, List.mem_of_getElem? hw, ?_⟩
  split at hmod
  · rw [← hmod, (h w).1] at hstatus'
    rw [← hmod, (h w).2]
    exact ⟨hstatus', rfl⟩
  · cases hmod
    exact ⟨hstatus', rfl⟩

theorem carries_piece (r : Registry) (workerId : ℕ) {p : Piece} (hp : p.Works) :
    Carries r (p.apply workerId r) := by
  cases p with
  | heartbeat now => exact hp.elim
  | setStatus status => exact carries_update fun w _ _ hstatus => absurd hstatus hp
  | count slot status =>
    refine carries_store fun w => ?_
    unfold countResult
    split <;> exact ⟨rfl, rfl⟩

theorem carries_pieces (r : Registry) (workerId : ℕ) {pieces : List Piece}
    (hp : ∀ p ∈ pieces, p.Works) : Carries r (pieces.foldl (Piece.apply workerId) r) := by
  induction pieces generalizing r with
  | nil => exact .refl r
  | cons p pieces ih =>
    rw [List.forall_mem_cons] at hp
    exact (carries_piece r workerId hp.1).trans (ih _ hp.2)

/-- A task is given to an IDLE worker, so the `DISCONNECTED` ones are left as they are. -/
theorem assign_keeps (s : Server) (workerId : ℕ) (now : ℤ) (sent : Bool) {v : WorkerInfo}
    (hv : v ∈ s.registry.live) (hstatus : v.status = .disconnected) :
    v ∈ (assignTaskToWorker s workerId now sent).2.registry.live := by
  by_cases hpops : ∃ task, Pops s workerId task
  · obtain ⟨task, hpops⟩ := hpops
    by_cases hrecord : task.taskId = 0 ∨ ∀ t ∈ s.manager.live, t.id ≠ task.taskId
    · rw [(assign_unrecorded hpops hrecord now sent).2.1]
      exact hv
    · simp only [not_or, not_forall, not_not, exists_prop] at hrecord
      obtain ⟨_, _, _, _, hlive⟩ := assign_recorded hpops hrecord.1 hrecord.2 now sent
      obtain ⟨_, ⟨w, hw, hidle⟩, _⟩ := hpops
      have hbusy : v ∈ update WorkerInfo.workerId workerId (withStatus .busy) s.registry.live := by
        refine (mem_update_or_first hv).resolve_right fun hfirst => ?_
        rw [hw] at hfirst
        cases hfirst
        rw [hidle] at hstatus
        cases hstatus
      rw [hlive]
      cases sent with
      | true => exact hbusy
      | false =>
        refine (mem_update_or_first hbusy).resolve_right fun hfirst => ?_
        rw [lookup_update (withStatus_workerId _), hw] at hfirst
        cases hfirst
        cases hstatus
  · rw [not_exists] at hpops
    rw [assign_idle hpops]
    exact hv

/-! ### One event -/

/-- A `DISCONNECTED` worker stays so, with its heartbeat or the one that comes now. -/
theorem disconnected_kept {s : Server} (e : Event) {v : WorkerInfo} (hv : v ∈ s.registry.live)
    (hstatus : v.status = .disconnected) :
    ∃ v' ∈ (next timeoutSec s e).registry.live, v'.status = .disconnected ∧
      (v'.lastHeartbeat = v.lastHeartbeat ∨ v'.lastHeartbeat = e.time) := by
  cases e with
  | add sockfd threadId now =>
    refine ⟨v, ?_, hstatus, .inl rfl⟩
    by_cases hfull : sockfd < 0 ∨ s.registry.capacity ≤ s.registry.count
    · simpa only [next, add_full hfull] using hv
    · rw [not_or, not_lt, not_le] at hfull
      obtain ⟨_, hlive, _⟩ := add_room threadId now hfull.1 hfull.2
      simp only [next, hlive]
      exact List.mem_append_left _ hv
  | createTask inputData inputSize mem now => exact ⟨v, hv, hstatus, .inl rfl⟩
  | heartbeat workerId sockfd now sent =>
    by_cases hid : workerId = 0
    · subst hid
      simp only [next, heartbeat_zero]
      exact ⟨v, hv, hstatus, .inl rfl⟩
    · simp only [next, heartbeat_live s hid]
      have hor := @mem_update_or_first _ _ _ WorkerInfo.workerId workerId (withHeartbeat now) _ _ hv
      rcases hor with hsame | hfirst
      · exact ⟨v, hsame, hstatus, .inl rfl⟩
      · exact ⟨withHeartbeat now v, mem_update_lookup hfirst, hstatus, .inr rfl⟩
  | assign workerId now sent =>
    exact ⟨v, assign_keeps s workerId now sent hv hstatus, hstatus, .inl rfl⟩
  | result workerId sockfd conn now sent =>
    simp only [next, handleTaskResult_eq]
    exact ⟨v, hv, hstatus, .inl rfl⟩
  | checkTimeouts now =>
    simp only [next, WorkerRegistry.checkTimeouts_live]
    exact ⟨_, List.mem_map_of_mem hv, (expireWorker_status now v).mpr (.inl hstatus),
      .inl (expireWorker_lastHeartbeat now v)⟩

/-- Whoever is `DISCONNECTED` was so before, is overdue, or has just sent a late heartbeat. -/
theorem disconnected_from {s : Server} (e : Event) {v' : WorkerInfo}
    (hv' : v' ∈ (next timeoutSec s e).registry.live) (hstatus' : v'.status = .disconnected) :
    (∃ v ∈ s.registry.live, v.status = .disconnected ∧ v.lastHeartbeat = v'.lastHeartbeat) ∨
      e.time - v'.lastHeartbeat > timeoutSec ∨ v'.lastHeartbeat ∈ lateHeartbeat s e := by
  cases e with
  | add sockfd threadId now => exact .inl (carries_add _ _ _ _ v' hv' hstatus')
  | createTask inputData inputSize mem now => exact .inl ⟨v', hv', hstatus', rfl⟩
  | heartbeat workerId sockfd now sent =>
    by_cases hid : workerId = 0
    · subst hid
      rw [next, heartbeat_zero] at hv'
      exact .inl ⟨v', hv', hstatus', rfl⟩
    · rw [next, heartbeat_live s hid] at hv'
      rcases mem_update_first hv' with hv | ⟨v, hfirst, rfl⟩
      · exact .inl ⟨v', hv, hstatus', rfl⟩
      · have hlate : lateHeartbeat s (.heartbeat workerId sockfd now sent) = [now] :=
          if_pos ⟨hid, v, hfirst, hstatus'⟩
        exact .inr (.inr (hlate ▸ List.mem_singleton_self now))
  | assign workerId now sent =>
    obtain ⟨pieces, hworks, hregistry⟩ := assign_pieces s workerId now sent
    rw [next, hregistry] at hv'
    exact .inl (carries_pieces _ _ hworks v' hv' hstatus')
  | result workerId sockfd conn now sent =>
    rw [next, handleTaskResult_eq] at hv'
    exact .inl ⟨v', hv', hstatus', rfl⟩
  | checkTimeouts now =>
    simp only [next, WorkerRegistry.checkTimeouts_live] at hv'
    obtain ⟨v, hv, rfl⟩ := List.mem_map.mp hv'
    rw [expireWorker_lastHeartbeat]
    rcases (expireWorker_status now v).mp hstatus' with hstatus | hlate
    · exact .inl ⟨v, hv, hstatus, rfl⟩
    · exact .inr (.inl hlate)

theorem late_disconnected {s : Server} {e : Event} {t : ℤ} (h : t ∈ lateHeartbeat s e) :
    ∃ v ∈ (next timeoutSec s e).registry.live, v.status = .disconnected ∧ v.lastHeartbeat = t := by
  obtain ⟨_, workerId, sockfd, sent, w, rfl, hid, hw, hstatus⟩ := lateHeartbeat_some h
  simp only [next, heartbeat_live s hid]
  exact ⟨withHeartbeat t w, mem_update_lookup hw, hstatus, rfl⟩

/-! ### Runs -/

/-- Each late heartbeat is the last of a `DISCONNECTED` worker, or older than that; and
whoever is `DISCONNECTED` is overdue or has sent one. -/
structure Inv (timeoutSec : ℕ) (clock : ℤ) (w : Watch) : Prop where
  late_le : ∀ t ∈ w.late, t ≤ clock
  kept : ∀ t ∈ w.late, ∃ v ∈ w.server.registry.live, v.status = .disconnected ∧
    t ≤ v.lastHeartbeat
  silent : ∀ v ∈ w.server.registry.live, v.status = .disconnected →
    clock - v.lastHeartbeat > timeoutSec ∨ v.lastHeartbeat ∈ w.late

theorem Inv.next {clock : ℤ} {w : Watch} (h : Inv timeoutSec clock w) {e : Event}
    (hle : clock ≤ e.time) : Inv timeoutSec e.time (w.next timeoutSec e) := by
  constructor
  · intro t ht
    rcases List.mem_append.mp ht with hold | hnew
    · exact Int.le_trans (h.late_le t hold) hle
    · exact Int.le_of_eq (lateHeartbeat_some hnew).1
  · intro t ht
    rcases List.mem_append.mp ht with hold | hnew
    · obtain ⟨v, hv, hstatus, htv⟩ := h.kept t hold
      have htc := h.late_le t hold
      obtain ⟨v', hv', hstatus', hsame | hnow⟩ :=
        @disconnected_kept timeoutSec _ e _ hv hstatus
      · exact ⟨v', hv', hstatus', by omega⟩
      · exact ⟨v', hv', hstatus', by omega⟩
    · obtain ⟨v, hv, hstatus, rfl⟩ := @late_disconnected timeoutSec _ _ _ hnew
      exact ⟨v, hv, hstatus, Int.le_refl _⟩
  · intro v' hv' hstatus'
    rcases disconnected_from e hv' hstatus' with ⟨v, hv, hstatus, hsame⟩ | hlate | hnew
    · rcases h.silent v hv hstatus with hsilent | hold
      · left
        omega
      · exact .inr (List.mem_append_left _ (hsame ▸ hold))
    · exact .inl hlate
    · exact .inr (List.mem_append_right _ hnew)

theorem exact_iff_spaced {clock : ℤ} {w : Watch} (h : Inv timeoutSec clock w) {e : Event}
    (hle : clock ≤ e.time) :
    Exact timeoutSec (HeartbeatStatus.next timeoutSec w.server e) e ↔ Spaced timeoutSec w e := by
  cases e with
  | checkTimeouts now =>
    have hclock : clock ≤ now := hle
    rw [exact_check]
    constructor
    · intro hall t ht
      obtain ⟨v, hv, hstatus, htv⟩ := h.kept t ht
      have hover := hall v hv hstatus
      omega
    · intro hspaced v hv hstatus
      rcases h.silent v hv hstatus with hsilent | hlate
      · omega
      · exact hspaced _ hlate
  | _ => exact Iff.rfl

theorem meets_exact_iff {clock : ℤ} {w : Watch} {events : List Event} (h : Inv timeoutSec clock w)
    (htimes : (clock :: events.map Event.time).Pairwise (· ≤ ·)) :
    Meets (Watch.next timeoutSec)
        (fun w e => Exact timeoutSec (HeartbeatStatus.next timeoutSec w.server e) e) w events ↔
      Meets (Watch.next timeoutSec) (Spaced timeoutSec) w events := by
  induction events generalizing w clock with
  | nil => exact Iff.rfl
  | cons e events ih =>
    obtain ⟨hle, hlater⟩ := List.pairwise_cons.mp htimes
    have hclock : clock ≤ e.time := hle _ List.mem_cons_self
    exact and_congr (exact_iff_spaced h hclock) (ih (h.next hclock) hlater)

/-- The heartbeat and the status agree after every check exactly in the runs where no
check comes within the timeout of a heartbeat that found its worker `DISCONNECTED`. -/
theorem disconnected_iff_overdue {host : Protocol.Endian}
    {workers : Block.Slots WorkerInfo maxWorkers} {tasks : Block.Slots TaskInfo maxTasks}
    {queue : Block.Slots Task taskQueueSize} {s : Server}
    (hinit : initializeServer host workers tasks queue = some s) {events : List Event}
    (htimes : (events.map Event.time).Pairwise (· ≤ ·)) :
    Meets (Watch.next timeoutSec)
        (fun w e => Exact timeoutSec (HeartbeatStatus.next timeoutSec w.server e) e)
        ⟨s, []⟩ events ↔
      Meets (Watch.next timeoutSec) (Spaced timeoutSec) ⟨s, []⟩ events := by
  cases events with
  | nil => exact Iff.rfl
  | cons e events =>
    have hnobody : s.registry.live = [] := (initializeServer_start hinit).1
    have hinv : Inv timeoutSec e.time ⟨s, []⟩ := by
      refine ⟨by simp, by simp, fun v hv => ?_⟩
      rw [hnobody] at hv
      cases hv
    exact meets_exact_iff hinv (List.pairwise_cons.mpr ⟨fun t ht => by
      rcases List.mem_cons.mp ht with rfl | hlater
      · exact Int.le_refl _
      · exact (List.pairwise_cons.mp htimes).1 t hlater, htimes⟩)

/-- A late heartbeat at 32, and the next check 31 seconds after it. -/
def spacedOut : List Event :=
  [.add 4 7 0, .checkTimeouts 31, .heartbeat 1 4 32 true, .checkTimeouts 63]

theorem disconnected_iff_overdue_spacedOut :
    ((spacedOut.take 3).foldl (Watch.next 30) ⟨blankServer, []⟩).late = [32] ∧
      Meets (Watch.next 30) (fun w e => Exact 30 (HeartbeatStatus.next 30 w.server e) e)
        ⟨blankServer, []⟩ spacedOut := by
  have hlate : ((spacedOut.take 3).foldl (Watch.next 30) ⟨blankServer, []⟩).late = [32] := rfl
  have hinit : initializeServer .little blankWorkers blankTasks blankQueue = some blankServer := rfl
  refine ⟨hlate, (disconnected_iff_overdue hinit (by decide)).mpr
    ⟨trivial, fun t ht => absurd ht List.not_mem_nil, trivial, ?_, trivial⟩⟩
  intro t ht
  have hmem : t ∈ ((spacedOut.take 3).foldl (Watch.next 30) ⟨blankServer, []⟩).late := ht
  rw [hlate, List.mem_singleton] at hmem
  subst hmem
  decide

/-- The worker is silent for 31 seconds and then sends a heartbeat: the next check leaves
it `DISCONNECTED`, and no task is assigned to it. -/
def resumed : List Event :=
  [.add 4 7 0, .checkTimeouts 31, .heartbeat 1 4 32 true, .checkTimeouts 33]

theorem heartbeat_ignored :
    (resumed.map Event.time).Pairwise (· ≤ ·) ∧
      ¬ Meets (Watch.next 30) (fun w e => Exact 30 (HeartbeatStatus.next 30 w.server e) e)
        ⟨blankServer, []⟩ resumed ∧
      (assignTaskToWorker (resumed.foldl (HeartbeatStatus.next 30) blankServer) 1 34 true).1 =
        -1 := by
  have hlive : (resumed.foldl (HeartbeatStatus.next 30) blankServer).registry.live =
    [⟨1, 4, .disconnected, 32, 0, 0, 7⟩] := rfl
  refine ⟨by decide, ?_, rfl⟩
  rintro ⟨_, _, _, hlast, _⟩
  have hoverdue := (hlast ⟨1, 4, .disconnected, 32, 0, 0, 7⟩ (by
    show _ ∈ (resumed.foldl (HeartbeatStatus.next 30) blankServer).registry.live
    rw [hlive]
    exact List.mem_singleton_self _)).mp rfl
  exact absurd hoverdue (by decide)

end CSimples.HeartbeatStatus
