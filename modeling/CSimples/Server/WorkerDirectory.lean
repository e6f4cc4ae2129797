import CSimples.Server.WorkerManager

/-!
# The worker manager as a finite map (server/worker_manager.c:38-177, 195-408)

Slots are used again in any order while ids only grow. Abstractly the manager is
a map from the ids in use to what each worker registered with, of at most
`max_workers` entries.
-/

namespace CSimples.WorkerDirectory
open WorkerManager SlotTable Block

/-! ### The map -/

structure Profile where
  socket : ℤ
  port : ℤ
  jobTypes : List ℤ

/-- `profile` counts only on `ids`; `issued` ids have been given out so far. -/
structure Directory where
  ids : Finset ℤ
  profile : ℤ → Profile
  issued : ℕ

inductive Call where
  | register (r : Registration) (now : ℤ)
  | unregister (workerId : ℤ)
  | updateStatus (workerId : ℤ) (status : WorkerStatus)
  | updateHeartbeat (workerId now : ℤ)
  | assignJob (workerId jobId : ℤ)
  | completeJob (workerId processingTimeMs : ℤ)
  | failJob (workerId : ℤ)
  | checkInactive (timeoutSeconds now : ℤ)

def jobTypes (r : Registration) : List ℤ :=
  (List.range r.numJobTypes.toNat).map fun i => (r.jobTypesSupported.getD []).getD i 0

def Directory.add (d : Directory) (p : Profile) : Directory :=
  ⟨insert (d.issued + 1 : ℤ) d.ids, Function.update d.profile (d.issued + 1) p, d.issued + 1⟩

def Directory.remove (d : Directory) (workerId : ℤ) : Directory :=
  { d with ids := d.ids.erase workerId }

section Spec
variable (maxJobTypes maxWorkers : ℕ)

/-- The id of an entry to be changed in a way that the map does not show. -/
def Call.touches : Call → Option ℤ
  | .updateStatus workerId _ | .updateHeartbeat workerId _ | .assignJob workerId _
  | .completeJob workerId _ | .failJob workerId => some workerId
  | .register _ _ | .unregister _ | .checkInactive _ _ => none

def Directory.step (d : Directory) : Call → ℤ × Directory
  | .register r _ =>
    if r.valid maxJobTypes = true ∧ d.ids.card < maxWorkers then
      (d.issued + 1, d.add ⟨r.socket, r.port, jobTypes r⟩)
    else (-1, d)
  | .unregister workerId => if workerId ∈ d.ids then (0, d.remove workerId) else (-1, d)
  | call => (if call.touches.all fun workerId => decide (workerId ∈ d.ids) then 0 else -1, d)

def Directory.run (d : Directory) (calls : List Call) : Directory :=
  calls.foldl (fun d call => (d.step maxJobTypes maxWorkers call).2) d

end Spec

def emptyDirectory : Directory := ⟨∅, fun _ => ⟨0, 0, []⟩, 0⟩

/-! ### The manager under the same calls -/

section Manager
variable (maxJobTypes : ℕ)

def answer (m : Manager) : Call → ℤ × Manager
  | .register r now => workerManagerRegister maxJobTypes m r now
  | .unregister workerId => workerManagerUnregister maxJobTypes m workerId
  | .updateStatus workerId status => workerManagerUpdateStatus m workerId status
  | .updateHeartbeat workerId now => workerManagerUpdateHeartbeat m workerId now
  | .assignJob workerId jobId => workerManagerAssignJob m workerId jobId
  | .completeJob workerId processingTimeMs => workerManagerCompleteJob m workerId processingTimeMs
  | .failJob workerId => workerManagerFailJob m workerId
  | .checkInactive timeoutSeconds now => workerManagerCheckInactive m timeoutSeconds now

def run (m : Manager) (calls : List Call) : Manager :=
  calls.foldl (fun m call => (answer maxJobTypes m call).2) m

def registered : Manager → List Call → List ℤ
  | _, [] => []
  | m, call :: calls =>
    (match call with
      | .register _ _ => [(answer maxJobTypes m call).1].filter fun id => decide (id ≠ -1)
      | _ => []) ++ registered (answer maxJobTypes m call).2 calls

/-- The slot holds what was registered, the job types filled up with zeros. -/
structure Holds (w : Worker) (p : Profile) : Prop where
  socket : w.socket = p.socket
  port : w.port = p.port
  jobTypes : w.jobTypesSupported = p.jobTypes ++ List.replicate (maxJobTypes - p.jobTypes.length) 0

structure Refines (m : Manager) (d : Directory) : Prop where
  numbered : Numbered m
  next : m.nextWorkerId = d.issued + 1
  ids : d.ids = keys Worker.workerId 0 m.workers
  holds : ∀ w ∈ m.workers, w.workerId ≠ 0 → Holds maxJobTypes w (d.profile w.workerId)

variable {maxJobTypes} {m : Manager} {d : Directory} {i : ℕ} {w v : Worker}

theorem Refines.mem_ids (h : Refines maxJobTypes m d) {workerId : ℤ} :
    workerId ∈ d.ids ↔ ∃ i w, findWorkerById m workerId = some (i, w) := by
  rw [h.ids, mem_keys]
  constructor
  · rintro ⟨hne, w, hw, rfl⟩
    obtain ⟨i, hi⟩ := List.mem_iff_getElem?.mp hw
    exact ⟨i, w, h.numbered.find.mpr ⟨hi, rfl, hne⟩⟩
  · rintro ⟨i, w, hfind⟩
    obtain ⟨hi, hid, hne⟩ := h.numbered.find.mp hfind
    exact ⟨hne, w, List.mem_of_getElem? hi, hid⟩

theorem copyJobTypes_eq {r : Registration} (hr : r.valid maxJobTypes = true) :
    copyJobTypes maxJobTypes r =
      jobTypes r ++ List.replicate (maxJobTypes - (jobTypes r).length) 0 := by
  simp only [Registration.valid, Bool.and_eq_true, decide_eq_true_eq] at hr
  have hle : r.numJobTypes.toNat ≤ maxJobTypes := by omega
  rw [copyJobTypes, Nat.min_eq_left hle, fill_eq _ (by simpa using hle), List.drop_replicate,
    jobTypes, List.length_map, List.length_range]

theorem Refines.full_iff (h : Refines maxJobTypes m d) :
    findFreeWorkerSlot m = none ↔ d.ids.card = m.workers.length := by
  rw [findFreeWorkerSlot, slot_free_eq_none h.numbered.proper, h.ids]

theorem Refines.card_le (h : Refines maxJobTypes m d) : d.ids.card ≤ m.workers.length := by
  rw [h.ids, card_keys h.numbered.proper]
  exact List.countP_le_length

theorem Refines.addWorker (h : Refines maxJobTypes m d) (hi : m.workers[i]? = some w)
    (hw : w.workerId = 0) (hv : v.workerId = m.nextWorkerId) {p : Profile}
    (hp : Holds maxJobTypes v p) : Refines maxJobTypes (m.addWorker i v) (d.add p) := by
  have hpos := h.numbered.next
  have hnext := h.next
  constructor
  · exact h.numbered.addWorker hi hv
  · show m.nextWorkerId + 1 = ((d.issued + 1 : ℕ) : ℤ) + 1
    omega
  · show insert (d.issued + 1 : ℤ) d.ids = keys Worker.workerId 0 (m.workers.set i v)
    rw [keys_fill hi hw (by omega), h.ids, hv, hnext]
  · intro u hu hne
    rcases List.mem_or_eq_of_mem_set hu with hmem | rfl
    · have hrange := h.numbered.range u hmem hne
      have hold : (d.add p).profile u.workerId = d.profile u.workerId :=
        Function.update_of_ne (by omega) _ _
      rw [hold]
      exact h.holds u hmem hne
    · have hnew : (d.add p).profile u.workerId = p := by
        rw [hv, hnext]
        exact Function.update_self ..
      rw [hnew]
      exact hp

theorem Refines.clear (h : Refines maxJobTypes m d) (hi : m.workers[i]? = some w)
    (hw : w.workerId ≠ 0) (hv : v.workerId = 0) (st : WorkerStats) :
    Refines maxJobTypes (m.put i v st) (d.remove w.workerId) := by
  constructor
  · exact h.numbered.put hi (.inl hv) st
  · exact h.next
  · show d.ids.erase w.workerId = keys Worker.workerId 0 (m.workers.set i v)
    rw [keys_clear h.numbered.proper hi hw hv, h.ids]
  · intro u hu hne
    rcases List.mem_or_eq_of_mem_set hu with hmem | rfl
    · exact h.holds u hmem hne
    · exact absurd hv hne

theorem Refines.put (h : Refines maxJobTypes m d) (hi : m.workers[i]? = some w)
    (hid : v.workerId = w.workerId) (hs : v.socket = w.socket) (hp : v.port = w.port)
    (hj : v.jobTypesSupported = w.jobTypesSupported) (st : WorkerStats) :
    Refines maxJobTypes (m.put i v st) d := by
  constructor
  · exact h.numbered.put hi (.inr hid) st
  · exact h.next
  · show d.ids = keys Worker.workerId 0 (m.workers.set i v)
    rw [keys_same hi hid, h.ids]
  · intro u hu hne
    rcases List.mem_or_eq_of_mem_set hu with hmem | rfl
    · exact h.holds u hmem hne
    · rw [hid] at hne ⊢
      obtain ⟨hsocket, hport, htypes⟩ := h.holds w (List.mem_of_getElem? hi) hne
      exact ⟨hs.trans hsocket, hp.trans hport, hj.trans htypes⟩

/-! ### One call -/

/-- What a slot holds besides its status, its heartbeat and its job counters. -/
def SameEntry (w v : Worker) : Prop :=
  v.workerId = w.workerId ∧ v.socket = w.socket ∧ v.port = w.port ∧
    v.jobTypesSupported = w.jobTypesSupported

theorem Refines.touch (h : Refines maxJobTypes m d) (workerId : ℤ) {f : Worker → Worker}
    (hf : ∀ w, SameEntry w (f w)) (g : WorkerStats → Worker → WorkerStats) :
    (withWorker m workerId f g).1 = (if workerId ∈ d.ids then 0 else -1) ∧
      Refines maxJobTypes (withWorker m workerId f g).2 d ∧
      (withWorker m workerId f g).2.workers.length = m.workers.length := by
  rcases withWorker_cases h.numbered workerId f g with ⟨hnone, hr⟩ | ⟨i, w, hsome, hi, _, _, hr⟩
  · have habsent : workerId ∉ d.ids := by
      rw [h.mem_ids, hnone]
      rintro ⟨i, w, hsome⟩
      cases hsome
    rw [hr, if_neg habsent]
    exact ⟨rfl, h, rfl⟩
  · have hmem : workerId ∈ d.ids := h.mem_ids.mpr ⟨i, w, hsome⟩
    obtain ⟨hid, hs, hp, hj⟩ := hf w
    rw [hr, if_pos hmem]
    exact ⟨rfl, h.put hi hid hs hp hj _, List.length_set⟩

theorem touch_spec (d : Directory) (workerId : ℤ) :
    (if (some workerId).all fun id => decide (id ∈ d.ids) then 0 else -1 : ℤ) =
      if workerId ∈ d.ids then 0 else -1 := by
  simp

theorem Refines.unregister (h : Refines maxJobTypes m d) (workerId : ℤ) :
    (workerManagerUnregister maxJobTypes m workerId).1 = (if workerId ∈ d.ids then 0 else -1) ∧
      Refines maxJobTypes (workerManagerUnregister maxJobTypes m workerId).2
        (if workerId ∈ d.ids then d.remove workerId else d) ∧
      (workerManagerUnregister maxJobTypes m workerId).2.workers.length = m.workers.length := by
  rw [workerManagerUnregister]
  rcases withWorker_cases h.numbered workerId (fun _ => freeWorker maxJobTypes)
    WorkerStats.dropped with ⟨hnone, hr⟩ | ⟨i, w, hsome, hi, rfl, hne, hr⟩
  · have habsent : workerId ∉ d.ids := by
      rw [h.mem_ids, hnone]
      rintro ⟨i, w, hsome⟩
      cases hsome
    rw [hr, if_neg habsent, if_neg habsent]
    exact ⟨rfl, h, rfl⟩
  · have hmem : w.workerId ∈ d.ids := h.mem_ids.mpr ⟨i, w, hsome⟩
    rw [hr, if_pos hmem, if_pos hmem]
    exact ⟨rfl, h.clear hi hne rfl _, List.length_set⟩

theorem Refines.register (h : Refines maxJobTypes m d) (r : Registration) (now : ℤ) :
    (workerManagerRegister maxJobTypes m r now).1 =
        (d.step maxJobTypes m.workers.length (.register r now)).1 ∧
      Refines maxJobTypes (workerManagerRegister maxJobTypes m r now).2
        (d.step maxJobTypes m.workers.length (.register r now)).2 ∧
      (workerManagerRegister maxJobTypes m r now).2.workers.length = m.workers.length := by
  have hcard := h.card_le
  rcases @register_cases maxJobTypes m r now with ⟨hr, hbad⟩ | ⟨i, old, hi, hold, hvalid, hr⟩
  · have hrefused : ¬ (r.valid maxJobTypes = true ∧ d.ids.card < m.workers.length) := by
      rintro ⟨hvalid, hroom⟩
      rcases hbad with hinvalid | hfull
      · rw [hvalid] at hinvalid
        cases hinvalid
      · rw [h.full_iff] at hfull
        omega
    rw [hr, Directory.step, if_neg hrefused]
    exact ⟨rfl, h, rfl⟩
  · have hroom : d.ids.card < m.workers.length := by
      have hfree : findFreeWorkerSlot m ≠ none := by
        intro hnone
        exact slot_eq_none.mp hnone old (List.mem_of_getElem? hi) hold
      rw [ne_eq, h.full_iff] at hfree
      omega
    rw [hr, Directory.step, if_pos ⟨hvalid, hroom⟩]
    exact ⟨h.next, h.addWorker hi hold rfl ⟨rfl, rfl, copyJobTypes_eq hvalid⟩, List.length_set⟩

theorem checked_sameEntry (timeoutSeconds now : ℤ) (w : Worker) :
    SameEntry w (w.checked timeoutSeconds now) := by
  unfold Worker.checked
  split
  · exact ⟨rfl, rfl, rfl, rfl⟩
  · exact ⟨rfl, rfl, rfl, rfl⟩

theorem Refines.checkInactive (h : Refines maxJobTypes m d) (timeoutSeconds now : ℤ) :
    Refines maxJobTypes (workerManagerCheckInactive m timeoutSeconds now).2 d := by
  constructor
  · exact h.numbered.checkInactive timeoutSeconds now
  · exact h.next
  · show d.ids = keys Worker.workerId 0 (m.workers.map (Worker.checked timeoutSeconds now))
    rw [keys_map (checked_workerId timeoutSeconds now), h.ids]
  · intro u hu hne
    obtain ⟨w, hw, rfl⟩ := List.mem_map.mp hu
    obtain ⟨hid, hs, hp, hj⟩ := checked_sameEntry timeoutSeconds now w
    rw [hid] at hne ⊢
    obtain ⟨hsocket, hport, htypes⟩ := h.holds w hw hne
    exact ⟨hs.trans hsocket, hp.trans hport, hj.trans htypes⟩

/-- The sweep alone answers something the map does not know: how many it found late. -/
def Call.isSweep : Call → Bool
  | .checkInactive _ _ => true
  | _ => false

theorem answer_refines (h : Refines maxJobTypes m d) (call : Call) :
    (call.isSweep = false → (answer maxJobTypes m call).1 =
        (d.step maxJobTypes m.workers.length call).1) ∧
      Refines maxJobTypes (answer maxJobTypes m call).2
        (d.step maxJobTypes m.workers.length call).2 ∧
      (answer maxJobTypes m call).2.workers.length = m.workers.length := by
  cases call with
  | register r now =>
    obtain ⟨hret, hrest⟩ := h.register r now
    exact ⟨fun _ => hret, hrest⟩
  | unregister workerId =>
    obtain ⟨hret, hrest⟩ := h.unregister workerId
    simp only [answer, Directory.step]
    split at hrest
    · rename_i hmem
      rw [if_pos hmem] at hret ⊢
      exact ⟨fun _ => hret, hrest⟩
    · rename_i hmem
      rw [if_neg hmem] at hret ⊢
      exact ⟨fun _ => hret, hrest⟩
  | updateStatus workerId status =>
    obtain ⟨hret, hrest⟩ := h.touch workerId (f := Worker.withStatus status)
      (fun _ => ⟨rfl, rfl, rfl, rfl⟩) (WorkerStats.moved status)
    exact ⟨fun _ => hret.trans (touch_spec d workerId).symm, hrest⟩
  | updateHeartbeat workerId now =>
    obtain ⟨hret, hrest⟩ := h.touch workerId (f := Worker.withHeartbeat now)
      (fun _ => ⟨rfl, rfl, rfl, rfl⟩) fun st _ => st
    exact ⟨fun _ => hret.trans (touch_spec d workerId).symm, hrest⟩
  | assignJob workerId jobId =>
    obtain ⟨hret, hrest⟩ := h.touch workerId (f := Worker.startJob jobId)
      (fun _ => ⟨rfl, rfl, rfl, rfl⟩) fun st _ => st.toBusy
    exact ⟨fun _ => hret.trans (touch_spec d workerId).symm, hrest⟩
  | completeJob workerId processingTimeMs =>
    obtain ⟨hret, hrest⟩ := h.touch workerId (f := Worker.completeJob processingTimeMs)
      (fun _ => ⟨rfl, rfl, rfl, rfl⟩) fun st _ => st.toIdle
    exact ⟨fun _ => hret.trans (touch_spec d workerId).symm, hrest⟩
  | failJob workerId =>
    obtain ⟨hret, hrest⟩ := h.touch workerId (f := Worker.failJob)
      (fun _ => ⟨rfl, rfl, rfl, rfl⟩) fun st _ => st.toIdle
    exact ⟨fun _ => hret.trans (touch_spec d workerId).symm, hrest⟩
  | checkInactive timeoutSeconds now =>
    refine ⟨fun hno => ?_, h.checkInactive timeoutSeconds now, List.length_map ..⟩
    cases hno

/-! ### Every run -/

theorem run_refines (h : Refines maxJobTypes m d) (calls : List Call) :
    Refines maxJobTypes (run maxJobTypes m calls)
        (d.run maxJobTypes m.workers.length calls) ∧
      (run maxJobTypes m calls).workers.length = m.workers.length := by
  induction calls generalizing m d with
  | nil => exact ⟨h, rfl⟩
  | cons call calls ih =>
    obtain ⟨_, hrest, hlen⟩ := answer_refines h call
    have hih := ih hrest
    rw [hlen] at hih
    exact hih

theorem answer_nextWorkerId (h : Refines maxJobTypes m d) (call : Call) :
    m.nextWorkerId ≤ (answer maxJobTypes m call).2.nextWorkerId := by
  obtain ⟨_, hrest, _⟩ := answer_refines h call
  have hnext := h.next
  have hnext' := hrest.next
  have hissued : d.issued ≤ (d.step maxJobTypes m.workers.length call).2.issued := by
    cases call with
    | register r now =>
      rw [Directory.step]
      split
      · exact Nat.le_succ _
      · exact Nat.le_refl _
    | unregister workerId =>
      rw [Directory.step]
      split
      · exact Nat.le_refl _
      · exact Nat.le_refl _
    | _ => exact Nat.le_refl _
  omega

/-- Later registrations return ids from the next one on, each of them once. -/
theorem registered_nodup (h : Refines maxJobTypes m d) (calls : List Call) :
    (registered maxJobTypes m calls).Nodup ∧
      ∀ id ∈ registered maxJobTypes m calls, m.nextWorkerId ≤ id := by
  induction calls generalizing m d with
  | nil => exact ⟨List.nodup_nil, by simp [registered]⟩
  | cons call calls ih =>
    obtain ⟨_, hrest, _⟩ := answer_refines h call
    obtain ⟨hnodup, hlater⟩ := ih hrest
    have hle := answer_nextWorkerId h call
    have hlater' : ∀ id ∈ registered maxJobTypes (answer maxJobTypes m call).2 calls,
        m.nextWorkerId ≤ id := fun id hid => Int.le_trans hle (hlater id hid)
    cases call with
    | register r now =>
      rcases @register_cases maxJobTypes m r now with ⟨hr, _⟩ | ⟨i, old, _, _, _, hr⟩
      · simp only [registered, answer, hr] at hnodup hlater' ⊢
        exact ⟨hnodup, hlater'⟩
      · have hpos := h.numbered.next
        simp only [registered, answer, hr] at hnodup hlater ⊢
        have hkept : ([m.nextWorkerId].filter fun id => decide (id ≠ -1)) = [m.nextWorkerId] := by
          rw [List.filter_cons_of_pos (by rw [decide_eq_true_eq]; omega), List.filter_nil]
        rw [hkept, List.singleton_append, List.nodup_cons]
        refine ⟨⟨?_, hnodup⟩, ?_⟩
        · intro hmem
          have hnew := hlater _ hmem
          have hadd : (m.addWorker i (old.enrol maxJobTypes m.nextWorkerId r now)).nextWorkerId =
            m.nextWorkerId + 1 := rfl
          omega
        · intro id hid
          rcases List.mem_cons.mp hid with rfl | hid
          · exact Int.le_refl _
          · have hnew := hlater _ hid
            have hadd : (m.addWorker i (old.enrol maxJobTypes m.nextWorkerId r now)).nextWorkerId =
              m.nextWorkerId + 1 := rfl
            omega
    | _ => exact ⟨hnodup, hlater'⟩

theorem init_refines {maxWorkers : ℤ} {alloc : Bool}
    (hinit : workerManagerInit maxJobTypes maxWorkers alloc = (0, m)) :
    Refines maxJobTypes m emptyDirectory ∧ m.workers.length = maxWorkers.toNat := by
  obtain ⟨hn, hworkers, hnext, _, _⟩ := init_numbered hinit
  have hfree : ∀ w ∈ m.workers, w.workerId = 0 := by
    intro w hw
    rw [hworkers] at hw
    rw [List.eq_of_mem_replicate hw]
    rfl
  refine ⟨⟨hn, hnext, ?_, fun w hw hne => absurd (hfree w hw) hne⟩, ?_⟩
  · ext id
    rw [mem_keys]
    constructor
    · intro hmem
      exact absurd hmem (Finset.notMem_empty id)
    · rintro ⟨hne, w, hw, rfl⟩
      exact absurd (hfree w hw) hne
  · rw [hworkers, List.length_replicate]

/-- What the table shows of the map `d`, where `maxWorkers` is its size. -/
structure Shows (maxJobTypes maxWorkers : ℕ) (m : Manager) (d : Directory) : Prop where
  ids_pos : ∀ w ∈ m.workers, w.workerId ≠ 0 → 0 < w.workerId
  ids_distinct : ∀ (i j : ℕ) v w, m.workers[i]? = some v → m.workers[j]? = some w →
    v.workerId = w.workerId → v.workerId ≠ 0 → i = j
  issued : m.nextWorkerId = d.issued + 1
  found : ∀ id ∈ d.ids, ∃ i w, findWorkerById m id = some (i, w) ∧ m.workers[i]? = some w ∧
    w.workerId = id ∧ Holds maxJobTypes w (d.profile id)
  absent : ∀ id, id ∉ d.ids → findWorkerById m id = none
  answers : ∀ call, call.isSweep = false →
    (answer maxJobTypes m call).1 = (d.step maxJobTypes maxWorkers call).1
  full : ∀ r now, r.valid maxJobTypes = true →
    ((workerManagerRegister maxJobTypes m r now).1 = -1 ↔ d.ids.card = maxWorkers)
  frame : ∀ id (i : ℕ) w, m.workers[i]? = some w → w.workerId ≠ id →
    (workerManagerUnregister maxJobTypes m id).2.workers[i]? = some w

theorem Refines.shows (h : Refines maxJobTypes m d) :
    Shows maxJobTypes m.workers.length m d := by
  constructor
  · intro w hw hne
    exact (h.numbered.range w hw hne).1
  · exact h.numbered.proper
  · exact h.next
  · intro id hid
    obtain ⟨i, w, hfind⟩ := h.mem_ids.mp hid
    obtain ⟨hi, rfl, hne⟩ := h.numbered.find.mp hfind
    exact ⟨i, w, hfind, hi, rfl, h.holds w (List.mem_of_getElem? hi) hne⟩
  · intro id hid
    cases hf : findWorkerById m id with
    | none => rfl
    | some found => exact absurd (h.mem_ids.mpr ⟨found.1, found.2, hf⟩) hid
  · intro call hcall
    exact (answer_refines h call).1 hcall
  · intro r now hvalid
    have hcard := h.card_le
    rw [(h.register r now).1, Directory.step]
    split
    · rename_i hroom
      constructor
      · intro hret
        simp only at hret
        omega
      · omega
    · rename_i hroom
      have hfull : ¬ d.ids.card < m.workers.length := fun hlt => hroom ⟨hvalid, hlt⟩
      constructor
      · intro _
        omega
      · intro _
        rfl
  · intro id i w hi hne
    rw [workerManagerUnregister]
    rcases withWorker_cases h.numbered id (fun _ => freeWorker maxJobTypes) WorkerStats.dropped
      with ⟨_, hr⟩ | ⟨j, v, _, hj, hid, _, hr⟩
    · rw [hr]
      exact hi
    · have hij : j ≠ i := by
        rintro rfl
        rw [hi] at hj
        cases hj
        exact hne hid
      rw [hr, Manager.put, List.getElem?_set_ne hij]
      exact hi

theorem manager_refines_map {maxWorkers : ℤ} {alloc : Bool}
    (hinit : workerManagerInit maxJobTypes maxWorkers alloc = (0, m)) (calls : List Call) :
    Shows maxJobTypes maxWorkers.toNat (run maxJobTypes m calls)
        (emptyDirectory.run maxJobTypes maxWorkers.toNat calls) ∧
      (registered maxJobTypes m calls).Nodup := by
  obtain ⟨h0, hlen⟩ := init_refines hinit
  obtain ⟨hrun, hrunlen⟩ := run_refines h0 calls
  have hshows := hrun.shows
  rw [hrunlen, hlen] at hshows
  exact ⟨hshows, (registered_nodup h0 calls).1⟩

def echoWorker (socket : ℤ) : Registration := ⟨socket, some [49], 7000, some [1, 3], 2⟩

/-- The second slot is taken, freed and taken again under a new id. -/
def slotReused : List Call :=
  [.register (echoWorker 5) 100, .register (echoWorker 6) 200, .unregister 2,
    .register (echoWorker 6) 300, .assignJob 3 9, .checkInactive 60 90000]

theorem manager_refines_map_slotReused :
    Shows 4 2 (run 4 (workerManagerInit 4 2 true).2 slotReused)
        (emptyDirectory.run 4 2 slotReused) ∧
      (registered 4 (workerManagerInit 4 2 true).2 slotReused).Nodup :=
  have hinit : workerManagerInit 4 2 true = (0, (workerManagerInit 4 2 true).2) := rfl
  manager_refines_map hinit slotReused

example : registered 4 (workerManagerInit 4 2 true).2 slotReused = [1, 2, 3] := by decide

end Manager

end CSimples.WorkerDirectory
