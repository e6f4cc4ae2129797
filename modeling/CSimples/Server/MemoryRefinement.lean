import CSimples.Server.JobMemory

/-!
# The job table on addresses and on bytes (server/job_handler.c)

The handler with its blocks behaves as the handler that holds the bytes themselves, and
frees them all in the end. A clean-up is harmless unless a thread has the last log line of
`job_handler_complete` still before it.
-/

namespace CSimples.JobMemory
open Heap JobHandler Keyed Run

variable {τ : Type}

/-! ### The same with the bytes in place -/

/-- `Point` with what the addresses point at. -/
inductive Held where
  | outside
  | sending (msg : JobAssigned)
  | unsent (jobId : ℤ)
  | notifying
  | fetched (data : Option (List UInt8)) (size : ℕ)

/-- The input that a message on its way points at is freed by a clean-up. -/
def Held.dangle : Held → Held
  | .sending msg => .sending { msg with data := none }
  | p => p

structure Values (τ : Type) where
  handler : Handler
  pc : τ → Held
  ret : τ → ℤ

section Values
variable [DecidableEq τ]

def Values.jump (v : Values τ) (thread : τ) (p : Held) : Values τ :=
  { v with pc := Function.update v.pc thread p }

def Values.leave (v : Values τ) (thread : τ) (ret : ℤ) : Values τ :=
  { v.jump thread .outside with ret := Function.update v.ret thread ret }

def Values.reply (v : Values τ) (thread : τ) (r : Reply) : Values τ :=
  { v with handler := r.handler }.leave thread r.ret

variable (c : Constants)

def valueStep (v : Values τ) : Action τ → Option (Values τ)
  | .submit thread clientSocket jobType inputData inputSize mem now => match v.pc thread with
    | .outside => some (v.reply thread
        (jobHandlerSubmit v.handler clientSocket jobType inputData inputSize mem.isSome now))
    | _ => none
  | .select thread workerSocket now => match v.pc thread with
    | .outside => some (match assignSelect v.handler workerSocket now with
      | (none, h) => { v with handler := h }.leave thread (-1)
      | (some msg, h) => { v with handler := h }.jump thread (.sending msg))
    | _ => none
  | .send thread ok => match v.pc thread with
    | .sending msg =>
      some (if ok then v.leave thread msg.jobId else v.jump thread (.unsent msg.jobId))
    | _ => none
  | .rollBack thread => match v.pc thread with
    | .unsent jobId => some ({ v with handler := assignRollBack v.handler jobId }.leave thread (-1))
    | _ => none
  | .complete thread jobId resultData resultSize mem now => match v.pc thread with
    | .outside =>
      let r := jobHandlerComplete v.handler jobId resultData resultSize mem.isSome now
      some (if r.ret = 0 then { v with handler := r.handler }.jump thread .notifying
        else v.reply thread r)
    | _ => none
  | .logged thread => match v.pc thread with
    | .notifying => some (v.leave thread 0)
    | _ => none
  | .fail thread jobId errorCode now => match v.pc thread with
    | .outside => some (v.reply thread (jobHandlerFail c v.handler jobId errorCode now))
    | _ => none
  | .checkTimeouts thread now => match v.pc thread with
    | .outside => some (v.reply thread (jobHandlerCheckTimeouts c v.handler now))
    | _ => none
  | .getStatus thread jobId => match v.pc thread with
    | .outside => some (v.leave thread (jobHandlerGetStatus v.handler jobId))
    | _ => none
  | .getResult thread jobId mem => match v.pc thread with
    | .outside => some (match jobHandlerGetResult v.handler jobId true mem.isSome with
      | (ret, none) => v.leave thread ret
      | (_, some (data, size)) => v.jump thread (.fetched data size))
    | _ => none
  | .release thread => match v.pc thread with
    | .fetched _ _ => some (v.leave thread 0)
    | _ => none
  | .cleanup => some { v with
      handler := { v.handler with jobs := [] }
      pc := fun thread => (v.pc thread).dangle }

end Values

def Cell.load (m : Memory (List UInt8)) (cell : Cell) : Job :=
  ⟨cell.jobId, cell.clientSocket, cell.workerSocket, cell.jobType, m.contents cell.inputData,
    cell.inputSize, m.contents cell.resultData, cell.resultSize, cell.status, cell.submitTime,
    cell.startTime, cell.endTime, cell.retryCount⟩

/-- `live` says that the table, and so what messages point at, is still there. -/
def Point.load (live : Bool) (m : Memory (List UInt8)) : Point → Held
  | .outside => .outside
  | .sending jobId jobType data dataSize =>
    .sending ⟨jobId, jobType, if live then m.contents data else none, dataSize⟩
  | .unsent jobId => .unsent jobId
  | .notifying => .notifying
  | .fetched data size => .fetched (m.contents data) size

def State.handler (s : State τ) : Handler :=
  ⟨s.cells.map (Cell.load s.memory), s.jobTimeoutSeconds, s.nextJobId, s.stats⟩

def State.view (s : State τ) : Values τ :=
  ⟨s.handler, fun thread => (s.pc thread).load s.gJobs.isSome s.memory, s.ret⟩

variable {s s' : State τ} {m : Memory (List UInt8)} {thread : τ} {i : ℕ} {cell : Cell}

/-! ### The searches and the sweep on bytes -/

theorem position_load (m : Memory (List UInt8)) (k : ℤ) (cells : List Cell) :
    position Job.jobId k (cells.map (Cell.load m)) = position Cell.jobId k cells := by
  rw [position, List.findIdx?_map]
  rfl

theorem find_load (s : State τ) (jobId : ℤ) :
    findJobById s.handler jobId = (s.find jobId).map fun r => (r.1, r.2.load s.memory) := by
  unfold findJobById State.find
  have hnext : s.handler.nextJobId = s.nextJobId := rfl
  rw [hnext]
  split
  · rfl
  · rw [State.handler, position_load]
    cases position Cell.jobId jobId s.cells with
    | none => rfl
    | some i =>
      rw [Option.bind_some, Option.bind_some, List.getElem?_map]
      cases s.cells[i]? <;> rfl

theorem earlier_load (m : Memory (List UInt8)) (cell : Cell) (oldest : Option (ℕ × Cell)) :
    olderThan (cell.load m) (oldest.map fun r => (r.1, r.2.load m)) = earlier cell oldest := by
  cases oldest <;> rfl

theorem oldest_load (m : Memory (List UInt8)) (start : ℕ) (oldest : Option (ℕ × Cell))
    (cells : List Cell) :
    oldestPending start (oldest.map fun r => (r.1, r.2.load m)) (cells.map (Cell.load m)) =
      (oldestCell start oldest cells).map fun r => (r.1, r.2.load m) := by
  induction cells generalizing start oldest with
  | nil => rfl
  | cons cell rest ih =>
    rw [List.map_cons, oldestPending, oldestCell, earlier_load]
    have hid : (cell.load m).jobId = cell.jobId := rfl
    have hstatus : (cell.load m).status = cell.status := rfl
    rw [hid, hstatus]
    split
    · exact ih (start + 1) (some (start, cell))
    · exact ih (start + 1) oldest

section Retry
variable (c : Constants)

theorem charge_load (m : Memory (List UInt8)) (cell : Cell) (final : JobStatus) (now : ℤ) :
    (cell.charge c final now).load m = (cell.load m).charge c final now := by
  unfold Cell.charge Job.charge
  have hcount : (cell.load m).retryCount = cell.retryCount := rfl
  rw [hcount]
  split <;> rfl

theorem chargeStats_load (m : Memory (List UInt8)) (cell : Cell) (st : Stats) :
    st.charge c (cell.load m) = cell.chargeStats c st := rfl

theorem sweep_load (m : Memory (List UInt8)) (timeoutSeconds now : ℤ) (st : Stats)
    (cells : List Cell) :
    let r := sweepFrom c timeoutSeconds now st (cells.map (Cell.load m))
    let r' := sweepCells c timeoutSeconds now st cells
    r.jobs = r'.1.map (Cell.load m) ∧ r.stats = r'.2.1 ∧ r.timedOut.length = r'.2.2 := by
  induction cells generalizing st with
  | nil => exact ⟨rfl, rfl, rfl⟩
  | cons cell rest ih =>
    have hsame : due timeoutSeconds now (cell.load m) = dueCell timeoutSeconds now cell := rfl
    rw [List.map_cons, sweepFrom, sweepCells, hsame]
    by_cases hdue : dueCell timeoutSeconds now cell = true
    · obtain ⟨hjobs, hstats, hcount⟩ := ih (cell.chargeStats c st)
      rw [if_pos hdue, if_pos hdue, chargeStats_load]
      refine ⟨?_, hstats, congrArg Nat.succ hcount⟩
      rw [List.map_cons, charge_load]
      exact congrArg (List.cons _) hjobs
    · obtain ⟨hjobs, hstats, hcount⟩ := ih st
      rw [if_neg hdue, if_neg hdue]
      exact ⟨congrArg (List.cons _) hjobs, hstats, hcount⟩

end Retry

/-! ### Every section is that of the values -/

theorem view_eq {h : Handler} {pc : τ → Held} {ret : τ → ℤ}
    (hcells : s.cells.map (Cell.load s.memory) = h.jobs)
    (htimeout : s.jobTimeoutSeconds = h.jobTimeoutSeconds) (hnext : s.nextJobId = h.nextJobId)
    (hstats : s.stats = h.stats)
    (hpc : ∀ thread, (s.pc thread).load s.gJobs.isSome s.memory = pc thread)
    (hret : s.ret = ret) : s.view = ⟨h, pc, ret⟩ := by
  have hhandler : s.handler = h := by
    rw [State.handler, hcells, htimeout, hnext, hstats]
  rw [State.view, hhandler, funext hpc, hret]

theorem put_handler (s : State τ) (i : ℕ) (cell : Cell) (st : Stats) :
    (s.put i cell st).handler = s.handler.put i (cell.load s.memory) st := by
  show Handler.mk ((s.put i cell st).cells.map (Cell.load s.memory)) _ _ _ = _
  rw [put_cells, List.map_set]
  rfl

theorem put_isSome (s : State τ) (i : ℕ) (cell : Cell) (st : Stats) :
    (s.put i cell st).gJobs.isSome = s.gJobs.isSome := Option.isSome_map

theorem put_view (s : State τ) (i : ℕ) (cell : Cell) (st : Stats) :
    (s.put i cell st).view =
      { s.view with handler := s.handler.put i (cell.load s.memory) st } := by
  rw [State.view, put_handler, put_isSome]
  rfl

theorem load_keeps (h : Inv s) {t : τ}
    (hinput : ∀ i p, s.pointer (.input i) = some p → m.heap p = s.memory.heap p)
    (hcopy : m.contents (s.pointer (.copy t)) = s.memory.contents (s.pointer (.copy t))) :
    (s.pc t).load s.gJobs.isSome m = (s.pc t).load s.gJobs.isSome s.memory := by
  cases hpc : s.pc t with
  | outside => rfl
  | sending jobId jobType data dataSize =>
    cases hnull : s.gJobs with
    | none => rfl
    | some cells =>
      have hsame : m.contents data = s.memory.contents data := by
        cases hdata : data with
        | none => rfl
        | some p =>
          obtain ⟨i, hi⟩ := h.lent (by simp [hnull]) t p (by rw [hpc]; exact hdata)
          exact hinput i p hi
      rw [Point.load, Point.load, hsame]
  | unsent jobId => rfl
  | notifying => rfl
  | fetched data size =>
    have hdata : s.pointer (.copy t) = data := by
      show (s.pc t).copy = data
      rw [hpc]
      rfl
    rw [hdata] at hcopy
    rw [Point.load, Point.load, hcopy]

theorem cell_keeps (hi : s.cells[i]? = some cell)
    (hinput : m.contents (s.pointer (.input i)) = s.memory.contents (s.pointer (.input i)))
    (hresult : m.contents (s.pointer (.result i)) = s.memory.contents (s.pointer (.result i))) :
    cell.load m = cell.load s.memory := by
  have hin : s.pointer (.input i) = cell.inputData := by rw [State.pointer, hi]; rfl
  have hout : s.pointer (.result i) = cell.resultData := by rw [State.pointer, hi]; rfl
  rw [hin] at hinput
  rw [hout] at hresult
  rw [Cell.load, Cell.load, hinput, hresult]

/-- Slot `i` is written with a new block of its own: nothing else looks different. -/
theorem write_view (h : Inv s) {o : Owner τ} {new : Option ℕ} {b : List UInt8}
    (hfresh : s.memory.Fresh new) (hmem : m = s.memory.exchange b new (s.pointer o))
    (ho : o = .input i ∧ s.pointer (.input i) = none ∨ o = .result i) (cell : Cell) (st : Stats)
    (n : ℤ) :
    State.view { s.put i cell st with memory := m, nextJobId := n } =
      { s.view with handler := { s.handler.put i (cell.load m) st with nextJobId := n } } := by
  have hkeep : ∀ o', o' ≠ o → m.contents (s.pointer o') = s.memory.contents (s.pointer o') := by
    intro o' ho'
    rw [hmem]
    exact h.owned.exchange_contents hfresh ho'
  refine view_eq ?_ rfl rfl rfl (fun t => ?_) rfl
  · show (s.put i cell st).cells.map (Cell.load m) =
      (s.cells.map (Cell.load s.memory)).set i (cell.load m)
    rw [put_cells, List.map_set]
    apply List.ext_getElem?
    intro j
    rw [List.getElem?_set, List.getElem?_set, List.length_map, List.length_map]
    split
    · rfl
    · rename_i hj
      rw [List.getElem?_map, List.getElem?_map]
      cases hold : s.cells[j]? with
      | none => rfl
      | some old =>
        have hne : Owner.input j ≠ o ∧ Owner.result j ≠ o := by
          rcases ho with ⟨rfl, _⟩ | rfl <;> simp [Ne.symm hj]
        exact congrArg some (cell_keeps hold (hkeep _ hne.1) (hkeep _ hne.2))
  · show (s.pc t).load (s.put i cell st).gJobs.isSome m = _
    rw [put_isSome]
    refine load_keeps h ?_ (hkeep _ (by rcases ho with ⟨rfl, _⟩ | rfl <;> nofun))
    intro j p hp
    have hne : Owner.input j ≠ o := by
      rintro rfl
      rcases ho with ⟨heq, hnone⟩ | heq
      · rw [heq, hnone] at hp
        cases hp
      · cases heq
    have hsame := hkeep _ hne
    rw [hp] at hsame
    exact hsame

theorem view_pc {q : Point} (hpc : s.pc thread = q) :
    s.view.pc thread = q.load s.gJobs.isSome s.memory := by
  rw [← hpc]
  rfl

theorem refine_cleanup (h : Inv s) :
    s.cleaned.view = { s.view with
      handler := { s.handler with jobs := [] }
      pc := fun t => (s.view.pc t).dangle } := by
  refine view_eq rfl rfl rfl rfl (fun t => ?_) rfl
  show (s.pc t).load false (s.memory.freeAll s.data) =
    ((s.pc t).load s.gJobs.isSome s.memory).dangle
  cases hpc : s.pc t with
  | outside => rfl
  | sending jobId jobType data dataSize => rfl
  | unsent jobId => rfl
  | notifying => rfl
  | fetched data size =>
    cases data with
    | none => rfl
    | some p =>
      -- the clean-up frees what slots own, and this block is owned by the thread
      have hcopy : s.pointer (.copy t) = some p := by
        rw [State.pointer, hpc]
        rfl
      have hnot : some p ∉ s.data := by
        rw [← slotOwners_data]
        intro hin
        obtain ⟨o, ho, hp⟩ := List.mem_map.mp hin
        obtain ⟨i, _, rfl | rfl⟩ := mem_slotOwners.mp ho
        · cases h.owned.unique hcopy hp
        · cases h.owned.unique hcopy hp
      have hsame : (s.memory.freeAll s.data).contents (some p) = s.memory.contents (some p) := by
        show (s.memory.freeAll s.data).heap p = _
        rw [freeAll_heap, if_neg hnot]
        rfl
      rw [Point.load, Point.load, hsame]
      rfl

/-! ### The start, and what is left after a clean-up -/

theorem allocated_inv (maxJobs : ℕ) (jobTimeoutSeconds : ℤ) :
    Inv (allocated τ maxJobs jobTimeoutSeconds) := by
  have hcell : ∀ {i : ℕ} {cell : Cell}, (List.replicate maxJobs freeCell)[i]? = some cell →
      cell = freeCell := by
    intro i cell hi
    rw [List.getElem?_replicate] at hi
    split at hi
    · exact (Option.some.inj hi).symm
    · cases hi
  have hnone : ∀ o, (allocated τ maxJobs jobTimeoutSeconds).pointer o = none := by
    intro o
    cases o with
    | input i =>
      show (List.replicate maxJobs freeCell)[i]?.bind Cell.inputData = none
      cases hi : (List.replicate maxJobs freeCell)[i]? with
      | none => rfl
      | some cell => rw [hcell hi]; rfl
    | result i =>
      show (List.replicate maxJobs freeCell)[i]?.bind Cell.resultData = none
      cases hi : (List.replicate maxJobs freeCell)[i]? with
      | none => rfl
      | some cell => rw [hcell hi]; rfl
    | copy thread => rfl
  refine ⟨⟨?_, ?_, fun hp => absurd rfl hp⟩, rfl, ?_, Int.one_pos, fun _ => nofun, nofun⟩
  · intro o p hp
    rw [hnone] at hp
    cases hp
  · intro o o' p hp
    rw [hnone] at hp
    cases hp
  · intro cell hm _
    rw [List.eq_of_mem_replicate hm]
    exact ⟨rfl, rfl⟩

theorem inv_init {maxJobs jobTimeoutSeconds : ℤ} {alloc : Bool} {s₀ : State τ}
    (hinit : memoryInit τ maxJobs jobTimeoutSeconds alloc = some s₀) :
    Inv s₀ ∧ jobHandlerInit maxJobs jobTimeoutSeconds alloc = (0, s₀.handler) := by
  unfold memoryInit at hinit
  split at hinit
  · cases hinit
  rename_i hvalid
  obtain ⟨hmax, halloc⟩ := not_or.mp hvalid
  cases hinit
  constructor
  · exact allocated_inv _ _
  · rw [jobHandlerInit, if_neg hmax, if_neg halloc]
    show _ = (0, (⟨(List.replicate maxJobs.toNat freeCell).map _, _, _, _⟩ : Handler))
    rw [List.map_replicate]
    rfl

section Refinement
variable [DecidableEq τ]

theorem view_jump (s : State τ) (thread : τ) (q : Point) :
    (s.jump thread q).view = s.view.jump thread (q.load s.gJobs.isSome s.memory) := by
  refine view_eq rfl rfl rfl rfl (fun t => ?_) rfl
  exact Function.apply_update (fun _ p => Point.load s.gJobs.isSome s.memory p) s.pc thread q t

theorem view_leave (s : State τ) (thread : τ) (ret : ℤ) :
    (s.leave thread ret).view = s.view.leave thread ret := by
  refine view_eq rfl rfl rfl rfl (fun t => ?_) rfl
  exact Function.apply_update (fun _ p => Point.load s.gJobs.isSome s.memory p) s.pc thread
    .outside t

/-- A thread gets a copy, or frees the one it has. -/
theorem copy_view (h : Inv s) {new : Option ℕ} {b : List UInt8} (hfresh : s.memory.Fresh new)
    (hmem : m = s.memory.exchange b new (s.pointer (.copy thread))) (q : Point) (ret : τ → ℤ) :
    State.view { State.jump { s with memory := m } thread q with ret := ret } =
      { s.view.jump thread (q.load s.gJobs.isSome m) with ret := ret } := by
  have hkeep : ∀ o, o ≠ .copy thread →
      m.contents (s.pointer o) = s.memory.contents (s.pointer o) := by
    intro o ho
    rw [hmem]
    exact h.owned.exchange_contents hfresh ho
  refine view_eq ?_ rfl rfl rfl (fun t => ?_) rfl
  · apply List.map_congr_left
    intro cell hcell
    obtain ⟨i, hi⟩ := List.mem_iff_getElem?.mp hcell
    exact cell_keeps hi (hkeep _ nofun) (hkeep _ nofun)
  · show (State.pc (State.jump s thread q) t).load s.gJobs.isSome m =
      Function.update s.view.pc thread (q.load s.gJobs.isSome m) t
    rw [jump_pc, Function.update_apply]
    split
    · rfl
    · rename_i ht
      refine load_keeps h ?_ (hkeep _ fun heq => ht (Owner.copy.inj heq))
      intro i p hp
      have hsame := hkeep (.input i) nofun
      rw [hp] at hsame
      exact hsame

theorem refine_submit (h : Inv s) (clientSocket jobType : ℤ) (inputData : Option (List UInt8))
    (inputSize : ℕ) {mem : Option ℕ} (hmem : s.memory.Fresh mem) (now : ℤ) :
    (submitSection s thread clientSocket jobType inputData inputSize mem now).view =
      s.view.reply thread
        (jobHandlerSubmit s.handler clientSocket jobType inputData inputSize mem.isSome now) := by
  unfold submitSection jobHandlerSubmit
  by_cases hnull : inputData = none ∧ inputSize > 0
  · rw [if_pos hnull, if_pos hnull]
    exact view_leave s thread (-1)
  have hfree : findFreeJobSlot s.handler = position Cell.jobId 0 s.cells := position_load _ _ _
  rw [if_neg hnull, if_neg hnull, hfree]
  cases hslot : position Cell.jobId 0 s.cells with
  | none => exact view_leave s thread (-1)
  | some slot =>
    cases hdup : duplicate s.memory (inputData.getD []) inputSize mem with
    | none =>
      simp only [if_pos (duplicate_none.mp hdup)]
      exact view_leave s thread (-1)
    | some copied =>
      obtain ⟨data, memory⟩ := copied
      have henough : ¬ (inputSize > 0 ∧ mem.isSome = false) := by
        intro hnone
        have hfail : duplicate s.memory (inputData.getD []) inputSize mem = none :=
          duplicate_none.mpr hnone
        rw [hdup] at hfail
        cases hfail
      obtain ⟨hmemory, hfresh, hbytes⟩ := duplicate_some hdup
      obtain ⟨⟨old, hold, hid⟩, _⟩ := position_eq_some.mp hslot
      obtain ⟨hnone, _⟩ := h.unused old (List.mem_of_getElem? hold) hid
      have hpointer : s.pointer (.input slot) = none := by rw [State.pointer, hold]; exact hnone
      simp only [if_neg henough]
      have hnew : (newCell s.nextJobId clientSocket jobType data inputSize now).load memory =
          newJob s.nextJobId clientSocket jobType inputData inputSize now := by
        rw [Cell.load, newCell, hbytes]
        rfl
      have hmem' : memory = s.memory.exchange ((inputData.getD []).take inputSize) data
          (s.pointer (.input slot)) := by
        rw [hpointer]
        exact hmemory
      rw [view_leave, write_view h (hfresh hmem) hmem' (.inl ⟨rfl, hpointer⟩), hnew]
      rfl

theorem refine_select (s : State τ) (thread : τ) (workerSocket now : ℤ) :
    (selectSection s thread workerSocket now).view =
      match assignSelect s.handler workerSocket now with
      | (none, h) => { s.view with handler := h }.leave thread (-1)
      | (some msg, h) => { s.view with handler := h }.jump thread (.sending msg) := by
  have hload : oldestPending 0 none s.handler.jobs =
      (oldestCell 0 none s.cells).map fun r => (r.1, r.2.load s.memory) :=
    oldest_load s.memory 0 none s.cells
  unfold selectSection assignSelect
  rw [hload]
  cases hold : oldestCell 0 none s.cells with
  | none => exact view_leave s thread (-1)
  | some found =>
    obtain ⟨i, cell⟩ := found
    obtain ⟨_, hi, _⟩ := (oldestCell_some hold).resolve_left nofun
    have hlive : s.gJobs.isSome = true := Option.isSome_iff_ne_none.mpr (live_of_cell hi)
    simp only [Option.map_some]
    rw [view_jump, put_view, put_isSome, hlive]
    rfl

theorem refine_rollBack (s : State τ) (thread : τ) (jobId : ℤ) :
    (rollBackSection s thread jobId).view =
      { s.view with handler := assignRollBack s.handler jobId }.leave thread (-1) := by
  unfold rollBackSection assignRollBack
  rw [find_load]
  cases s.find jobId with
  | none => exact view_leave s thread (-1)
  | some found =>
    obtain ⟨i, cell⟩ := found
    simp only [Option.map_some]
    rw [view_leave, put_view]
    rfl

theorem refine_complete (h : Inv s) (jobId : ℤ) (resultData : Option (List UInt8))
    (resultSize : ℕ) {mem : Option ℕ} (hmem : s.memory.Fresh mem) (now : ℤ) :
    (completeSection s thread jobId resultData resultSize mem now).view =
      let r := jobHandlerComplete s.handler jobId resultData resultSize mem.isSome now
      if r.ret = 0 then { s.view with handler := r.handler }.jump thread .notifying
      else s.view.reply thread r := by
  unfold completeSection jobHandlerComplete
  by_cases hnull : resultData = none ∧ resultSize > 0
  · rw [if_pos hnull, if_pos hnull]
    exact view_leave s thread (-1)
  rw [if_neg hnull, if_neg hnull, find_load]
  cases hfind : s.find jobId with
  | none => exact view_leave s thread (-1)
  | some found =>
    obtain ⟨i, cell⟩ := found
    have hstatus : (cell.load s.memory).status = cell.status := rfl
    simp only [Option.map_some, hstatus]
    by_cases hassigned : cell.status ≠ .assigned
    · rw [if_pos hassigned, if_pos hassigned]
      exact view_leave s thread (-1)
    rw [if_neg hassigned, if_neg hassigned]
    cases hdup : duplicate s.memory (resultData.getD []) resultSize mem with
    | none =>
      rw [if_pos (duplicate_none.mp hdup)]
      exact view_leave s thread (-1)
    | some copied =>
      obtain ⟨data, memory⟩ := copied
      have henough : ¬ (resultSize > 0 ∧ mem.isSome = false) := by
        intro hnone
        have hfail : duplicate s.memory (resultData.getD []) resultSize mem = none :=
          duplicate_none.mpr hnone
        rw [hdup] at hfail
        cases hfail
      obtain ⟨hmemory, hfresh, hbytes⟩ := duplicate_some hdup
      have hresult : s.pointer (.result i) = cell.resultData := by
        rw [State.pointer, (find_some hfind).1]
        rfl
      have hinput : s.pointer (.input i) = cell.inputData := by
        rw [State.pointer, (find_some hfind).1]
        rfl
      have hmem' : memory.free cell.resultData =
          s.memory.exchange ((resultData.getD []).take resultSize) data
            (s.pointer (.result i)) := by
        rw [hresult, Memory.exchange, ← hmemory]
      have hkept : (memory.free cell.resultData).contents cell.inputData =
          s.memory.contents cell.inputData := by
        rw [hmem', ← hinput]
        exact h.owned.exchange_contents (hfresh hmem) (fun heq => by cases heq)
      have hnew : (memory.free cell.resultData).contents data = copyData resultData resultSize := by
        refine Eq.trans ?_ hbytes
        cases hdata : data with
        | none => rfl
        | some p =>
          have hne : cell.resultData ≠ some p := fun heq =>
            Fresh.ne h.owned (hfresh hmem) (hresult.trans heq) hdata
          exact free_of_ne hne
      have hload : (cell.finish data resultSize now).load (memory.free cell.resultData) =
          (cell.load s.memory).finish resultData resultSize now := by
        rw [Cell.load, Cell.finish, hkept, hnew]
        rfl
      simp only [if_neg henough, if_true]
      rw [view_jump]
      refine congrArg (Values.jump · thread .notifying) ?_
      refine (write_view h (hfresh hmem) hmem' (.inr rfl) _ _ s.nextJobId).trans ?_
      rw [hload]
      rfl

theorem refine_fail (c : Constants) (s : State τ) (thread : τ) (jobId errorCode now : ℤ) :
    (failSection c s thread jobId now).view =
      s.view.reply thread (jobHandlerFail c s.handler jobId errorCode now) := by
  unfold failSection jobHandlerFail
  rw [find_load]
  cases s.find jobId with
  | none => exact view_leave s thread (-1)
  | some found =>
    obtain ⟨i, cell⟩ := found
    have hstatus : (cell.load s.memory).status = cell.status := rfl
    simp only [Option.map_some, hstatus]
    by_cases hassigned : cell.status ≠ .assigned
    · rw [if_pos hassigned, if_pos hassigned]
      exact view_leave s thread (-1)
    · rw [if_neg hassigned, if_neg hassigned, view_leave, put_view, charge_load]
      rfl

theorem refine_checkTimeouts (c : Constants) (s : State τ) (thread : τ) (now : ℤ) :
    (checkTimeoutsSection c s thread now).view =
      s.view.reply thread (jobHandlerCheckTimeouts c s.handler now) := by
  obtain ⟨hjobs, hstats, hcount⟩ :=
    sweep_load c s.memory s.jobTimeoutSeconds now s.stats s.cells
  have hcells : State.cells { s with
      gJobs := s.gJobs.map fun _ => (sweepCells c s.jobTimeoutSeconds now s.stats s.cells).1
      stats := (sweepCells c s.jobTimeoutSeconds now s.stats s.cells).2.1 } =
        (sweepCells c s.jobTimeoutSeconds now s.stats s.cells).1 := by
    cases hnull : s.gJobs with
    | none => simp [State.cells, hnull, sweepCells]
    | some cells => rfl
  unfold checkTimeoutsSection jobHandlerCheckTimeouts
  rw [view_leave, Values.reply, sweep, State.handler, hcount]
  refine congrArg (Values.leave · thread _) (view_eq ?_ rfl rfl hstats.symm (fun t => ?_) rfl)
  · rw [hcells]
    exact hjobs.symm
  · show (s.pc t).load (s.gJobs.map fun _ => _).isSome s.memory = _
    rw [Option.isSome_map]
    rfl

theorem refine_getStatus (s : State τ) (thread : τ) (jobId : ℤ) :
    (getStatusSection s thread jobId).view =
      s.view.leave thread (jobHandlerGetStatus s.handler jobId) := by
  unfold getStatusSection jobHandlerGetStatus
  rw [find_load]
  cases s.find jobId with
  | none => exact view_leave s thread (-1)
  | some found => exact view_leave s thread _

theorem refine_getResult (h : Inv s) (jobId : ℤ) {mem : Option ℕ} (hmem : s.memory.Fresh mem)
    (hpc : s.pc thread = .outside) :
    (getResultSection s thread jobId mem).view =
      match jobHandlerGetResult s.handler jobId true mem.isSome with
      | (ret, none) => s.view.leave thread ret
      | (_, some (data, size)) => s.view.jump thread (.fetched data size) := by
  unfold getResultSection jobHandlerGetResult
  rw [if_neg nofun, find_load]
  cases hfind : s.find jobId with
  | none => exact view_leave s thread (-1)
  | some found =>
    obtain ⟨i, cell⟩ := found
    have hstatus : (cell.load s.memory).status = cell.status := rfl
    have hsize : (cell.load s.memory).resultSize = cell.resultSize := rfl
    have hdata : (cell.load s.memory).resultData = s.memory.contents cell.resultData := rfl
    simp only [Option.map_some, hstatus, hsize, hdata, read_result h hfind]
    by_cases hdone : cell.status ≠ .completed
    · rw [if_pos hdone, if_pos hdone]
      exact view_leave s thread (-1)
    rw [if_neg hdone, if_neg hdone]
    cases hdup : duplicate s.memory ((s.memory.contents cell.resultData).getD []) cell.resultSize
      mem with
    | none =>
      rw [if_pos (duplicate_none.mp hdup)]
      exact view_leave s thread (-1)
    | some copied =>
      obtain ⟨data, memory⟩ := copied
      have henough : ¬ (cell.resultSize > 0 ∧ mem.isSome = false) := by
        intro hnone
        have hfail : duplicate s.memory ((s.memory.contents cell.resultData).getD [])
            cell.resultSize mem = none := duplicate_none.mpr hnone
        rw [hdup] at hfail
        cases hfail
      obtain ⟨hmemory, hfresh, hbytes⟩ := duplicate_some hdup
      have hnone : s.pointer (.copy thread) = none := by
        rw [State.pointer, hpc]
        rfl
      have hmem' : memory = s.memory.exchange
          (((s.memory.contents cell.resultData).getD []).take cell.resultSize) data
            (s.pointer (.copy thread)) := by
        rw [hnone]
        exact hmemory
      have hcopied : (Point.fetched data cell.resultSize).load s.gJobs.isSome memory =
          .fetched (copyData (s.memory.contents cell.resultData) cell.resultSize)
            cell.resultSize := by
        rw [Point.load, hbytes]
        rfl
      rw [if_neg henough]
      refine (copy_view h (hfresh hmem) hmem' _ s.ret).trans ?_
      rw [hcopied]
      rfl

theorem refine_release (h : Inv s) {data : Option ℕ} {size : ℕ}
    (hpc : s.pc thread = .fetched data size) :
    (releaseSection s thread data).view = s.view.leave thread 0 := by
  have hmem : s.memory.free data = s.memory.exchange [] none (s.pointer (.copy thread)) := by
    rw [State.pointer, hpc]
    rfl
  exact @copy_view _ s _ thread _ h none [] (fun _ hnone => by cases hnone) hmem .outside _

variable (c : Constants)

/-- One section keeps the invariant, and is the same section on bytes. -/
theorem step_refines (h : Inv s) {a : Action τ} (ha : Orderly s a) (hstep : step c s a = some s') :
    Inv s' ∧ valueStep c s.view a = some s'.view := by
  cases a with
  | submit thread clientSocket jobType inputData inputSize mem now =>
    have hmem : s.memory.Fresh mem := ha.1
    simp only [step] at hstep
    split at hstep
    · rename_i hpc
      cases hstep
      refine ⟨inv_submit h hpc _ _ _ _ hmem _, ?_⟩
      rw [refine_submit h _ _ _ _ hmem, valueStep, view_pc hpc]
      rfl
    · cases hstep
  | select thread workerSocket now =>
    simp only [step] at hstep
    split at hstep
    · rename_i hpc
      cases hstep
      refine ⟨inv_select h hpc _ _, ?_⟩
      rw [refine_select, valueStep, view_pc hpc]
      rfl
    · cases hstep
  | send thread ok =>
    simp only [step] at hstep
    split at hstep
    · rename_i jobId jobType data dataSize hpc
      cases hstep
      refine ⟨inv_send h hpc ok, ?_⟩
      rw [valueStep, view_pc hpc, sendSection]
      cases ok with
      | true => exact congrArg some (view_leave _ thread jobId).symm
      | false => exact congrArg some (view_jump _ thread (.unsent jobId)).symm
    · cases hstep
  | rollBack thread =>
    simp only [step] at hstep
    split at hstep
    · rename_i jobId hpc
      cases hstep
      refine ⟨inv_rollBack h hpc, ?_⟩
      rw [refine_rollBack, valueStep, view_pc hpc]
      rfl
    · cases hstep
  | complete thread jobId resultData resultSize mem now =>
    have hmem : s.memory.Fresh mem := ha.1
    simp only [step] at hstep
    split at hstep
    · rename_i hpc
      cases hstep
      refine ⟨inv_complete h hpc _ _ _ hmem _, ?_⟩
      rw [refine_complete h _ _ _ hmem, valueStep, view_pc hpc]
      rfl
    · cases hstep
  | logged thread =>
    simp only [step] at hstep
    split at hstep
    · rename_i hpc
      cases hstep
      refine ⟨inv_logged h hpc, ?_⟩
      rw [valueStep, view_pc hpc, loggedSection, view_leave]
      rfl
    · cases hstep
  | fail thread jobId errorCode now =>
    simp only [step] at hstep
    split at hstep
    · rename_i hpc
      cases hstep
      refine ⟨inv_fail c h hpc _ _, ?_⟩
      rw [refine_fail c s thread jobId errorCode, valueStep, view_pc hpc]
      rfl
    · cases hstep
  | checkTimeouts thread now =>
    simp only [step] at hstep
    split at hstep
    · rename_i hpc
      cases hstep
      refine ⟨inv_checkTimeouts c h hpc _, ?_⟩
      rw [refine_checkTimeouts, valueStep, view_pc hpc]
      rfl
    · cases hstep
  | getStatus thread jobId =>
    simp only [step] at hstep
    split at hstep
    · rename_i hpc
      cases hstep
      refine ⟨inv_getStatus h hpc _, ?_⟩
      rw [refine_getStatus, valueStep, view_pc hpc]
      rfl
    · cases hstep
  | getResult thread jobId mem =>
    have hmem : s.memory.Fresh mem := ha.1
    simp only [step] at hstep
    split at hstep
    · rename_i hpc
      cases hstep
      refine ⟨inv_getResult h hpc _ hmem, ?_⟩
      rw [refine_getResult h _ hmem hpc, valueStep, view_pc hpc]
      rfl
    · cases hstep
  | release thread =>
    simp only [step] at hstep
    split at hstep
    · rename_i data size hpc
      cases hstep
      refine ⟨inv_release h hpc, ?_⟩
      rw [refine_release h hpc, valueStep, view_pc hpc]
      rfl
    · cases hstep
  | cleanup =>
    have hquiet := ha.2 rfl
    cases hstep
    exact ⟨inv_cleanup h hquiet, congrArg some (refine_cleanup h).symm⟩

theorem step_null {a : Action τ} (hnull : s.gJobs = none) (hstep : step c s a = some s') :
    s'.gJobs = none := by
  cases a with
  | cleanup =>
    cases hstep
    rfl
  | _ =>
    simp only [step] at hstep
    split at hstep
    · cases hstep
      simp only [submitSection, selectSection, sendSection, rollBackSection, completeSection,
        loggedSection, failSection, checkTimeoutsSection, getStatusSection, getResultSection,
        releaseSection, State.leave, State.jump, State.put, hnull, Option.map_none]
      try (repeat' split) <;> simp
    · cases hstep

/-! ### Whole runs -/

/-- As long as a clean-up waits until no thread is about to log a completion, no memory is
used that is not allocated, every block has one owner and goes with it, and the threads
return and send what the handler of bytes would. -/
theorem memory_refines {maxJobs jobTimeoutSeconds : ℤ} {alloc : Bool} {s₀ : State τ}
    (hinit : memoryInit τ maxJobs jobTimeoutSeconds alloc = some s₀)
    (h : Reach (step c) Orderly s₀ s) :
    s.memory.torn = false ∧ Owned s.memory s.pointer ∧
      (s.gJobs = none → (∀ thread, s.pc thread = .outside) → ∀ p, s.memory.heap p = none) ∧
      jobHandlerInit maxJobs jobTimeoutSeconds alloc = (0, s₀.handler) ∧
      Reach (valueStep c) (fun _ _ => True) s₀.view s.view := by
  obtain ⟨hstart, hhandler⟩ := inv_init hinit
  have hrun : Inv s ∧ Reach (valueStep c) (fun _ _ => True) s₀.view s.view := by
    refine h.invariant (I := fun s => Inv s ∧ Reach (valueStep c) (fun _ _ => True) s₀.view s.view)
      ⟨hstart, .start⟩ ?_
    rintro s a s' ⟨hs, hreach⟩ ha hstep
    obtain ⟨hs', hvalue⟩ := step_refines c hs ha hstep
    exact ⟨hs', hreach.next a trivial hvalue⟩
  obtain ⟨hs, hreach⟩ := hrun
  refine ⟨hs.sound, hs.owned, ?_, hhandler, hreach⟩
  intro hnull hout p
  by_contra hp
  obtain ⟨o, ho⟩ := hs.owned.reached hp
  have hcells : s.cells = [] := by rw [State.cells, hnull]; rfl
  cases o with
  | input i =>
    rw [State.pointer, hcells] at ho
    cases ho
  | result i =>
    rw [State.pointer, hcells] at ho
    cases ho
  | copy thread =>
    rw [State.pointer, hout thread] at ho
    cases ho

/-- The last log line of `job_handler_complete`, after a clean-up. -/
theorem logged_tears (s : State τ) {thread : τ} (hpc : s.pc thread = .notifying) :
    ∃ u, step c s.cleaned (.logged thread) = some u ∧ u.memory.torn = true := by
  have hsame : s.cleaned.pc thread = .notifying := hpc
  refine ⟨loggedSection s.cleaned thread, ?_, Bool.or_true _⟩
  rw [step, hsame]

/-- A clean-up is safe, whatever the threads do afterwards, exactly when none of them is
about to log a completion. -/
theorem cleanup_safe_iff {maxJobs jobTimeoutSeconds : ℤ} {alloc : Bool} {s₀ : State τ}
    (hinit : memoryInit τ maxJobs jobTimeoutSeconds alloc = some s₀)
    (h : Reach (step c) Orderly s₀ s) :
    (∀ u, Reach (step c) Allocates s.cleaned u → u.memory.torn = false) ↔
      ∀ thread, s.pc thread ≠ .notifying := by
  have hs : Inv s := h.invariant (inv_init hinit).1 fun _ _ _ hs ha hstep =>
    (step_refines c hs ha hstep).1
  constructor
  · intro hsafe thread hpc
    obtain ⟨u, hstep, htorn⟩ := logged_tears c s hpc
    have hsound := hsafe u (.next _ .start (fun _ hmem => (by cases hmem)) hstep)
    rw [htorn] at hsound
    cases hsound
  · intro hquiet u hu
    have hinv : Inv u ∧ u.gJobs = none := by
      refine hu.invariant (I := fun u => Inv u ∧ u.gJobs = none) ⟨inv_cleanup hs hquiet, rfl⟩ ?_
      rintro v a v' ⟨hv, hnull⟩ ha hstep
      have horderly : Orderly v a := ⟨ha, fun _ => hv.closed hnull⟩
      exact ⟨(step_refines c hv horderly hstep).1, step_null c hnull hstep⟩
    exact hinv.1.sound

end Refinement

/-! ### One job, while it is being sent and when it is completed -/

def submitted : State Bool :=
  (step threeRetries (allocated Bool 2 60)
    (.submit false 7 4 (some [5, 6]) 2 (some 9) 100)).get rfl

def sendingOne : State Bool := (step threeRetries submitted (.select true 8 200)).get rfl

theorem sendingOne_reached :
    Reach (step threeRetries) Orderly (allocated Bool 2 60) sendingOne := by
  have hsubmitted : Reach (step threeRetries) Orderly (allocated Bool 2 60) submitted :=
    .next (.submit false 7 4 (some [5, 6]) 2 (some 9) 100) .start ⟨fun _ _ => rfl, nofun⟩ rfl
  exact hsubmitted.next (.select true 8 200) ⟨nofun, nofun⟩ rfl

/-- The table is cleaned up while the job is being sent. -/
theorem memory_refines_oneJob : ∃ s : State Bool, s.gJobs = none ∧ s.memory.torn = false ∧
    ∀ p, s.memory.heap p = none := by
  have hquiet : ∀ thread, sendingOne.pc thread ≠ .notifying := by decide
  have hcleaned := sendingOne_reached.next .cleanup ⟨nofun, fun _ => hquiet⟩ rfl
  have hsent := hcleaned.next (.send true true) ⟨nofun, nofun⟩ rfl
  have hstart : memoryInit Bool 2 60 true = some (allocated Bool 2 60) := rfl
  obtain ⟨hsound, _, hempty, _⟩ := memory_refines threeRetries hstart hsent
  exact ⟨_, rfl, hsound, hempty rfl fun thread => by cases thread <;> rfl⟩

def notifyingOne : State Bool :=
  ((step threeRetries sendingOne (.send true true)).bind fun s =>
    step threeRetries s (.complete true 1 (some [6, 5]) 2 (some 10) 300)).get rfl

/-- `server_stop` waits neither for a thread that sends the job, which does no harm, nor
for one that has completed it. -/
theorem cleanup_safe_iff_oneJob :
    (∀ u, Reach (step threeRetries) Allocates sendingOne.cleaned u → u.memory.torn = false) ∧
      ∃ u : State Bool, Reach (step threeRetries) Allocates notifyingOne.cleaned u ∧
        u.memory.torn = true := by
  have hstart : memoryInit Bool 2 60 true = some (allocated Bool 2 60) := rfl
  have hquiet : ∀ thread, sendingOne.pc thread ≠ .notifying := by decide
  have hsent := sendingOne_reached.next (.send true true) ⟨nofun, nofun⟩ rfl
  have hcompleted : Reach (step threeRetries) Orderly (allocated Bool 2 60) notifyingOne :=
    hsent.next (.complete true 1 (some [6, 5]) 2 (some 10) 300)
      ⟨fun p hp => by cases hp; rfl, nofun⟩ rfl
  have hunsafe := (cleanup_safe_iff threeRetries hstart hcompleted).not.mpr
    fun hnone => hnone true rfl
  refine ⟨(cleanup_safe_iff threeRetries hstart sendingOne_reached).mpr hquiet, ?_⟩
  by_contra hnone
  exact hunsafe fun u hu => Bool.eq_false_iff.mpr fun htorn => hnone ⟨u, hu, htorn⟩

end CSimples.JobMemory
