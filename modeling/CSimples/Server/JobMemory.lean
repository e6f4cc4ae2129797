import CSimples.Lib.Heap
import CSimples.Lib.Run
import CSimples.Server.JobHandler

/-!
# The memory of the job table (server/job_handler.c:87-445, server.c:513-560)

The functions of the job handler on the addresses that `g_jobs` holds, with the blocks
they allocate and free. Three things are done without `g_job_mutex`: `send_message`
writes a message with the address of an input, which it does not follow, the last line
of `job_handler_complete` reads times out of the table, and the copy of a result is
freed by whoever asked for it. A clean-up may come in between.
-/

namespace CSimples.JobMemory
open Heap JobHandler Keyed Run

/-! ### Slots (job_handler.h:14-35) -/

/-- A `Job` of the table; its data members are addresses. -/
structure Cell where
  jobId : ℤ
  clientSocket : ℤ
  workerSocket : ℤ
  jobType : ℤ
  inputData : Option ℕ
  inputSize : ℕ
  resultData : Option ℕ
  resultSize : ℕ
  status : JobStatus
  submitTime : ℤ
  startTime : ℤ
  endTime : ℤ
  retryCount : ℤ

def freeCell : Cell := ⟨0, 0, 0, 0, none, 0, none, 0, .pending, 0, 0, 0, 0⟩

def newCell (jobId clientSocket jobType : ℤ) (data : Option ℕ) (inputSize : ℕ) (now : ℤ) : Cell :=
  ⟨jobId, clientSocket, -1, jobType, data, inputSize, none, 0, .pending, now, 0, 0, 0⟩

def Cell.handOut (cell : Cell) (workerSocket now : ℤ) : Cell :=
  { cell with workerSocket := workerSocket, status := .assigned, startTime := now }

def Cell.takeBack (cell : Cell) : Cell :=
  { cell with workerSocket := -1, status := .pending, startTime := 0 }

def Cell.finish (cell : Cell) (data : Option ℕ) (resultSize : ℕ) (now : ℤ) : Cell :=
  { cell with resultData := data, resultSize := resultSize, status := .completed, endTime := now }

def earlier (cell : Cell) : Option (ℕ × Cell) → Bool
  | none => true
  | some oldest => decide (cell.submitTime < oldest.2.submitTime)

/-- The loop over the slots from number `i` on, with the oldest job so far. -/
def oldestCell (i : ℕ) (oldest : Option (ℕ × Cell)) : List Cell → Option (ℕ × Cell)
  | [] => oldest
  | cell :: rest =>
    if cell.jobId > 0 ∧ cell.status = .pending ∧ earlier cell oldest = true then
      oldestCell (i + 1) (some (i, cell)) rest
    else oldestCell (i + 1) oldest rest

section Retry
variable (c : Constants)

def Cell.charge (cell : Cell) (final : JobStatus) (now : ℤ) : Cell :=
  if cell.retryCount + 1 < c.maxJobRetries then
    { cell with
      status := .pending
      workerSocket := -1
      startTime := 0
      endTime := 0
      retryCount := cell.retryCount + 1 }
  else { cell with status := final, endTime := now, retryCount := cell.retryCount + 1 }

def Cell.chargeStats (cell : Cell) (st : Stats) : Stats :=
  if cell.retryCount + 1 < c.maxJobRetries then
    { st with running := st.running - 1, pending := st.pending + 1 }
  else { st with running := st.running - 1, failed := st.failed + 1 }

def dueCell (timeoutSeconds now : ℤ) (cell : Cell) : Bool :=
  decide (cell.jobId ≠ 0 ∧ cell.status = .assigned ∧ now - cell.startTime > timeoutSeconds * 1000)

/-- The loop of job_handler.c:453-512, with its `timeout_count`. -/
def sweepCells (timeoutSeconds now : ℤ) (st : Stats) : List Cell → List Cell × Stats × ℕ
  | [] => ([], st, 0)
  | cell :: rest =>
    if dueCell timeoutSeconds now cell = true then
      let r := sweepCells timeoutSeconds now (cell.chargeStats c st) rest
      (cell.charge c .timeout now :: r.1, r.2.1, r.2.2 + 1)
    else
      let r := sweepCells timeoutSeconds now st rest
      (cell :: r.1, r.2)

end Retry

/-! ### Threads and their sections -/

/-- Where a thread is: with the message of `job_handler_assign` on its way, or failed to
be sent; in front of the last log line of `job_handler_complete`; or with the copy of a
result, until the response with it has been sent. -/
inductive Point where
  | outside
  | sending (jobId jobType : ℤ) (data : Option ℕ) (dataSize : ℕ)
  | unsent (jobId : ℤ)
  | notifying
  | fetched (data : Option ℕ) (size : ℕ)
  deriving DecidableEq

/-- `gJobs` is `none` for NULL, and `g_max_jobs` the number of its slots: the two are
written together. `ret` is what the last call of each thread returned. -/
structure State (τ : Type) where
  gJobs : Option (List Cell)
  jobTimeoutSeconds : ℤ
  nextJobId : ℤ
  stats : Stats
  memory : Memory (List UInt8)
  pc : τ → Point
  ret : τ → ℤ

/-- `mem` is what `malloc` answers if the call gets there. -/
inductive Action (τ : Type) where
  | submit (thread : τ) (clientSocket jobType : ℤ) (inputData : Option (List UInt8))
      (inputSize : ℕ) (mem : Option ℕ) (now : ℤ)
  | select (thread : τ) (workerSocket now : ℤ)
  | send (thread : τ) (ok : Bool)
  | rollBack (thread : τ)
  | complete (thread : τ) (jobId : ℤ) (resultData : Option (List UInt8)) (resultSize : ℕ)
      (mem : Option ℕ) (now : ℤ)
  | logged (thread : τ)
  | fail (thread : τ) (jobId errorCode now : ℤ)
  | checkTimeouts (thread : τ) (now : ℤ)
  | getStatus (thread : τ) (jobId : ℤ)
  | getResult (thread : τ) (jobId : ℤ) (mem : Option ℕ)
  | release (thread : τ)
  | cleanup
  deriving DecidableEq

def Action.mem {τ : Type} : Action τ → Option ℕ
  | .submit _ _ _ _ _ mem _ | .complete _ _ _ _ mem _ | .getResult _ _ mem => mem
  | _ => none

variable {τ : Type}

def State.cells (s : State τ) : List Cell := s.gJobs.getD []

def State.find (s : State τ) (jobId : ℤ) : Option (ℕ × Cell) :=
  if jobId ≤ 0 ∨ s.nextJobId ≤ jobId then none
  else (position Cell.jobId jobId s.cells).bind fun i => s.cells[i]?.map fun cell => (i, cell)

def State.put (s : State τ) (i : ℕ) (cell : Cell) (stats : Stats) : State τ :=
  { s with gJobs := s.gJobs.map fun cells => cells.set i cell, stats := stats }

/-- `malloc` and `memcpy` of `size` bytes, where no block is needed for none: the address
and the memory, or `none` when `malloc` fails. -/
def duplicate (m : Memory (List UInt8)) (data : List UInt8) (size : ℕ) (mem : Option ℕ) :
    Option (Option ℕ × Memory (List UInt8)) :=
  if size = 0 then some (none, m) else mem.map fun p => (some p, m.alloc (data.take size) (some p))

def allocated (τ : Type) (maxJobs : ℕ) (jobTimeoutSeconds : ℤ) : State τ :=
  ⟨some (List.replicate maxJobs freeCell), jobTimeoutSeconds, 1, ⟨0, 0, 0, 0⟩,
    ⟨fun _ => none, false⟩, fun _ => .outside, fun _ => 0⟩

/-- `job_handler_init` in a process that has no other block of the handler. -/
def memoryInit (τ : Type) (maxJobs jobTimeoutSeconds : ℤ) (alloc : Bool) : Option (State τ) :=
  if maxJobs ≤ 0 ∨ alloc = false then none
  else some (allocated τ maxJobs.toNat jobTimeoutSeconds)

/-- What `job_handler_cleanup` frees, in its order. -/
def State.data (s : State τ) : List (Option ℕ) :=
  s.cells.flatMap fun cell => [cell.inputData, cell.resultData]

def State.cleaned (s : State τ) : State τ :=
  { s with gJobs := none, memory := s.memory.freeAll s.data }

section Sections
variable [DecidableEq τ]

def State.jump (s : State τ) (thread : τ) (p : Point) : State τ :=
  { s with pc := Function.update s.pc thread p }

def State.leave (s : State τ) (thread : τ) (ret : ℤ) : State τ :=
  { s.jump thread .outside with ret := Function.update s.ret thread ret }

def submitSection (s : State τ) (thread : τ) (clientSocket jobType : ℤ)
    (inputData : Option (List UInt8)) (inputSize : ℕ) (mem : Option ℕ) (now : ℤ) : State τ :=
  if inputData = none ∧ inputSize > 0 then s.leave thread (-1)
  else match position Cell.jobId 0 s.cells with
  | none => s.leave thread (-1)
  | some slot => match duplicate s.memory (inputData.getD []) inputSize mem with
    | none => s.leave thread (-1)
    | some (data, memory) =>
      { s.put slot (newCell s.nextJobId clientSocket jobType data inputSize now)
          { s.stats with pending := s.stats.pending + 1 } with
        memory := memory
        nextJobId := s.nextJobId + 1 }.leave thread s.nextJobId

def selectSection (s : State τ) (thread : τ) (workerSocket now : ℤ) : State τ :=
  match oldestCell 0 none s.cells with
  | none => s.leave thread (-1)
  | some (i, cell) =>
    (s.put i (cell.handOut workerSocket now)
      { s.stats with pending := s.stats.pending - 1, running := s.stats.running + 1 }).jump thread
        (.sending cell.jobId cell.jobType cell.inputData cell.inputSize)

/-- `send_message` copies the struct, with the address in it. -/
def sendSection (s : State τ) (thread : τ) (jobId : ℤ) (ok : Bool) : State τ :=
  if ok then s.leave thread jobId else s.jump thread (.unsent jobId)

def rollBackSection (s : State τ) (thread : τ) (jobId : ℤ) : State τ :=
  match s.find jobId with
  | none => s.leave thread (-1)
  | some (i, cell) => (s.put i cell.takeBack
      { s.stats with pending := s.stats.pending + 1, running := s.stats.running - 1 }).leave
        thread (-1)

def completeSection (s : State τ) (thread : τ) (jobId : ℤ) (resultData : Option (List UInt8))
    (resultSize : ℕ) (mem : Option ℕ) (now : ℤ) : State τ :=
  if resultData = none ∧ resultSize > 0 then s.leave thread (-1)
  else match s.find jobId with
  | none => s.leave thread (-1)
  | some (i, cell) =>
    if cell.status ≠ .assigned then s.leave thread (-1)
    else match duplicate s.memory (resultData.getD []) resultSize mem with
    | none => s.leave thread (-1)
    | some (data, memory) =>
      { s.put i (cell.finish data resultSize now)
          { s.stats with running := s.stats.running - 1, completed := s.stats.completed + 1 } with
        memory := memory.free cell.resultData }.jump thread .notifying

/-- `job->end_time - job->start_time`, after the unlock. -/
def loggedSection (s : State τ) (thread : τ) : State τ :=
  { s with memory := { s.memory with torn := s.memory.torn || s.gJobs.isNone } }.leave thread 0

def getStatusSection (s : State τ) (thread : τ) (jobId : ℤ) : State τ :=
  match s.find jobId with
  | none => s.leave thread (-1)
  | some (_, cell) => s.leave thread cell.status.code

def getResultSection (s : State τ) (thread : τ) (jobId : ℤ) (mem : Option ℕ) : State τ :=
  match s.find jobId with
  | none => s.leave thread (-1)
  | some (_, cell) =>
    if cell.status ≠ .completed then s.leave thread (-1)
    else
      let m := if cell.resultSize > 0 then s.memory.read cell.resultData else s.memory
      match duplicate m ((m.contents cell.resultData).getD []) cell.resultSize mem with
      | none => s.leave thread (-1)
      | some (data, memory) =>
        { s with memory := memory }.jump thread (.fetched data cell.resultSize)

def releaseSection (s : State τ) (thread : τ) (data : Option ℕ) : State τ :=
  { s with memory := s.memory.free data }.leave thread 0

variable (c : Constants)

def failSection (s : State τ) (thread : τ) (jobId now : ℤ) : State τ :=
  match s.find jobId with
  | none => s.leave thread (-1)
  | some (i, cell) =>
    if cell.status ≠ .assigned then s.leave thread (-1)
    else (s.put i (cell.charge c .failed now) (cell.chargeStats c s.stats)).leave thread 0

def checkTimeoutsSection (s : State τ) (thread : τ) (now : ℤ) : State τ :=
  let r := sweepCells c s.jobTimeoutSeconds now s.stats s.cells
  { s with gJobs := s.gJobs.map fun _ => r.1, stats := r.2.1 }.leave thread r.2.2

/-- A thread makes one call at a time. -/
def step (s : State τ) : Action τ → Option (State τ)
  | .submit thread clientSocket jobType inputData inputSize mem now => match s.pc thread with
    | .outside => some (submitSection s thread clientSocket jobType inputData inputSize mem now)
    | _ => none
  | .select thread workerSocket now => match s.pc thread with
    | .outside => some (selectSection s thread workerSocket now)
    | _ => none
  | .send thread ok => match s.pc thread with
    | .sending jobId _ _ _ => some (sendSection s thread jobId ok)
    | _ => none
  | .rollBack thread => match s.pc thread with
    | .unsent jobId => some (rollBackSection s thread jobId)
    | _ => none
  | .complete thread jobId resultData resultSize mem now => match s.pc thread with
    | .outside => some (completeSection s thread jobId resultData resultSize mem now)
    | _ => none
  | .logged thread => match s.pc thread with
    | .notifying => some (loggedSection s thread)
    | _ => none
  | .fail thread jobId _ now => match s.pc thread with
    | .outside => some (failSection c s thread jobId now)
    | _ => none
  | .checkTimeouts thread now => match s.pc thread with
    | .outside => some (checkTimeoutsSection c s thread now)
    | _ => none
  | .getStatus thread jobId => match s.pc thread with
    | .outside => some (getStatusSection s thread jobId)
    | _ => none
  | .getResult thread jobId mem => match s.pc thread with
    | .outside => some (getResultSection s thread jobId mem)
    | _ => none
  | .release thread => match s.pc thread with
    | .fetched data _ => some (releaseSection s thread data)
    | _ => none
  | .cleanup => some s.cleaned

end Sections

/-! ### Who owns what -/

inductive Owner (τ : Type) where
  | input (i : ℕ)
  | result (i : ℕ)
  | copy (thread : τ)
  deriving DecidableEq

def Point.copy : Point → Option ℕ
  | .fetched data _ => data
  | _ => none

def State.pointer (s : State τ) : Owner τ → Option ℕ
  | .input i => s.cells[i]?.bind Cell.inputData
  | .result i => s.cells[i]?.bind Cell.resultData
  | .copy thread => (s.pc thread).copy

/-- The input that the message on its way points at. -/
def Point.lent : Point → Option ℕ
  | .sending _ _ data _ => data
  | _ => none

/-- `malloc` answers no address in use. -/
def Allocates (s : State τ) (a : Action τ) : Prop := s.memory.Fresh a.mem

/-- A clean-up waits until no thread is about to log a completion. -/
def Orderly (s : State τ) (a : Action τ) : Prop :=
  Allocates s a ∧ (a = .cleanup → ∀ thread, s.pc thread ≠ .notifying)

variable {s s' : State τ} {m m' : Memory (List UInt8)} {thread : τ} {i : ℕ} {cell : Cell}

/-! ### What the searches find -/

theorem find_some {jobId : ℤ} (h : s.find jobId = some (i, cell)) :
    s.cells[i]? = some cell ∧ cell.jobId = jobId ∧ 0 < jobId := by
  unfold State.find at h
  split at h
  · cases h
  · rename_i hrange
    obtain ⟨j, hj, h⟩ := Option.bind_eq_some_iff.mp h
    obtain ⟨found, hfound, h⟩ := Option.map_eq_some_iff.mp h
    cases h
    obtain ⟨⟨b, hb, hid⟩, _⟩ := position_eq_some.mp hj
    rw [hfound] at hb
    cases hb
    exact ⟨hfound, hid, by omega⟩

theorem oldestCell_some {start : ℕ} {oldest : Option (ℕ × Cell)} {cells : List Cell}
    (h : oldestCell start oldest cells = some (i, cell)) :
    oldest = some (i, cell) ∨ start ≤ i ∧ cells[i - start]? = some cell ∧ 0 < cell.jobId := by
  induction cells generalizing start oldest with
  | nil => exact .inl h
  | cons first rest ih =>
    have hlater : start + 1 ≤ i ∧ rest[i - (start + 1)]? = some cell ∧ 0 < cell.jobId →
        start ≤ i ∧ (first :: rest)[i - start]? = some cell ∧ 0 < cell.jobId := by
      rintro ⟨hle, hget, hpos⟩
      have hsub : i - start = (i - (start + 1)) + 1 := by omega
      exact ⟨by omega, by rw [hsub, List.getElem?_cons_succ]; exact hget, hpos⟩
    rw [oldestCell] at h
    split at h
    · rename_i hfirst
      rcases ih h with heq | hrest
      · cases heq
        exact .inr ⟨Nat.le_refl _, by simp, hfirst.1⟩
      · exact .inr (hlater hrest)
    · rcases ih h with heq | hrest
      · exact .inl heq
      · exact .inr (hlater hrest)

/-! ### The invariant -/

structure Inv (s : State τ) : Prop where
  owned : Owned s.memory s.pointer
  sound : s.memory.torn = false
  unused : ∀ cell ∈ s.cells, cell.jobId = 0 → cell.inputData = none ∧ cell.resultData = none
  next : 0 < s.nextJobId
  lent : s.gJobs ≠ none → ∀ thread p, (s.pc thread).lent = some p →
    ∃ i, s.pointer (.input i) = some p
  closed : s.gJobs = none → ∀ thread, s.pc thread ≠ .notifying

def Cell.held (cell : Cell) : ℤ × Option ℕ × Option ℕ :=
  (cell.jobId, cell.inputData, cell.resultData)

theorem pointer_input (s : State τ) (i : ℕ) :
    s.pointer (.input i) = (s.cells.map Cell.held)[i]?.bind fun x => x.2.1 := by
  rw [List.getElem?_map, Option.bind_map]
  rfl

theorem pointer_result (s : State τ) (i : ℕ) :
    s.pointer (.result i) = (s.cells.map Cell.held)[i]?.bind fun x => x.2.2 := by
  rw [List.getElem?_map, Option.bind_map]
  rfl

theorem put_cells (s : State τ) (i : ℕ) (cell : Cell) (st : Stats) :
    (s.put i cell st).cells = s.cells.set i cell := by
  cases h : s.gJobs <;> simp [State.cells, State.put, h]

theorem live_of_cell (hi : s.cells[i]? = some cell) : s.gJobs ≠ none := by
  intro hnull
  rw [State.cells, hnull] at hi
  cases hi

theorem unused_set {cells : List Cell}
    (h : ∀ cell ∈ cells, cell.jobId = 0 → cell.inputData = none ∧ cell.resultData = none)
    (hid : cell.jobId ≠ 0) (i : ℕ) : ∀ cell' ∈ cells.set i cell, cell'.jobId = 0 →
      cell'.inputData = none ∧ cell'.resultData = none := by
  intro cell' hmem hzero
  rcases List.mem_or_eq_of_mem_set hmem with hold | rfl
  · exact h cell' hold hzero
  · exact absurd hzero hid

theorem Inv.ret (h : Inv s) (ret : τ → ℤ) : Inv { s with ret := ret } :=
  ⟨h.owned, h.sound, h.unused, h.next, h.lent, h.closed⟩

/-- A section that changes neither the memory nor the data of a slot. -/
theorem Inv.cells (h : Inv s) (cells : List Cell) (st : Stats)
    (hheld : s.gJobs ≠ none → cells.map Cell.held = s.cells.map Cell.held) :
    Inv { s with gJobs := s.gJobs.map fun _ => cells, stats := st } := by
  cases hnull : s.gJobs with
  | none =>
    have hpointer : ∀ o, State.pointer { s with gJobs := none, stats := st } o = s.pointer o := by
      intro o
      cases o <;> simp [State.pointer, State.cells, hnull]
    exact ⟨h.owned.congr hpointer, h.sound, fun cell hm => absurd hm List.not_mem_nil, h.next,
      fun hlive => absurd rfl hlive, fun _ => h.closed hnull⟩
  | some old =>
    have hsame : cells.map Cell.held = s.cells.map Cell.held := hheld (by simp [hnull])
    have hpointer : ∀ o,
        State.pointer { s with gJobs := some cells, stats := st } o = s.pointer o := by
      intro o
      cases o with
      | input i =>
        rw [pointer_input, pointer_input, ← hsame]
        rfl
      | result i =>
        rw [pointer_result, pointer_result, ← hsame]
        rfl
      | copy thread => rfl
    refine ⟨h.owned.congr hpointer, h.sound, ?_, h.next, ?_, nofun⟩
    · intro cell hm hid
      have hin : cell.held ∈ s.cells.map Cell.held := by
        rw [← hsame]
        exact List.mem_map_of_mem hm
      obtain ⟨cell', hm', heq⟩ := List.mem_map.mp hin
      have hid' : cell'.jobId = cell.jobId := congrArg Prod.fst heq
      have hinput : cell'.inputData = cell.inputData := congrArg (fun x => x.2.1) heq
      have hresult : cell'.resultData = cell.resultData := congrArg (fun x => x.2.2) heq
      rw [← hinput, ← hresult]
      exact h.unused cell' hm' (hid'.trans hid)
    · intro _ thread p hp
      obtain ⟨i, hi⟩ := h.lent (by simp [hnull]) thread p hp
      exact ⟨i, (hpointer _).trans hi⟩

theorem Inv.put (h : Inv s) {old : Cell} (hi : s.cells[i]? = some old) (cell : Cell)
    (hheld : cell.held = old.held) (st : Stats) : Inv (s.put i cell st) := by
  have hput : s.put i cell st =
      { s with gJobs := s.gJobs.map fun _ => s.cells.set i cell, stats := st } := by
    cases hnull : s.gJobs <;> simp [State.put, State.cells, hnull]
  rw [hput]
  exact h.cells _ st fun _ => Block.map_set_slot hi hheld

section Moves
variable [DecidableEq τ]

theorem jump_pc (s : State τ) (thread : τ) (q : Point) (t : τ) :
    (s.jump thread q).pc t = if t = thread then q else s.pc t := Function.update_apply _ _ _ _

/-- A thread without a copy goes to a place where it has none. -/
theorem Inv.jump (h : Inv s) (hpc : (s.pc thread).copy = none) {q : Point} (hcopy : q.copy = none)
    (hlent : ∀ p, q.lent = some p → ∃ i, s.pointer (.input i) = some p)
    (hclosed : q = .notifying → s.gJobs ≠ none) : Inv (s.jump thread q) := by
  have hpointer : ∀ o, (s.jump thread q).pointer o = s.pointer o := by
    intro o
    cases o with
    | input i => rfl
    | result i => rfl
    | copy t =>
      rw [State.pointer, jump_pc]
      split
      · rename_i ht
        rw [hcopy, State.pointer, ht, hpc]
      · rfl
  refine ⟨h.owned.congr hpointer, h.sound, h.unused, h.next, ?_, ?_⟩
  · intro hlive t p hp
    have hin : ∃ i, s.pointer (.input i) = some p := by
      rw [jump_pc] at hp
      split at hp
      · exact hlent p hp
      · exact h.lent hlive t p hp
    obtain ⟨i, hi⟩ := hin
    exact ⟨i, (hpointer _).trans hi⟩
  · intro hnull t ht
    rw [jump_pc] at ht
    split at ht
    · exact hclosed ht hnull
    · exact h.closed hnull t ht

theorem Inv.leave (h : Inv s) (hpc : (s.pc thread).copy = none) (ret : ℤ) :
    Inv (s.leave thread ret) :=
  (h.jump hpc (q := .outside) rfl nofun nofun).ret _

end Moves

/-- The owner `o` gets a new block and frees its old one. -/
theorem Inv.change (h : Inv s) (o : Owner τ) (b : List UInt8) {new : Option ℕ}
    (hfresh : s.memory.Fresh new) (hmem : s'.memory = s.memory.exchange b new (s.pointer o))
    (hself : s'.pointer o = new) (hrest : ∀ o', o' ≠ o → s'.pointer o' = s.pointer o')
    (hunused : ∀ cell ∈ s'.cells, cell.jobId = 0 → cell.inputData = none ∧ cell.resultData = none)
    (hnext : 0 < s'.nextJobId) (hlent : s'.gJobs ≠ none → ∀ thread p,
      (s'.pc thread).lent = some p → ∃ i, s'.pointer (.input i) = some p)
    (hclosed : s'.gJobs = none → ∀ thread, s'.pc thread ≠ .notifying) : Inv s' := by
  refine ⟨?_, ?_, hunused, hnext, hlent, hclosed⟩
  · rw [hmem]
    exact h.owned.exchange hfresh hself hrest
  · rw [hmem, h.owned.exchange_torn]
    exact h.sound

/-- Slot `i` is written: a new job, or the result of one. -/
theorem Inv.write (h : Inv s) {old : Cell} (hi : s.cells[i]? = some old) (hid : cell.jobId ≠ 0)
    (hcells : s'.cells = s.cells.set i cell) (hpc : s'.pc = s.pc) (hnull : s'.gJobs ≠ none)
    (hnext : 0 < s'.nextJobId) {o : Owner τ} {new : Option ℕ} (b : List UInt8)
    (hfresh : s.memory.Fresh new) (hmem : s'.memory = s.memory.exchange b new (s.pointer o))
    (ho : o = .input i ∧ cell.inputData = new ∧ cell.resultData = old.resultData ∧
        old.inputData = none ∨
      o = .result i ∧ cell.resultData = new ∧ cell.inputData = old.inputData) : Inv s' := by
  have hlen : i < s.cells.length := (List.getElem?_eq_some_iff.mp hi).1
  have hself : s'.cells[i]? = some cell := by rw [hcells, List.getElem?_set_self hlen]
  have hother : ∀ j : ℕ, j ≠ i → s'.cells[j]? = s.cells[j]? := by
    intro j hj
    rw [hcells, List.getElem?_set_ne hj.symm]
  refine h.change o b hfresh hmem ?_ ?_ ?_ hnext ?_ fun hnone => absurd hnone hnull
  · rcases ho with ⟨rfl, hinput, _⟩ | ⟨rfl, hresult, _⟩
    · rw [State.pointer, hself]
      exact hinput
    · rw [State.pointer, hself]
      exact hresult
  · intro o' ho'
    cases o' with
    | input j =>
      by_cases hj : j = i
      · subst j
        rcases ho with ⟨rfl, _⟩ | ⟨_, _, hinput⟩
        · exact absurd rfl ho'
        · rw [State.pointer, State.pointer, hself, hi]
          exact hinput
      · rw [State.pointer, State.pointer, hother j hj]
    | result j =>
      by_cases hj : j = i
      · subst j
        rcases ho with ⟨_, _, hresult, _⟩ | ⟨rfl, _⟩
        · rw [State.pointer, State.pointer, hself, hi]
          exact hresult
        · exact absurd rfl ho'
      · rw [State.pointer, State.pointer, hother j hj]
    | copy t => rw [State.pointer, State.pointer, hpc]
  · rw [hcells]
    exact unused_set h.unused hid i
  · intro _ t p hp
    rw [hpc] at hp
    obtain ⟨j, hj⟩ := h.lent (live_of_cell hi) t p hp
    refine ⟨j, ?_⟩
    by_cases hji : j = i
    · subst j
      rw [State.pointer, hi, Option.bind_some] at hj
      rw [State.pointer, hself, Option.bind_some]
      rcases ho with ⟨_, _, _, hnone⟩ | ⟨_, _, hinput⟩
      · rw [hnone] at hj
        cases hj
      · exact hinput.trans hj
    · rw [State.pointer, hother j hji]
      exact hj

theorem duplicate_some {data : List UInt8} {size : ℕ} {mem new : Option ℕ}
    (h : duplicate m data size mem = some (new, m')) :
    m' = m.alloc (data.take size) new ∧ (m.Fresh mem → m.Fresh new) ∧
      m'.contents new = copyData (some data) size := by
  unfold duplicate at h
  split at h
  · rename_i hsize
    cases h
    refine ⟨rfl, fun _ => nofun, ?_⟩
    rw [copyData, if_neg (by omega)]
    rfl
  · rename_i hsize
    obtain ⟨p, rfl, h⟩ := Option.map_eq_some_iff.mp h
    cases h
    refine ⟨rfl, id, ?_⟩
    rw [copyData, if_pos (Nat.pos_of_ne_zero hsize)]
    exact alloc_self _ _ _

theorem duplicate_none {data : List UInt8} {size : ℕ} {mem : Option ℕ} :
    duplicate m data size mem = none ↔ size > 0 ∧ mem.isSome = false := by
  unfold duplicate
  split
  · simp only [reduceCtorEq, false_iff]
    omega
  · have hpos : size > 0 := by omega
    cases mem <;> simp [hpos]

theorem read_result (h : Inv s) {jobId : ℤ} (hfind : s.find jobId = some (i, cell)) :
    (if cell.resultSize > 0 then s.memory.read cell.resultData else s.memory) = s.memory := by
  split
  · refine h.owned.read (.inr ⟨.result i, ?_⟩)
    rw [State.pointer, (find_some hfind).1]
    rfl
  · rfl

section Steps
variable [DecidableEq τ]

theorem inv_submit (h : Inv s) (hpc : s.pc thread = .outside) (clientSocket jobType : ℤ)
    (inputData : Option (List UInt8)) (inputSize : ℕ) {mem : Option ℕ} (hmem : s.memory.Fresh mem)
    (now : ℤ) :
    Inv (submitSection s thread clientSocket jobType inputData inputSize mem now) := by
  have hcopy : (s.pc thread).copy = none := by rw [hpc]; rfl
  unfold submitSection
  split
  · exact h.leave hcopy _
  split
  · exact h.leave hcopy _
  rename_i slot hslot
  split
  · exact h.leave hcopy _
  rename_i data memory hdup
  obtain ⟨hmemory, hfresh, _⟩ := duplicate_some hdup
  obtain ⟨⟨old, hold, hid⟩, _⟩ := position_eq_some.mp hslot
  obtain ⟨hinput, hresult⟩ := h.unused old (List.mem_of_getElem? hold) hid
  have hchanged : Inv { s.put slot (newCell s.nextJobId clientSocket jobType data inputSize now)
      { s.stats with pending := s.stats.pending + 1 } with
        memory := memory
        nextJobId := s.nextJobId + 1 } := by
    have hslots := put_cells s slot (newCell s.nextJobId clientSocket jobType data inputSize now)
      { s.stats with pending := s.stats.pending + 1 }
    have hnext := h.next
    refine h.write hold (Int.ne_of_gt hnext) hslots rfl ?_ (by show 0 < s.nextJobId + 1; omega)
      (o := .input slot) ((inputData.getD []).take inputSize) (hfresh hmem) ?_
      (.inl ⟨rfl, rfl, hresult.symm, hinput⟩)
    · exact fun hnull => live_of_cell hold (Option.map_eq_none_iff.mp hnull)
    · rw [State.pointer, hold, Option.bind_some, hinput]
      exact hmemory
  exact hchanged.leave hcopy _

theorem inv_select (h : Inv s) (hpc : s.pc thread = .outside) (workerSocket now : ℤ) :
    Inv (selectSection s thread workerSocket now) := by
  have hcopy : (s.pc thread).copy = none := by rw [hpc]; rfl
  unfold selectSection
  split
  · exact h.leave hcopy _
  rename_i i cell hold
  obtain ⟨_, hi, _⟩ := (oldestCell_some hold).resolve_left nofun
  rw [Nat.sub_zero] at hi
  have hput := h.put hi (cell.handOut workerSocket now) rfl
    { s.stats with pending := s.stats.pending - 1, running := s.stats.running + 1 }
  refine hput.jump hcopy rfl ?_ nofun
  intro p hp
  refine ⟨i, ?_⟩
  rw [State.pointer, put_cells, List.getElem?_set_self (List.getElem?_eq_some_iff.mp hi).1]
  exact hp

theorem inv_send (h : Inv s) {jobId jobType : ℤ} {data : Option ℕ} {dataSize : ℕ}
    (hpc : s.pc thread = .sending jobId jobType data dataSize) (ok : Bool) :
    Inv (sendSection s thread jobId ok) := by
  have hcopy : (s.pc thread).copy = none := by rw [hpc]; rfl
  unfold sendSection
  split
  · exact h.leave hcopy _
  · exact h.jump hcopy rfl nofun nofun

theorem inv_rollBack (h : Inv s) {jobId : ℤ} (hpc : s.pc thread = .unsent jobId) :
    Inv (rollBackSection s thread jobId) := by
  have hcopy : (s.pc thread).copy = none := by rw [hpc]; rfl
  unfold rollBackSection
  split
  · exact h.leave hcopy _
  · rename_i i cell hfind
    exact (h.put (find_some hfind).1 cell.takeBack rfl _).leave hcopy _

theorem inv_complete (h : Inv s) (hpc : s.pc thread = .outside) (jobId : ℤ)
    (resultData : Option (List UInt8)) (resultSize : ℕ) {mem : Option ℕ}
    (hmem : s.memory.Fresh mem) (now : ℤ) :
    Inv (completeSection s thread jobId resultData resultSize mem now) := by
  have hcopy : (s.pc thread).copy = none := by rw [hpc]; rfl
  unfold completeSection
  split
  · exact h.leave hcopy _
  split
  · exact h.leave hcopy _
  rename_i i cell hfind
  split
  · exact h.leave hcopy _
  split
  · exact h.leave hcopy _
  rename_i data memory hdup
  obtain ⟨hmemory, hfresh, _⟩ := duplicate_some hdup
  obtain ⟨hi, hid, hpos⟩ := find_some hfind
  have hchanged : Inv { s.put i (cell.finish data resultSize now)
      { s.stats with running := s.stats.running - 1, completed := s.stats.completed + 1 } with
        memory := memory.free cell.resultData } := by
    have hslots := put_cells s i (cell.finish data resultSize now)
      { s.stats with running := s.stats.running - 1, completed := s.stats.completed + 1 }
    have hne : (cell.finish data resultSize now).jobId ≠ 0 := by
      show cell.jobId ≠ 0
      omega
    refine h.write hi hne hslots rfl ?_ h.next (o := .result i)
      ((resultData.getD []).take resultSize) (hfresh hmem) ?_ (.inr ⟨rfl, rfl, rfl⟩)
    · exact fun hnull => live_of_cell hi (Option.map_eq_none_iff.mp hnull)
    · rw [State.pointer, hi, Option.bind_some, Memory.exchange, ← hmemory]
  refine hchanged.jump hcopy rfl (fun _ hlent => by cases hlent) fun _ hnull => ?_
  exact live_of_cell hi (Option.map_eq_none_iff.mp hnull)

theorem inv_logged (h : Inv s) (hpc : s.pc thread = .notifying) : Inv (loggedSection s thread) := by
  have hcopy : (s.pc thread).copy = none := by rw [hpc]; rfl
  have hlive : s.gJobs.isNone = false := by
    rw [Option.isNone_eq_false_iff, Option.isSome_iff_ne_none]
    exact fun hnull => h.closed hnull thread hpc
  have hsame : { s.memory with torn := s.memory.torn || s.gJobs.isNone } = s.memory := by
    rw [hlive, Bool.or_false]
  unfold loggedSection
  rw [hsame]
  exact h.leave hcopy 0

theorem inv_getStatus (h : Inv s) (hpc : s.pc thread = .outside) (jobId : ℤ) :
    Inv (getStatusSection s thread jobId) := by
  have hcopy : (s.pc thread).copy = none := by rw [hpc]; rfl
  unfold getStatusSection
  split
  · exact h.leave hcopy _
  · exact h.leave hcopy _

theorem inv_getResult (h : Inv s) (hpc : s.pc thread = .outside) (jobId : ℤ) {mem : Option ℕ}
    (hmem : s.memory.Fresh mem) : Inv (getResultSection s thread jobId mem) := by
  have hcopy : (s.pc thread).copy = none := by rw [hpc]; rfl
  unfold getResultSection
  split
  · exact h.leave hcopy _
  rename_i i cell hfind
  split
  · exact h.leave hcopy _
  simp only [read_result h hfind]
  split
  · exact h.leave hcopy _
  rename_i data memory hdup
  obtain ⟨hmemory, hfresh, _⟩ := duplicate_some hdup
  have hnone : s.pointer (.copy thread) = none := hcopy
  refine h.change (.copy thread)
    (((s.memory.contents cell.resultData).getD []).take cell.resultSize) (hfresh hmem) ?_ ?_ ?_
    h.unused h.next ?_ ?_
  · rw [hnone]
    exact hmemory
  · rw [State.pointer, jump_pc, if_pos rfl]
    rfl
  · intro o ho
    cases o with
    | input j => rfl
    | result j => rfl
    | copy t =>
      have hne : t ≠ thread := fun heq => ho (congrArg Owner.copy heq)
      rw [State.pointer, jump_pc, if_neg hne]
      rfl
  · intro hlive t p hp
    rw [jump_pc] at hp
    split at hp
    · cases hp
    · exact h.lent hlive t p hp
  · intro hnull t ht
    rw [jump_pc] at ht
    split at ht
    · cases ht
    · exact h.closed hnull t ht

theorem inv_release (h : Inv s) {data : Option ℕ} {size : ℕ}
    (hpc : s.pc thread = .fetched data size) : Inv (releaseSection s thread data) := by
  have hcopy : s.pointer (.copy thread) = data := by rw [State.pointer, hpc]; rfl
  unfold releaseSection
  refine @Inv.change _ s _ h (.copy thread) [] none nofun ?_ ?_ ?_ h.unused h.next ?_ ?_
  · rw [hcopy]
    rfl
  · show (State.pc (State.jump _ thread .outside) thread).copy = none
    rw [jump_pc, if_pos rfl]
    rfl
  · intro o ho
    cases o with
    | input j => rfl
    | result j => rfl
    | copy t =>
      have hne : t ≠ thread := fun heq => ho (congrArg Owner.copy heq)
      show (State.pc (State.jump _ thread .outside) t).copy = _
      rw [jump_pc, if_neg hne]
      rfl
  · intro hlive t p hp
    have hp' : (State.pc (State.jump s thread .outside) t).lent = some p := hp
    rw [jump_pc] at hp'
    split at hp'
    · cases hp'
    · exact h.lent hlive t p hp'
  · intro hnull t ht
    have ht' : State.pc (State.jump s thread .outside) t = .notifying := ht
    rw [jump_pc] at ht'
    split at ht'
    · cases ht'
    · exact h.closed hnull t ht'

variable (c : Constants)

theorem charge_held (cell : Cell) (final : JobStatus) (now : ℤ) :
    (cell.charge c final now).held = cell.held := by
  unfold Cell.charge
  split <;> rfl

theorem sweep_held (timeoutSeconds now : ℤ) (st : Stats) (cells : List Cell) :
    (sweepCells c timeoutSeconds now st cells).1.map Cell.held = cells.map Cell.held := by
  induction cells generalizing st with
  | nil => rfl
  | cons cell rest ih =>
    rw [sweepCells]
    split
    · rw [List.map_cons, List.map_cons, charge_held, ih]
    · rw [List.map_cons, List.map_cons, ih]

theorem inv_fail (h : Inv s) (hpc : s.pc thread = .outside) (jobId now : ℤ) :
    Inv (failSection c s thread jobId now) := by
  have hcopy : (s.pc thread).copy = none := by rw [hpc]; rfl
  unfold failSection
  split
  · exact h.leave hcopy _
  rename_i i cell hfind
  split
  · exact h.leave hcopy _
  · exact (h.put (find_some hfind).1 _ (charge_held c cell .failed now) _).leave hcopy _

theorem inv_checkTimeouts (h : Inv s) (hpc : s.pc thread = .outside) (now : ℤ) :
    Inv (checkTimeoutsSection c s thread now) := by
  have hcopy : (s.pc thread).copy = none := by rw [hpc]; rfl
  exact (h.cells _ _ fun _ => sweep_held c _ now _ _).leave hcopy _

end Steps

/-! ### The clean-up -/

def slotOwners (τ : Type) (n : ℕ) : List (Owner τ) :=
  (List.range n).flatMap fun i => [.input i, .result i]

theorem mem_slotOwners {n : ℕ} {o : Owner τ} :
    o ∈ slotOwners τ n ↔ ∃ i < n, o = .input i ∨ o = .result i := by
  simp [slotOwners]

theorem slotOwners_nodup (n : ℕ) : (slotOwners τ n).Nodup := by
  refine List.nodup_flatMap.mpr ⟨fun i _ => by simp, ?_⟩
  refine List.nodup_range.imp fun hne => ?_
  simp [Ne.symm hne]

theorem slotOwners_data (s : State τ) :
    (slotOwners τ s.cells.length).map s.pointer = s.data := by
  have hall : ∀ cells : List Cell, (List.range cells.length).flatMap (fun i : ℕ =>
      [cells[i]?.bind Cell.inputData, cells[i]?.bind Cell.resultData]) =
        cells.flatMap fun cell => [cell.inputData, cell.resultData] := by
    intro cells
    induction cells using List.reverseRecOn with
    | nil => rfl
    | append_singleton cells cell ih =>
      rw [List.length_append, List.length_singleton, List.range_succ, List.flatMap_append,
        List.flatMap_append, ← ih]
      congr 1
      · refine List.flatMap_congr fun i hi => ?_
        rw [List.getElem?_append_left (List.mem_range.mp hi)]
      · simp
  rw [slotOwners, List.map_flatMap, State.data, ← hall]
  rfl

theorem cleaned_owned (h : Inv s) :
    Owned s.cleaned.memory s.cleaned.pointer ∧ s.cleaned.memory.torn = false := by
  have hgone : ∀ o ∈ slotOwners τ s.cells.length, s.cleaned.pointer o = none := by
    intro o ho
    obtain ⟨i, _, rfl | rfl⟩ := mem_slotOwners.mp ho <;> rfl
  have hrest : ∀ o, o ∉ slotOwners τ s.cells.length → s.cleaned.pointer o = s.pointer o := by
    intro o ho
    have hout : ∀ i, o = .input i ∨ o = .result i → s.cells[i]? = none := by
      intro i hi
      rw [List.getElem?_eq_none_iff, ← Nat.not_lt]
      exact fun hlt => ho (mem_slotOwners.mpr ⟨i, hlt, hi⟩)
    cases o with
    | input i => rw [State.pointer, State.pointer, hout i (.inl rfl)]; rfl
    | result i => rw [State.pointer, State.pointer, hout i (.inr rfl)]; rfl
    | copy t => rfl
  have hclear := h.owned.clear (slotOwners_nodup s.cells.length) hgone hrest
  rw [slotOwners_data, h.sound] at hclear
  exact hclear

theorem inv_cleanup (h : Inv s) (hquiet : ∀ thread, s.pc thread ≠ .notifying) :
    Inv s.cleaned := by
  obtain ⟨howned, hsound⟩ := cleaned_owned h
  exact ⟨howned, hsound, fun cell hm => absurd hm List.not_mem_nil, h.next,
    fun hlive => absurd rfl hlive, fun _ => hquiet⟩

end CSimples.JobMemory
