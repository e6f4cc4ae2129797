import CSimples.Central.TaskManager
import CSimples.Lib.Run
import Mathlib.Logic.Function.Basic

/-!
# Claiming a queued task (task_manager.c:72-169, central_server.c:202-248)

`task_manager_create_task` queues the address of the heap task before it has
copied the task into `tasks[]`; `assign_task_to_worker` pops the address without
the manager's mutex, and needs the record next. Its search takes the mutex the
producer still holds, so by then the record is there.
-/

namespace CSimples.TaskClaims
open Block Keyed RingBuffer Run TaskManager

/-- Where a thread is, with the heap address it works on. In `pushing` and `copying`
it holds the mutex; `unmarked` is the branch "Failed to mark task". -/
inductive Pc where
  | outside
  | pushing (p : ℕ)
  | copying (p : ℕ)
  | popped (p workerId : ℕ)
  | sending (p : ℕ)
  | unmarked (p : ℕ)
  deriving DecidableEq

/-- The address a handler thread has popped and not freed yet. -/
def Pc.claimed : Pc → Option ℕ
  | .popped p _ | .sending p | .unmarked p => some p
  | .outside | .pushing _ | .copying _ => none

/-- The manager as the threads share it, with the heap. `published` and `popped` are
the ids in the order in which their tasks entered and left the queue. -/
structure State (τ : Type) where
  tasks : List TaskInfo
  count : ℕ
  nextTaskId : ℕ
  queue : RingBuf ℕ
  heap : ℕ → Option Task
  owner : Option τ
  pc : τ → Pc
  published : List ℕ
  popped : List ℕ

inductive Action (τ : Type) where
  | create (thread : τ) (inputData : Option (List UInt8)) (inputSize : ℕ)
      (mem : Option (ℕ × Task))
  | push (thread : τ)
  | copy (thread : τ) (now : ℤ)
  | claim (thread : τ) (workerId : ℕ) (idle : Bool)
  | mark (thread : τ) (now : ℤ)
  | release (thread : τ)

variable {τ : Type}

def State.live (s : State τ) : List TaskInfo := s.tasks.take s.count

def State.idAt (s : State τ) (p : ℕ) : List ℕ := ((s.heap p).map Task.taskId).toList

def State.free (s : State τ) (p : ℕ) : State τ :=
  { s with heap := Function.update s.heap p none }

/-- `task_manager_assign_task` on `tasks[]`. -/
def assignRecord (s : State τ) (taskId workerId : ℕ) (now : ℤ) : ℤ × List TaskInfo :=
  if taskId = 0 ∨ workerId = 0 then (-1, s.tasks)
  else match position TaskInfo.id taskId s.live with
  | none => (-1, s.tasks)
  | some i => (0, s.tasks.modify i (assigned workerId now))

def managerCreate (τ : Type) (capacity queueSize : ℕ) (hq : queueSize < 2^32)
    (mem : Slots TaskInfo capacity) (queueMem : Slots ℕ queueSize) : Option (State τ) :=
  if capacity = 0 ∨ queueSize = 0 then none
  else do
    let tasks ← mem
    let queue ← ringBufferCreate queueSize hq queueMem
    some ⟨tasks.val, 0, 1, queue, fun _ => none, none, fun _ => .outside, [], []⟩

/-! ### Sections -/

section Sections
variable [DecidableEq τ]

def State.jump (s : State τ) (thread : τ) (pc : Pc) : State τ :=
  { s with pc := Function.update s.pc thread pc }

def State.begin (s : State τ) (thread : τ) (p : ℕ) (task : Task) : State τ :=
  { s.jump thread (.pushing p) with
    owner := some thread
    heap := Function.update s.heap p (some task)
    nextTaskId := (s.nextTaskId + 1) % 2^32 }

def State.publish (s : State τ) (thread : τ) (p : ℕ) (queue : RingBuf ℕ) : State τ :=
  { s.jump thread (.copying p) with queue := queue, published := s.published ++ s.idAt p }

def State.withdraw (s : State τ) (thread : τ) (p : ℕ) : State τ :=
  { (s.free p).jump thread .outside with owner := none }

/-- Up to the push. `malloc` answers an address that is not in use, and what it holds. -/
def createSection (s : State τ) (thread : τ) (inputData : Option (List UInt8)) (inputSize : ℕ)
    (mem : Option (ℕ × Task)) : Option (State τ) :=
  match inputData with
  | none => some s
  | some data =>
    if inputSize = 0 ∨ Protocol.maxDataSize < inputSize then some s
    else if s.owner.isSome then none
    else if s.tasks.length ≤ s.count then some s
    else match mem with
    | none => some s
    | some (p, block) =>
      if (s.heap p).isSome then none
      else some (s.begin thread p (newTask block s.nextTaskId data inputSize))

def pushSection (s : State τ) (thread : τ) (p : ℕ) : State τ :=
  let push := ringBufferPush s.queue (some p)
  if push.1 ≠ 0 then s.withdraw thread p else s.publish thread p push.2

def copySection (s : State τ) (thread : τ) (p : ℕ) (now : ℤ) : State τ :=
  { s.jump thread .outside with
    tasks := match s.heap p with
      | none => s.tasks
      | some task => s.tasks.set s.count (newInfo task now)
    count := s.count + 1
    owner := none }

def State.take (s : State τ) (thread : τ) (p workerId : ℕ) (queue : RingBuf ℕ) : State τ :=
  { s.jump thread (.popped p workerId) with queue := queue, popped := s.popped ++ s.idAt p }

/-- `assign_task_to_worker` up to its pop; `idle` says that the worker is there and
idle. -/
def claimSection (s : State τ) (thread : τ) (workerId : ℕ) (idle : Bool) : State τ :=
  if idle = false then s
  else match ringBufferPop s.queue with
  | (none, queue) => { s with queue := queue }
  | (some p, queue) => s.take thread p workerId queue

def markSection (s : State τ) (thread : τ) (p workerId : ℕ) (now : ℤ) : Option (State τ) :=
  if s.owner.isSome then none
  else match s.heap p with
  | none => some (s.jump thread (.unmarked p))
  | some task =>
    let r := assignRecord s task.taskId workerId now
    some { s.jump thread (if r.1 = 0 then .sending p else .unmarked p) with tasks := r.2 }

def step (s : State τ) : Action τ → Option (State τ)
  | .create thread inputData inputSize mem => match s.pc thread with
    | .outside => createSection s thread inputData inputSize mem
    | _ => none
  | .push thread => match s.pc thread with
    | .pushing p => some (pushSection s thread p)
    | _ => none
  | .copy thread now => match s.pc thread with
    | .copying p => some (copySection s thread p now)
    | _ => none
  | .claim thread workerId idle => match s.pc thread with
    | .outside => some (claimSection s thread workerId idle)
    | _ => none
  | .mark thread now => match s.pc thread with
    | .popped p workerId => markSection s thread p workerId now
    | _ => none
  | .release thread => match s.pc thread with
    | .sending p | .unmarked p => some ((s.free p).jump thread .outside)
    | _ => none

def Action.isCreate : Action τ → Bool
  | .create _ _ _ _ => true
  | _ => false

/-- The state, with the number of calls of `task_manager_create_task` so far. -/
structure Trace (τ : Type) where
  state : State τ
  attempts : ℕ

def advance (t : Trace τ) (a : Action τ) : Option (Trace τ) :=
  (step t.state a).map fun s => ⟨s, t.attempts + if a.isCreate then 1 else 0⟩

end Sections

def Named (_ : Trace τ) : Action τ → Prop
  | .claim _ workerId _ => workerId ≠ 0
  | _ => True

end CSimples.TaskClaims
