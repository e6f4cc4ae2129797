import CSimples.Lib.Run
import CSimples.Shared.RingBuffer
import Mathlib.Logic.Function.Basic
import Mathlib.Tactic.NormNum

/-!
# The ring buffer with waiting threads (lib/src/ring_buffer.c)

The buffer with its 32-bit indices, and the calls of `ring_buffer_push` and
`ring_buffer_pop` cut where they give up the mutex: from the lock or a wake-up
to the next wait or the unlock. A wake-up comes at any time and for any reason,
so the condition variables need no state of their own. `RingBuf` is the abstract
side: every section keeps the indices in step with it.
-/

namespace CSimples.RingThreads
open Block Circular RingBuffer Run

/-- `ring_buffer_t` with its 32-bit members. A slot is a pointer, `none` for NULL. -/
structure Ring (α : Type) where
  buffer : List (Option α)
  capacity : UInt32
  size : UInt32
  head : UInt32
  tail : UInt32

variable {α : Type}

/-- Any of the allocations and initialisations may fail (`mem` is `none`). -/
def ringBufferCreate (capacity : UInt32) (mem : Slots (Option α) capacity.toNat) :
    Option (Ring α) :=
  if capacity = 0 then none else mem.map fun b => ⟨b.val, capacity, 0, 0, 0⟩

/-! ### Sections (ring_buffer.c:119-227) -/

def Ring.enqueue (r : Ring α) (element : α) : Ring α :=
  { r with
    buffer := r.buffer.set r.tail.toNat (some element)
    tail := (r.tail + 1) % r.capacity
    size := r.size + 1 }

def Ring.dequeue (r : Ring α) : Option α × Ring α :=
  (r.buffer.getD r.head.toNat none,
    { r with head := (r.head + 1) % r.capacity, size := r.size - 1 })

inductive Ending (α : Type) where
  | waits
  | pushed (element : Option α) (ret : ℤ)
  | popped (element : Option α)

/-- A push from the lock on; `timeOk` says whether `get_timeout_time` succeeds. -/
def pushEnter (r : Ring α) (element : α) (timeoutMs : ℤ) (timeOk : Bool) : Ring α × Ending α :=
  if r.size = r.capacity then
    if timeoutMs = 0 then (r, .pushed (some element) (-1))
    else if timeoutMs > 0 ∧ timeOk = false then (r, .pushed (some element) (-1))
    else (r, .waits)
  else (r.enqueue element, .pushed (some element) 0)

/-- A push from a wake-up on; `result` is what a timed wait returned. -/
def pushWake (r : Ring α) (element : α) (timed : Bool) (result : ℤ) : Ring α × Ending α :=
  if timed ∧ result ≠ 0 then (r, .pushed (some element) (-1))
  else if r.size = r.capacity then (r, .waits)
  else (r.enqueue element, .pushed (some element) 0)

def popEnter (r : Ring α) (timeoutMs : ℤ) (timeOk : Bool) : Ring α × Ending α :=
  if r.size = 0 then
    if timeoutMs = 0 then (r, .popped none)
    else if timeoutMs > 0 ∧ timeOk = false then (r, .popped none)
    else (r, .waits)
  else (r.dequeue.2, .popped r.dequeue.1)

def popWake (r : Ring α) (timed : Bool) (result : ℤ) : Ring α × Ending α :=
  if timed ∧ result ≠ 0 then (r, .popped none)
  else if r.size = 0 then (r, .waits)
  else (r.dequeue.2, .popped r.dequeue.1)

/-! ### Threads -/

inductive Pc (α : Type) where
  | outside
  | pushing (element : α) (timed : Bool)
  | popping (timed : Bool)

inductive Action (τ α : Type) where
  | push (thread : τ) (element : Option α) (timeoutMs : ℤ) (timeOk : Bool)
  | pop (thread : τ) (timeoutMs : ℤ) (timeOk : Bool)
  | wake (thread : τ) (result : ℤ)

/-- The buffer and its callers, with the elements of all pushes that answered 0
and of all pops that answered an element, in order. -/
structure System (τ α : Type) where
  ring : Ring α
  pc : τ → Pc α
  pushed : List α
  popped : List α

variable {τ : Type}

def Action.thread : Action τ α → τ
  | .push thread _ _ _ | .pop thread _ _ | .wake thread _ => thread

/-- The section an action runs, if its thread is where the action starts. A NULL
element is refused before the lock. -/
def sectionOf (s : System τ α) : Action τ α → Option (Ring α × Ending α)
  | .push thread element timeoutMs timeOk => match s.pc thread, element with
    | .outside, none => some (s.ring, .pushed none (-1))
    | .outside, some x => some (pushEnter s.ring x timeoutMs timeOk)
    | _, _ => none
  | .pop thread timeoutMs timeOk => match s.pc thread with
    | .outside => some (popEnter s.ring timeoutMs timeOk)
    | _ => none
  | .wake thread result => match s.pc thread with
    | .pushing element timed => some (pushWake s.ring element timed result)
    | .popping timed => some (popWake s.ring timed result)
    | .outside => none

/-- Where the thread is once the section has ended in `waits`. -/
def waiting (s : System τ α) : Action τ α → Pc α
  | .push _ (some element) timeoutMs _ => .pushing element (decide (timeoutMs > 0))
  | .pop _ timeoutMs _ => .popping (decide (timeoutMs > 0))
  | .push thread none _ _ | .wake thread _ => s.pc thread

def finish [DecidableEq τ] (s : System τ α) (a : Action τ α) (ring : Ring α) : Ending α → System τ α
  | .waits => { s with ring := ring, pc := Function.update s.pc a.thread (waiting s a) }
  | .pushed element ret =>
    { s with
      ring := ring
      pc := Function.update s.pc a.thread .outside
      pushed := if ret = 0 then s.pushed ++ element.toList else s.pushed }
  | .popped element =>
    { s with
      ring := ring
      pc := Function.update s.pc a.thread .outside
      popped := s.popped ++ element.toList }

def step [DecidableEq τ] (s : System τ α) (a : Action τ α) : Option (System τ α) :=
  (sectionOf s a).map fun ended => finish s a ended.1 ended.2

def start (r : Ring α) : System τ α := ⟨r, fun _ => .outside, [], []⟩

/-! ### What a section can do -/

inductive Effect (r : Ring α) : Ring α × Ending α → Prop where
  | waits : Effect r (r, .waits)
  | refused (element : Option α) : Effect r (r, .pushed element (-1))
  | enqueued (element : α) (h : r.size ≠ r.capacity) :
      Effect r (r.enqueue element, .pushed (some element) 0)
  | empty : Effect r (r, .popped none)
  | dequeued (h : r.size ≠ 0) : Effect r (r.dequeue.2, .popped r.dequeue.1)

theorem pushEnter_effect (r : Ring α) (element : α) (timeoutMs : ℤ) (timeOk : Bool) :
    Effect r (pushEnter r element timeoutMs timeOk) := by
  unfold pushEnter
  split_ifs with hfull
  · exact .refused _
  · exact .refused _
  · exact .waits
  · exact .enqueued element hfull

theorem pushWake_effect (r : Ring α) (element : α) (timed : Bool) (result : ℤ) :
    Effect r (pushWake r element timed result) := by
  unfold pushWake
  split_ifs with _ hfull
  · exact .refused _
  · exact .waits
  · exact .enqueued element hfull

theorem popEnter_effect (r : Ring α) (timeoutMs : ℤ) (timeOk : Bool) :
    Effect r (popEnter r timeoutMs timeOk) := by
  unfold popEnter
  split_ifs with hempty
  · exact .empty
  · exact .empty
  · exact .waits
  · exact .dequeued hempty

theorem popWake_effect (r : Ring α) (timed : Bool) (result : ℤ) :
    Effect r (popWake r timed result) := by
  unfold popWake
  split_ifs with _ hempty
  · exact .empty
  · exact .waits
  · exact .dequeued hempty

theorem section_effect {s : System τ α} {a : Action τ α} {ended : Ring α × Ending α}
    (h : sectionOf s a = some ended) : Effect s.ring ended := by
  cases a with
  | push thread element timeoutMs timeOk =>
    simp only [sectionOf] at h
    split at h
    · cases h
      exact .refused _
    · cases h
      exact pushEnter_effect _ _ _ _
    · cases h
  | pop thread timeoutMs timeOk =>
    simp only [sectionOf] at h
    split at h
    · cases h
      exact popEnter_effect _ _ _
    · cases h
  | wake thread result =>
    simp only [sectionOf] at h
    split at h
    · cases h
      exact pushWake_effect _ _ _ _
    · cases h
      exact popWake_effect _ _ _
    · cases h

/-! ### The abstract buffer -/

/-- The slots in use, first to last, with indices that do not wrap at 2^32. -/
def Ring.content (r : Ring α) : List (Option α) :=
  window r.buffer r.capacity.toNat r.head.toNat r.size.toNat

/-- The 32-bit indices are those of the abstract buffer. -/
structure Represents (r : Ring α) (rb : RingBuf (Option α)) : Prop where
  buffer : r.buffer = rb.buffer
  capacity : r.capacity.toNat = rb.capacity
  size : r.size.toNat = rb.size
  head : r.head.toNat = rb.head
  tail : r.tail.toNat = rb.tail

theorem Represents.content {r : Ring α} {rb : RingBuf (Option α)} (h : Represents r rb) :
    r.content = rb.content := by
  rw [Ring.content, RingBuf.content, h.buffer, h.capacity, h.size, h.head]

theorem Represents.room {r : Ring α} {rb : RingBuf (Option α)} (h : Represents r rb)
    (hs : r.size ≠ r.capacity) : rb.size < rb.capacity := by
  have hle := rb.size_le
  have hne : rb.size ≠ rb.capacity := by
    intro he
    rw [← h.size, ← h.capacity] at he
    exact hs (UInt32.toNat_inj.mp he)
  omega

theorem Represents.nonempty {r : Ring α} {rb : RingBuf (Option α)} (h : Represents r rb)
    (hs : r.size ≠ 0) : rb.size ≠ 0 := by
  intro he
  rw [← h.size] at he
  exact hs (UInt32.toNat_inj.mp he)

theorem toNat_next {i capacity : UInt32} (h : i.toNat < capacity.toNat) :
    ((i + 1) % capacity).toNat = (i.toNat + 1) % capacity.toNat := by
  have hlt := capacity.toNat_lt
  have hone : (1 : UInt32).toNat = 1 := rfl
  rw [UInt32.toNat_mod, UInt32.toNat_add, hone, Nat.mod_eq_of_lt (a := i.toNat + 1) (by omega)]

theorem Represents.enqueue {r : Ring α} {rb : RingBuf (Option α)} (h : Represents r rb)
    (element : α) (hs : rb.size < rb.capacity) :
    Represents (r.enqueue element) (rb.enqueue (some element) hs) := by
  have hsize : (r.size + 1).toNat = r.size.toNat + 1 := by
    have hlt := r.capacity.toNat_lt
    have hone : (1 : UInt32).toNat = 1 := rfl
    rw [UInt32.toNat_add, hone, Nat.mod_eq_of_lt]
    rw [h.size, h.capacity] at *
    omega
  have htail : r.tail.toNat < r.capacity.toNat := by
    rw [h.tail, h.capacity]
    exact rb.tail_lt
  constructor
  · simp only [Ring.enqueue, RingBuf.enqueue, h.buffer, h.tail]
  · exact h.capacity
  · rw [Ring.enqueue, hsize, h.size, RingBuf.enqueue]
  · exact h.head
  · rw [Ring.enqueue, toNat_next htail, h.tail, h.capacity, RingBuf.enqueue]

theorem Represents.dequeue {r : Ring α} {rb : RingBuf (Option α)} (h : Represents r rb)
    (hs : rb.size ≠ 0) :
    r.dequeue.1 = (rb.dequeue hs).1 ∧ Represents r.dequeue.2 (rb.dequeue hs).2 := by
  have hone : (1 : UInt32).toNat = 1 := rfl
  have hsize : (r.size - 1).toNat = r.size.toNat - 1 := by
    rw [UInt32.toNat_sub_of_le, hone]
    rw [UInt32.le_iff_toNat_le, hone, h.size]
    omega
  have hlt : rb.head < rb.buffer.length := by
    rw [rb.buffer_length]
    exact rb.head_lt
  have hhead : r.head.toNat < r.capacity.toNat := by
    rw [h.head, h.capacity]
    exact rb.head_lt
  constructor
  · simp [Ring.dequeue, RingBuf.dequeue, h.buffer, h.head, List.getD_eq_getElem?_getD,
      List.getElem?_eq_getElem hlt]
  · constructor
    · exact h.buffer
    · exact h.capacity
    · rw [Ring.dequeue, hsize, h.size, RingBuf.dequeue]
    · rw [Ring.dequeue, toNat_next hhead, h.head, h.capacity, RingBuf.dequeue]
    · exact h.tail

theorem represents_create {capacity : UInt32} {mem : Slots (Option α) capacity.toNat}
    {r : Ring α} (h : ringBufferCreate capacity mem = some r) :
    ∃ rb, Represents r rb ∧ rb.content = [] ∧ r.capacity = capacity := by
  unfold ringBufferCreate at h
  split at h
  · cases h
  · rename_i hne
    obtain ⟨b, hb, rfl⟩ := Option.map_eq_some_iff.mp h
    have hpos : capacity.toNat ≠ 0 := fun he => hne (UInt32.toNat_inj.mp he)
    have hmk : RingBuffer.ringBufferCreate capacity.toNat capacity.toNat_lt mem =
        some ⟨b.val, capacity.toNat, 0, 0, 0, b.property, capacity.toNat_lt, Nat.zero_le _,
          Nat.pos_of_ne_zero hpos, by simp⟩ := by
      simp [RingBuffer.ringBufferCreate, hpos, hb]
    exact ⟨_, ⟨rfl, rfl, rfl, rfl, rfl⟩, (create_content hmk).1, rfl⟩

/-! ### Every interleaving -/

structure Indexed (r : Ring α) : Prop where
  buffer_length : r.buffer.length = r.capacity.toNat
  head_lt : r.head < r.capacity
  tail_lt : r.tail < r.capacity
  size_le : r.size ≤ r.capacity
  tail_eq : r.tail.toNat = (r.head.toNat + r.size.toNat) % r.capacity.toNat

theorem Represents.indexed {r : Ring α} {rb : RingBuf (Option α)} (h : Represents r rb) :
    Indexed r := by
  constructor
  · rw [h.buffer, h.capacity]
    exact rb.buffer_length
  · rw [UInt32.lt_iff_toNat_lt, h.head, h.capacity]
    exact rb.head_lt
  · rw [UInt32.lt_iff_toNat_lt, h.tail, h.capacity]
    exact rb.tail_lt
  · rw [UInt32.le_iff_toNat_le, h.size, h.capacity]
    exact rb.size_le
  · rw [h.tail, h.head, h.size, h.capacity]
    exact rb.tail_eq

def Answers (r r' : Ring α) : Ending α → Prop
  | .waits => r' = r
  | .pushed element ret =>
    (ret = 0 ∧ ∃ x, element = some x ∧ r'.content = r.content ++ [some x]) ∨
      (ret = -1 ∧ r' = r)
  | .popped element =>
    (∃ x, element = some x ∧ r.content = some x :: r'.content) ∨ (element = none ∧ r' = r)

/-- The elements popped so far, then the content, are the elements pushed. -/
def Conserved (s : System τ α) : Prop :=
  ∃ rb, Represents s.ring rb ∧ s.pushed.map some = s.popped.map some ++ rb.content

theorem head_nonnull {s : System τ α} {rb : RingBuf (Option α)}
    (hcons : s.pushed.map some = s.popped.map some ++ rb.content) {e : Option α}
    {rest : List (Option α)} (hc : rb.content = e :: rest) : ∃ x, e = some x := by
  have he : e ∈ s.pushed.map some := by
    rw [hcons, hc]
    simp
  obtain ⟨x, _, hx⟩ := List.mem_map.mp he
  exact ⟨x, hx.symm⟩

theorem Conserved.answers {s : System τ α} (h : Conserved s) {r' : Ring α} {ending : Ending α}
    (he : Effect s.ring (r', ending)) : Answers s.ring r' ending := by
  obtain ⟨rb, hrep, hcons⟩ := h
  cases he with
  | waits => rfl
  | refused element => exact .inr ⟨rfl, rfl⟩
  | enqueued element hs =>
    have hnew := hrep.enqueue element (hrep.room hs)
    refine .inl ⟨rfl, element, rfl, ?_⟩
    rw [hnew.content, hrep.content, enqueue_content]
  | empty => exact .inr ⟨rfl, rfl⟩
  | dequeued hs =>
    obtain ⟨hfirst, hnew⟩ := hrep.dequeue (hrep.nonempty hs)
    have hc := dequeue_content rb (hrep.nonempty hs)
    obtain ⟨x, hx⟩ := head_nonnull hcons hc
    refine .inl ⟨x, by rw [hfirst, hx], ?_⟩
    rw [hrep.content, hnew.content, hc, hx]

theorem Conserved.finish [DecidableEq τ] {s : System τ α} (h : Conserved s) (a : Action τ α)
    {r' : Ring α} {ending : Ending α} (he : Effect s.ring (r', ending)) :
    Conserved (finish s a r' ending) := by
  obtain ⟨rb, hrep, hcons⟩ := h
  cases he with
  | waits => exact ⟨rb, hrep, hcons⟩
  | refused element => exact ⟨rb, hrep, hcons⟩
  | enqueued element hs =>
    refine ⟨_, hrep.enqueue element (hrep.room hs), ?_⟩
    simp [RingThreads.finish, enqueue_content, hcons]
  | empty => exact ⟨rb, hrep, by simpa [RingThreads.finish] using hcons⟩
  | dequeued hs =>
    obtain ⟨hfirst, hnew⟩ := hrep.dequeue (hrep.nonempty hs)
    have hc := dequeue_content rb (hrep.nonempty hs)
    obtain ⟨x, hx⟩ := head_nonnull hcons hc
    refine ⟨_, hnew, ?_⟩
    rw [hc] at hcons
    simp [RingThreads.finish, hfirst, hx, hcons]

theorem conserved_step [DecidableEq τ] {s s' : System τ α} {a : Action τ α} (h : Conserved s)
    (hs : step s a = some s') : Conserved s' := by
  obtain ⟨ended, hended, rfl⟩ := Option.map_eq_some_iff.mp hs
  exact h.finish a (section_effect hended)

theorem capacity_reach [DecidableEq τ] {r : Ring α} {s : System τ α}
    (h : Reach step (fun _ _ => True) (start r) s) : s.ring.capacity = r.capacity := by
  refine h.invariant (I := fun s => s.ring.capacity = r.capacity) rfl fun s a s' hc _ hs => ?_
  obtain ⟨ended, hended, rfl⟩ := Option.map_eq_some_iff.mp hs
  have hring : (finish s a ended.1 ended.2).ring = ended.1 := by
    cases ended.2 <;> rfl
  rw [hring, ← hc]
  cases section_effect hended <;> rfl

theorem conserved_reach [DecidableEq τ] {capacity : UInt32}
    {mem : Slots (Option α) capacity.toNat} {r : Ring α}
    (hcreate : ringBufferCreate capacity mem = some r) {s : System τ α}
    (h : Reach step (fun _ _ => True) (start r) s) : Conserved s := by
  obtain ⟨rb, hrep, hnil, _⟩ := represents_create hcreate
  refine h.invariant ⟨rb, hrep, ?_⟩ fun _ _ _ hc _ hs => conserved_step hc hs
  simp [start, hnil]

/-- The buffer is a bounded queue under any interleaving of its callers. -/
theorem ring_is_queue [DecidableEq τ] {capacity : UInt32}
    {mem : Slots (Option α) capacity.toNat} {r : Ring α}
    (hcreate : ringBufferCreate capacity mem = some r) {s : System τ α}
    (h : Reach step (fun _ _ => True) (start r) s) :
    s.ring.capacity = capacity ∧ Indexed s.ring ∧
      s.pushed.map some = s.popped.map some ++ s.ring.content ∧ s.popped <+: s.pushed ∧
      ∀ a r' ending, sectionOf s a = some (r', ending) → Answers s.ring r' ending := by
  have hconserved := conserved_reach hcreate h
  have hanswers : ∀ a r' ending, sectionOf s a = some (r', ending) → Answers s.ring r' ending :=
    fun a r' ending he => hconserved.answers (section_effect he)
  obtain ⟨_, _, _, hcap⟩ := represents_create hcreate
  obtain ⟨rb, hrep, hcons⟩ := hconserved
  rw [← hrep.content] at hcons
  have hpre : s.popped.map some <+: s.pushed.map some := by
    rw [hcons]
    exact List.prefix_append _ _
  refine ⟨by rw [capacity_reach h, hcap], hrep.indexed, hcons, ?_, hanswers⟩
  exact (List.prefix_map_iff_of_injective (Option.some_injective α)).mp hpre

def oneSlot : Ring ℕ := ⟨[none], 1, 0, 0, 0⟩

theorem oneSlot_created : ringBufferCreate 1 (some ⟨[none], rfl⟩) = some oneSlot := rfl

/-- The slot is taken, so thread 2 waits; the pop of thread 1 lets it in. -/
theorem ring_is_queue_oneSlot :
    ∃ s : System ℕ ℕ, Reach step (fun _ _ => True) (start oneSlot) s ∧
      s.pushed = [5, 6] ∧ s.popped = [5] ∧ s.ring.capacity = 1 ∧ Indexed s.ring ∧
      s.pushed.map some = s.popped.map some ++ s.ring.content ∧ s.popped <+: s.pushed ∧
      ∀ a r' ending, sectionOf s a = some (r', ending) → Answers s.ring r' ending := by
  have hstart : Reach (@step ℕ ℕ _) (fun _ _ => True) (start oneSlot) (start oneSlot) := .start
  have hfull := hstart.next (.push 1 (some 5) 0 true) trivial rfl
  have hwaits := hfull.next (.push 2 (some 6) 10 true) trivial rfl
  have hpopped := hwaits.next (.pop 1 (-1) true) trivial rfl
  have hwoken := hpopped.next (.wake 2 0) trivial rfl
  exact ⟨_, hwoken, rfl, rfl, ring_is_queue oneSlot_created hwoken⟩

end CSimples.RingThreads
