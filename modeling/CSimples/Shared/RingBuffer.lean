import CSimples.Lib.Block
import CSimples.Lib.Circular

/-!
# The ring buffer (lib/src/ring_buffer.c:12-62, 119-242)

The buffer with its indices as the code keeps them, and its content: the
`size` elements from `head` on, modulo the capacity. A push appends to the
content and a pop takes its first element. The calls here are the non-blocking
ones (`timeout_ms == 0`), the only ones the central server makes.
-/

namespace CSimples.RingBuffer
open Block Circular

/-- `ring_buffer_t`. Slots hold the non-null pointers
that were stored; slots outside the content hold anything. -/
structure RingBuf (α : Type) where
  buffer : List α
  capacity : ℕ
  size : ℕ
  head : ℕ
  tail : ℕ
  buffer_length : buffer.length = capacity
  capacity_lt : capacity < 2^32
  size_le : size ≤ capacity
  head_lt : head < capacity
  tail_eq : tail = (head + size) % capacity

variable {α : Type}

def ringBufferCreate (capacity : ℕ) (hc : capacity < 2^32) (mem : Slots α capacity) :
    Option (RingBuf α) :=
  if h : capacity = 0 then none
  else mem.map fun b =>
    ⟨b.val, capacity, 0, 0, 0, b.property, hc, Nat.zero_le _, Nat.pos_of_ne_zero h,
      by simp⟩

def RingBuf.content (rb : RingBuf α) : List α := window rb.buffer rb.capacity rb.head rb.size

/-- "Add element to the buffer" (ring_buffer.c:160-162). Neither `tail + 1` nor
`size + 1` exceeds the capacity, so no addition wraps. -/
def RingBuf.enqueue (rb : RingBuf α) (element : α) (h : rb.size < rb.capacity) : RingBuf α :=
  { rb with
    buffer := rb.buffer.set rb.tail element
    tail := (rb.tail + 1) % rb.capacity
    size := rb.size + 1
    buffer_length := by rw [List.length_set, rb.buffer_length]
    size_le := h
    tail_eq := by rw [rb.tail_eq, Nat.mod_add_mod, Nat.add_assoc] }

def RingBuf.dequeue (rb : RingBuf α) (h : rb.size ≠ 0) : α × RingBuf α :=
  (rb.buffer.get ⟨rb.head, by rw [rb.buffer_length]; exact rb.head_lt⟩,
    { rb with
      head := (rb.head + 1) % rb.capacity
      size := rb.size - 1
      size_le := Nat.le_trans (Nat.sub_le _ _) rb.size_le
      head_lt := Nat.mod_lt _ (Nat.lt_of_le_of_lt (Nat.zero_le _) rb.head_lt)
      tail_eq := by
        have hs : rb.head + rb.size = rb.head + 1 + (rb.size - 1) := by omega
        rw [rb.tail_eq, Nat.mod_add_mod, hs] })

def ringBufferPush (rb : RingBuf α) (element : Option α) : ℤ × RingBuf α :=
  match element with
  | none => (-1, rb)
  | some x => if h : rb.size < rb.capacity then (0, rb.enqueue x h) else (-1, rb)

def ringBufferPop (rb : RingBuf α) : Option α × RingBuf α :=
  if h : rb.size = 0 then (none, rb) else (some (rb.dequeue h).1, (rb.dequeue h).2)

def ringBufferSize (rb : RingBuf α) : ℕ := rb.size

theorem RingBuf.tail_lt (rb : RingBuf α) : rb.tail < rb.capacity := by
  rw [rb.tail_eq]
  exact Nat.mod_lt _ (Nat.lt_of_le_of_lt (Nat.zero_le _) rb.head_lt)

/-! ### The content -/

theorem RingBuf.content_length (rb : RingBuf α) : rb.content.length = rb.size :=
  window_length rb.buffer_length (Nat.lt_of_le_of_lt (Nat.zero_le _) rb.head_lt)

theorem create_content {capacity : ℕ} {hc : capacity < 2^32} {mem : Slots α capacity}
    {rb : RingBuf α} (h : ringBufferCreate capacity hc mem = some rb) :
    rb.content = [] ∧ rb.capacity = capacity := by
  unfold ringBufferCreate at h
  split at h
  · cases h
  · obtain ⟨b, _, rfl⟩ := Option.map_eq_some_iff.mp h
    exact ⟨rfl, rfl⟩

theorem enqueue_content (rb : RingBuf α) (x : α) (h : rb.size < rb.capacity) :
    (rb.enqueue x h).content = rb.content ++ [x] := by
  simp only [RingBuf.content, RingBuf.enqueue, rb.tail_eq]
  exact window_push rb.buffer_length h x

theorem dequeue_content (rb : RingBuf α) (h : rb.size ≠ 0) :
    rb.content = (rb.dequeue h).1 :: (rb.dequeue h).2.content := by
  obtain ⟨a, ha, hw⟩ := window_pop (rb.size - 1) rb.buffer_length rb.head_lt
  have hs : rb.size - 1 + 1 = rb.size := by omega
  have hlt : rb.head < rb.buffer.length := by rw [rb.buffer_length]; exact rb.head_lt
  rw [List.getElem?_eq_getElem hlt] at ha
  cases ha
  rw [hs] at hw
  exact hw

theorem push_full {rb : RingBuf α} {x : Option α} (h : rb.size = rb.capacity) :
    ringBufferPush rb x = (-1, rb) := by
  cases x with
  | none => rfl
  | some x => exact dif_neg (by omega)

theorem push_room {rb : RingBuf α} (x : α) (h : rb.size < rb.capacity) :
    (ringBufferPush rb (some x)).1 = 0 ∧
      (ringBufferPush rb (some x)).2.content = rb.content ++ [x] := by
  have hp : ringBufferPush rb (some x) = (0, rb.enqueue x h) := dif_pos h
  rw [hp]
  exact ⟨rfl, enqueue_content rb x h⟩

theorem pop_content (rb : RingBuf α) :
    (ringBufferPop rb).1 = rb.content.head? ∧ (ringBufferPop rb).2.content = rb.content.tail := by
  unfold ringBufferPop
  split
  · rename_i h
    have hnil : rb.content = [] := List.eq_nil_of_length_eq_zero (by rw [rb.content_length, h])
    rw [hnil]
    exact ⟨rfl, rfl⟩
  · rename_i h
    rw [dequeue_content rb h]
    exact ⟨rfl, rfl⟩

end CSimples.RingBuffer
