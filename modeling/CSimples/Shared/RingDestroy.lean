import CSimples.Shared.RingThreads

/-!
# Destroying a ring buffer (lib/src/ring_buffer.c:65-96)

`ring_buffer_destroy` frees the elements that are still queued. It computes the slot
of the `i`-th as `(head + i) % capacity` in 32 bits, where the sum may wrap before it
is reduced; push and pop only ever add 1.
-/

namespace CSimples.RingDestroy
open Block Circular RingBuffer RingThreads Run

variable {α : Type}

/-- `uint32_t idx = (rb->head + i) % rb->capacity`. -/
def destroyIndex (r : RingThreads.Ring α) (i : ℕ) : ℕ :=
  ((r.head + UInt32.ofNat i) % r.capacity).toNat

/-- What is handed to `free` (`none` is NULL, which `free` ignores), and the slots
when the buffer array itself is freed. -/
def ringBufferDestroy (rb : Option (RingThreads.Ring α)) (freeElements : Bool) :
    List (Option α) × List (Option α) :=
  match rb with
  | none => ([], [])
  | some r =>
    if freeElements ∧ 0 < r.size then drain (destroyIndex r) r.size.toNat r.buffer
    else ([], r.buffer)

/-- What `n` pops take out, one after the other. -/
def pops : ℕ → RingThreads.Ring α → List (Option α)
  | 0, _ => []
  | n + 1, r => r.dequeue.1 :: pops n r.dequeue.2

/-- The queued elements are freed once each, and slots without one are not touched. -/
def Released (r : RingThreads.Ring α) : Prop :=
  (((ringBufferDestroy (some r) true).1.filterMap id).map some).Perm (pops r.size.toNat r) ∧
    ∀ k, (∀ i < r.size.toNat, (r.head.toNat + i) % r.capacity.toNat ≠ k) →
      (ringBufferDestroy (some r) true).2[k]? = r.buffer[k]?

/-! ### The loop -/

variable {r : RingThreads.Ring α} {i : ℕ}

theorem destroy_eq (r : RingThreads.Ring α) :
    ringBufferDestroy (some r) true = drain (destroyIndex r) r.size.toNat r.buffer := by
  by_cases hs : 0 < r.size
  · exact if_pos ⟨rfl, hs⟩
  · have hzero : r.size.toNat = 0 := by
      rw [UInt32.lt_iff_toNat_lt] at hs
      have hz : (0 : UInt32).toNat = 0 := rfl
      omega
    rw [hzero]
    exact if_neg fun h => hs h.2

theorem destroyIndex_eq (h : r.head.toNat + i < 2^32) :
    destroyIndex r i = (r.head.toNat + i) % r.capacity.toNat := by
  have hi : i < 2^32 := by omega
  rw [destroyIndex, UInt32.toNat_mod, UInt32.toNat_add, UInt32.toNat_ofNat_of_lt' hi,
    Nat.mod_eq_of_lt h]

theorem destroyIndex_wrapped (h : r.head.toNat + i = 2^32) (hi : i < 2^32) :
    destroyIndex r i = 0 := by
  rw [destroyIndex, UInt32.toNat_mod, UInt32.toNat_add, UInt32.toNat_ofNat_of_lt' hi, h,
    Nat.mod_self, Nat.zero_mod]

theorem pops_content {rb : RingBuf (Option α)} (h : Represents r rb) :
    pops r.size.toNat r = r.content := by
  have htake : ∀ n (r : RingThreads.Ring α) (rb : RingBuf (Option α)), Represents r rb →
      rb.size = n → pops n r = rb.content := by
    intro n
    induction n with
    | zero =>
      intro r rb _ hn
      exact (List.eq_nil_of_length_eq_zero (by rw [rb.content_length, hn])).symm
    | succ n ih =>
      intro r rb h hn
      have hs : rb.size ≠ 0 := by omega
      obtain ⟨hfirst, hrest⟩ := h.dequeue hs
      rw [pops, hfirst, ih _ _ hrest (by simp only [RingBuf.dequeue]; omega), dequeue_content rb hs]
  rw [htake _ r rb h h.size.symm, h.content]

theorem released_of_le (hidx : Indexed r) {rb : RingBuf (Option α)} (hrep : Represents r rb)
    {elements : List α} (hcontent : r.content = elements.map some)
    (hle : r.head.toNat + r.size.toNat ≤ 2^32) : Released r := by
  have hsize := UInt32.le_iff_toNat_le.mp hidx.size_le
  have hpos : 0 < r.capacity.toNat :=
    Nat.lt_of_le_of_lt (Nat.zero_le _) (UInt32.lt_iff_toNat_lt.mp hidx.head_lt)
  have hindex : ∀ i < r.size.toNat, destroyIndex r i = (r.head.toNat + i) % r.capacity.toNat :=
    fun i hi => destroyIndex_eq (by omega)
  have hdistinct : ∀ i j, i < j → j < r.size.toNat → destroyIndex r i ≠ destroyIndex r j := by
    intro i j hij hj
    rw [hindex i (by omega), hindex j hj]
    exact slot_ne hij (by omega)
  have hfreed : (drain (destroyIndex r) r.size.toNat r.buffer).1 = r.content := by
    rw [drain_taken hdistinct, Ring.content, window_eq_map hidx.buffer_length hpos _ _ none]
    apply List.map_congr_left
    intro i hi
    rw [hindex i (List.mem_range.mp hi)]
  constructor
  · rw [destroy_eq, hfreed, pops_content hrep, hcontent, List.filterMap_map]
    simp
  · intro k hk
    rw [destroy_eq, drain_other fun i hi => by rw [hindex i hi]; exact hk i hi]

/-- When the sum wraps, slot 0 comes up twice and some element is not freed. -/
theorem not_released_of_gt (hidx : Indexed r) {rb : RingBuf (Option α)} (hrep : Represents r rb)
    (hgt : 2^32 < r.head.toNat + r.size.toNat) : ¬ Released r := by
  rintro ⟨hperm, _⟩
  have hhead := UInt32.lt_iff_toNat_lt.mp hidx.head_lt
  have hsize := UInt32.le_iff_toNat_le.mp hidx.size_le
  have hcap := r.capacity.toNat_lt
  have hend : destroyIndex r (r.capacity.toNat - r.head.toNat) = 0 := by
    rw [destroyIndex_eq (by omega), Nat.add_sub_cancel' (by omega), Nat.mod_self]
  have hwrap : destroyIndex r (2^32 - r.head.toNat) = 0 :=
    destroyIndex_wrapped (by omega) (by omega)
  have hnone : none ∈ (drain (destroyIndex r) r.size.toNat r.buffer).1 :=
    drain_repeated (i := r.capacity.toNat - r.head.toNat) (j := 2^32 - r.head.toNat) (by omega)
      (by omega) (hend.trans hwrap.symm)
  have hfewer : ((drain (destroyIndex r) r.size.toNat r.buffer).1.filterMap id).length <
      r.size.toNat := by
    have hlt := (List.length_filterMap_lt_length_iff_exists (f := id)).mpr ⟨none, hnone, rfl⟩
    rwa [drain_length] at hlt
  have hlen := hperm.length_eq
  rw [List.length_map, pops_content hrep, hrep.content, rb.content_length, ← hrep.size,
    destroy_eq] at hlen
  omega

/-! ### Reachable heads and sizes -/

section Reachable
variable {τ : Type} [DecidableEq τ] {capacity : UInt32} {mem : Slots (Option α) capacity.toNat}

/-- Nobody waits, and the buffer has this head and size. -/
def IsAt (τ : Type) [DecidableEq τ] (r : RingThreads.Ring α) (head size : ℕ) : Prop :=
  ∃ s : System τ α, Reach step (fun _ _ => True) (start r) s ∧ (∀ t, s.pc t = .outside) ∧
    s.ring.head.toNat = head ∧ s.ring.size.toNat = size

theorem IsAt.push (hcreate : ringBufferCreate capacity mem = some r) (thread : τ) (element : α)
    {head size : ℕ} (h : IsAt τ r head size) (hs : size < capacity.toNat) :
    IsAt τ r head (size + 1) := by
  obtain ⟨s, hreach, hpc, rfl, rfl⟩ := h
  obtain ⟨rb, hrep, _⟩ := conserved_reach hcreate hreach
  obtain ⟨_, _, _, hcap⟩ := represents_create hcreate
  have hcapacity : s.ring.capacity = capacity := by rw [capacity_reach hreach, hcap]
  have hroom : s.ring.size ≠ s.ring.capacity := by
    intro he
    rw [he, hcapacity] at hs
    exact Nat.lt_irrefl _ hs
  have hstep : step s (.push thread (some element) 0 true) =
      some (finish s (.push thread (some element) 0 true) (s.ring.enqueue element)
        (.pushed (some element) 0)) := by
    simp only [step, sectionOf, hpc thread, pushEnter, if_neg hroom, Option.map_some]
  refine ⟨_, hreach.next _ trivial hstep, ?_, rfl, ?_⟩
  · intro t
    show Function.update s.pc thread Pc.outside t = .outside
    rw [Function.update_apply]
    split
    · rfl
    · exact hpc t
  · have hnew := (hrep.enqueue element (hrep.room hroom)).size
    rw [hrep.size]
    exact hnew

theorem IsAt.pop (hcreate : ringBufferCreate capacity mem = some r) (thread : τ)
    {head size : ℕ} (h : IsAt τ r head (size + 1)) :
    IsAt τ r ((head + 1) % capacity.toNat) size := by
  obtain ⟨s, hreach, hpc, rfl, hs⟩ := h
  obtain ⟨rb, hrep, _⟩ := conserved_reach hcreate hreach
  obtain ⟨_, _, _, hcap⟩ := represents_create hcreate
  have hcapacity : s.ring.capacity = capacity := by rw [capacity_reach hreach, hcap]
  have hne : s.ring.size ≠ 0 := by
    intro he
    rw [he] at hs
    cases hs
  have hstep : step s (.pop thread 0 true) =
      some (finish s (.pop thread 0 true) s.ring.dequeue.2 (.popped s.ring.dequeue.1)) := by
    simp only [step, sectionOf, hpc thread, popEnter, if_neg hne, Option.map_some]
  obtain ⟨_, hnew⟩ := hrep.dequeue (hrep.nonempty hne)
  refine ⟨_, hreach.next _ trivial hstep, ?_, ?_, ?_⟩
  · intro t
    show Function.update s.pc thread Pc.outside t = .outside
    rw [Function.update_apply]
    split
    · rfl
    · exact hpc t
  · rw [← hcapacity]
    exact toNat_next (UInt32.lt_iff_toNat_lt.mp hrep.indexed.head_lt)
  · have hsize : s.ring.dequeue.2.size.toNat = rb.size - 1 := hnew.size
    rw [← hrep.size, hs] at hsize
    exact hsize

theorem isAt_all (hcreate : ringBufferCreate capacity mem = some r) (thread : τ) (element : α)
    {head size : ℕ} (hhead : head < capacity.toNat) (hsize : size ≤ capacity.toNat) :
    IsAt τ r head size := by
  induction size with
  | zero =>
    induction head with
    | zero =>
      unfold RingThreads.ringBufferCreate at hcreate
      split at hcreate
      · cases hcreate
      · obtain ⟨b, _, rfl⟩ := Option.map_eq_some_iff.mp hcreate
        exact ⟨_, .start, fun _ => rfl, rfl, rfl⟩
    | succ head ih =>
      have hnext := ((ih (by omega)).push hcreate thread element (by omega)).pop hcreate thread
      rwa [Nat.mod_eq_of_lt hhead] at hnext
  | succ size ih => exact (ih (by omega)).push hcreate thread element (by omega)

end Reachable

/-! ### Every reachable buffer -/

section
variable {τ : Type} [DecidableEq τ] {capacity : UInt32} {mem : Slots (Option α) capacity.toNat}

theorem released_iff (hcreate : ringBufferCreate capacity mem = some r) {s : System τ α}
    (h : Reach step (fun _ _ => True) (start r) s) :
    Released s.ring ↔ s.ring.head.toNat + s.ring.size.toNat ≤ 2^32 := by
  obtain ⟨_, hidx, hcons, ⟨rest, hrest⟩, _⟩ := ring_is_queue hcreate h
  obtain ⟨rb, hrep, _⟩ := conserved_reach hcreate h
  have hcontent : s.ring.content = rest.map some := by
    rw [← hrest, List.map_append] at hcons
    exact (List.append_cancel_left hcons).symm
  constructor
  · intro hreleased
    by_contra hgt
    exact not_released_of_gt hidx hrep (by omega) hreleased
  · exact released_of_le hidx hrep hcontent

/-- Destroying a buffer releases its elements exactly when the sum of head and size does
not wrap, which capacities up to 2^31, and no others, rule out. -/
theorem destroy_releases_iff (hcreate : ringBufferCreate capacity mem = some r) (thread : τ)
    (element : α) :
    (∀ s : System τ α, Reach step (fun _ _ => True) (start r) s →
      (Released s.ring ↔ s.ring.head.toNat + s.ring.size.toNat ≤ 2^32)) ∧
    ((∀ s : System τ α, Reach step (fun _ _ => True) (start r) s → Released s.ring) ↔
      capacity.toNat ≤ 2^31) := by
  refine ⟨fun s h => released_iff hcreate h, fun hall => ?_, fun hcap s h => ?_⟩
  · by_contra hgt
    obtain ⟨s, hreach, _, hhead, hsize⟩ := isAt_all hcreate thread element
      (by omega : capacity.toNat - 1 < capacity.toNat) (Nat.le_refl _)
    have hle := (released_iff hcreate hreach).mp (hall s hreach)
    omega
  · obtain ⟨hcapacity, hidx, _⟩ := ring_is_queue hcreate h
    have hhead := UInt32.lt_iff_toNat_lt.mp hidx.head_lt
    have hsize := UInt32.le_iff_toNat_le.mp hidx.size_le
    rw [hcapacity] at hhead hsize
    exact (released_iff hcreate h).mpr (by omega)

end

theorem destroy_releases_oneSlot :
    ∃ s : System ℕ ℕ, Reach step (fun _ _ => True) (start oneSlot) s ∧ s.pushed = [5] ∧
      Released s.ring := by
  have hstart : Reach (@step ℕ ℕ _) (fun _ _ => True) (start oneSlot) (start oneSlot) := .start
  have hfull := hstart.next (.push 1 (some 5) 0 true) trivial rfl
  exact ⟨_, hfull, rfl, (destroy_releases_iff oneSlot_created 0 5).2.mpr (by decide) _ hfull⟩

/-! ### A buffer of 2^31 + 1 slots -/

def largeCapacity : UInt32 := 2147483649

def largeRing : RingThreads.Ring ℕ :=
  ⟨List.replicate largeCapacity.toNat none, largeCapacity, 0, 0, 0⟩

theorem largeRing_created :
    ringBufferCreate largeCapacity (some ⟨List.replicate largeCapacity.toNat none,
      List.length_replicate⟩) = some largeRing := if_neg (by decide)

theorem destroy_leaks :
    ∃ s : System ℕ ℕ, Reach step (fun _ _ => True) (start largeRing) s ∧
      s.ring.head.toNat = 2^31 ∧ s.ring.size.toNat = 2^31 + 1 ∧ ¬ Released s.ring := by
  have hcap : largeCapacity.toNat = 2^31 + 1 := rfl
  obtain ⟨s, hreach, _, hhead, hsize⟩ := isAt_all largeRing_created 0 0
    (by omega : 2^31 < largeCapacity.toNat) (by omega : 2^31 + 1 ≤ largeCapacity.toNat)
  refine ⟨s, hreach, hhead, hsize, fun hreleased => ?_⟩
  have hle := (released_iff largeRing_created hreach).mp hreleased
  omega

end CSimples.RingDestroy
