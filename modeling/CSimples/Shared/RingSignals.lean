import CSimples.Lib.CondVar
import CSimples.Shared.RingThreads
import Mathlib.Tactic.Tauto

/-!
# The signals of the ring buffer (lib/src/ring_buffer.c)

The buffer of `RingThreads` with the state of `not_empty` and `not_full`: who is blocked,
who has been signalled and whose deadline has passed. A section is still one step, so in
every state each thread is outside its call, blocked, or about to take the mutex again.
-/

namespace CSimples.RingSignals
open Block CondVar RingThreads Run

variable {τ α : Type}

/-! ### What a section does to a wait -/

def Pops : Pc α → Prop
  | .popping _ => True
  | _ => False

def Pushes : Pc α → Prop
  | .pushing _ _ => True
  | _ => False

theorem not_pops_pushes {pc : Pc α} (h : Pops pc) (h' : Pushes pc) : False := by
  cases pc with
  | outside => exact h
  | pushing element timed => exact h
  | popping timed => exact h'

/-- The thread did not wait, or its wait has timed out. -/
def GaveUp (s : System τ α) (a : Action τ α) : Prop :=
  s.pc a.thread = .outside ∨ ∃ thread result, a = .wake thread result ∧ result ≠ 0

inductive Outcome (s : System τ α) (a : Action τ α) : RingThreads.Ring α × Ending α → Prop where
  | waitsFull {x : α} {timed : Bool} (hpc : ¬ Pops (s.pc a.thread))
      (hw : waiting s a = .pushing x timed) (h : s.ring.size = s.ring.capacity) :
      Outcome s a (s.ring, .waits)
  | waitsEmpty {timed : Bool} (hpc : ¬ Pushes (s.pc a.thread))
      (hw : waiting s a = .popping timed) (h : s.ring.size = 0) : Outcome s a (s.ring, .waits)
  | refused (element : Option α) (h : GaveUp s a) : Outcome s a (s.ring, .pushed element (-1))
  | enqueued (element : α) (hpc : ¬ Pops (s.pc a.thread)) (h : s.ring.size ≠ s.ring.capacity) :
      Outcome s a (s.ring.enqueue element, .pushed (some element) 0)
  | empty (h : GaveUp s a) : Outcome s a (s.ring, .popped none)
  | dequeued (hpc : ¬ Pushes (s.pc a.thread)) (h : s.ring.size ≠ 0) :
      Outcome s a (s.ring.dequeue.2, .popped s.ring.dequeue.1)

theorem push_outcome {s : System τ α} {thread : τ} (hpc : s.pc thread = .outside) (element : α)
    (timeoutMs : ℤ) (timeOk : Bool) :
    Outcome s (.push thread (some element) timeoutMs timeOk)
      (pushEnter s.ring element timeoutMs timeOk) := by
  have hpops : ¬ Pops (s.pc thread) := by
    rw [hpc]
    exact id
  unfold pushEnter
  split_ifs with hfull
  · exact .refused _ (.inl hpc)
  · exact .refused _ (.inl hpc)
  · exact .waitsFull hpops rfl hfull
  · exact .enqueued element hpops hfull

theorem pop_outcome {s : System τ α} {thread : τ} (hpc : s.pc thread = .outside)
    (timeoutMs : ℤ) (timeOk : Bool) :
    Outcome s (.pop thread timeoutMs timeOk) (popEnter s.ring timeoutMs timeOk) := by
  have hpushes : ¬ Pushes (s.pc thread) := by
    rw [hpc]
    exact id
  unfold popEnter
  split_ifs with hempty
  · exact .empty (.inl hpc)
  · exact .empty (.inl hpc)
  · exact .waitsEmpty hpushes rfl hempty
  · exact .dequeued hpushes hempty

theorem pushWake_outcome {s : System τ α} {thread : τ} {element : α} {timed : Bool}
    (hpc : s.pc thread = .pushing element timed) (result : ℤ) :
    Outcome s (.wake thread result) (pushWake s.ring element timed result) := by
  have hpops : ¬ Pops (s.pc thread) := by
    rw [hpc]
    exact id
  unfold pushWake
  split_ifs with hresult hfull
  · exact .refused _ (.inr ⟨thread, result, rfl, hresult.2⟩)
  · exact .waitsFull hpops hpc hfull
  · exact .enqueued element hpops hfull

theorem popWake_outcome {s : System τ α} {thread : τ} {timed : Bool}
    (hpc : s.pc thread = .popping timed) (result : ℤ) :
    Outcome s (.wake thread result) (popWake s.ring timed result) := by
  have hpushes : ¬ Pushes (s.pc thread) := by
    rw [hpc]
    exact id
  unfold popWake
  split_ifs with hresult hempty
  · exact .empty (.inr ⟨thread, result, rfl, hresult.2⟩)
  · exact .waitsEmpty hpushes hpc hempty
  · exact .dequeued hpushes hempty

theorem section_outcome {s : System τ α} {a : Action τ α} {ended : RingThreads.Ring α × Ending α}
    (h : sectionOf s a = some ended) : Outcome s a ended := by
  cases a with
  | push thread element timeoutMs timeOk =>
    simp only [sectionOf] at h
    split at h
    · rename_i hpc
      cases h
      exact .refused _ (.inl hpc)
    · rename_i hpc
      cases h
      exact push_outcome hpc _ _ _
    · cases h
  | pop thread timeoutMs timeOk =>
    simp only [sectionOf] at h
    split at h
    · rename_i hpc
      cases h
      exact pop_outcome hpc _ _
    · cases h
  | wake thread result =>
    simp only [sectionOf] at h
    split at h
    · rename_i hpc
      cases h
      exact pushWake_outcome hpc _
    · rename_i hpc
      cases h
      exact popWake_outcome hpc _
    · cases h

theorem outside_of_section {s : System τ α} {a : Action τ α}
    {ended : RingThreads.Ring α × Ending α} (h : sectionOf s a = some ended)
    (hwake : ∀ thread result, a ≠ .wake thread result) : s.pc a.thread = .outside := by
  cases a with
  | push thread element timeoutMs timeOk =>
    simp only [sectionOf] at h
    split at h
    · assumption
    · assumption
    · cases h
  | pop thread timeoutMs timeOk =>
    simp only [sectionOf] at h
    split at h
    · assumption
    · cases h
  | wake thread result => exact absurd rfl (hwake thread result)

theorem size_enqueue {s : System τ α} (h : Conserved s) (hs : s.ring.size ≠ s.ring.capacity)
    (element : α) : (s.ring.enqueue element).size.toNat = s.ring.size.toNat + 1 ∧
      s.ring.size.toNat < s.ring.capacity.toNat := by
  obtain ⟨rb, hrep, _⟩ := h
  have hroom := hrep.room hs
  have hnew := (hrep.enqueue element hroom).size
  rw [hnew, hrep.size, hrep.capacity]
  exact ⟨rfl, hroom⟩

theorem size_dequeue {s : System τ α} (h : Conserved s) (hs : s.ring.size ≠ 0) :
    s.ring.dequeue.2.size.toNat + 1 = s.ring.size.toNat ∧
      s.ring.size.toNat ≤ s.ring.capacity.toNat ∧ ∃ x, s.ring.dequeue.1 = some x := by
  obtain ⟨rb, hrep, hcons⟩ := h
  have hne := hrep.nonempty hs
  obtain ⟨hfirst, hnew⟩ := hrep.dequeue hne
  have hpred : (rb.dequeue hne).2.size + 1 = rb.size := Nat.sub_add_cancel (Nat.pos_of_ne_zero hne)
  rw [hnew.size, hrep.size, hrep.capacity, hfirst]
  exact ⟨hpred, rb.size_le, head_nonnull hcons (RingBuffer.dequeue_content rb hne)⟩

/-! ### The condition variables -/

structure Monitor (τ α : Type) [DecidableEq τ] where
  system : System τ α
  notEmpty : Cond τ
  notFull : Cond τ

/-- `woken` are the threads that the signal of the section wakes. -/
inductive Event (τ α : Type) where
  | push (thread : τ) (element : Option α) (timeoutMs : ℤ) (timeOk : Bool) (woken : Finset τ)
  | pop (thread : τ) (timeoutMs : ℤ) (timeOk : Bool) (woken : Finset τ)
  | resume (thread : τ) (woken : Finset τ)
  | spurious (thread : τ)
  | expire (thread : τ)

variable [DecidableEq τ]

def etimedout : ℤ := 110

def Monitor.size (m : Monitor τ α) : ℕ := m.system.ring.size.toNat
def Monitor.room (m : Monitor τ α) : ℕ := m.system.ring.capacity.toNat - m.system.ring.size.toNat

def Monitor.Blocked (m : Monitor τ α) (t : τ) : Prop :=
  t ∈ m.notEmpty.blocked ∨ t ∈ m.notFull.blocked

instance (m : Monitor τ α) (t : τ) : Decidable (m.Blocked t) :=
  inferInstanceAs (Decidable (_ ∨ _))

def Monitor.result (m : Monitor τ α) (t : τ) : ℤ :=
  match m.system.pc t with
  | .pushing _ _ => if t ∈ m.notFull.expired then etimedout else 0
  | .popping _ => if t ∈ m.notEmpty.expired then etimedout else 0
  | .outside => 0

def signalEmpty (system : System τ α) (notEmpty notFull : Cond τ) (woken : Finset τ) :
    Option (Monitor τ α) :=
  if h : notEmpty.CanWake woken then some ⟨system, notEmpty.signal woken h.1, notFull⟩ else none

def signalFull (system : System τ α) (notEmpty notFull : Cond τ) (woken : Finset τ) :
    Option (Monitor τ α) :=
  if h : notFull.CanWake woken then some ⟨system, notEmpty, notFull.signal woken h.1⟩ else none

/-- The section has ended: its wait is over, and it waits, signals or does neither. A slot
in use never holds NULL, so a pop that signals is one that answers an element. -/
def Monitor.finish (m : Monitor τ α) (a : Action τ α) (woken : Finset τ) (ring : RingThreads.Ring α)
    (ending : Ending α) : Option (Monitor τ α) :=
  let system := RingThreads.finish m.system a ring ending
  let notEmpty := m.notEmpty.leave a.thread
  let notFull := m.notFull.leave a.thread
  match ending with
  | .waits => match waiting m.system a with
    | .pushing _ _ => some ⟨system, notEmpty, notFull.wait a.thread⟩
    | .popping _ => some ⟨system, notEmpty.wait a.thread, notFull⟩
    | .outside => none
  | .pushed _ ret =>
    if ret = 0 then signalEmpty system notEmpty notFull woken
    else some ⟨system, notEmpty, notFull⟩
  | .popped (some _) => signalFull system notEmpty notFull woken
  | .popped none => some ⟨system, notEmpty, notFull⟩

def Monitor.run (m : Monitor τ α) (a : Action τ α) (woken : Finset τ) : Option (Monitor τ α) :=
  (sectionOf m.system a).bind fun ended => m.finish a woken ended.1 ended.2

def Monitor.step (m : Monitor τ α) : Event τ α → Option (Monitor τ α)
  | .push thread element timeoutMs timeOk woken =>
    m.run (.push thread element timeoutMs timeOk) woken
  | .pop thread timeoutMs timeOk woken => m.run (.pop thread timeoutMs timeOk) woken
  | .resume thread woken =>
    if m.Blocked thread then none else m.run (.wake thread (m.result thread)) woken
  | .spurious thread => match m.system.pc thread with
    | .pushing _ _ => some { m with notFull := m.notFull.wakeUp thread }
    | .popping _ => some { m with notEmpty := m.notEmpty.wakeUp thread }
    | .outside => none
  | .expire thread => match m.system.pc thread with
    | .pushing _ true => some { m with notFull := m.notFull.expire thread }
    | .popping true => some { m with notEmpty := m.notEmpty.expire thread }
    | _ => none

def start (r : RingThreads.Ring α) : Monitor τ α := ⟨RingThreads.start r, .empty, .empty⟩

/-- The thread is in a call and will take the mutex. -/
def Monitor.Awake (m : Monitor τ α) (t : τ) : Prop := m.system.pc t ≠ .outside ∧ ¬ m.Blocked t

structure NoLostWakeup (m : Monitor τ α) : Prop where
  pops : 0 < m.size → m.notEmpty.blocked.Nonempty → ∃ t, m.Awake t
  pushes : 0 < m.room → m.notFull.blocked.Nonempty → ∃ t, m.Awake t

/-! ### The invariant -/

structure Signalling (m : Monitor τ α) : Prop where
  conserved : Conserved m.system
  notEmpty : m.notEmpty.Served m.size
  notFull : m.notFull.Served m.room
  pops : ∀ t ∈ m.notEmpty.waiters, Pops (m.system.pc t)
  pushes : ∀ t ∈ m.notFull.waiters, Pushes (m.system.pc t)

theorem signalling_start {capacity : UInt32} {mem : Slots (Option α) capacity.toNat}
    {r : RingThreads.Ring α} (hcreate : ringBufferCreate capacity mem = some r) :
    Signalling (start r : Monitor τ α) where
  conserved := conserved_reach hcreate .start
  notEmpty := .inl rfl
  notFull := .inl rfl
  pops := fun t ht => absurd ht (Finset.notMem_empty t)
  pushes := fun t ht => absurd ht (Finset.notMem_empty t)

theorem Signalling.awake_pops {m : Monitor τ α} (h : Signalling m) {t : τ}
    (hpc : Pops (m.system.pc t)) (ht : t ∉ m.notEmpty.blocked) : m.Awake t := by
  have hfull : t ∉ m.notFull.waiters := fun ht => not_pops_pushes hpc (h.pushes t ht)
  refine ⟨fun he => ?_, not_or.mpr ⟨ht, fun hb => hfull (Finset.mem_union_left _ hb)⟩⟩
  rw [he] at hpc
  exact hpc

theorem Signalling.awake_pushes {m : Monitor τ α} (h : Signalling m) {t : τ}
    (hpc : Pushes (m.system.pc t)) (ht : t ∉ m.notFull.blocked) : m.Awake t := by
  have hempty : t ∉ m.notEmpty.waiters := fun ht => not_pops_pushes (h.pops t ht) hpc
  refine ⟨fun he => ?_, not_or.mpr ⟨fun hb => hempty (Finset.mem_union_left _ hb), ht⟩⟩
  rw [he] at hpc
  exact hpc

theorem Signalling.noLostWakeup {m : Monitor τ α} (h : Signalling m) : NoLostWakeup m where
  pops := by
    intro hsize hblocked
    obtain ⟨t, hs, hb⟩ := h.notEmpty.exists_signalled hsize hblocked
    exact ⟨t, h.awake_pops (h.pops t (m.notEmpty.signalled_subset hs)) hb⟩
  pushes := by
    intro hroom hblocked
    obtain ⟨t, hs, hb⟩ := h.notFull.exists_signalled hroom hblocked
    exact ⟨t, h.awake_pushes (h.pushes t (m.notFull.signalled_subset hs)) hb⟩

/-! ### One section -/

theorem finish_ring (s : System τ α) (a : Action τ α) (ring : RingThreads.Ring α)
    (ending : Ending α) : (RingThreads.finish s a ring ending).ring = ring := by
  cases ending <;> rfl

theorem finish_pc_of_ne (s : System τ α) (a : Action τ α) (ring : RingThreads.Ring α)
    (ending : Ending α) {t : τ} (ht : t ≠ a.thread) :
    (RingThreads.finish s a ring ending).pc t = s.pc t := by
  cases ending <;> exact Function.update_of_ne ht _ _

section
variable {m m' : Monitor τ α} {a : Action τ α} {woken : Finset τ} {ring : RingThreads.Ring α}
  {ending : Ending α} {ended : RingThreads.Ring α × Ending α}

theorem Signalling.pops_leave (h : Signalling m) (hfree : ¬ m.Blocked a.thread) {t : τ}
    (ht : t ∈ (m.notEmpty.leave a.thread).waiters) :
    Pops ((RingThreads.finish m.system a ring ending).pc t) := by
  obtain ⟨hne, hmem⟩ := Cond.mem_waiters_leave (fun hb => hfree (.inl hb)) ht
  rw [finish_pc_of_ne _ _ _ _ hne]
  exact h.pops t hmem

theorem Signalling.pushes_leave (h : Signalling m) (hfree : ¬ m.Blocked a.thread) {t : τ}
    (ht : t ∈ (m.notFull.leave a.thread).waiters) :
    Pushes ((RingThreads.finish m.system a ring ending).pc t) := by
  obtain ⟨hne, hmem⟩ := Cond.mem_waiters_leave (fun hb => hfree (.inr hb)) ht
  rw [finish_pc_of_ne _ _ _ _ hne]
  exact h.pushes t hmem

theorem Signalling.unsignalled_empty (h : Signalling m) {t : τ}
    (hpc : ¬ Pops (m.system.pc t)) : t ∉ m.notEmpty.signalled :=
  fun hs => hpc (h.pops t (m.notEmpty.signalled_subset hs))

theorem Signalling.unsignalled_full (h : Signalling m) {t : τ}
    (hpc : ¬ Pushes (m.system.pc t)) : t ∉ m.notFull.signalled :=
  fun hs => hpc (h.pushes t (m.notFull.signalled_subset hs))

/-- A thread that gives up takes no signal with it. -/
theorem Signalling.unsignalled (h : Signalling m) (hgave : GaveUp m.system a)
    (hresult : ∀ thread result, a = .wake thread result → result = m.result thread) :
    a.thread ∉ m.notEmpty.signalled ∧ a.thread ∉ m.notFull.signalled := by
  have hpops : ¬ Pops (m.system.pc a.thread) → a.thread ∉ m.notEmpty.signalled :=
    h.unsignalled_empty
  have hpushes : ¬ Pushes (m.system.pc a.thread) → a.thread ∉ m.notFull.signalled :=
    h.unsignalled_full
  rcases hgave with hpc | ⟨thread, result, rfl, hne⟩
  · rw [hpc] at hpops hpushes
    exact ⟨hpops id, hpushes id⟩
  · show thread ∉ m.notEmpty.signalled ∧ thread ∉ m.notFull.signalled
    rw [hresult thread result rfl, Monitor.result] at hne
    cases hpc : m.system.pc thread with
    | outside =>
      rw [hpc] at hne
      exact absurd rfl hne
    | pushing element timed =>
      simp only [hpc, ite_ne_right_iff] at hne
      refine ⟨hpops ?_, fun hs => m.notFull.notMem_waiters_of_expired hne.1 ?_⟩
      · rw [Action.thread, hpc]
        exact id
      · exact m.notFull.signalled_subset hs
    | popping timed =>
      simp only [hpc, ite_ne_right_iff] at hne
      refine ⟨fun hs => m.notEmpty.notMem_waiters_of_expired hne.1 ?_, hpushes ?_⟩
      · exact m.notEmpty.signalled_subset hs
      · rw [Action.thread, hpc]
        exact id

theorem signalEmpty_some {system : System τ α} {notEmpty notFull : Cond τ}
    (h : signalEmpty system notEmpty notFull woken = some m') :
    ∃ hw : notEmpty.CanWake woken, m' = ⟨system, notEmpty.signal woken hw.1, notFull⟩ := by
  unfold signalEmpty at h
  split at h
  · rename_i hw
    exact ⟨hw, (Option.some.inj h).symm⟩
  · cases h

theorem signalFull_some {system : System τ α} {notEmpty notFull : Cond τ}
    (h : signalFull system notEmpty notFull woken = some m') :
    ∃ hw : notFull.CanWake woken, m' = ⟨system, notEmpty, notFull.signal woken hw.1⟩ := by
  unfold signalFull at h
  split at h
  · rename_i hw
    exact ⟨hw, (Option.some.inj h).symm⟩
  · cases h

theorem Signalling.givesUp (h : Signalling m) (hfree : ¬ m.Blocked a.thread)
    (hgave : GaveUp m.system a)
    (hresult : ∀ thread result, a = .wake thread result → result = m.result thread)
    (hring : ring = m.system.ring)
    (hconserved : Conserved (RingThreads.finish m.system a ring ending)) :
    Signalling ⟨RingThreads.finish m.system a ring ending, m.notEmpty.leave a.thread,
      m.notFull.leave a.thread⟩ := by
  obtain ⟨hempty, hfull⟩ := h.unsignalled hgave hresult
  constructor
  · exact hconserved
  · rw [Monitor.size, finish_ring, hring]
    exact h.notEmpty.leave_unsignalled hempty
  · rw [Monitor.room, finish_ring, hring]
    exact h.notFull.leave_unsignalled hfull
  · exact fun t => h.pops_leave hfree
  · exact fun t => h.pushes_leave hfree

theorem Signalling.waitsFull (h : Signalling m) (hfree : ¬ m.Blocked a.thread)
    (hpc : ¬ Pops (m.system.pc a.thread)) {element : α} {timed : Bool}
    (hw : waiting m.system a = .pushing element timed)
    (hsize : m.system.ring.size = m.system.ring.capacity)
    (hring : ring = m.system.ring) (hended : ending = .waits)
    (hconserved : Conserved (RingThreads.finish m.system a ring ending)) :
    Signalling ⟨RingThreads.finish m.system a ring ending, m.notEmpty.leave a.thread,
      (m.notFull.leave a.thread).wait a.thread⟩ := by
  constructor
  · exact hconserved
  · rw [Monitor.size, finish_ring, hring]
    exact h.notEmpty.leave_unsignalled (h.unsignalled_empty hpc)
  · have hroom : m.system.ring.capacity.toNat - m.system.ring.size.toNat = 0 := by
      rw [hsize, Nat.sub_self]
    rw [Monitor.room, finish_ring, hring, hroom]
    exact Cond.served_zero _
  · exact fun t => h.pops_leave hfree
  · intro t ht
    rcases Cond.mem_waiters_wait ht with rfl | ht
    · subst hended
      show Pushes (Function.update m.system.pc _ (waiting m.system a) _)
      rw [Function.update_self, hw]
      trivial
    · exact h.pushes_leave hfree ht

theorem Signalling.waitsEmpty (h : Signalling m) (hfree : ¬ m.Blocked a.thread)
    (hpc : ¬ Pushes (m.system.pc a.thread)) {timed : Bool}
    (hw : waiting m.system a = .popping timed) (hsize : m.system.ring.size = 0)
    (hring : ring = m.system.ring) (hended : ending = .waits)
    (hconserved : Conserved (RingThreads.finish m.system a ring ending)) :
    Signalling ⟨RingThreads.finish m.system a ring ending,
      (m.notEmpty.leave a.thread).wait a.thread, m.notFull.leave a.thread⟩ := by
  constructor
  · exact hconserved
  · rw [Monitor.size, finish_ring, hring, hsize]
    exact Cond.served_zero _
  · rw [Monitor.room, finish_ring, hring]
    exact h.notFull.leave_unsignalled (h.unsignalled_full hpc)
  · intro t ht
    rcases Cond.mem_waiters_wait ht with rfl | ht
    · subst hended
      show Pops (Function.update m.system.pc _ (waiting m.system a) _)
      rw [Function.update_self, hw]
      trivial
    · exact h.pops_leave hfree ht
  · exact fun t => h.pushes_leave hfree

theorem Signalling.enqueued (h : Signalling m) (hfree : ¬ m.Blocked a.thread)
    (hpc : ¬ Pops (m.system.pc a.thread))
    (hsize : ring.size.toNat = m.system.ring.size.toNat + 1)
    (hlt : m.system.ring.size.toNat < m.system.ring.capacity.toNat)
    (hcapacity : ring.capacity = m.system.ring.capacity)
    (hconserved : Conserved (RingThreads.finish m.system a ring ending))
    (hw : (m.notEmpty.leave a.thread).CanWake woken) :
    Signalling ⟨RingThreads.finish m.system a ring ending,
      (m.notEmpty.leave a.thread).signal woken hw.1, m.notFull.leave a.thread⟩ := by
  constructor
  · exact hconserved
  · rw [Monitor.size, finish_ring, hsize]
    exact (h.notEmpty.leave_unsignalled (h.unsignalled_empty hpc)).signal hw
  · rw [Monitor.room, finish_ring, hsize, hcapacity]
    refine Cond.Served.leave (h.notFull.mono ?_) _
    show _ ≤ m.system.ring.capacity.toNat - m.system.ring.size.toNat
    omega
  · intro t ht
    rw [Cond.waiters_signal] at ht
    exact h.pops_leave hfree ht
  · exact fun t => h.pushes_leave hfree

theorem Signalling.dequeued (h : Signalling m) (hfree : ¬ m.Blocked a.thread)
    (hpc : ¬ Pushes (m.system.pc a.thread))
    (hsize : ring.size.toNat + 1 = m.system.ring.size.toNat)
    (hle : m.system.ring.size.toNat ≤ m.system.ring.capacity.toNat)
    (hcapacity : ring.capacity = m.system.ring.capacity)
    (hconserved : Conserved (RingThreads.finish m.system a ring ending))
    (hw : (m.notFull.leave a.thread).CanWake woken) :
    Signalling ⟨RingThreads.finish m.system a ring ending, m.notEmpty.leave a.thread,
      (m.notFull.leave a.thread).signal woken hw.1⟩ := by
  constructor
  · exact hconserved
  · rw [Monitor.size, finish_ring]
    exact Cond.Served.leave (h.notEmpty.mono (Nat.le_of_eq hsize)) _
  · rw [Monitor.room, finish_ring, hcapacity]
    refine ((h.notFull.leave_unsignalled (h.unsignalled_full hpc)).signal hw).mono ?_
    show _ ≤ m.system.ring.capacity.toNat - m.system.ring.size.toNat + 1
    omega
  · exact fun t => h.pops_leave hfree
  · intro t ht
    rw [Cond.waiters_signal] at ht
    exact h.pushes_leave hfree ht

theorem Signalling.finish (h : Signalling m) (hfree : ¬ m.Blocked a.thread)
    (hresult : ∀ thread result, a = .wake thread result → result = m.result thread)
    (hsection : sectionOf m.system a = some ended)
    (hm : m.finish a woken ended.1 ended.2 = some m') : Signalling m' := by
  have hconserved : Conserved (RingThreads.finish m.system a ended.1 ended.2) :=
    h.conserved.finish a (section_effect hsection)
  cases section_outcome hsection with
  | waitsFull hpc hw hsize =>
    simp only [Monitor.finish, hw, Option.some.injEq] at hm
    subst hm
    exact h.waitsFull hfree hpc hw hsize rfl rfl hconserved
  | waitsEmpty hpc hw hsize =>
    simp only [Monitor.finish, hw, Option.some.injEq] at hm
    subst hm
    exact h.waitsEmpty hfree hpc hw hsize rfl rfl hconserved
  | refused element hgave =>
    cases hm
    exact h.givesUp hfree hgave hresult rfl hconserved
  | enqueued element hpc hsize =>
    obtain ⟨hw, rfl⟩ := signalEmpty_some hm
    obtain ⟨hnew, hlt⟩ := size_enqueue h.conserved hsize element
    exact h.enqueued hfree hpc hnew hlt rfl hconserved hw
  | empty hgave =>
    cases hm
    exact h.givesUp hfree hgave hresult rfl hconserved
  | dequeued hpc hsize =>
    obtain ⟨hnew, hle, element, helement⟩ := size_dequeue h.conserved hsize
    simp only [Monitor.finish, helement] at hm
    obtain ⟨hw, rfl⟩ := signalFull_some hm
    rw [helement] at hconserved
    exact h.dequeued hfree hpc hnew hle rfl hconserved hw

/-- What a wait does by itself leaves its thread where it is, and the buffer with it. -/
theorem Signalling.waits (h : Signalling m) {notEmpty notFull : Cond τ}
    (hempty : notEmpty.Served m.size) (hfull : notFull.Served m.room)
    (hpops : ∀ t ∈ notEmpty.waiters, t ∈ m.notEmpty.waiters)
    (hpushes : ∀ t ∈ notFull.waiters, t ∈ m.notFull.waiters) :
    Signalling ⟨m.system, notEmpty, notFull⟩ :=
  ⟨h.conserved, hempty, hfull, fun t ht => h.pops t (hpops t ht),
    fun t ht => h.pushes t (hpushes t ht)⟩

end

/-! ### Every run -/

/-- No signal is spent on a wait that times out while another thread needs it. -/
def Spared (m : Monitor τ α) : Event τ α → Prop
  | .expire thread =>
    (thread ∈ m.notEmpty.signalled →
      m.notEmpty.blocked = ∅ ∨ m.size < m.notEmpty.signalled.card) ∧
    (thread ∈ m.notFull.signalled → m.notFull.blocked = ∅ ∨ m.room < m.notFull.signalled.card)
  | _ => True

theorem Signalling.run {m m' : Monitor τ α} {a : Action τ α} {woken : Finset τ}
    (h : Signalling m) (hfree : ¬ m.Blocked a.thread)
    (hresult : ∀ thread result, a = .wake thread result → result = m.result thread)
    (hm : m.run a woken = some m') : Signalling m' := by
  obtain ⟨ended, hsection, hfinish⟩ := Option.bind_eq_some_iff.mp hm
  exact h.finish hfree hresult hsection hfinish

theorem Signalling.free {m : Monitor τ α} (h : Signalling m) {t : τ}
    (hpc : m.system.pc t = .outside) : ¬ m.Blocked t := by
  rintro (hb | hb)
  · have hpops := h.pops t (Finset.mem_union_left _ hb)
    rw [hpc] at hpops
    exact hpops
  · have hpushes := h.pushes t (Finset.mem_union_left _ hb)
    rw [hpc] at hpushes
    exact hpushes

theorem Signalling.step {m m' : Monitor τ α} {e : Event τ α} (h : Signalling m)
    (hspared : Spared m e) (hm : m.step e = some m') : Signalling m' := by
  cases e with
  | push thread element timeoutMs timeOk woken =>
    obtain ⟨ended, hsection, _⟩ := Option.bind_eq_some_iff.mp hm
    have hpc := outside_of_section (a := .push thread element timeoutMs timeOk) hsection
      fun _ _ he => by cases he
    exact Signalling.run (a := .push thread element timeoutMs timeOk) h (h.free hpc)
      (fun _ _ he => by cases he) hm
  | pop thread timeoutMs timeOk woken =>
    obtain ⟨ended, hsection, _⟩ := Option.bind_eq_some_iff.mp hm
    have hpc := outside_of_section (a := .pop thread timeoutMs timeOk) hsection
      fun _ _ he => by cases he
    exact Signalling.run (a := .pop thread timeoutMs timeOk) h (h.free hpc)
      (fun _ _ he => by cases he) hm
  | resume thread woken =>
    simp only [Monitor.step] at hm
    split at hm
    · cases hm
    · rename_i hfree
      refine Signalling.run (a := .wake thread (m.result thread)) h hfree ?_ hm
      intro t result he
      cases he
      rfl
  | spurious thread =>
    simp only [Monitor.step] at hm
    split at hm
    · cases hm
      exact h.waits h.notEmpty (h.notFull.wakeUp thread) (fun _ => id)
        fun _ ht => m.notFull.waiters_wakeUp_subset thread ht
    · cases hm
      exact h.waits (h.notEmpty.wakeUp thread) h.notFull
        (fun _ ht => m.notEmpty.waiters_wakeUp_subset thread ht) fun _ => id
    · cases hm
  | expire thread =>
    simp only [Monitor.step] at hm
    split at hm
    · cases hm
      exact h.waits h.notEmpty (h.notFull.expire hspared.2) (fun _ => id)
        fun _ ht => m.notFull.waiters_expire_subset thread ht
    · cases hm
      exact h.waits (h.notEmpty.expire hspared.1) h.notFull
        (fun _ ht => m.notEmpty.waiters_expire_subset thread ht) fun _ => id
    · cases hm

theorem run_system {m m' : Monitor τ α} {a : Action τ α} {woken : Finset τ}
    (hm : m.run a woken = some m') : RingThreads.step m.system a = some m'.system := by
  obtain ⟨ended, hsection, hfinish⟩ := Option.bind_eq_some_iff.mp hm
  have hsystem : m'.system = RingThreads.finish m.system a ended.1 ended.2 := by
    unfold Monitor.finish at hfinish
    dsimp only at hfinish
    split at hfinish
    · split at hfinish <;> cases hfinish <;> simp only [*]
    · split at hfinish
      · obtain ⟨_, rfl⟩ := signalEmpty_some hfinish
        simp only [*]
      · cases hfinish
        simp only [*]
    · obtain ⟨_, rfl⟩ := signalFull_some hfinish
      simp only [*]
    · cases hfinish
      simp only [*]
  rw [RingThreads.step, hsection, hsystem, Option.map_some]

/-- Every run is one of `RingThreads`, where a wait may end at any time. -/
theorem system_reach {r : RingThreads.Ring α} {m : Monitor τ α}
    (h : Reach Monitor.step (fun _ _ => True) (start r) m) :
    Reach RingThreads.step (fun _ _ => True) (RingThreads.start r) m.system := by
  refine h.invariant (I := fun m => Reach RingThreads.step (fun _ _ => True)
    (RingThreads.start r) m.system) .start fun m e m' hm _ hstep => ?_
  cases e with
  | push thread element timeoutMs timeOk woken => exact hm.next _ trivial (run_system hstep)
  | pop thread timeoutMs timeOk woken => exact hm.next _ trivial (run_system hstep)
  | resume thread woken =>
    simp only [Monitor.step] at hstep
    split at hstep
    · cases hstep
    · exact hm.next _ trivial (run_system hstep)
  | spurious thread =>
    simp only [Monitor.step] at hstep
    split at hstep <;> cases hstep <;> exact hm
  | expire thread =>
    simp only [Monitor.step] at hstep
    split at hstep <;> cases hstep <;> exact hm

theorem no_lost_wakeup {capacity : UInt32} {mem : Slots (Option α) capacity.toNat}
    {r : RingThreads.Ring α} (hcreate : ringBufferCreate capacity mem = some r)
    {m : Monitor τ α} (h : Reach Monitor.step Spared (start r) m) : NoLostWakeup m := by
  have hsignalling : Signalling m := by
    refine h.invariant (signalling_start hcreate) ?_
    intro m e m' hm hspared hstep
    exact hm.step hspared hstep
  exact hsignalling.noLostWakeup

/-- Three threads wait; thread 3 gives up, and the push wakes thread 1. -/
theorem no_lost_wakeup_threeWait :
    ∃ m : Monitor ℕ ℕ, Reach Monitor.step Spared (start oneSlot) m ∧ m.size = 1 ∧
      m.notEmpty.blocked = {2} ∧ NoLostWakeup m := by
  have hstart : Reach (@Monitor.step ℕ ℕ _) Spared (start oneSlot) _ := .start
  have hfirst := hstart.next (Event.pop 1 (-1) true ∅) trivial rfl
  have hsecond := hfirst.next (Event.pop 2 100 true ∅) trivial rfl
  have hthird := hsecond.next (Event.pop 3 100 true ∅) trivial rfl
  have hexpired := hthird.next (Event.expire 3)
    ⟨fun h => absurd h (by decide), fun h => absurd h (by decide)⟩ rfl
  have hpushed := hexpired.next (Event.push 4 (some 5) 0 true {1}) trivial rfl
  exact ⟨_, hpushed, rfl, by decide, no_lost_wakeup oneSlot_created hpushed⟩

/-- Thread 1 waits for an element and thread 2 until a deadline. The push wakes thread 2, the
deadline passes first, and the element stays where it is. -/
theorem wakeup_lost :
    ¬ ∀ m : Monitor ℕ ℕ, Reach Monitor.step (fun _ _ => True) (start oneSlot) m →
      NoLostWakeup m := by
  intro hall
  have hstart : Reach (@Monitor.step ℕ ℕ _) (fun _ _ => True) (start oneSlot) _ := .start
  have hfirst := hstart.next (.pop 1 (-1) true ∅) trivial rfl
  have hsecond := hfirst.next (.pop 2 100 true ∅) trivial rfl
  have hpushed := hsecond.next (.push 3 (some 5) 0 true {2}) trivial rfl
  have hexpired := hpushed.next (.expire 2) trivial rfl
  have hgone := hexpired.next (.resume 2 ∅) trivial rfl
  obtain ⟨t, hpc, hfree⟩ := (hall _ hgone).pops (by decide) (by decide)
  have hone : t ≠ 1 := by
    rintro rfl
    exact hfree (by decide)
  apply hpc
  show Function.update (Function.update (Function.update (Function.update
    (fun _ => Pc.outside) 1 (.popping false)) 2 (.popping true)) 3 .outside) 2 .outside t = _
  simp only [Function.update_apply, hone, if_false]
  split_ifs <;> rfl

end CSimples.RingSignals
