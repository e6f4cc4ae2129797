import CSimples.Central.ClaimSafety

/-!
# Heap copies of tasks (task_manager.c:52-69, 86-125, central_server.c:218-248)

`task_manager_create_task` allocates a copy of every task, the handler that pops it
frees it, and `task_manager_destroy` frees what is still queued. No copy is lost in
between, by any interleaving: it is queued, or one thread has it.
-/

namespace CSimples.TaskCopies
open Block Circular RingBuffer Run TaskManager TaskClaims ClaimSafety

variable {τ : Type}

/-- The address a thread would have to free or to queue. -/
def holds : Pc → Option ℕ
  | .pushing p | .popped p _ | .sending p | .unmarked p => some p
  | .outside | .copying _ => none

def Owned (s : State τ) (p : ℕ) : Prop :=
  p ∈ s.queue.content ∨ ∃ thread, holds (s.pc thread) = some p

def NoneLost (s : State τ) : Prop := ∀ p, (s.heap p).isSome → Owned s p

theorem holds_cases {pc : Pc} {p : ℕ} (h : holds pc = some p) :
    pc = .pushing p ∨ pc.claimed = some p := by
  cases pc with
  | outside => cases h
  | pushing q =>
    cases h
    exact .inl rfl
  | copying q => cases h
  | popped q workerId => exact .inr h
  | sending q => exact .inr h
  | unmarked q => exact .inr h

/-! ### `task_manager_destroy` -/

/-- `idx` of ring_buffer.c:77. -/
def destroyIndex (rb : RingBuf ℕ) (i : ℕ) : ℕ := (rb.head + i) % 2^32 % rb.capacity

/-- The addresses `ring_buffer_destroy` hands to `free`. -/
def freed (rb : RingBuf ℕ) : List ℕ :=
  (drain (destroyIndex rb) rb.size (rb.buffer.map some)).1.filterMap id

def taskManagerDestroy (s : State τ) : ℕ → Option Task := fun p =>
  if p ∈ freed s.queue then none else s.heap p

theorem freed_eq {rb : RingBuf ℕ} (hcap : rb.capacity ≤ 2^31) : freed rb = rb.content := by
  have hpos : 0 < rb.capacity := Nat.lt_of_le_of_lt (Nat.zero_le _) rb.head_lt
  have hindex : ∀ i < rb.size, destroyIndex rb i = (rb.head + i) % rb.capacity := by
    intro i hi
    have hhead := rb.head_lt
    have hsize := rb.size_le
    rw [destroyIndex, Nat.mod_eq_of_lt (show rb.head + i < 2^32 by omega)]
  have hdistinct : ∀ i j, i < j → j < rb.size → destroyIndex rb i ≠ destroyIndex rb j := by
    intro i j hij hj
    have hsize := rb.size_le
    rw [hindex i (by omega), hindex j hj]
    exact slot_ne hij (by omega)
  have htaken : (drain (destroyIndex rb) rb.size (rb.buffer.map some)).1 =
      rb.content.map some := by
    rw [drain_taken hdistinct, RingBuf.content,
      window_eq_map rb.buffer_length hpos _ _ 0, List.map_map]
    apply List.map_congr_left
    intro i hi
    have hlt : (rb.head + i) % rb.capacity < rb.buffer.length := by
      rw [rb.buffer_length]
      exact Nat.mod_lt _ hpos
    rw [hindex i (List.mem_range.mp hi)]
    simp [List.getElem?_eq_getElem hlt]
  rw [freed, htaken, List.filterMap_map]
  simp

/-! ### No section loses a copy -/

variable {s s' : State τ} {thread : τ} {p : ℕ} [DecidableEq τ]

/-- A thread that goes on may let go of an address that is queued or free now. -/
theorem NoneLost.jump (h : NoneLost s) (thread : τ) (pc : Pc) (hpc : s'.pc = (s.jump thread pc).pc)
    (hheap : ∀ q, (s'.heap q).isSome →
      (s.heap q).isSome ∨ q ∈ s'.queue.content ∨ holds pc = some q)
    (hqueue : ∀ q ∈ s.queue.content, (s'.heap q).isSome →
      q ∈ s'.queue.content ∨ holds pc = some q)
    (hheld : ∀ q, holds (s.pc thread) = some q → (s'.heap q).isSome →
      q ∈ s'.queue.content ∨ holds pc = some q) : NoneLost s' := by
  have hself : s'.pc thread = pc := by
    rw [hpc]
    exact Function.update_self _ _ _
  have hnow : ∀ q, q ∈ s'.queue.content ∨ holds pc = some q → Owned s' q := by
    rintro q (hq | hq)
    · exact .inl hq
    · exact .inr ⟨thread, by rw [hself]; exact hq⟩
  intro q hq
  rcases hheap q hq with hold | hnew
  · rcases h q hold with hqueued | ⟨other, hother⟩
    · exact hnow q (hqueue q hqueued hq)
    · by_cases ho : other = thread
      · subst other
        exact hnow q (hheld q hother hq)
      · refine .inr ⟨other, ?_⟩
        rw [hpc]
        exact (congrArg holds (Function.update_of_ne ho _ _)).trans hother
  · exact hnow q hnew

theorem noneLost_create (h : NoneLost s) (hpc : s.pc thread = .outside)
    {inputData : Option (List UInt8)} {inputSize : ℕ} {mem : Option (ℕ × Task)}
    (hstep : createSection s thread inputData inputSize mem = some s') : NoneLost s' := by
  rcases create_cases hstep with rfl | ⟨p, task, _, _, _, _, rfl⟩
  · exact h
  refine h.jump thread (.pushing p) rfl ?_ (fun q hq _ => .inl hq) ?_
  · intro q hq
    by_cases hqp : q = p
    · exact .inr (.inr (congrArg some hqp.symm))
    · have hsame : (s.begin thread p task).heap q = s.heap q := Function.update_of_ne hqp _ _
      rw [hsame] at hq
      exact .inl hq
  · intro q hq
    rw [hpc] at hq
    cases hq

theorem noneLost_freed (h : NoneLost s) (hheld : holds (s.pc thread) = some p)
    (hpc : s'.pc = (s.jump thread .outside).pc) (hheap : s'.heap = (s.free p).heap)
    (hqueue : s'.queue = s.queue) : NoneLost s' := by
  have hfreed : s'.heap p = none := by
    rw [hheap]
    exact Function.update_self _ _ _
  have hsame : ∀ q, q ≠ p → s'.heap q = s.heap q := by
    intro q hq
    rw [hheap]
    exact heap_free hq
  refine h.jump thread _ hpc ?_ ?_ ?_
  · intro q hq
    by_cases hqp : q = p
    · rw [hqp, hfreed] at hq
      cases hq
    · rw [hsame q hqp] at hq
      exact .inl hq
  · intro q hq _
    rw [hqueue]
    exact .inl hq
  · intro q hq hsome
    rw [hheld] at hq
    cases hq
    rw [hfreed] at hsome
    cases hsome

theorem noneLost_push (h : NoneLost s) (hpc : s.pc thread = .pushing p) :
    NoneLost (pushSection s thread p) := by
  have hheld : holds (s.pc thread) = some p := by rw [hpc]; rfl
  rcases push_cases s thread p with hfail | ⟨queue, hcontent, hok⟩
  · rw [hfail]
    exact noneLost_freed h hheld rfl rfl rfl
  · rw [hok]
    refine h.jump thread (.copying p) rfl (fun q hq => .inl hq) ?_ ?_
    · intro q hq _
      show q ∈ queue.content ∨ _
      rw [hcontent]
      exact .inl (List.mem_append_left _ hq)
    · intro q hq _
      rw [hheld] at hq
      cases hq
      show p ∈ queue.content ∨ _
      rw [hcontent]
      exact .inl (List.mem_append_right _ (List.mem_singleton_self p))

theorem noneLost_claim (h : NoneLost s) (hpc : s.pc thread = .outside) (workerId : ℕ)
    (idle : Bool) : NoneLost (claimSection s thread workerId idle) := by
  rcases claim_cases s thread workerId idle with hsame | ⟨p, queue, hcontent, htake⟩
  · rw [hsame]
    exact h
  · rw [htake]
    refine h.jump thread (.popped p workerId) rfl (fun q hq => .inl hq) ?_ ?_
    · intro q hq _
      rw [hcontent] at hq
      rcases List.mem_cons.mp hq with rfl | hq
      · exact .inr rfl
      · exact .inl hq
    · intro q hq
      rw [hpc] at hq
      cases hq

theorem noneLost_mark (h : NoneLost s) {workerId : ℕ} (hpc : s.pc thread = .popped p workerId)
    {now : ℤ} (hstep : markSection s thread p workerId now = some s') : NoneLost s' := by
  have hheld : ∀ pc, holds pc = some p → ∀ s'' : State τ, s''.pc = (s.jump thread pc).pc →
      s''.heap = s.heap → s''.queue = s.queue → NoneLost s'' := by
    intro pc hp s'' hpc' hheap hqueue
    refine h.jump thread _ hpc' ?_ ?_ ?_
    · intro q hq
      rw [hheap] at hq
      exact .inl hq
    · intro q hq _
      rw [hqueue]
      exact .inl hq
    · intro q hq _
      rw [hpc] at hq
      cases hq
      exact .inr hp
  unfold markSection at hstep
  split at hstep
  · cases hstep
  · split at hstep
    · cases hstep
      exact hheld (.unmarked p) rfl _ rfl rfl rfl
    · cases hstep
      refine hheld _ ?_ _ rfl rfl rfl
      split <;> rfl

theorem noneLost_step (h : NoneLost s) {a : Action τ} (hstep : step s a = some s') :
    NoneLost s' := by
  cases a with
  | create thread inputData inputSize mem =>
    simp only [step] at hstep
    split at hstep
    · rename_i hpc
      exact noneLost_create h hpc hstep
    · cases hstep
  | push thread =>
    simp only [step] at hstep
    split at hstep
    · rename_i p hpc
      cases hstep
      exact noneLost_push h hpc
    · cases hstep
  | copy thread now =>
    simp only [step] at hstep
    split at hstep
    · rename_i p hpc
      cases hstep
      refine h.jump thread .outside rfl (fun q hq => .inl hq)
        (fun q hq _ => .inl hq) fun q hq => ?_
      rw [hpc] at hq
      cases hq
    · cases hstep
  | claim thread workerId idle =>
    simp only [step] at hstep
    split at hstep
    · rename_i hpc
      cases hstep
      exact noneLost_claim h hpc workerId idle
    · cases hstep
  | mark thread now =>
    simp only [step] at hstep
    split at hstep
    · rename_i p workerId hpc
      exact noneLost_mark h hpc hstep
    · cases hstep
  | release thread =>
    simp only [step] at hstep
    split at hstep
    · rename_i p hpc
      cases hstep
      exact noneLost_freed h (by rw [hpc]; rfl) rfl rfl rfl
    · rename_i p hpc
      cases hstep
      exact noneLost_freed h (by rw [hpc]; rfl) rfl rfl rfl
    · cases hstep

/-! ### Every interleaving -/

omit [DecidableEq τ] in
theorem allocated_of_owned (hinv : ClaimSafety.Inv s) (h : Owned s p) : (s.heap p).isSome := by
  rcases h with hqueued | ⟨thread, hheld⟩
  · exact (hinv.queued p hqueued).allocated
  · rcases holds_cases hheld with hpc | hclaimed
    · have hat := hinv.threads thread
      rw [hpc] at hat
      obtain ⟨task, htask, _⟩ := hat.2.2.newest
      rw [htask]
      rfl
    · exact (hinv.claimed hclaimed).allocated

omit [DecidableEq τ] in
/-- What a thread has is neither queued nor with another thread. -/
theorem held_alone (hinv : ClaimSafety.Inv s) (h : holds (s.pc thread) = some p) :
    p ∉ s.queue.content ∧ ∀ other, holds (s.pc other) = some p → other = thread := by
  rcases holds_cases h with hpc | hclaimed
  · have hat := hinv.threads thread
    rw [hpc] at hat
    obtain ⟨howner, _, hfresh⟩ := hat
    refine ⟨hfresh.unqueued, fun other hother => ?_⟩
    rcases holds_cases hother with hpc' | hclaimed'
    · exact hinv.made_unique howner (.inl hpc')
    · exact absurd hclaimed' (hfresh.unclaimed other)
  · have hc := hinv.claimed hclaimed
    refine ⟨hc.unqueued, fun other hother => ?_⟩
    rcases holds_cases hother with hpc' | hclaimed'
    · have hat := hinv.threads other
      rw [hpc'] at hat
      exact absurd hclaimed (hat.2.2.unclaimed thread)
    · exact hc.alone other hclaimed'

omit [DecidableEq τ] in
theorem push_capacity (rb : RingBuf ℕ) (element : Option ℕ) :
    (ringBufferPush rb element).2.capacity = rb.capacity := by
  unfold ringBufferPush
  split
  · rfl
  · split <;> rfl

omit [DecidableEq τ] in
theorem pop_capacity (rb : RingBuf ℕ) : (ringBufferPop rb).2.capacity = rb.capacity := by
  unfold ringBufferPop
  split <;> rfl

theorem claim_capacity (s : State τ) (thread : τ) (workerId : ℕ) (idle : Bool) :
    (claimSection s thread workerId idle).queue.capacity = s.queue.capacity := by
  have hpop := pop_capacity s.queue
  unfold claimSection
  split
  · rfl
  · split
    · rename_i queue hq
      rw [hq] at hpop
      exact hpop
    · rename_i p queue hq
      rw [hq] at hpop
      exact hpop

theorem step_capacity {a : Action τ} (hstep : step s a = some s') :
    s'.queue.capacity = s.queue.capacity := by
  cases a with
  | create thread inputData inputSize mem =>
    simp only [step] at hstep
    split at hstep
    · rcases create_cases hstep with rfl | ⟨p, task, _, _, _, _, rfl⟩ <;> rfl
    · cases hstep
  | push thread =>
    simp only [step] at hstep
    split at hstep
    · rename_i p hpc
      cases hstep
      unfold pushSection
      dsimp only
      split
      · rfl
      · exact push_capacity s.queue (some p)
    · cases hstep
  | copy thread now =>
    simp only [step] at hstep
    split at hstep
    · cases hstep
      rfl
    · cases hstep
  | claim thread workerId idle =>
    simp only [step] at hstep
    split at hstep
    · cases hstep
      exact claim_capacity s thread workerId idle
    · cases hstep
  | mark thread now =>
    simp only [step] at hstep
    split at hstep
    · unfold markSection at hstep
      split at hstep
      · cases hstep
      · split at hstep <;> cases hstep <;> rfl
    · cases hstep
  | release thread =>
    simp only [step] at hstep
    split at hstep <;> cases hstep <;> rfl

/-- In every interleaving the copies in use are those that are queued or in the hands of
one thread, nothing is owned twice, and once all threads have left the manager,
destroying it frees every copy. -/
theorem task_copies_owned {capacity queueSize : ℕ} {hq : queueSize < 2^32}
    {mem : Slots TaskInfo capacity} {queueMem : Slots ℕ queueSize} {s : State τ}
    (hcreate : managerCreate τ capacity queueSize hq mem queueMem = some s)
    (hsize : queueSize ≤ 2^31) {t : Trace τ} (h : Reach advance Named ⟨s, 0⟩ t)
    (hattempts : t.attempts < 2^32 - 1) :
    (∀ p, (t.state.heap p).isSome ↔ Owned t.state p) ∧ t.state.queue.content.Nodup ∧
      (∀ thread p, holds (t.state.pc thread) = some p → p ∉ t.state.queue.content ∧
        ∀ other, holds (t.state.pc other) = some p → other = thread) ∧
      ((∀ thread, t.state.pc thread = .outside) → ∀ p, taskManagerDestroy t.state p = none) := by
  obtain ⟨hstart, hone⟩ := managerCreate_inv hcreate
  have hfirst : NoneLost s ∧ s.queue.capacity = queueSize := by
    unfold managerCreate at hcreate
    split at hcreate
    · cases hcreate
    · obtain ⟨tasks, _, hcreate⟩ := Option.bind_eq_some_iff.mp hcreate
      obtain ⟨queue, hqueue, hcreate⟩ := Option.bind_eq_some_iff.mp hcreate
      cases hcreate
      exact ⟨fun p hp => absurd hp Bool.false_ne_true, (create_content hqueue).2⟩
  have hall : Bounded t ∧ NoneLost t.state ∧ t.state.queue.capacity = queueSize := by
    refine h.invariant (I := fun t => Bounded t ∧ NoneLost t.state ∧
      t.state.queue.capacity = queueSize) ⟨fun _ => ⟨hstart, ?_⟩, hfirst⟩ ?_
    · simp only [hone]
      omega
    · rintro u a u' ⟨hb, hlost, hcap⟩ ha hadvance
      have hbounded := bounded_advance hb ha hadvance
      obtain ⟨next, hstep, rfl⟩ := Option.map_eq_some_iff.mp hadvance
      exact ⟨hbounded, noneLost_step hlost hstep, (step_capacity hstep).trans hcap⟩
  obtain ⟨hbounded, hlost, hcap⟩ := hall
  obtain ⟨hinv, _⟩ := hbounded hattempts
  refine ⟨fun p => ⟨hlost p, allocated_of_owned hinv⟩, hinv.nodup,
    fun thread p hheld => held_alone hinv hheld, fun hleft p => ?_⟩
  unfold taskManagerDestroy
  rw [freed_eq (by omega)]
  split
  · rfl
  · rename_i hnot
    by_contra hne
    rcases hlost p (Option.isSome_iff_ne_none.mpr hne) with hqueued | ⟨thread, hheld⟩
    · exact hnot hqueued
    · rw [hleft thread] at hheld
      cases hheld

theorem task_copies_owned_oneEntry :
    ∃ t : Trace ℕ, Reach advance Named ⟨oneEntry, 0⟩ t ∧ t.state.queue.content = [5] ∧
      ∀ p, taskManagerDestroy t.state p = none := by
  have hstart : Reach (@advance ℕ _) Named ⟨oneEntry, 0⟩ ⟨oneEntry, 0⟩ := .start
  have hcreated := hstart.next (Action.create 1 (some [7]) 1 (some (5, emptyTask))) trivial rfl
  have hpushed := hcreated.next (Action.push 1) trivial rfl
  have hcopied := hpushed.next (Action.copy 1 20) trivial rfl
  refine ⟨_, hcopied, rfl, ?_⟩
  refine (task_copies_owned oneEntry_created (by decide) hcopied (by decide)).2.2.2 ?_
  intro thread
  by_cases hone : thread = 1
  · subst hone
    rfl
  · have hout : ∀ (pcs : ℕ → Pc) (pc : Pc), Function.update pcs 1 pc thread = pcs thread :=
      fun pcs pc => Function.update_of_ne hone pc pcs
    exact ((hout _ _).trans (hout _ _)).trans (hout _ _)

end CSimples.TaskCopies
