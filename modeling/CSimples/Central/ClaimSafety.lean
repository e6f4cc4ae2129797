import CSimples.Central.TaskClaims

/-!
# A queued task can be claimed

An address is in the queue, or in the hands of one handler thread, and until its
producer has left `task_manager_create_task` no handler thread is past the search
of `tasks[]` with it. So the record is found, and the heap task outlives the copy.
-/

namespace CSimples.ClaimSafety
open Block Keyed RingBuffer Run TaskManager TaskClaims

variable {τ : Type}

/-! ### The invariant -/

/-- The heap task has a record, or a producer that is about to write it. -/
def Known (s : State τ) (p : ℕ) : Prop :=
  ∃ task, s.heap p = some task ∧ 0 < task.taskId ∧
    ((∃ t ∈ s.live, t.id = task.taskId) ∨ ∃ thread, s.pc thread = .copying p)

structure Claimed (s : State τ) (thread : τ) (p : ℕ) : Prop where
  unqueued : p ∉ s.queue.content
  allocated : (s.heap p).isSome
  alone : ∀ other, (s.pc other).claimed = some p → other = thread

structure Fresh (s : State τ) (p : ℕ) : Prop where
  unqueued : p ∉ s.queue.content
  unclaimed : ∀ other, (s.pc other).claimed ≠ some p
  newest : ∃ task, s.heap p = some task ∧ 0 < task.taskId ∧ task.taskId < s.nextTaskId ∧
    ∀ id ∈ s.published, id < task.taskId

def At (s : State τ) (thread : τ) : Pc → Prop
  | .outside => True
  | .pushing p => s.owner = some thread ∧ s.count < s.tasks.length ∧ Fresh s p
  | .copying p => s.owner = some thread ∧ s.count < s.tasks.length ∧ (s.heap p).isSome ∧
      ∀ other, s.pc other ≠ .sending p
  | .popped p workerId => workerId ≠ 0 ∧ Claimed s thread p ∧ Known s p
  | .sending p => Claimed s thread p
  | .unmarked _ => False

structure Inv (s : State τ) : Prop where
  next_pos : 0 < s.nextTaskId
  count_le : s.count ≤ s.tasks.length
  threads : ∀ thread, At s thread (s.pc thread)
  nodup : s.queue.content.Nodup
  queued : ∀ p ∈ s.queue.content, Known s p
  order : s.published = s.popped ++ s.queue.content.flatMap s.idAt
  sorted : s.published.Pairwise (· < ·)
  below : ∀ id ∈ s.published, id < s.nextTaskId

variable {s s' : State τ} {thread other : τ} {p q : ℕ}

theorem Claimed.frame (h : Claimed s other q) (hq : q ∉ s'.queue.content)
    (hheap : (s'.heap q).isSome)
    (hpc : ∀ x, (s'.pc x).claimed = some q → (s.pc x).claimed = some q) : Claimed s' other q :=
  ⟨hq, hheap, fun x hx => h.alone x (hpc x hx)⟩

theorem Known.frame (h : Known s q) (hheap : s'.heap q = s.heap q)
    (hlive : ∀ t ∈ s.live, ∃ t' ∈ s'.live, t'.id = t.id)
    (hcopy : ∀ x task, s.pc x = .copying q → s.heap q = some task →
      s'.pc x = .copying q ∨ ∃ t ∈ s'.live, t.id = task.taskId) : Known s' q := by
  obtain ⟨task, htask, hpos, ⟨t, ht, hid⟩ | ⟨x, hx⟩⟩ := h
  · obtain ⟨t', ht', hid'⟩ := hlive t ht
    exact ⟨task, hheap.trans htask, hpos, .inl ⟨t', ht', hid'.trans hid⟩⟩
  · rcases hcopy x task hx htask with hx' | ht
    · exact ⟨task, hheap.trans htask, hpos, .inr ⟨x, hx'⟩⟩
    · exact ⟨task, hheap.trans htask, hpos, .inl ht⟩

theorem Known.allocated (h : Known s q) : (s.heap q).isSome := by
  obtain ⟨task, htask, _⟩ := h
  rw [htask]
  rfl

theorem Inv.made_owner (hinv : Inv s) (h : s.pc thread = .pushing p ∨ s.pc thread = .copying p) :
    s.owner = some thread := by
  have hat := hinv.threads thread
  rcases h with hpc | hpc
  · rw [hpc] at hat
    exact hat.1
  · rw [hpc] at hat
    exact hat.1

theorem Inv.claimed (hinv : Inv s) (h : (s.pc thread).claimed = some p) : Claimed s thread p := by
  have hat := hinv.threads thread
  cases hpc : s.pc thread with
  | popped p' workerId =>
    rw [hpc] at h hat
    cases h
    exact hat.2.1
  | sending p' =>
    rw [hpc] at h hat
    cases h
    exact hat
  | unmarked p' =>
    rw [hpc] at hat
    exact hat.elim
  | outside =>
    rw [hpc] at h
    cases h
  | pushing p' =>
    rw [hpc] at h
    cases h
  | copying p' =>
    rw [hpc] at h
    cases h

theorem At.frame {pc : Pc} (h : At s other pc)
    (hmade : ∀ q, pc = .pushing q ∨ pc = .copying q → At s' other pc)
    (hclaimed : ∀ q, pc.claimed = some q → Claimed s other q → Claimed s' other q)
    (hknown : ∀ q, pc.claimed = some q → Known s q → Known s' q) : At s' other pc := by
  cases pc with
  | outside => trivial
  | pushing q => exact hmade q (.inl rfl)
  | copying q => exact hmade q (.inr rfl)
  | popped q workerId =>
    obtain ⟨hw, hc, hk⟩ := h
    exact ⟨hw, hclaimed q rfl hc, hknown q rfl hk⟩
  | sending q => exact hclaimed q rfl h
  | unmarked q => exact h.elim

/-! ### The sections keep the invariant -/

theorem flatMap_idAt_congr {s s' : State τ} {l : List ℕ} (h : ∀ q ∈ l, s'.heap q = s.heap q) :
    l.flatMap s'.idAt = l.flatMap s.idAt :=
  List.flatMap_congr fun q hq => by rw [State.idAt, State.idAt, h q hq]

/-- Only the holder of the mutex can be between the push and the end of the copy. -/
theorem Inv.made_unique (hinv : Inv s) (howner : s.owner = some thread)
    (h : s.pc other = .pushing q ∨ s.pc other = .copying q) : other = thread := by
  have hother := hinv.made_owner h
  rw [howner] at hother
  exact (Option.some.inj hother).symm

theorem Inv.none_made (hinv : Inv s) (howner : s.owner = none) (x : τ) (q : ℕ) :
    ¬ (s.pc x = .pushing q ∨ s.pc x = .copying q) := by
  intro h
  have hx := hinv.made_owner h
  rw [howner] at hx
  cases hx

variable [DecidableEq τ]

theorem forall_jump {P : τ → Pc → Prop} {pc : Pc} (hnew : P thread pc)
    (hrest : ∀ other, other ≠ thread → P other (s.pc other)) :
    ∀ other, P other ((s.jump thread pc).pc other) := by
  intro other
  by_cases ho : other = thread
  · subst ho
    simpa only [State.jump, Function.update_self] using hnew
  · simpa only [State.jump, Function.update_of_ne ho] using hrest other ho

theorem claimed_move {pc : Pc} (h : pc.claimed = some q → (s.pc thread).claimed = some q) :
    ∀ x, ((s.jump thread pc).pc x).claimed = some q → (s.pc x).claimed = some q :=
  forall_jump (P := fun x pc => pc.claimed = some q → (s.pc x).claimed = some q) h fun _ _ hx => hx

theorem claimed_jump {pc : Pc} (hpc : pc.claimed = none) :
    ∀ x, ((s.jump thread pc).pc x).claimed = some q → (s.pc x).claimed = some q := by
  refine claimed_move fun h => ?_
  rw [hpc] at h
  cases h

theorem copying_jump {pc : Pc} (hpc : ∀ q, s.pc thread ≠ .copying q) :
    ∀ x, s.pc x = .copying q → (s.jump thread pc).pc x = .copying q :=
  forall_jump (P := fun x pc => s.pc x = .copying q → pc = .copying q)
    (fun h => absurd h (hpc q)) fun _ _ hx => hx

theorem create_cases {inputData : Option (List UInt8)} {inputSize : ℕ} {mem : Option (ℕ × Task)}
    (h : createSection s thread inputData inputSize mem = some s') : s' = s ∨
      ∃ p task, s.owner = none ∧ s.count < s.tasks.length ∧ s.heap p = none ∧
        task.taskId = s.nextTaskId ∧
        s' = s.begin thread p task := by
  unfold createSection at h
  split at h
  · exact .inl (Option.some.inj h).symm
  · split at h
    · exact .inl (Option.some.inj h).symm
    · split at h
      · cases h
      · rename_i howner
        split at h
        · exact .inl (Option.some.inj h).symm
        · rename_i hroom
          split at h
          · exact .inl (Option.some.inj h).symm
          · rename_i p block
            split at h
            · cases h
            · rename_i hheap
              exact .inr ⟨p, _, by simpa using howner, by omega, by simpa using hheap, rfl,
                (Option.some.inj h).symm⟩

theorem inv_create (hinv : Inv s) (hpc : s.pc thread = .outside) (hnext : s.nextTaskId + 1 < 2^32)
    {inputData : Option (List UInt8)} {inputSize : ℕ} {mem : Option (ℕ × Task)}
    (h : createSection s thread inputData inputSize mem = some s') :
    Inv s' ∧ s'.nextTaskId ≤ s.nextTaskId + 1 := by
  rcases create_cases h with rfl | ⟨p, task, howner, hroom, hheap, hid, rfl⟩
  · exact ⟨hinv, Nat.le_succ _⟩
  have hwrap : (s.nextTaskId + 1) % 2^32 = s.nextTaskId + 1 := Nat.mod_eq_of_lt hnext
  have hne : ∀ q, (s.heap q).isSome → q ≠ p := by
    rintro q hq rfl
    rw [hheap] at hq
    cases hq
  have hsame : ∀ q, (s.heap q).isSome →
      Function.update s.heap p (some task) q = s.heap q := fun q hq =>
    Function.update_of_ne (hne q hq) _ _
  have hfree := hinv.none_made howner
  have hclaimed : ∀ x q, Claimed s x q → Claimed (s.begin thread p task) x q := fun x q hx =>
    hx.frame hx.unqueued ((congrArg Option.isSome (hsame q hx.allocated)).trans hx.allocated)
      (claimed_jump rfl)
  have hknown : ∀ q, Known s q → Known (s.begin thread p task) q := fun q hq =>
    hq.frame (hsame q hq.allocated) (fun t ht => ⟨t, ht, rfl⟩)
      fun x _ hx => absurd (.inr hx) (hfree x q)
  have hnext' : (s.begin thread p task).nextTaskId = s.nextTaskId + 1 := hwrap
  refine ⟨⟨?_, hinv.count_le, ?_, hinv.nodup, fun q hq => hknown q (hinv.queued q hq), ?_,
    hinv.sorted, ?_⟩, by rw [hnext']⟩
  · omega
  · refine forall_jump (P := fun x pc => At _ x pc) ?_ fun other _ =>
      (hinv.threads other).frame (fun q hq => absurd hq (hfree other q))
        (fun q _ => hclaimed other q) fun q _ => hknown q
    refine ⟨rfl, hroom, fun hq => hne p (hinv.queued p hq).allocated rfl, fun x hx => ?_, task,
      Function.update_self p _ _, by rw [hid]; exact hinv.next_pos, ?_, fun id hm => ?_⟩
    · exact hne p (hinv.claimed (claimed_jump rfl x hx)).allocated rfl
    · rw [hid, hnext']
      exact Nat.lt_succ_self _
    · rw [hid]
      exact hinv.below id hm
  · exact hinv.order.trans (congrArg _ (flatMap_idAt_congr fun q hq =>
      hsame q (hinv.queued q hq).allocated).symm)
  · intro id hm
    rw [hnext']
    exact Nat.lt_succ_of_lt (hinv.below id hm)

omit [DecidableEq τ] in
theorem heap_free (hq : q ≠ p) : (s.free p).heap q = s.heap q := Function.update_of_ne hq _ _

theorem inv_withdraw (hinv : Inv s) (hpc : s.pc thread = .pushing p) :
    Inv (s.withdraw thread p) := by
  have hat := hinv.threads thread
  rw [hpc] at hat
  obtain ⟨howner, _, hfresh⟩ := hat
  have hqueue : ∀ q ∈ s.queue.content, q ≠ p := by
    rintro q hq rfl
    exact hfresh.unqueued hq
  have hcopy : ∀ x q, s.pc x ≠ .copying q := fun x q hx => by
    obtain rfl := hinv.made_unique howner (.inr hx)
    rw [hpc] at hx
    cases hx
  have hknown : ∀ q, q ≠ p → Known s q → Known (s.withdraw thread p) q := fun q hne hq =>
    hq.frame (heap_free hne) (fun t ht => ⟨t, ht, rfl⟩) fun x _ hx => absurd hx (hcopy x q)
  refine ⟨hinv.next_pos, hinv.count_le, ?_, hinv.nodup,
    fun q hq => hknown q (hqueue q hq) (hinv.queued q hq), ?_, hinv.sorted, hinv.below⟩
  · refine forall_jump (P := fun x pc => At _ x pc) trivial fun other ho => ?_
    have hne : ∀ q, (s.pc other).claimed = some q → q ≠ p := by
      rintro q hq rfl
      exact hfresh.unclaimed other hq
    refine (hinv.threads other).frame (fun q hq => absurd (hinv.made_unique howner hq) ho)
      (fun q hq hc => hc.frame hc.unqueued ?_ (claimed_jump rfl)) fun q hq => hknown q (hne q hq)
    exact (congrArg Option.isSome (heap_free (hne q hq))).trans hc.allocated
  · exact hinv.order.trans (congrArg _ (flatMap_idAt_congr fun q hq =>
      heap_free (hqueue q hq)).symm)

theorem inv_publish (hinv : Inv s) (hpc : s.pc thread = .pushing p) {queue : RingBuf ℕ}
    (hcontent : queue.content = s.queue.content ++ [p]) : Inv (s.publish thread p queue) := by
  have hat := hinv.threads thread
  rw [hpc] at hat
  obtain ⟨howner, hroom, hunqueued, hunclaimed, task, hheap, hpos, hlt, hnewest⟩ := hat
  have hmem : ∀ q, q ∈ (s.publish thread p queue).queue.content ↔
      q ∈ s.queue.content ∨ q = p := fun q => by
    simp [State.publish, hcontent]
  have hself : (s.publish thread p queue).pc thread = .copying p := Function.update_self _ _ _
  have hknown : ∀ q, Known s q → Known (s.publish thread p queue) q := fun q hq =>
    hq.frame rfl (fun t ht => ⟨t, ht, rfl⟩) fun x _ hx _ => by
      obtain rfl := hinv.made_unique howner (.inr hx)
      rw [hpc] at hx
      cases hx
  have hid : s.idAt p = [task.taskId] := by
    rw [State.idAt, hheap]
    rfl
  refine ⟨hinv.next_pos, hinv.count_le, ?_, ?_, ?_, ?_, ?_, ?_⟩
  · refine forall_jump (P := fun x pc => At _ x pc) ?_ fun other ho => ?_
    · refine ⟨howner, hroom, (congrArg Option.isSome hheap).trans rfl, fun x hx => ?_⟩
      exact hunclaimed x (claimed_jump rfl x (congrArg Pc.claimed hx))
    · refine (hinv.threads other).frame (fun q hq => absurd (hinv.made_unique howner hq) ho)
        (fun q hq hc => hc.frame ?_ hc.allocated (claimed_jump rfl)) fun q _ => hknown q
      rw [hmem]
      rintro (hold | rfl)
      · exact hc.unqueued hold
      · exact hunclaimed other hq
  · have hnodup : (s.queue.content ++ [p]).Nodup :=
      hinv.nodup.append (List.nodup_singleton p) (by simpa using hunqueued)
    exact hcontent ▸ hnodup
  · intro q hq
    rcases (hmem q).mp hq with hold | rfl
    · exact hknown q (hinv.queued q hold)
    · exact ⟨task, hheap, hpos, .inr ⟨thread, hself⟩⟩
  · have horder : s.published ++ s.idAt p =
        s.popped ++ (s.queue.content ++ [p]).flatMap s.idAt := by
      rw [hinv.order, List.flatMap_append, List.flatMap_singleton, List.append_assoc]
    exact hcontent ▸ horder
  · have hsorted : (s.published ++ s.idAt p).Pairwise (· < ·) := by
      rw [hid, List.pairwise_append]
      refine ⟨hinv.sorted, List.pairwise_singleton _ _, fun a ha b hb => ?_⟩
      rw [List.mem_singleton.mp hb]
      exact hnewest a ha
    exact hsorted
  · intro id hm
    rcases List.mem_append.mp hm with hold | hnew
    · exact hinv.below id hold
    · rw [hid] at hnew
      rw [List.mem_singleton.mp hnew]
      exact hlt

theorem inv_copy (hinv : Inv s) (hpc : s.pc thread = .copying p) (now : ℤ) :
    Inv (copySection s thread p now) := by
  have hat := hinv.threads thread
  rw [hpc] at hat
  obtain ⟨howner, hroom, hheap, _⟩ := hat
  obtain ⟨task, htask⟩ := Option.isSome_iff_exists.mp hheap
  have htasks : (copySection s thread p now).tasks = s.tasks.set s.count (newInfo task now) := by
    simp only [copySection, htask]
  have hlive : (copySection s thread p now).live = s.live ++ [newInfo task now] := by
    rw [State.live, htasks]
    exact take_set_next hroom _
  have hknown : ∀ q, Known s q → Known (copySection s thread p now) q := fun q hq =>
    hq.frame rfl (fun t ht => ⟨t, by rw [hlive]; exact List.mem_append_left _ ht, rfl⟩)
      fun x task' hx htask' => by
        obtain rfl := hinv.made_unique howner (.inr hx)
        rw [hpc] at hx
        cases hx
        rw [htask] at htask'
        cases htask'
        exact .inr ⟨newInfo task now, by simp [hlive], rfl⟩
  refine ⟨hinv.next_pos, ?_, ?_, hinv.nodup, fun q hq => hknown q (hinv.queued q hq), hinv.order,
    hinv.sorted, hinv.below⟩
  · rw [htasks, List.length_set]
    exact hroom
  · refine forall_jump (P := fun x pc => At _ x pc) trivial fun other ho => ?_
    exact (hinv.threads other).frame (fun q hq => absurd (hinv.made_unique howner hq) ho)
      (fun q _ hc => hc.frame hc.unqueued hc.allocated (claimed_jump rfl)) fun q _ => hknown q

theorem inv_take (hinv : Inv s) (hpc : s.pc thread = .outside) {workerId : ℕ}
    (hw : workerId ≠ 0) {queue : RingBuf ℕ} (hcontent : s.queue.content = p :: queue.content) :
    Inv (s.take thread p workerId queue) := by
  have hp : p ∈ s.queue.content := by
    rw [hcontent]
    exact List.mem_cons_self
  have hrest : ∀ q, q ∈ queue.content → q ∈ s.queue.content := fun q hq => by
    rw [hcontent]
    exact List.mem_cons_of_mem _ hq
  have hnodup := hinv.nodup
  rw [hcontent] at hnodup
  obtain ⟨hpq, hqueue⟩ := List.nodup_cons.mp hnodup
  have hknown : ∀ q, Known s q → Known (s.take thread p workerId queue) q := fun q hq =>
    hq.frame rfl (fun t ht => ⟨t, ht, rfl⟩) fun x _ hx _ =>
      .inl (copying_jump (fun q => by rw [hpc]; simp) x hx)
  have hmove : ∀ q, q ∉ s.queue.content → ∀ x,
      ((s.jump thread (.popped p workerId)).pc x).claimed = some q →
        (s.pc x).claimed = some q := fun q hq => by
    refine claimed_move fun h => ?_
    cases h
    exact absurd hp hq
  refine ⟨hinv.next_pos, hinv.count_le, ?_, hqueue, fun q hq => hknown q (hinv.queued q (hrest q hq)),
    ?_, hinv.sorted, hinv.below⟩
  · refine forall_jump (P := fun x pc => At _ x pc) ?_ fun other ho => ?_
    · refine ⟨hw, ⟨hpq, (hinv.queued p hp).allocated, ?_⟩, hknown p (hinv.queued p hp)⟩
      refine forall_jump (P := fun x pc => pc.claimed = some p → x = thread) (fun _ => rfl)
        fun other _ hother => ?_
      exact absurd hp (hinv.claimed hother).unqueued
    · refine (hinv.threads other).frame (fun q hq => ?_)
        (fun q _ hc => hc.frame (fun hq => hc.unqueued (hrest q hq)) hc.allocated
          (hmove q hc.unqueued)) fun q _ => hknown q
      have hat := hinv.threads other
      rcases hq with hq | hq
      · rw [hq] at hat ⊢
        obtain ⟨howner, hroom, hunqueued, hunclaimed, hnewest⟩ := hat
        exact ⟨howner, hroom, fun hm => hunqueued (hrest q hm),
          fun x hx => hunclaimed x (hmove q hunqueued x hx), hnewest⟩
      · rw [hq] at hat ⊢
        obtain ⟨howner, hroom, hheap, hsending⟩ := hat
        refine ⟨howner, hroom, hheap, ?_⟩
        exact forall_jump (P := fun _ pc => pc ≠ .sending q) (by simp) fun x _ => hsending x
  · have horder := hinv.order
    rw [hcontent, List.flatMap_cons, ← List.append_assoc] at horder
    exact horder

omit [DecidableEq τ] in
/-- No producer is at work while the mutex is free, so the record is there. -/
theorem Inv.recorded (hinv : Inv s) (howner : s.owner = none) (hk : Known s p) :
    ∃ task, s.heap p = some task ∧ 0 < task.taskId ∧ ∃ t ∈ s.live, t.id = task.taskId := by
  obtain ⟨task, htask, hpos, ht | ⟨x, hx⟩⟩ := hk
  · exact ⟨task, htask, hpos, ht⟩
  · exact absurd (.inr hx) (hinv.none_made howner x p)

omit [DecidableEq τ] in
theorem assignRecord_found {taskId workerId : ℕ} (hpos : 0 < taskId) (hw : workerId ≠ 0)
    (ht : ∃ t ∈ s.live, t.id = taskId) (now : ℤ) :
    ∃ i record, s.live[i]? = some record ∧ record.id = taskId ∧
      assignRecord s taskId workerId now = (0, s.tasks.modify i (assigned workerId now)) := by
  obtain ⟨i, hi⟩ := Option.isSome_iff_exists.mp (position_isSome.mpr ht)
  obtain ⟨record, hrecord, hid, _⟩ := position_get hi
  refine ⟨i, record, hrecord, hid, ?_⟩
  rw [assignRecord, if_neg (by omega), hi]

theorem mark_ret (hinv : Inv s) {workerId : ℕ} (hpc : s.pc thread = .popped p workerId)
    (howner : s.owner = none) (now : ℤ) :
    ∃ task i record, s.heap p = some task ∧ s.live[i]? = some record ∧
      record.id = task.taskId ∧ assignRecord s task.taskId workerId now =
        (0, s.tasks.modify i (assigned workerId now)) ∧
      markSection s thread p workerId now = some { s.jump thread (.sending p) with
        tasks := s.tasks.modify i (assigned workerId now) } := by
  have hat := hinv.threads thread
  rw [hpc] at hat
  obtain ⟨hw, _, hk⟩ := hat
  obtain ⟨task, htask, hpos, ht⟩ := hinv.recorded howner hk
  obtain ⟨i, record, hrecord, hid, hi⟩ := assignRecord_found hpos hw ht now
  refine ⟨task, i, record, htask, hrecord, hid, hi, ?_⟩
  simp [markSection, howner, htask, hi]

theorem inv_mark (hinv : Inv s) {workerId : ℕ} (hpc : s.pc thread = .popped p workerId) {now : ℤ}
    (h : markSection s thread p workerId now = some s') :
    Inv s' ∧ s'.nextTaskId ≤ s.nextTaskId := by
  have howner : s.owner = none := by
    cases ho : s.owner with
    | none => rfl
    | some x => simp [markSection, ho] at h
  obtain ⟨task, i, _, _, _, _, _, hmark⟩ := mark_ret hinv hpc howner now
  rw [hmark] at h
  cases h
  have hfree := hinv.none_made howner
  have hlive : ∀ t ∈ s.live, ∃ t' ∈ (s.tasks.modify i (assigned workerId now)).take s.count,
      t'.id = t.id := by
    intro t ht
    obtain ⟨k, hk⟩ := List.mem_iff_getElem?.mp ht
    rw [List.take_modify]
    refine ⟨if i = k then assigned workerId now t else t,
      List.mem_of_getElem? (i := k) ?_, ?_⟩
    · have hk' : (s.tasks.take s.count)[k]? = some t := hk
      rw [List.getElem?_modify, hk']
      split <;> rfl
    · split <;> rfl
  have hknown : ∀ q, Known s q → Known { s.jump thread (.sending p) with
      tasks := s.tasks.modify i (assigned workerId now) } q := fun q hq =>
    hq.frame rfl hlive fun x _ hx => absurd (.inr hx) (hfree x q)
  have hmove : ∀ q x, ((s.jump thread (.sending p)).pc x).claimed = some q →
      (s.pc x).claimed = some q := fun q => claimed_move (by rw [hpc]; exact fun hq => hq)
  refine ⟨⟨hinv.next_pos, ?_, ?_, hinv.nodup, fun q hq => hknown q (hinv.queued q hq),
    hinv.order, hinv.sorted, hinv.below⟩, Nat.le_refl _⟩
  · rw [List.length_modify]
    exact hinv.count_le
  · refine forall_jump (P := fun x pc => At _ x pc) ?_ fun other _ => ?_
    · have hc : Claimed s thread p := hinv.claimed (by rw [hpc]; rfl)
      exact hc.frame hc.unqueued hc.allocated (hmove p)
    · exact (hinv.threads other).frame (fun q hq => absurd hq (hfree other q))
        (fun q _ hc => hc.frame hc.unqueued hc.allocated (hmove q)) fun q _ => hknown q

theorem inv_release (hinv : Inv s) (hpc : s.pc thread = .sending p) :
    Inv ((s.free p).jump thread .outside) := by
  have hc : Claimed s thread p := hinv.claimed (by rw [hpc]; rfl)
  have hqueue : ∀ q ∈ s.queue.content, q ≠ p := by
    rintro q hq rfl
    exact hc.unqueued hq
  have hknown : ∀ q, q ≠ p → Known s q → Known ((s.free p).jump thread .outside) q :=
    fun q hne hq => hq.frame (heap_free hne) (fun t ht => ⟨t, ht, rfl⟩) fun x _ hx _ =>
      .inl (copying_jump (s := s.free p) (fun q => by
        rw [State.free, hpc]
        simp) x hx)
  refine ⟨hinv.next_pos, hinv.count_le, ?_, hinv.nodup,
    fun q hq => hknown q (hqueue q hq) (hinv.queued q hq), ?_, hinv.sorted, hinv.below⟩
  · refine forall_jump (P := fun x pc => At _ x pc) trivial fun other ho => ?_
    have hne : ∀ q, (s.pc other).claimed = some q → q ≠ p := by
      rintro q hq rfl
      exact ho (hc.alone other hq)
    refine (hinv.threads other).frame (fun q hq => ?_)
      (fun q hq hc => hc.frame hc.unqueued
        ((congrArg Option.isSome (heap_free (hne q hq))).trans hc.allocated) (claimed_jump rfl))
      fun q hq => hknown q (hne q hq)
    have hat := hinv.threads other
    rcases hq with hq | hq
    · rw [hq] at hat ⊢
      obtain ⟨howner, hroom, hunqueued, hunclaimed, task, htask, hnewest⟩ := hat
      have hqp : q ≠ p := by
        rintro rfl
        exact hunclaimed thread (by rw [hpc]; rfl)
      exact ⟨howner, hroom, hunqueued, fun x hx => hunclaimed x (claimed_jump rfl x hx), task,
        (heap_free hqp).trans htask, hnewest⟩
    · rw [hq] at hat ⊢
      obtain ⟨howner, hroom, hheap, hsending⟩ := hat
      have hqp : q ≠ p := by
        rintro rfl
        exact hsending thread hpc
      refine ⟨howner, hroom, (congrArg Option.isSome (heap_free hqp)).trans hheap, ?_⟩
      exact forall_jump (P := fun _ pc => pc ≠ .sending q) (by simp) fun x _ => hsending x
  · exact hinv.order.trans (congrArg _ (flatMap_idAt_congr fun q hq =>
      heap_free (hqueue q hq)).symm)

theorem push_cases (s : State τ) (thread : τ) (p : ℕ) :
    pushSection s thread p = s.withdraw thread p ∨
      ∃ queue : RingBuf ℕ, queue.content = s.queue.content ++ [p] ∧
        pushSection s thread p = s.publish thread p queue := by
  by_cases hroom : s.queue.size < s.queue.capacity
  · obtain ⟨hret, hcontent⟩ := push_room p hroom
    exact .inr ⟨_, hcontent, if_neg (not_not.mpr hret)⟩
  · have hsize := s.queue.size_le
    refine .inl (if_pos ?_)
    rw [push_full (by omega)]
    simp

theorem claim_cases (s : State τ) (thread : τ) (workerId : ℕ) (idle : Bool) :
    claimSection s thread workerId idle = s ∨
      ∃ p queue, s.queue.content = p :: queue.content ∧
        claimSection s thread workerId idle = s.take thread p workerId queue := by
  unfold claimSection
  split
  · exact .inl rfl
  · by_cases hempty : s.queue.size = 0
    · rw [ringBufferPop, dif_pos hempty]
      exact .inl rfl
    · rw [ringBufferPop, dif_neg hempty]
      exact .inr ⟨_, _, dequeue_content s.queue hempty, rfl⟩

theorem inv_step (hinv : Inv s) {a : Action τ}
    (hnext : a.isCreate = true → s.nextTaskId + 1 < 2^32)
    (hw : ∀ thread workerId idle, a = .claim thread workerId idle → workerId ≠ 0)
    (h : step s a = some s') :
    Inv s' ∧ s'.nextTaskId ≤ s.nextTaskId + if a.isCreate then 1 else 0 := by
  cases a with
  | create thread inputData inputSize mem =>
    simp only [step] at h
    split at h
    · rename_i hpc
      exact inv_create hinv hpc (hnext rfl) h
    · cases h
  | push thread =>
    simp only [step] at h
    split at h
    · rename_i p hpc
      cases h
      rcases push_cases s thread p with hfail | ⟨queue, hcontent, hok⟩
      · rw [hfail]
        exact ⟨inv_withdraw hinv hpc, Nat.le_refl _⟩
      · rw [hok]
        exact ⟨inv_publish hinv hpc hcontent, Nat.le_refl _⟩
    · cases h
  | copy thread now =>
    simp only [step] at h
    split at h
    · rename_i p hpc
      cases h
      exact ⟨inv_copy hinv hpc now, Nat.le_refl _⟩
    · cases h
  | claim thread workerId idle =>
    simp only [step] at h
    split at h
    · rename_i hpc
      cases h
      rcases claim_cases s thread workerId idle with hsame | ⟨p, queue, hcontent, htake⟩
      · rw [hsame]
        exact ⟨hinv, Nat.le_refl _⟩
      · rw [htake]
        exact ⟨inv_take hinv hpc (hw thread workerId idle rfl) hcontent, Nat.le_refl _⟩
    · cases h
  | mark thread now =>
    simp only [step] at h
    split at h
    · rename_i p workerId hpc
      exact inv_mark hinv hpc h
    · cases h
  | release thread =>
    simp only [step] at h
    split at h
    · rename_i p hpc
      cases h
      exact ⟨inv_release hinv hpc, Nat.le_refl _⟩
    · rename_i p hpc
      have hat := hinv.threads thread
      rw [hpc] at hat
      exact hat.elim
    · cases h

omit [DecidableEq τ] in
theorem managerCreate_inv {capacity queueSize : ℕ} {hq : queueSize < 2^32}
    {mem : Slots TaskInfo capacity} {queueMem : Slots ℕ queueSize} {s : State τ}
    (h : managerCreate τ capacity queueSize hq mem queueMem = some s) :
    Inv s ∧ s.nextTaskId = 1 := by
  unfold managerCreate at h
  split at h
  · cases h
  · obtain ⟨tasks, _, h⟩ := Option.bind_eq_some_iff.mp h
    obtain ⟨queue, hqueue, h⟩ := Option.bind_eq_some_iff.mp h
    cases h
    have hnil := (create_content hqueue).1
    refine ⟨⟨Nat.one_pos, Nat.zero_le _, fun _ => trivial, ?_, ?_, ?_, List.Pairwise.nil, ?_⟩, rfl⟩
    · rw [hnil]
      exact List.nodup_nil
    · simp [hnil]
    · simp [hnil]
    · simp

/-- The invariant of a run, up to the number of attempts at which ids may wrap. -/
def Bounded (t : Trace τ) : Prop :=
  t.attempts < 2^32 - 1 → Inv t.state ∧ t.state.nextTaskId ≤ t.attempts + 1

theorem bounded_advance {t t' : Trace τ} (ht : Bounded t) {a : Action τ} (ha : Named t a)
    (h : advance t a = some t') : Bounded t' := by
  obtain ⟨s, hs, rfl⟩ := Option.map_eq_some_iff.mp h
  intro hattempts
  obtain ⟨hinv, hnext⟩ := ht (Nat.lt_of_le_of_lt (Nat.le_add_right _ _) hattempts)
  have hw : ∀ thread workerId idle, a = .claim thread workerId idle → workerId ≠ 0 := by
    rintro thread workerId idle rfl
    exact ha
  have hroom : a.isCreate = true → t.state.nextTaskId + 1 < 2^32 := fun hc => by
    simp only [hc, if_true] at hattempts
    omega
  obtain ⟨hinv', hnext'⟩ := inv_step hinv hroom hw hs
  exact ⟨hinv', by simp only; omega⟩

/-- A popped task has its record by the time it is looked for, and this is the one that
`task_manager_assign_task` marks; the heap copy is there as long as anybody uses it, and
tasks leave the queue in the order of their ids, once each. -/
theorem queued_task_claimable {capacity queueSize : ℕ} {hq : queueSize < 2^32}
    {mem : Slots TaskInfo capacity} {queueMem : Slots ℕ queueSize} {s : State τ}
    (hcreate : managerCreate τ capacity queueSize hq mem queueMem = some s) {t : Trace τ}
    (h : Reach advance Named ⟨s, 0⟩ t) (hattempts : t.attempts < 2^32 - 1) :
    (∀ thread p, t.state.pc thread ≠ .unmarked p) ∧
    (∀ thread p workerId now, t.state.pc thread = .popped p workerId → t.state.owner = none →
      ∃ task i record, t.state.heap p = some task ∧ t.state.live[i]? = some record ∧
        record.id = task.taskId ∧ assignRecord t.state task.taskId workerId now =
          (0, t.state.tasks.modify i (assigned workerId now))) ∧
    (∀ thread p, t.state.pc thread = .copying p ∨ (t.state.pc thread).claimed = some p →
      (t.state.heap p).isSome) ∧
    t.state.popped <+: t.state.published ∧ t.state.published.Pairwise (· < ·) := by
  obtain ⟨hstart, hone⟩ := managerCreate_inv hcreate
  have hbounded : Bounded t := by
    refine h.invariant (fun _ => ⟨hstart, ?_⟩) fun _ _ _ hb ha hs => bounded_advance hb ha hs
    simp only [hone]
    omega
  obtain ⟨hinv, _⟩ := hbounded hattempts
  refine ⟨fun thread p hpc => ?_, fun thread p workerId now hpc howner => ?_, ?_, ?_, hinv.sorted⟩
  · have hat := hinv.threads thread
    rw [hpc] at hat
    exact hat.elim
  · obtain ⟨task, i, record, htask, hrecord, hid, hassign, _⟩ := mark_ret hinv hpc howner now
    exact ⟨task, i, record, htask, hrecord, hid, hassign⟩
  · rintro thread p (hpc | hclaimed)
    · have hat := hinv.threads thread
      rw [hpc] at hat
      obtain ⟨_, _, hheap, _⟩ := hat
      exact hheap
    · exact (hinv.claimed hclaimed).allocated
  · rw [hinv.order]
    exact List.prefix_append _ _

theorem oneSlot_lt : 1 < 2^32 := by decide

def emptyTask : Task := ⟨0, [], [], 0, 0⟩

def oneEntry : State ℕ :=
  ⟨[newInfo emptyTask 0], 0, 1, ⟨[0], 1, 0, 0, 0, rfl, oneSlot_lt, Nat.zero_le _, Nat.one_pos, rfl⟩,
    fun _ => none, none, fun _ => .outside, [], []⟩

theorem oneEntry_created : managerCreate ℕ 1 1 oneSlot_lt (some ⟨[newInfo emptyTask 0], rfl⟩)
    (some ⟨[0], rfl⟩) = some oneEntry := rfl

/-- Thread 2 pops task 1 before thread 1 has copied it. -/
theorem queued_task_claimable_oneEntry :
    ∃ t : Trace ℕ, Reach advance Named ⟨oneEntry, 0⟩ t ∧ t.state.popped = [1] ∧
      (∀ thread p, t.state.pc thread ≠ .unmarked p) ∧
      (∀ thread p workerId now, t.state.pc thread = .popped p workerId → t.state.owner = none →
        ∃ task i record, t.state.heap p = some task ∧ t.state.live[i]? = some record ∧
          record.id = task.taskId ∧ assignRecord t.state task.taskId workerId now =
            (0, t.state.tasks.modify i (assigned workerId now))) ∧
      (∀ thread p, t.state.pc thread = .copying p ∨ (t.state.pc thread).claimed = some p →
        (t.state.heap p).isSome) ∧
      t.state.popped <+: t.state.published ∧ t.state.published.Pairwise (· < ·) := by
  have hstart : Reach (@advance ℕ _) Named ⟨oneEntry, 0⟩ ⟨oneEntry, 0⟩ := .start
  have hcreated := hstart.next (Action.create 1 (some [7]) 1 (some (5, emptyTask))) trivial rfl
  have hpushed := hcreated.next (Action.push 1) trivial rfl
  have hclaimed := hpushed.next (Action.claim 2 9 true) (by decide : (9 : ℕ) ≠ 0) rfl
  have hcopied := hclaimed.next (Action.copy 1 20) trivial rfl
  exact ⟨_, hcopied, rfl, queued_task_claimable oneEntry_created hcopied (by decide)⟩

end CSimples.ClaimSafety
