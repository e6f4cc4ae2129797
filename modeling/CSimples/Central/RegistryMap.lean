import CSimples.Central.WorkerRegistry
import CSimples.Lib.Run

/-!
# The registry as a finite map from ids to connections

`worker_id` is documented as the unique worker identifier
(worker_registry.h:23), and every other operation finds a worker by it. `add`
derives it from the number of live workers, so after a removal it can hand out
an id that is still in use. The registry behaves as a finite map along exactly
those call sequences in which no `add` does so.
-/

namespace CSimples.RegistryMap
open Block Keyed Run WorkerRegistry

inductive Call where
  | add (sockfd : ℕ) (threadId : ℕ) (now : ℤ)
  | remove (workerId : ℕ)

/-- The registry together with what its callers may rely on: the ids returned
by `add` and not removed since, each with the socket it was added for. -/
structure History where
  registry : Registry
  held : List (ℕ × ℤ)

def call (s : History) : Call → History
  | .add sockfd threadId now =>
    let a := workerRegistryAdd s.registry sockfd threadId now
    ⟨a.2, if a.1 = 0 then s.held else s.held ++ [(a.1, (sockfd : ℤ))]⟩
  | .remove workerId =>
    ⟨(workerRegistryRemove s.registry workerId).registry,
      s.held.filter fun e => decide (e.1 ≠ workerId)⟩

/-- The caller of `add` finds its entry under the id, and removing the id takes
out exactly that entry. -/
def Serves (r : Registry) (e : ℕ × ℤ) : Prop :=
  ∃ p w, workerRegistryGet r e.1 = some p ∧ r.workers[p]? = some w ∧ p < r.count ∧
    w.workerId = e.1 ∧ w.sockfd = e.2 ∧ (workerRegistryRemove r e.1).ret = 0 ∧
    (workerRegistryRemove r e.1).registry.live = r.live.eraseIdx p

structure FiniteMap (s : History) : Prop where
  distinct : Distinct WorkerInfo.workerId s.registry.live
  serves : ∀ e ∈ s.held, Serves s.registry e

/-- An `add` that has room meets no live worker numbered `count + 1`. -/
def NoClash (s : History) : Call → Prop
  | .add _ _ _ => s.registry.count < s.registry.capacity →
      ∀ w ∈ s.registry.live, w.workerId ≠ s.registry.count + 1
  | .remove _ => True

theorem serves_iff {r : Registry} {e : ℕ × ℤ} :
    Serves r e ↔
      e.1 ≠ 0 ∧ ∃ w, lookup WorkerInfo.workerId e.1 r.live = some w ∧ w.sockfd = e.2 := by
  constructor
  · rintro ⟨p, w, hg, hw, _, _, hfd, _, _⟩
    obtain ⟨hid, _, w', hw', _, hl⟩ := get_spec hg
    rw [hw] at hw'
    cases hw'
    exact ⟨hid, w, hl, hfd⟩
  · rintro ⟨hid, w, hl, hfd⟩
    have hsome : (r.find e.1).isSome := by
      rw [Registry.find, position_isSome]
      exact ⟨w, (lookup_mem hl).1, (lookup_mem hl).2⟩
    obtain ⟨p, hp⟩ := Option.isSome_iff_exists.mp hsome
    have hg : workerRegistryGet r e.1 = some p := by rw [get_eq_find hid, hp]
    obtain ⟨_, hlt, w', hw', hk, hl'⟩ := get_spec hg
    rw [hl] at hl'
    cases hl'
    exact ⟨p, w, hg, hw', hlt, hk, hfd, (remove_found hid hp).1, remove_live_eraseIdx hid hp⟩

theorem finiteMap_start (r : Registry) (h : r.live = []) : FiniteMap ⟨r, []⟩ := by
  refine ⟨?_, ?_⟩
  · simp [h, Distinct]
  · simp

theorem finiteMap_add {s : History} (hs : FiniteMap s) (sockfd threadId : ℕ) (now : ℤ) :
    FiniteMap (call s (.add sockfd threadId now)) ↔ NoClash s (.add sockfd threadId now) := by
  by_cases hc : s.registry.count < s.registry.capacity
  · obtain ⟨hid, hlive, _⟩ :=
      add_room threadId now (Int.natCast_nonneg sockfd) hc
    have hcall : call s (.add sockfd threadId now) =
        ⟨(workerRegistryAdd s.registry sockfd threadId now).2,
          s.held ++ [(s.registry.count + 1, (sockfd : ℤ))]⟩ := by
      simp only [call, hid, Nat.succ_ne_zero, ite_false]
    rw [hcall]
    constructor
    · intro h _
      have hd := h.distinct
      simp only [hlive] at hd
      exact (distinct_append_fresh.mp hd).2
    · intro h
      have hfree := h hc
      refine ⟨?_, ?_⟩
      · simp only [hlive]
        exact distinct_append_fresh.mpr ⟨hs.distinct, hfree⟩
      · intro e he
        rw [serves_iff]
        simp only [hlive]
        rcases List.mem_append.mp he with he | he
        · obtain ⟨hne, w, hl, hfd⟩ := serves_iff.mp (hs.serves e he)
          exact ⟨hne, w, lookup_append_left hl, hfd⟩
        · obtain rfl := List.mem_singleton.mp he
          refine ⟨Nat.succ_ne_zero _, newWorker (s.registry.count + 1) sockfd threadId now, ?_, rfl⟩
          rw [lookup_append_right hfree]
          simp [lookup, newWorker]
  · -- a full registry refuses the call and nothing changes
    have hcall : call s (.add sockfd threadId now) = s := by
      simp only [call, add_full (Or.inr (Nat.not_lt.mp hc)), ite_true]
    rw [hcall]
    exact ⟨fun _ hlt => absurd hlt hc, fun _ => hs⟩

theorem finiteMap_remove {s : History} (hs : FiniteMap s) (id : ℕ) :
    FiniteMap (call s (.remove id)) := by
  refine ⟨remove_distinct hs.distinct id, ?_⟩
  intro e he
  obtain ⟨hm, hne⟩ := List.mem_filter.mp he
  obtain ⟨he0, w, hl, hfd⟩ := serves_iff.mp (hs.serves e hm)
  refine serves_iff.mpr ⟨he0, w, ?_, hfd⟩
  exact (lookup_remove_ne (by simpa using hne)).trans hl

theorem finiteMap_step (s : History) (c : Call) (hs : FiniteMap s) :
    FiniteMap (call s c) ↔ NoClash s c := by
  cases c with
  | add sockfd threadId now => exact finiteMap_add hs sockfd threadId now
  | remove id => exact ⟨fun _ => trivial, fun _ => finiteMap_remove hs id⟩

/-- From `worker_registry_create` on, the registry is a finite map in every
state of a call sequence if and only if no `add` of it meets a live worker that
already has the number `count + 1`. -/
theorem registry_finite_map_iff {capacity : ℕ} {hc : capacity < 2^32}
    {mem : Slots WorkerInfo capacity} {r : Registry}
    (h : workerRegistryCreate capacity hc mem = some r) (cs : List Call) :
    Along call FiniteMap ⟨r, []⟩ cs ↔ Meets call NoClash ⟨r, []⟩ cs :=
  along_iff_meets finiteMap_step (finiteMap_start r (create_live h).1) cs

def threeSlots : Slots WorkerInfo 3 := some ⟨List.replicate 3 (newWorker 9 9 9 9), rfl⟩

/-- Removing the youngest worker first keeps the numbers free. -/
theorem registry_finite_map_lifo :
    ∃ r, workerRegistryCreate 3 (by decide) threeSlots = some r ∧
      Along call FiniteMap ⟨r, []⟩ [.add 5 0 0, .add 6 0 0, .remove 2, .add 7 0 0] :=
  ⟨_, rfl, (@registry_finite_map_iff 3 (by decide) threeSlots _ rfl _).mpr
    ⟨by intro _; decide, by intro _; decide, trivial, by intro _; decide, trivial⟩⟩

/-- Two workers register, the first one leaves, a third one registers: both
live workers now have the id 2. -/
theorem registry_id_reused :
    ∃ r, workerRegistryCreate 3 (by decide) threeSlots = some r ∧
      ¬ Along call FiniteMap ⟨r, []⟩ [.add 5 0 0, .add 6 0 0, .remove 1, .add 7 0 0] := by
  refine ⟨_, rfl, ?_⟩
  intro h
  have hlast := along_iff_prefix.mp h [.add 5 0 0, .add 6 0 0, .remove 1, .add 7 0 0] [] rfl
  exact absurd hlast.distinct (by decide)

end CSimples.RegistryMap
