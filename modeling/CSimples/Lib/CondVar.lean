import Mathlib.Data.Finset.Card

/-!
# Condition variables

A thread in a wait is blocked until it is woken, by a signal or spuriously, and a timed
wait also when its deadline has passed. A signal wakes at least one blocked thread, if
there is one. A wait that has been signalled may still end as timed out.

The units are what the waiters wait for. As long as each new unit is signalled, and no
signal is lost to a wait that times out, there are as many signalled threads as units or
nobody is blocked.
-/

namespace CSimples.CondVar

/-- `expired` are the waits that will end as timed out. -/
structure Cond (τ : Type*) [DecidableEq τ] where
  blocked : Finset τ
  signalled : Finset τ
  expired : Finset τ
  disjoint : Disjoint blocked signalled
  expired_disjoint : Disjoint expired (blocked ∪ signalled)

variable {τ : Type*} [DecidableEq τ]

def Cond.empty : Cond τ :=
  ⟨∅, ∅, ∅, Finset.disjoint_empty_left _, Finset.disjoint_empty_left _⟩

/-- The thread starts to wait; it is in no other wait. -/
def Cond.wait (c : Cond τ) (t : τ) : Cond τ where
  blocked := insert t c.blocked
  signalled := c.signalled.erase t
  expired := c.expired.erase t
  disjoint := by
    rw [Finset.disjoint_insert_left]
    exact ⟨Finset.notMem_erase t _, c.disjoint.mono_right (Finset.erase_subset t _)⟩
  expired_disjoint := by
    rw [Finset.insert_union, Finset.disjoint_insert_right]
    refine ⟨Finset.notMem_erase t _, c.expired_disjoint.mono (Finset.erase_subset t _) ?_⟩
    exact Finset.union_subset_union_right (Finset.erase_subset t _)

/-- The blocked threads that a signal may wake. -/
def Cond.CanWake (c : Cond τ) (woken : Finset τ) : Prop :=
  woken ⊆ c.blocked ∧ (c.blocked.Nonempty → woken.Nonempty)

instance (c : Cond τ) (woken : Finset τ) : Decidable (c.CanWake woken) :=
  inferInstanceAs (Decidable (_ ∧ _))

def Cond.signal (c : Cond τ) (woken : Finset τ) (h : woken ⊆ c.blocked) : Cond τ :=
  { c with
    blocked := c.blocked \ woken
    signalled := c.signalled ∪ woken
    disjoint := by
      rw [Finset.disjoint_union_right]
      exact ⟨c.disjoint.mono_left Finset.sdiff_subset, Finset.sdiff_disjoint⟩
    expired_disjoint := by
      refine c.expired_disjoint.mono_right ?_
      rw [Finset.union_comm c.signalled, ← Finset.union_assoc, Finset.sdiff_union_of_subset h] }

/-- A wake-up without a signal. -/
def Cond.wakeUp (c : Cond τ) (t : τ) : Cond τ :=
  { c with
    blocked := c.blocked.erase t
    disjoint := c.disjoint.mono_left (Finset.erase_subset t _)
    expired_disjoint := c.expired_disjoint.mono_right
      (Finset.union_subset_union_left (Finset.erase_subset t _)) }

/-- The wait times out, also when it has been signalled. -/
def Cond.expire (c : Cond τ) (t : τ) : Cond τ where
  blocked := c.blocked.erase t
  signalled := c.signalled.erase t
  expired := insert t c.expired
  disjoint := c.disjoint.mono (Finset.erase_subset t _) (Finset.erase_subset t _)
  expired_disjoint := by
    rw [← Finset.erase_union_distrib, Finset.disjoint_insert_left]
    refine ⟨Finset.notMem_erase t _, c.expired_disjoint.mono_right (Finset.erase_subset t _)⟩

/-- The wait returns. -/
def Cond.leave (c : Cond τ) (t : τ) : Cond τ :=
  { c with
    signalled := c.signalled.erase t
    expired := c.expired.erase t
    disjoint := c.disjoint.mono_right (Finset.erase_subset t _)
    expired_disjoint := c.expired_disjoint.mono (Finset.erase_subset t _)
      (Finset.union_subset_union_right (Finset.erase_subset t _)) }

/-! ### Waiters -/

/-- The waits that a signal has woken or still can. -/
def Cond.waiters (c : Cond τ) : Finset τ := c.blocked ∪ c.signalled

variable {c : Cond τ} {t u : τ} {woken : Finset τ} {units units' : ℕ}

theorem Cond.signalled_subset (c : Cond τ) : c.signalled ⊆ c.waiters :=
  Finset.subset_union_right

theorem Cond.notMem_waiters_of_expired (h : t ∈ c.expired) : t ∉ c.waiters :=
  Finset.disjoint_left.mp c.expired_disjoint h

theorem Cond.mem_waiters_wait (h : u ∈ (c.wait t).waiters) : u = t ∨ u ∈ c.waiters := by
  simp only [Cond.waiters, Cond.wait, Finset.mem_union, Finset.mem_insert,
    Finset.mem_erase] at h ⊢
  tauto

theorem Cond.waiters_signal (h : woken ⊆ c.blocked) : (c.signal woken h).waiters = c.waiters := by
  show c.blocked \ woken ∪ (c.signalled ∪ woken) = c.blocked ∪ c.signalled
  rw [Finset.union_comm c.signalled, ← Finset.union_assoc, Finset.sdiff_union_of_subset h]

theorem Cond.waiters_wakeUp_subset (c : Cond τ) (t : τ) : (c.wakeUp t).waiters ⊆ c.waiters :=
  Finset.union_subset_union_left (Finset.erase_subset t _)

theorem Cond.waiters_expire_subset (c : Cond τ) (t : τ) : (c.expire t).waiters ⊆ c.waiters :=
  Finset.union_subset_union (Finset.erase_subset t _) (Finset.erase_subset t _)

theorem Cond.mem_waiters_leave (ht : t ∉ c.blocked) (h : u ∈ (c.leave t).waiters) :
    u ≠ t ∧ u ∈ c.waiters := by
  simp only [Cond.waiters, Cond.leave, Finset.mem_union, Finset.mem_erase] at h ⊢
  rcases h with hb | hs
  · exact ⟨fun he => ht (he ▸ hb), .inl hb⟩
  · exact ⟨hs.1, .inr hs.2⟩

/-! ### Units -/

/-- A signalled thread for each unit, unless nobody is blocked. -/
def Cond.Served (c : Cond τ) (units : ℕ) : Prop := c.blocked = ∅ ∨ units ≤ c.signalled.card

theorem Cond.Served.mono (h : c.Served units) (hle : units' ≤ units) : c.Served units' :=
  h.imp id fun hcard => Nat.le_trans hle hcard

/-- A unit that is served has somebody on the way to it. -/
theorem Cond.Served.exists_signalled (h : c.Served units) (hunits : 0 < units)
    (hblocked : c.blocked.Nonempty) : ∃ t ∈ c.signalled, t ∉ c.blocked := by
  have hcard : units ≤ c.signalled.card := h.resolve_left hblocked.ne_empty
  obtain ⟨t, ht⟩ := Finset.card_pos.mp (Nat.lt_of_lt_of_le hunits hcard)
  exact ⟨t, ht, fun hb => Finset.disjoint_left.mp c.disjoint hb ht⟩

theorem Cond.served_zero (c : Cond τ) : c.Served 0 := .inr (Nat.zero_le _)

theorem Cond.Served.signal (h : c.Served units) (hw : c.CanWake woken) :
    (c.signal woken hw.1).Served (units + 1) := by
  by_cases hblocked : c.blocked = ∅
  · left
    show c.blocked \ woken = ∅
    rw [hblocked, Finset.empty_sdiff]
  · have hcard : units ≤ c.signalled.card := h.resolve_left hblocked
    have hdisjoint : Disjoint c.signalled woken := (c.disjoint.mono_left hw.1).symm
    have hpos : 0 < woken.card :=
      Finset.card_pos.mpr (hw.2 (Finset.nonempty_iff_ne_empty.mpr hblocked))
    right
    show units + 1 ≤ (c.signalled ∪ woken).card
    rw [Finset.card_union_of_disjoint hdisjoint]
    omega

theorem Cond.Served.wakeUp (h : c.Served units) (t : τ) : (c.wakeUp t).Served units := by
  rcases h with hnone | hcard
  · left
    show c.blocked.erase t = ∅
    rw [hnone, Finset.erase_empty]
  · exact .inr hcard

/-- A thread that leaves takes at most one signal with it. -/
theorem Cond.Served.leave (h : c.Served (units + 1)) (t : τ) : (c.leave t).Served units := by
  rcases h with hnone | hcard
  · exact .inl hnone
  · right
    have hle : c.signalled.card - 1 ≤ (c.leave t).signalled.card :=
      Finset.pred_card_le_card_erase
    omega

theorem Cond.Served.leave_unsignalled (h : c.Served units) (ht : t ∉ c.signalled) :
    (c.leave t).Served units := by
  refine h.imp id fun hcard => ?_
  show units ≤ (c.signalled.erase t).card
  rw [Finset.erase_eq_of_notMem ht]
  exact hcard

theorem Cond.Served.expire (h : c.Served units)
    (ht : t ∈ c.signalled → c.blocked = ∅ ∨ units < c.signalled.card) :
    (c.expire t).Served units := by
  by_cases hblocked : c.blocked = ∅
  · left
    show c.blocked.erase t = ∅
    rw [hblocked, Finset.erase_empty]
  · have hcard : units ≤ c.signalled.card := h.resolve_left hblocked
    right
    show units ≤ (c.signalled.erase t).card
    by_cases hs : t ∈ c.signalled
    · have hlt : units < c.signalled.card := (ht hs).resolve_left hblocked
      rw [Finset.card_erase_of_mem hs]
      omega
    · rw [Finset.erase_eq_of_notMem hs]
      exact hcard

end CSimples.CondVar
