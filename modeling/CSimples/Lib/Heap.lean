import Mathlib.Data.List.Nodup
import Mathlib.Logic.Function.Basic

/-!
# Blocks of memory and their owners

A heap maps the addresses in use to what is there; an address `none` is NULL. Every
block has one owner: `ptr` gives the address that an owner holds.
-/

namespace CSimples.Heap

variable {ω β : Type*}

/-- `torn` says that memory has been read or freed that was not in use. -/
structure Memory (β : Type*) where
  heap : ℕ → Option β
  torn : Bool

def Memory.dangling (m : Memory β) : Option ℕ → Bool
  | none => false
  | some p => (m.heap p).isNone

def Memory.read (m : Memory β) (p : Option ℕ) : Memory β :=
  { m with torn := m.torn || m.dangling p }

def Memory.contents (m : Memory β) (p : Option ℕ) : Option β := p.bind m.heap

/-- A block with `b` at the address that the allocator answers; none is needed for NULL. -/
def Memory.alloc (m : Memory β) (b : β) : Option ℕ → Memory β
  | none => m
  | some p => { m with heap := Function.update m.heap p (some b) }

def Memory.free (m : Memory β) : Option ℕ → Memory β
  | none => m
  | some p => ⟨Function.update m.heap p none, m.torn || (m.heap p).isNone⟩

def Memory.freeAll (m : Memory β) (ps : List (Option ℕ)) : Memory β := ps.foldl Memory.free m

/-- The allocator does not answer an address in use. -/
def Memory.Fresh (m : Memory β) (p : Option ℕ) : Prop := ∀ q, p = some q → m.heap q = none

/-! ### Owners -/

structure Owned (m : Memory β) (ptr : ω → Option ℕ) : Prop where
  live : ∀ {o p}, ptr o = some p → m.heap p ≠ none
  unique : ∀ {o o' p}, ptr o = some p → ptr o' = some p → o = o'
  reached : ∀ {p}, m.heap p ≠ none → ∃ o, ptr o = some p

variable {m : Memory β} {ptr ptr' : ω → Option ℕ} {o o' : ω} {new : Option ℕ} {p : ℕ} {b : β}

theorem Owned.congr (h : Owned m ptr) (hptr : ∀ o, ptr' o = ptr o) : Owned m ptr' := by
  rw [funext hptr]
  exact h

theorem Owned.read (h : Owned m ptr) (hp : new = none ∨ ∃ o, ptr o = new) : m.read new = m := by
  have hsound : m.dangling new = false := by
    rcases hp with rfl | ⟨o, rfl⟩
    · rfl
    · cases hp : ptr o with
      | none => rfl
      | some p => exact Option.isNone_eq_false_iff.mpr (Option.isSome_iff_ne_none.mpr (h.live hp))
  rw [Memory.read, hsound, Bool.or_false]

theorem Fresh.ne (h : Owned m ptr) (hnew : m.Fresh new) (hp : ptr o = some p) : new ≠ some p :=
  fun heq => h.live hp (hnew p heq)

theorem alloc_of_ne (hne : new ≠ some p) : (m.alloc b new).heap p = m.heap p := by
  cases new with
  | none => rfl
  | some q => exact Function.update_of_ne (fun heq => hne (congrArg some heq.symm)) _ _

theorem free_of_ne (hne : new ≠ some p) : (m.free new).heap p = m.heap p := by
  cases new with
  | none => rfl
  | some q => exact Function.update_of_ne (fun heq => hne (congrArg some heq.symm)) _ _

theorem alloc_self (m : Memory β) (b : β) (p : ℕ) : (m.alloc b (some p)).heap p = some b :=
  Function.update_self _ _ _

theorem free_self (m : Memory β) (p : ℕ) : (m.free (some p)).heap p = none :=
  Function.update_self _ _ _

/-! ### An owner gets a new block and frees its old one -/

/-- Either may be NULL. -/
def Memory.exchange (m : Memory β) (b : β) (new old : Option ℕ) : Memory β := (m.alloc b new).free old

theorem Owned.exchange_torn (h : Owned m ptr) : (m.exchange b new (ptr o)).torn = m.torn := by
  cases hold : ptr o with
  | none =>
    cases new <;> rfl
  | some p =>
    have hlive : (m.alloc b new).heap p ≠ none := by
      by_cases hp : new = some p
      · rw [hp, alloc_self]
        exact Option.some_ne_none b
      · rw [alloc_of_ne hp]
        exact h.live hold
    have hsame : (m.alloc b new).torn = m.torn := by cases new <;> rfl
    show ((m.alloc b new).torn || ((m.alloc b new).heap p).isNone) = m.torn
    rw [hsame, Option.isNone_eq_false_iff.mpr (Option.isSome_iff_ne_none.mpr hlive), Bool.or_false]

theorem Owned.exchange_other (h : Owned m ptr) (hnew : m.Fresh new) (ho : o' ≠ o)
    (hp : ptr o' = some p) : (m.exchange b new (ptr o)).heap p = m.heap p := by
  rw [Memory.exchange, free_of_ne fun hold => ho (h.unique hp hold), alloc_of_ne (Fresh.ne h hnew hp)]

theorem Owned.exchange_self (h : Owned m ptr) (hnew : m.Fresh (some p)) :
    (m.exchange b (some p) (ptr o)).heap p = some b := by
  have hne : ptr o ≠ some p := fun hold => Fresh.ne h hnew hold rfl
  rw [Memory.exchange, free_of_ne hne, alloc_self]

theorem Owned.exchange_contents (h : Owned m ptr) (hnew : m.Fresh new) (ho : o' ≠ o) :
    (m.exchange b new (ptr o)).contents (ptr o') = m.contents (ptr o') := by
  cases hp : ptr o' with
  | none => rfl
  | some p => exact h.exchange_other hnew ho hp

theorem Owned.exchange (h : Owned m ptr) (hnew : m.Fresh new) (hself : ptr' o = new)
    (hrest : ∀ o', o' ≠ o → ptr' o' = ptr o') : Owned (m.exchange b new (ptr o)) ptr' := by
  have hout : ∀ {o' p}, o' ≠ o → ptr' o' = some p → new ≠ some p := by
    intro o' p ho hp
    rw [hrest o' ho] at hp
    exact Fresh.ne h hnew hp
  constructor
  · intro o' p hp
    by_cases ho : o' = o
    · rw [ho, hself] at hp
      rw [hp] at hnew
      rw [hp, h.exchange_self hnew]
      exact Option.some_ne_none b
    · rw [hrest o' ho] at hp
      rw [h.exchange_other hnew ho hp]
      exact h.live hp
  · intro o₁ o₂ p h₁ h₂
    by_cases ho₁ : o₁ = o
    · by_cases ho₂ : o₂ = o
      · rw [ho₁, ho₂]
      · rw [ho₁, hself] at h₁
        exact absurd h₁ (hout ho₂ h₂)
    · by_cases ho₂ : o₂ = o
      · rw [ho₂, hself] at h₂
        exact absurd h₂ (hout ho₁ h₁)
      · rw [hrest _ ho₁] at h₁
        rw [hrest _ ho₂] at h₂
        exact h.unique h₁ h₂
  · intro p hp
    by_cases hold : ptr o = some p
    · rw [hold, Memory.exchange, free_self] at hp
      exact absurd rfl hp
    · rw [Memory.exchange, free_of_ne hold] at hp
      by_cases hpn : new = some p
      · exact ⟨o, hself.trans hpn⟩
      · rw [alloc_of_ne hpn] at hp
        obtain ⟨o', ho'⟩ := h.reached hp
        have hne : o' ≠ o := fun heq => hold (heq ▸ ho')
        exact ⟨o', (hrest o' hne).trans ho'⟩

/-! ### Many blocks are freed -/

theorem freeAll_heap (m : Memory β) (ps : List (Option ℕ)) (p : ℕ) :
    (m.freeAll ps).heap p = if some p ∈ ps then none else m.heap p := by
  induction ps generalizing m with
  | nil => simp [Memory.freeAll]
  | cons q ps ih =>
    show ((m.free q).freeAll ps).heap p = _
    rw [ih]
    by_cases hq : q = some p
    · rw [hq, free_self]
      simp
    · rw [free_of_ne hq]
      simp [Ne.symm hq]

theorem freeAll_torn {ps : List (Option ℕ)} (hps : (ps.filterMap id).Nodup)
    (hlive : ∀ p, some p ∈ ps → m.heap p ≠ none) : (m.freeAll ps).torn = m.torn := by
  induction ps generalizing m with
  | nil => rfl
  | cons q ps ih =>
    show ((m.free q).freeAll ps).torn = _
    cases q with
    | none => exact ih hps fun p hp => hlive p (List.mem_cons_of_mem _ hp)
    | some p =>
      obtain ⟨hnot, hrest⟩ := List.nodup_cons.mp hps
      have hp : (m.heap p).isNone = false :=
        Option.isNone_eq_false_iff.mpr (Option.isSome_iff_ne_none.mpr (hlive p (List.mem_cons_self ..)))
      rw [ih hrest]
      · show (m.torn || (m.heap p).isNone) = m.torn
        rw [hp, Bool.or_false]
      · intro r hr
        have hne : some p ≠ some r := by
          intro heq
          cases heq
          exact hnot (List.mem_filterMap.mpr ⟨some p, hr, rfl⟩)
        rw [free_of_ne hne]
        exact hlive r (List.mem_cons_of_mem _ hr)

/-- The blocks of some owners are freed, and these hold nothing afterwards. -/
theorem Owned.clear {os : List ω} (h : Owned m ptr) (hos : os.Nodup)
    (hgone : ∀ o ∈ os, ptr' o = none) (hrest : ∀ o, o ∉ os → ptr' o = ptr o) :
    Owned (m.freeAll (os.map ptr)) ptr' ∧ (m.freeAll (os.map ptr)).torn = m.torn := by
  have hmem : ∀ {p}, some p ∈ os.map ptr ↔ ∃ o ∈ os, ptr o = some p := List.mem_map
  have hkept : ∀ {o p}, ptr' o = some p → ptr o = some p ∧ some p ∉ os.map ptr := by
    intro o p hp
    have ho : o ∉ os := fun hin => by
      rw [hgone o hin] at hp
      cases hp
    rw [hrest o ho] at hp
    refine ⟨hp, fun hin => ?_⟩
    obtain ⟨o', ho', hp'⟩ := hmem.mp hin
    exact ho (h.unique hp hp' ▸ ho')
  constructor
  · constructor
    · intro o p hp
      obtain ⟨hold, hnot⟩ := hkept hp
      rw [freeAll_heap, if_neg hnot]
      exact h.live hold
    · intro o o' p hp hp'
      exact h.unique (hkept hp).1 (hkept hp').1
    · intro p hp
      rw [freeAll_heap] at hp
      split at hp
      · exact absurd rfl hp
      · rename_i hnot
        obtain ⟨o, ho⟩ := h.reached hp
        have hout : o ∉ os := fun hin => hnot (hmem.mpr ⟨o, hin, ho⟩)
        exact ⟨o, (hrest o hout).trans ho⟩
  · apply freeAll_torn
    · rw [List.filterMap_map]
      exact hos.filterMap fun a a' p hp hp' => h.unique hp hp'
    · intro p hp
      obtain ⟨o, _, ho⟩ := hmem.mp hp
      exact h.live ho

end CSimples.Heap
