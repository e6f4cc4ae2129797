import CSimples.Lib.Block
import CSimples.Lib.Keyed
import Mathlib.Data.Finset.Card

/-!
# Tables of slots with a free marker

A table has a fixed number of slots. The key `free` marks a slot that holds
nothing; every other key stands in one slot at most (`Proper`). Writing one slot
then fills it, clears it or changes what it holds under its key, and the keys in
use (`keys`) follow as the domain of a finite map.
-/

namespace CSimples.SlotTable
open Keyed Block

variable {α κ : Type*} [DecidableEq κ] (key : α → κ)

def slot (k : κ) (l : List α) : Option (ℕ × α) :=
  (position key k l).bind fun i => l[i]?.map fun a => (i, a)

def Proper (free : κ) (l : List α) : Prop :=
  ∀ (i j : ℕ) a b, l[i]? = some a → l[j]? = some b → key a = key b → key a ≠ free → i = j

def keys (free : κ) (l : List α) : Finset κ := (l.map key).toFinset.erase free

variable {key} {free k : κ} {l : List α} {i : ℕ} {a b : α}

theorem slot_some (h : slot key k l = some (i, a)) : l[i]? = some a ∧ key a = k := by
  obtain ⟨j, hj, hmap⟩ := Option.bind_eq_some_iff.mp h
  obtain ⟨c, hc, heq⟩ := Option.map_eq_some_iff.mp hmap
  cases heq
  obtain ⟨⟨d, hd, hk⟩, _⟩ := position_eq_some.mp hj
  rw [hc] at hd
  cases hd
  exact ⟨hc, hk⟩

theorem slot_eq_none : slot key k l = none ↔ ∀ a ∈ l, key a ≠ k := by
  constructor
  · intro h a ha hk
    cases hp : position key k l with
    | none => exact position_eq_none.mp hp a ha hk
    | some i =>
      have hlt := position_lt hp
      simp [slot, hp, List.getElem?_eq_getElem hlt] at h
  · intro h
    rw [slot, position_eq_none.mpr h, Option.bind_none]

omit [DecidableEq κ] in
/-- What some slot holds, told apart by slot `i`. -/
theorem exists_mem_slot {P : α → Prop} (hi : l[i]? = some a) :
    (∃ u ∈ l, P u) ↔ P a ∨ ∃ (k : ℕ) (u : α), k ≠ i ∧ l[k]? = some u ∧ P u := by
  constructor
  · rintro ⟨u, hu, hp⟩
    obtain ⟨k, hk⟩ := List.mem_iff_getElem?.mp hu
    by_cases hik : k = i
    · subst hik
      rw [hi] at hk
      cases hk
      exact .inl hp
    · exact .inr ⟨k, u, hik, hk, hp⟩
  · rintro (hp | ⟨k, u, _, hk, hp⟩)
    · exact ⟨a, List.mem_of_getElem? hi, hp⟩
    · exact ⟨u, List.mem_of_getElem? hk, hp⟩

omit [DecidableEq κ] in
theorem exists_mem_set {P : α → Prop} (hi : l[i]? = some a) (b : α) :
    (∃ u ∈ l.set i b, P u) ↔ P b ∨ ∃ (k : ℕ) (u : α), k ≠ i ∧ l[k]? = some u ∧ P u := by
  have hlt := (List.getElem?_eq_some_iff.mp hi).1
  have hset : (l.set i b)[i]? = some b := List.getElem?_set_self hlt
  have hrest : ∀ k, k ≠ i → (l.set i b)[k]? = l[k]? := fun k hk => List.getElem?_set_ne hk.symm
  rw [exists_mem_slot hset]
  constructor
  · rintro (hp | ⟨k, u, hk, hu, hp⟩)
    · exact .inl hp
    · exact .inr ⟨k, u, hk, (hrest k hk).symm.trans hu, hp⟩
  · rintro (hp | ⟨k, u, hk, hu, hp⟩)
    · exact .inl hp
    · exact .inr ⟨k, u, hk, (hrest k hk).trans hu, hp⟩

omit [DecidableEq κ] in
theorem set_changed {k : ℕ} {c : α} (hi : l[i]? = some a) (hk : l[k]? = some c)
    (hne : (l.set i b)[k]? ≠ some c) : k = i ∧ c = a := by
  by_cases hik : i = k
  · subst hik
    rw [hi] at hk
    exact ⟨rfl, (Option.some.inj hk).symm⟩
  · rw [List.getElem?_set_ne hik] at hne
    exact absurd hk hne

/-! ### Distinct keys -/

omit [DecidableEq κ] in
theorem proper_cons : Proper key free (a :: l) ↔
    Proper key free l ∧ (key a ≠ free → ∀ b ∈ l, key b ≠ key a) := by
  constructor
  · intro h
    constructor
    · intro i j b c hb hc hk hne
      have heq := h (i + 1) (j + 1) b c hb hc hk hne
      omega
    · intro hne b hb hk
      obtain ⟨j, hj⟩ := List.mem_iff_getElem?.mp hb
      have heq := h 0 (j + 1) a b rfl hj hk.symm hne
      omega
  · rintro ⟨hl, ha⟩ i j b c hb hc hk hne
    cases i with
    | zero =>
      obtain rfl : a = b := by simpa using hb
      cases j with
      | zero => rfl
      | succ j => exact absurd hk.symm (ha hne c (List.mem_of_getElem? hc))
    | succ i =>
      cases j with
      | zero =>
        obtain rfl : a = c := by simpa using hc
        exact absurd hk (ha (hk ▸ hne) b (List.mem_of_getElem? hb))
      | succ j => rw [hl i j b c hb hc hk hne]

theorem Proper.slot (h : Proper key free l) (hk : k ≠ free) :
    slot key k l = some (i, a) ↔ l[i]? = some a ∧ key a = k := by
  constructor
  · exact slot_some
  · rintro ⟨hi, rfl⟩
    cases hs : SlotTable.slot key (key a) l with
    | none => exact absurd rfl (slot_eq_none.mp hs a (List.mem_of_getElem? hi))
    | some found =>
      obtain ⟨j, b⟩ := found
      obtain ⟨hj, hkb⟩ := slot_some hs
      obtain rfl := h i j a b hi hj hkb.symm hk
      rw [hi] at hj
      cases hj
      rfl

omit [DecidableEq κ] in
/-- What a slot is overwritten with is free, keeps the key, or has a new one. -/
theorem Proper.set (h : Proper key free l) (hi : l[i]? = some a)
    (hb : key b = free ∨ key b = key a ∨ ∀ c ∈ l, key c ≠ key b) :
    Proper key free (l.set i b) := by
  have hother : ∀ (j : ℕ) c, j ≠ i → l[j]? = some c → key b = key c → key b ≠ free → False := by
    intro j c hne hj hk hfree
    rcases hb with hb | hb | hb
    · exact hfree hb
    · exact hne (h j i c a hj hi (hk.symm.trans hb) (hk ▸ hfree))
    · exact hb c (List.mem_of_getElem? hj) hk.symm
  intro j m c d hc hd
  revert hc
  refine slots_set (P := fun (j : ℕ) (c : α) => key c = key d → key c ≠ free → j = m) ?_ ?_ j c
  · revert hd
    refine slots_set (P := fun (m : ℕ) (d : α) => key b = key d → key b ≠ free → i = m) ?_ ?_ m d
    · intro _ _
      rfl
    · intro m d hne hd hk hfree
      exact (hother m d hne hd hk hfree).elim
  · intro j c hne hc
    revert hd
    refine slots_set (P := fun (m : ℕ) (d : α) => key c = key d → key c ≠ free → j = m) ?_ ?_ m d
    · intro hk hfree
      exact (hother j c hne hc hk.symm (hk ▸ hfree)).elim
    · intro m d _ hd hk hfree
      exact h j m c d hc hd hk hfree

omit [DecidableEq κ] in
theorem Proper.map {f : α → α} (h : Proper key free l) (hf : ∀ a, key (f a) = key a) :
    Proper key free (l.map f) := by
  intro i j b c hb hc hk hne
  rw [List.getElem?_map] at hb hc
  obtain ⟨a, ha, rfl⟩ := Option.map_eq_some_iff.mp hb
  obtain ⟨d, hd, rfl⟩ := Option.map_eq_some_iff.mp hc
  rw [hf, hf] at hk
  rw [hf] at hne
  exact h i j a d ha hd hk hne

/-! ### The keys in use -/

theorem mem_keys : k ∈ keys key free l ↔ k ≠ free ∧ ∃ a ∈ l, key a = k := by
  simp [keys]

theorem keys_map {f : α → α} (hf : ∀ a, key (f a) = key a) :
    keys key free (l.map f) = keys key free l := by
  simp only [keys, List.map_map, Function.comp_def, hf]

theorem keys_same (hi : l[i]? = some a) (hb : key b = key a) :
    keys key free (l.set i b) = keys key free l := by
  rw [keys, map_set_slot hi hb, keys]

theorem keys_fill (hi : l[i]? = some a) (ha : key a = free) (hb : key b ≠ free) :
    keys key free (l.set i b) = insert (key b) (keys key free l) := by
  ext k
  rw [Finset.mem_insert, mem_keys, mem_keys]
  constructor
  · rintro ⟨hne, c, hc, rfl⟩
    rcases List.mem_or_eq_of_mem_set hc with hmem | rfl
    · exact .inr ⟨hne, c, hmem, rfl⟩
    · exact .inl rfl
  · rintro (rfl | ⟨hne, c, hc, rfl⟩)
    · have hlt := (List.getElem?_eq_some_iff.mp hi).1
      exact ⟨hb, b, List.mem_of_getElem? (List.getElem?_set_self hlt), rfl⟩
    · obtain ⟨j, hj⟩ := List.mem_iff_getElem?.mp hc
      have hij : i ≠ j := by
        rintro rfl
        rw [hi] at hj
        cases hj
        exact hne ha
      refine ⟨hne, c, List.mem_of_getElem? (i := j) ?_, rfl⟩
      rw [List.getElem?_set_ne hij]
      exact hj

theorem keys_clear (h : Proper key free l) (hi : l[i]? = some a) (ha : key a ≠ free)
    (hb : key b = free) : keys key free (l.set i b) = (keys key free l).erase (key a) := by
  ext k
  rw [Finset.mem_erase, mem_keys, mem_keys]
  constructor
  · rintro ⟨hne, c, hc, rfl⟩
    obtain ⟨j, hj⟩ := List.mem_iff_getElem?.mp hc
    have hij : i ≠ j := by
      rintro rfl
      rw [List.getElem?_set_self (List.getElem?_eq_some_iff.mp hi).1] at hj
      cases hj
      exact hne hb
    rw [List.getElem?_set_ne hij] at hj
    refine ⟨?_, hne, c, List.mem_of_getElem? hj, rfl⟩
    intro hk
    exact hij (h i j a c hi hj hk.symm ha)
  · rintro ⟨hka, hne, c, hc, rfl⟩
    obtain ⟨j, hj⟩ := List.mem_iff_getElem?.mp hc
    have hij : i ≠ j := by
      rintro rfl
      rw [hi] at hj
      cases hj
      exact hka rfl
    refine ⟨hne, c, List.mem_of_getElem? (i := j) ?_, rfl⟩
    rw [List.getElem?_set_ne hij]
    exact hj

theorem card_keys (h : Proper key free l) :
    (keys key free l).card = l.countP fun a => decide (key a ≠ free) := by
  induction l with
  | nil => simp [keys]
  | cons a l ih =>
    obtain ⟨hl, ha⟩ := proper_cons.mp h
    have hrest := ih hl
    by_cases hfree : key a = free
    · have hsame : keys key free (a :: l) = keys key free l := by
        simp [keys, hfree, Finset.erase_insert_eq_erase]
      simp [hsame, hrest, hfree]
    · have hins : keys key free (a :: l) = insert (key a) (keys key free l) := by
        simp [keys, Finset.erase_insert_of_ne hfree]
      have hnew : key a ∉ keys key free l := by
        rw [mem_keys]
        rintro ⟨_, b, hb, hk⟩
        exact ha hfree b hb hk
      rw [hins, Finset.card_insert_of_notMem hnew, hrest, List.countP_cons]
      simp [hfree]

theorem slot_free_eq_none (h : Proper key free l) :
    slot key free l = none ↔ (keys key free l).card = l.length := by
  rw [slot_eq_none, card_keys h, List.countP_eq_length]
  simp

end CSimples.SlotTable
