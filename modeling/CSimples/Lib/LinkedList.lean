import CSimples.Lib.Keyed
import Mathlib.Data.List.Perm.Subperm

/-!
# Linked lists in memory

Memory is the table of the allocated cells by address. A loop that follows the
pointers either ends, or touches an address that is not allocated, or goes round
in a circle; the last two are `none` here. As many rounds as there are cells are
enough for a list that ends.
-/

namespace CSimples.LinkedList
open Keyed

structure Cell (α : Type*) where
  value : α
  next : Option ℕ

abbrev Heap (α : Type*) := List (ℕ × Cell α)

variable {α : Type*}

def read (h : Heap α) (p : ℕ) : Option (Cell α) := (lookup Prod.fst p h).map Prod.snd

def write (h : Heap α) (p : ℕ) (c : Cell α) : Heap α := update Prod.fst p (fun _ => (p, c)) h

def free (h : Heap α) (p : ℕ) : Heap α := erase Prod.fst p h

/-! ### Loops over the pointers -/

def follow (h : Heap α) : ℕ → Option ℕ → Option (List α)
  | _, none => some []
  | 0, some _ => none
  | fuel + 1, some p => do
    let c ← read h p
    let rest ← follow h fuel c.next
    some (c.value :: rest)

/-- `while (current->next) { prev = current; current = current->next; }` -/
def walkToEnd (h : Heap α) : ℕ → Option ℕ → ℕ → Option (Option ℕ × ℕ)
  | 0, _, _ => none
  | fuel + 1, prev, current =>
    match read h current with
    | none => none
    | some ⟨_, none⟩ => some (prev, current)
    | some ⟨_, some next⟩ => walkToEnd h fuel (some current) next

/-- `while (current) { next = current->next; free(current); current = next; }` -/
def freeAll : ℕ → Heap α → Option ℕ → Option (Heap α)
  | _, h, none => some h
  | 0, _, some _ => none
  | fuel + 1, h, some p => do
    let c ← read h p
    freeAll fuel (free h p) c.next

/-! ### Lists that end -/

/-- The cells from `head` on, with their addresses. -/
def Linked (h : Heap α) : Option ℕ → List (ℕ × α) → Prop
  | head, [] => head = none
  | head, (p, a) :: l => head = some p ∧ ∃ next, read h p = some ⟨a, next⟩ ∧ Linked h next l

variable {h h' : Heap α} {head : Option ℕ} {l : List (ℕ × α)} {p q fuel : ℕ} {c : Cell α} {a : α}

theorem read_cons : read ((p, c) :: h) q = if p = q then some c else read h q := by
  by_cases hpq : p = q <;> simp [read, lookup, hpq]

theorem read_write (hp : read h p = some c) (d : Cell α) (q : ℕ) :
    read (write h p d) q = if q = p then some d else read h q := by
  induction h with
  | nil => simp [read, lookup] at hp
  | cons e h ih =>
    obtain ⟨r, b⟩ := e
    rw [read_cons] at hp
    by_cases hrp : r = p
    · subst r
      by_cases hq : q = p
      · simp [write, update, read_cons, hq]
      · simp [write, update, read_cons, hq, Ne.symm hq]
    · rw [if_neg hrp] at hp
      have hrest : write ((r, b) :: h) p d = (r, b) :: write h p d := by simp [write, update, hrp]
      rw [hrest, read_cons, read_cons, ih hp]
      by_cases hq : q = p
      · rw [if_neg (fun he => hrp (he.trans hq)), if_pos hq, if_pos hq]
      · rw [if_neg hq, if_neg hq]

theorem read_free_ne (hq : q ≠ p) : read (free h p) q = read h q := by
  simp only [read, free, lookup_erase_ne hq]

theorem mem_keys_of_read (hp : read h p = some c) : p ∈ h.map Prod.fst := by
  obtain ⟨e, he, _⟩ := Option.map_eq_some_iff.mp hp
  obtain ⟨hmem, hkey⟩ := lookup_mem he
  exact List.mem_map.mpr ⟨e, hmem, hkey⟩

theorem Linked.frame (hl : Linked h head l) (hsame : ∀ e ∈ l, read h' e.1 = read h e.1) :
    Linked h' head l := by
  induction l generalizing head with
  | nil => exact hl
  | cons e l ih =>
    obtain ⟨hhead, next, hread, hrest⟩ := hl
    refine ⟨hhead, next, ?_, ih hrest fun f hf => hsame f (List.mem_cons_of_mem _ hf)⟩
    rw [hsame e (List.mem_cons_self ..), hread]

theorem Linked.allocated (hl : Linked h head l) {e : ℕ × α} (he : e ∈ l) :
    ∃ next, read h e.1 = some ⟨e.2, next⟩ := by
  induction l generalizing head with
  | nil => cases he
  | cons f l ih =>
    obtain ⟨_, next, hread, hrest⟩ := hl
    rcases List.mem_cons.mp he with rfl | he
    · exact ⟨next, hread⟩
    · exact ih hrest he

theorem Linked.length_le (hl : Linked h head l) (hd : (l.map Prod.fst).Nodup) :
    l.length ≤ h.length := by
  have hsub : l.map Prod.fst ⊆ h.map Prod.fst := by
    intro p hp
    obtain ⟨e, he, rfl⟩ := List.mem_map.mp hp
    obtain ⟨next, hread⟩ := hl.allocated he
    exact mem_keys_of_read hread
  have hle := (List.subperm_of_subset hd hsub).length_le
  rwa [List.length_map, List.length_map] at hle

theorem follow_linked (hl : Linked h head l) (hf : l.length ≤ fuel) :
    follow h fuel head = some (l.map Prod.snd) := by
  induction l generalizing head fuel with
  | nil =>
    obtain rfl : head = none := hl
    cases fuel <;> rfl
  | cons e l ih =>
    obtain ⟨rfl, next, hread, hrest⟩ := hl
    cases fuel with
    | zero => simp at hf
    | succ fuel =>
      have hlen : l.length ≤ fuel := by simpa using hf
      simp [follow, hread, ih hrest hlen]

theorem walkToEnd_one (hl : Linked h (some q) [(p, a)]) (hf : 1 ≤ fuel) (prev : Option ℕ) :
    walkToEnd h fuel prev q = some (prev, p) := by
  obtain ⟨hq, next, hread, hrest⟩ := hl
  obtain rfl : q = p := Option.some.inj hq
  obtain rfl : next = none := hrest
  obtain ⟨fuel, rfl⟩ : ∃ n, fuel = n + 1 := ⟨fuel - 1, by omega⟩
  simp [walkToEnd, hread]

theorem walkToEnd_two {x y : ℕ × α} (hl : Linked h (some q) (l ++ [x, y]))
    (hf : l.length + 2 ≤ fuel) (prev : Option ℕ) :
    walkToEnd h fuel prev q = some (some x.1, y.1) := by
  induction l generalizing q prev fuel with
  | nil =>
    obtain ⟨hq, next, hread, hrest⟩ := hl
    obtain rfl : q = x.1 := Option.some.inj hq
    obtain rfl : next = some y.1 := hrest.1
    obtain ⟨fuel, rfl⟩ : ∃ n, fuel = n + 1 := ⟨fuel - 1, by omega⟩
    have hlast := walkToEnd_one hrest (by simp at hf; omega : 1 ≤ fuel) (some x.1)
    simp [walkToEnd, hread, hlast]
  | cons e l ih =>
    obtain ⟨hq, next, hread, hrest⟩ := hl
    obtain rfl : q = e.1 := Option.some.inj hq
    obtain ⟨fuel, rfl⟩ : ∃ n, fuel = n + 1 := ⟨fuel - 1, by omega⟩
    obtain ⟨r, rfl⟩ : ∃ r, next = some r := by
      cases l with
      | nil => exact ⟨_, hrest.1⟩
      | cons f l => exact ⟨_, hrest.1⟩
    have hlast := ih hrest (by simp at hf; omega : l.length + 2 ≤ fuel) (some e.1)
    simp [walkToEnd, hread, hlast]

/-- Clearing the pointer of the last cell but one cuts the last cell off. -/
theorem Linked.cut {x y : ℕ × α} (hl : Linked h head (l ++ [x, y]))
    (hd : ((l ++ [x, y]).map Prod.fst).Nodup) :
    Linked (write h x.1 ⟨x.2, none⟩) head (l ++ [x]) := by
  have hx : ∃ next, read h x.1 = some ⟨x.2, next⟩ := hl.allocated (by simp)
  obtain ⟨nextx, hx⟩ := hx
  induction l generalizing head with
  | nil =>
    obtain ⟨hhead, _⟩ := hl
    exact ⟨hhead, none, by rw [read_write hx, if_pos rfl], rfl⟩
  | cons e l ih =>
    obtain ⟨hhead, next, hread, hrest⟩ := hl
    obtain ⟨he, hd⟩ := List.nodup_cons.mp hd
    have hne : e.1 ≠ x.1 := by
      intro heq
      apply he
      rw [heq]
      exact List.mem_map_of_mem (by simp)
    exact ⟨hhead, next, by rw [read_write hx, if_neg hne, hread], ih hrest hd⟩

theorem freeAll_linked (hl : Linked h head l) (hd : (l.map Prod.fst).Nodup)
    (hf : l.length ≤ fuel) :
    ∃ h', freeAll fuel h head = some h' ∧ ∀ q, q ∉ l.map Prod.fst → read h' q = read h q := by
  induction l generalizing h head fuel with
  | nil =>
    obtain rfl : head = none := hl
    exact ⟨h, by cases fuel <;> rfl, fun _ _ => rfl⟩
  | cons e l ih =>
    obtain ⟨rfl, next, hread, hrest⟩ := hl
    obtain ⟨he, hd⟩ := List.nodup_cons.mp hd
    obtain ⟨fuel, rfl⟩ : ∃ n, fuel = n + 1 := ⟨fuel - 1, by simp at hf; omega⟩
    have hkept : Linked (free h e.1) next l := by
      refine hrest.frame fun f hf => read_free_ne ?_
      rintro heq
      exact he (heq ▸ List.mem_map_of_mem hf)
    obtain ⟨h', hrun, hsame⟩ := ih hkept hd (by simpa using hf : l.length ≤ fuel)
    refine ⟨h', by simpa [freeAll, hread] using hrun, fun q hq => ?_⟩
    obtain ⟨hqe, hql⟩ := List.ne_and_not_mem_of_not_mem_cons hq
    rw [hsame q hql, read_free_ne hqe]

end CSimples.LinkedList
