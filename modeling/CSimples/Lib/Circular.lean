import Mathlib.Data.List.Basic
import Mathlib.Data.List.Range
import Mathlib.Data.Nat.ModEq

/-!
# Windows of a circular buffer

The window of length `size` from index `head` in a buffer of `cap` slots, read
with indices modulo `cap`. Writing the slot after the window extends it at the
end; advancing `head` drops its first element.
-/

namespace CSimples.Circular

variable {α : Type*}

def window (buf : List α) (cap head size : ℕ) : List α :=
  (List.range size).filterMap fun i => buf[(head + i) % cap]?

variable {buf : List α} {cap head size : ℕ}

theorem window_length (hb : buf.length = cap) (hc : 0 < cap) :
    (window buf cap head size).length = size := by
  induction size with
  | zero => rfl
  | succ n ih =>
    have hlt : (head + n) % cap < buf.length := by
      rw [hb]
      exact Nat.mod_lt _ hc
    simp only [window] at ih ⊢
    rw [List.range_succ, List.filterMap_append, List.length_append, ih]
    simp [List.getElem?_eq_getElem hlt]

theorem window_eq_map (hb : buf.length = cap) (hc : 0 < cap) (head size : ℕ) (d : α) :
    window buf cap head size = (List.range size).map fun i => buf.getD ((head + i) % cap) d := by
  rw [window, ← List.filterMap_eq_map']
  apply List.filterMap_congr
  intro i _
  have hlt : (head + i) % cap < buf.length := by
    rw [hb]
    exact Nat.mod_lt _ hc
  rw [List.getElem?_eq_getElem hlt, List.getD_eq_getElem?_getD, List.getElem?_eq_getElem hlt]
  rfl

theorem slot_ne {i j : ℕ} (hij : i < j) (hj : j < i + cap) :
    (head + i) % cap ≠ (head + j) % cap := by
  intro he
  have hd : cap ∣ (head + j) - (head + i) := (Nat.modEq_iff_dvd' (by omega)).mp he
  have hle := Nat.le_of_dvd (by omega) hd
  omega

theorem window_push (hb : buf.length = cap) (hs : size < cap) (a : α) :
    window (buf.set ((head + size) % cap) a) cap head (size + 1) =
      window buf cap head size ++ [a] := by
  have hlt : (head + size) % cap < buf.length := by
    rw [hb]
    exact Nat.mod_lt _ (by omega)
  simp only [window]
  rw [List.range_succ, List.filterMap_append]
  congr 1
  · apply List.filterMap_congr
    intro i hi
    have hi := List.mem_range.mp hi
    rw [List.getElem?_set_ne]
    exact (slot_ne hi (by omega)).symm
  · simp [hlt]

theorem window_pop (size : ℕ) (hb : buf.length = cap) (hh : head < cap) :
    ∃ a, buf[head]? = some a ∧
      window buf cap head (size + 1) = a :: window buf cap ((head + 1) % cap) size := by
  have hlt : head < buf.length := by rw [hb]; exact hh
  refine ⟨buf[head], List.getElem?_eq_getElem hlt, ?_⟩
  have h0 : (head + 0) % cap = head := by rw [Nat.add_zero, Nat.mod_eq_of_lt hh]
  simp only [window, List.range_succ_eq_map, List.filterMap_cons, h0,
    List.getElem?_eq_getElem hlt, List.filterMap_map]
  congr 1
  apply List.filterMap_congr
  intro i _
  have hi : (head + (i + 1)) % cap = ((head + 1) % cap + i) % cap := by
    rw [Nat.mod_add_mod, Nat.add_right_comm, Nat.add_assoc]
  simp [hi]

end CSimples.Circular
