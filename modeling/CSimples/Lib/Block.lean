import Mathlib.Data.List.Basic

/-!
# Memory blocks used as counted arrays

A block has a fixed number of slots, of which the first `n` are in use. The
slots from `n` on keep whatever was last written there; nothing clears them.
-/

namespace CSimples.Block

/-- A fresh block of `n` slots: the allocation may fail, and what the slots hold
is arbitrary. -/
abbrev Slots (α : Type*) (n : ℕ) := Option {ws : List α // ws.length = n}

variable {α : Type*}

def memmove (l : List α) (dst src n : ℕ) : List α :=
  l.take dst ++ (l.drop src).take n ++ l.drop (dst + n)

def memcpy (dst src : List α) (n : ℕ) : List α := src.take n ++ dst.drop n

/-- A loop that assigns the first `n` slots, first to last. -/
def fill (g : ℕ → α) (n : ℕ) (l : List α) : List α :=
  (List.range n).foldl (fun l i => l.set i (g i)) l

def sweep (f : α → α) (n : ℕ) (l : List α) : List α := (l.take n).map f ++ l.drop n

/-- `if (keep(l[i])) { if (i != n) l[n] = l[i]; n++; }` for the first `count` slots;
the slots kept and their number. -/
def compactStep (keep : α → Bool) (s : List α × ℕ) (i : ℕ) : List α × ℕ :=
  match s.1[i]? with
  | some a => if keep a = true then (if i ≠ s.2 then s.1.set s.2 a else s.1, s.2 + 1) else s
  | none => s

def compact (keep : α → Bool) (l : List α) (count : ℕ) : List α × ℕ :=
  (List.range count).foldl (compactStep keep) (l, 0)

/-- A loop that takes what the slots `f 0`, …, `f (n - 1)` hold and leaves them empty:
what is taken, and the slots afterwards. -/
def drain (f : ℕ → ℕ) (n : ℕ) (l : List (Option α)) : List (Option α) × List (Option α) :=
  (List.range n).foldl (fun s i => (s.1 ++ [s.2.getD (f i) none], s.2.set (f i) none)) ([], l)

variable {l : List α} {dst src n i : ℕ}

theorem memmove_length (hd : dst + n ≤ l.length) (hs : src + n ≤ l.length) :
    (memmove l dst src n).length = l.length := by
  simp only [memmove, List.length_append, List.length_take, List.length_drop]
  omega

theorem memmove_below {j : ℕ} (hj : j < dst) (hd : dst ≤ l.length) :
    (memmove l dst src n)[j]? = l[j]? := by
  have h1 : j < (l.take dst).length := by
    rw [List.length_take]
    omega
  rw [memmove, List.append_assoc, List.getElem?_append_left h1, List.getElem?_take_of_lt hj]

theorem memmove_above {j : ℕ} (hj : dst + n ≤ j) (hd : dst ≤ l.length) (hs : src + n ≤ l.length) :
    (memmove l dst src n)[j]? = l[j]? := by
  have hlen : (l.take dst ++ (l.drop src).take n).length = dst + n := by
    simp only [List.length_append, List.length_take, List.length_drop]
    omega
  rw [memmove, List.getElem?_append_right (by omega), hlen, List.getElem?_drop]
  congr 1
  omega

/-- Closing the gap at slot `i` of the first `n`: the slots in use lose their
`i`-th element and keep their order. -/
theorem take_memmove_gap (hi : i < n) (hn : n ≤ l.length) :
    (memmove l i (i + 1) (n - i - 1)).take (n - 1) = (l.take n).eraseIdx i := by
  have hlen : (l.take i ++ (l.drop (i + 1)).take (n - i - 1)).length = n - 1 := by
    simp only [List.length_append, List.length_take, List.length_drop]
    omega
  rw [memmove, List.take_append_of_le_length (by omega), List.take_of_length_le (by omega),
    List.eraseIdx_eq_take_drop_succ, List.take_take, List.drop_take]
  congr 2
  omega

theorem take_set_next (hn : n < l.length) (a : α) :
    (l.set n a).take (n + 1) = l.take n ++ [a] := by
  rw [List.take_succ_eq_append_getElem (by simpa using hn), List.take_set_of_le (Nat.le_refl n)]
  simp

theorem take_sweep (f : α → α) (hn : n ≤ l.length) :
    (sweep f n l).take n = (l.take n).map f := by
  have hlen : ((l.take n).map f).length = n := by simp [hn]
  rw [sweep, List.take_append_of_le_length (by omega), List.take_of_length_le (by omega)]

theorem sweep_length (f : α → α) : (sweep f n l).length = l.length := by
  simp only [sweep, List.length_append, List.length_map, List.length_take, List.length_drop]
  omega

theorem memcpy_whole {dst src : List α} {n : ℕ} (hd : dst.length = n) :
    memcpy dst src n = src.take n := by
  rw [memcpy, List.drop_eq_nil_of_le (by omega), List.append_nil]

theorem fill_eq (g : ℕ → α) {n : ℕ} {l : List α} (h : n ≤ l.length) :
    fill g n l = (List.range n).map g ++ l.drop n := by
  induction n with
  | zero => rfl
  | succ n ih =>
    have hprev : fill g (n + 1) l = (fill g n l).set n (g n) := by
      simp [fill, List.range_succ]
    have hrest : l.drop n = l[n] :: l.drop (n + 1) := List.drop_eq_getElem_cons (by omega)
    rw [hprev, ih (by omega), hrest, List.set_append_right _ _ (by simp), List.range_succ]
    simp only [List.length_map, List.length_range, Nat.sub_self, List.set_cons_zero,
      List.map_append, List.map_cons, List.map_nil, List.append_assoc, List.singleton_append]

theorem fill_whole (g : ℕ → α) {n : ℕ} {l : List α} (h : l.length = n) :
    fill g n l = (List.range n).map g := by
  rw [fill_eq g (by omega), List.drop_eq_nil_of_le (by omega), List.append_nil]

/-! ### Compaction -/

/-- What is in front of the read index is filtered, what is behind it untouched. -/
theorem compact_loop (keep : α → Bool) {count : ℕ} (h : count ≤ l.length) :
    (compact keep l count).1.length = l.length ∧
      (compact keep l count).2 ≤ count ∧
      (compact keep l count).1.drop count = l.drop count ∧
      (compact keep l count).1.take (compact keep l count).2 = (l.take count).filter keep := by
  induction count with
  | zero => exact ⟨rfl, Nat.le_refl 0, rfl, rfl⟩
  | succ count ih =>
    obtain ⟨hlen, hle, hdrop, htake⟩ := ih (by omega)
    have hstep : compact keep l (count + 1) = compactStep keep (compact keep l count) count := by
      simp only [compact, List.range_succ, List.foldl_append, List.foldl_cons, List.foldl_nil]
    generalize compact keep l count = s at hlen hle hdrop htake hstep
    obtain ⟨k, n⟩ := s
    dsimp only at hlen hle hdrop htake
    have hk : k[count]? = some l[count] := by
      have hhead := congrArg List.head? hdrop
      rw [List.head?_drop, List.head?_drop] at hhead
      rw [hhead, List.getElem?_eq_getElem (by omega)]
    have hfilter : (l.take (count + 1)).filter keep =
        (l.take count).filter keep ++ if keep l[count] = true then [l[count]] else [] := by
      rw [List.take_succ_eq_append_getElem (by omega), List.filter_append, List.filter_singleton]
      cases keep l[count] <;> rfl
    have hnext : k.drop (count + 1) = l.drop (count + 1) := by
      rw [← List.drop_drop, ← List.drop_drop, hdrop]
    rw [hstep, hfilter, compactStep, hk]
    dsimp only
    by_cases hkeep : keep l[count] = true
    · rw [if_pos hkeep, if_pos hkeep]
      have hset : (if count ≠ n then k.set n l[count] else k) = k.set n l[count] := by
        split
        · rfl
        · rename_i hn
          obtain rfl : count = n := not_not.mp hn
          obtain ⟨hlt, hget⟩ := List.getElem?_eq_some_iff.mp hk
          rw [← hget, List.set_getElem_self]
      dsimp only
      rw [hset]
      refine ⟨by rw [List.length_set, hlen], by omega, ?_, ?_⟩
      · rw [List.drop_set_of_lt (by omega), hnext]
      · rw [take_set_next (by omega), htake]
    · rw [if_neg hkeep, if_neg hkeep, List.append_nil]
      exact ⟨hlen, by omega, hnext, htake⟩

/-! ### Draining -/

section Drain
variable {f : ℕ → ℕ} {slots : List (Option α)}

theorem drain_succ (f : ℕ → ℕ) (n : ℕ) (slots : List (Option α)) :
    drain f (n + 1) slots = ((drain f n slots).1 ++ [(drain f n slots).2.getD (f n) none],
      (drain f n slots).2.set (f n) none) := by
  simp only [drain, List.range_succ, List.foldl_append, List.foldl_cons, List.foldl_nil]

theorem drain_length (f : ℕ → ℕ) (n : ℕ) (slots : List (Option α)) :
    (drain f n slots).1.length = n := by
  induction n with
  | zero => rfl
  | succ n ih => rw [drain_succ, List.length_append, ih, List.length_singleton]

theorem drain_other {k : ℕ} (h : ∀ i < n, f i ≠ k) : (drain f n slots).2[k]? = slots[k]? := by
  induction n with
  | zero => rfl
  | succ n ih =>
    rw [drain_succ, List.getElem?_set_ne (h n (Nat.lt_succ_self n)),
      ih fun i hi => h i (Nat.lt_succ_of_lt hi)]

theorem drain_emptied (hi : i < n) : (drain f n slots).2.getD (f i) none = none := by
  induction n with
  | zero => omega
  | succ n ih =>
    rw [drain_succ, List.getD_eq_getElem?_getD, List.getElem?_set]
    split
    · split <;> rfl
    · rename_i hne
      have hin : i < n := by
        by_contra hge
        obtain rfl : i = n := by omega
        exact hne rfl
      rw [← List.getD_eq_getElem?_getD, ih hin]

/-- Different slots give what they held before the loop. -/
theorem drain_taken (h : ∀ i j, i < j → j < n → f i ≠ f j) :
    (drain f n slots).1 = (List.range n).map fun i => slots.getD (f i) none := by
  induction n with
  | zero => rfl
  | succ n ih =>
    have hlast : (drain f n slots).2.getD (f n) none = slots.getD (f n) none := by
      rw [List.getD_eq_getElem?_getD, drain_other fun i hi => h i n hi (Nat.lt_succ_self n),
        List.getD_eq_getElem?_getD]
    rw [drain_succ, ih fun i j hij hj => h i j hij (Nat.lt_succ_of_lt hj), hlast, List.range_succ,
      List.map_append, List.map_singleton]

/-- A slot that comes up twice has nothing left the second time. -/
theorem drain_repeated {j : ℕ} (hij : i < j) (hj : j < n) (hf : f i = f j) :
    none ∈ (drain f n slots).1 := by
  induction n with
  | zero => omega
  | succ n ih =>
    rw [drain_succ, List.mem_append, List.mem_singleton]
    by_cases hjn : j < n
    · exact Or.inl (ih hjn)
    · obtain rfl : j = n := by omega
      rw [← hf, drain_emptied hij]
      exact Or.inr rfl

end Drain

/-! ### Slot by slot -/

theorem slots_set {P : ℕ → α → Prop} {b : α} (hb : P i b)
    (hrest : ∀ k a, k ≠ i → l[k]? = some a → P k a) :
    ∀ k a, (l.set i b)[k]? = some a → P k a := by
  intro k a hk
  by_cases hik : i = k
  · subst k
    obtain ⟨_, rfl⟩ : i < l.length ∧ b = a := by simpa [List.getElem?_set] using hk
    exact hb
  · rw [List.getElem?_set_ne hik] at hk
    exact hrest k a (Ne.symm hik) hk

theorem slots_map {β : Type*} {P : ℕ → β → Prop} {f : α → β}
    (h : ∀ k a, l[k]? = some a → P k (f a)) : ∀ k b, (l.map f)[k]? = some b → P k b := by
  intro k b hk
  rw [List.getElem?_map] at hk
  obtain ⟨a, ha, rfl⟩ := Option.map_eq_some_iff.mp hk
  exact h k a ha

theorem map_set_slot {β : Type*} {f : α → β} {a b : α} (h : l[i]? = some a) (hf : f b = f a) :
    (l.set i b).map f = l.map f := by
  obtain ⟨hi, rfl⟩ := List.getElem?_eq_some_iff.mp h
  have hmap : i < (l.map f).length := by simpa using hi
  have hget : (l.map f)[i] = f b := by rw [List.getElem_map, hf]
  rw [List.map_set, ← hget, List.set_getElem_self]

theorem countP_set_slot (p : α → Bool) {a b : α} (h : l[i]? = some a) :
    (l.set i b).countP p + (if p a then 1 else 0) = l.countP p + (if p b then 1 else 0) := by
  induction l generalizing i with
  | nil => simp at h
  | cons c l ih =>
    cases i with
    | zero =>
      obtain rfl : c = a := by simpa using h
      simp only [List.set_cons_zero, List.countP_cons]
      omega
    | succ i =>
      have hrest := ih (i := i) (by simpa using h)
      simp only [List.set_cons_succ, List.countP_cons]
      omega

end CSimples.Block
