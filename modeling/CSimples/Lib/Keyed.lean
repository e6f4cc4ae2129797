import Mathlib.Data.List.Nodup
import Mathlib.Data.List.Basic

/-!
# Tables searched by a linear first-match scan

A table is a list of entries, each with a key. Every access scans from the
front and stops at the first entry whose key matches, whether or not the keys
are distinct; so the operations are given for arbitrary lists, and only the
last part adds that keys are distinct (`Distinct`), where they become those of a
finite map.
-/

namespace CSimples.Keyed

variable {α κ : Type*} [DecidableEq κ] (key : α → κ)

def position (k : κ) (l : List α) : Option ℕ := l.findIdx? fun a => decide (key a = k)

def lookup (k : κ) (l : List α) : Option α := l.find? fun a => decide (key a = k)

def update (k : κ) (f : α → α) : List α → List α
  | [] => []
  | a :: l => if key a = k then f a :: l else a :: update k f l

def erase (k : κ) : List α → List α
  | [] => []
  | a :: l => if key a = k then l else a :: erase k l

variable {key} {k : κ} {f : α → α} {l : List α} {a b : α} {i : ℕ}

/-! ### Positions -/

theorem position_cons : position key k (a :: l) =
    if key a = k then some 0 else (position key k l).map (· + 1) := by
  by_cases h : key a = k <;> simp [position, List.findIdx?_cons, h]

theorem position_eq_none : position key k l = none ↔ ∀ a ∈ l, key a ≠ k := by
  simp [position, List.findIdx?_eq_none_iff]

theorem position_isSome : (position key k l).isSome ↔ ∃ a ∈ l, key a = k := by
  simp [position, List.findIdx?_isSome]

theorem lookup_eq_position : lookup key k l = (position key k l).bind fun i => l[i]? := by
  simp only [lookup, position, List.find?_eq_bind_findIdx?_getElem?]

theorem position_lt (h : position key k l = some i) : i < l.length := by
  obtain ⟨hi, _⟩ := List.findIdx?_eq_some_iff_getElem.mp h
  exact hi

theorem position_get (h : position key k l = some i) :
    ∃ a, l[i]? = some a ∧ key a = k ∧ lookup key k l = some a := by
  obtain ⟨hi, hk, _⟩ := List.findIdx?_eq_some_iff_getElem.mp h
  refine ⟨l[i], List.getElem?_eq_getElem hi, by simpa using hk, ?_⟩
  rw [lookup_eq_position, h, Option.bind_some, List.getElem?_eq_getElem hi]

theorem position_eq_some : position key k l = some i ↔
    (∃ a, l[i]? = some a ∧ key a = k) ∧ ∀ j < i, ∀ b, l[j]? = some b → key b ≠ k := by
  rw [position, List.findIdx?_eq_some_iff_getElem]
  constructor
  · rintro ⟨hi, hk, hlt⟩
    refine ⟨⟨l[i], List.getElem?_eq_getElem hi, by simpa using hk⟩, fun j hj b hb => ?_⟩
    obtain ⟨hj', rfl⟩ := List.getElem?_eq_some_iff.mp hb
    simpa using hlt j hj
  · rintro ⟨⟨a, ha, hk⟩, hlt⟩
    obtain ⟨hi, rfl⟩ := List.getElem?_eq_some_iff.mp ha
    refine ⟨hi, by simpa using hk, fun j hj => ?_⟩
    have hne := hlt j hj l[j] (List.getElem?_eq_getElem (by omega))
    simpa using hne

theorem modify_position (f : α → α) (h : position key k l = some i) :
    l.modify i f = update key k f l := by
  induction l generalizing i with
  | nil => simp [position] at h
  | cons a l ih =>
    rw [position_cons] at h
    by_cases hk : key a = k
    · rw [if_pos hk] at h
      cases h
      simp [update, hk]
    · rw [if_neg hk] at h
      obtain ⟨j, hj, rfl⟩ := Option.map_eq_some_iff.mp h
      simp [update, hk, ih hj]

theorem eraseIdx_position (h : position key k l = some i) :
    l.eraseIdx i = erase key k l := by
  induction l generalizing i with
  | nil => simp [position] at h
  | cons a l ih =>
    rw [position_cons] at h
    by_cases hk : key a = k
    · rw [if_pos hk] at h
      cases h
      simp [erase, hk]
    · rw [if_neg hk] at h
      obtain ⟨j, hj, rfl⟩ := Option.map_eq_some_iff.mp h
      simp [erase, hk, ih hj]

/-! ### Lookup -/

theorem lookup_eq_none : lookup key k l = none ↔ ∀ a ∈ l, key a ≠ k := by
  simp [lookup]

theorem lookup_mem (h : lookup key k l = some a) : a ∈ l ∧ key a = k := by
  refine ⟨List.mem_of_find?_eq_some h, ?_⟩
  simpa using List.find?_some h

theorem lookup_append_left {l' : List α} (h : lookup key k l = some a) :
    lookup key k (l ++ l') = some a := by
  simp only [lookup] at h
  simp [lookup, List.find?_append, h]

theorem lookup_append_right {l' : List α} (h : ∀ a ∈ l, key a ≠ k) :
    lookup key k (l ++ l') = lookup key k l' := by
  have hn : lookup key k l = none := lookup_eq_none.mpr h
  simp only [lookup] at hn
  simp [lookup, List.find?_append, hn]

/-! ### Update -/

theorem update_of_absent (h : ∀ a ∈ l, key a ≠ k) : update key k f l = l := by
  induction l with
  | nil => rfl
  | cons a l ih =>
    have ha := h a (List.mem_cons_self ..)
    simp [update, ha, ih fun b hb => h b (List.mem_cons_of_mem _ hb)]

theorem map_update {β : Type*} {g : α → β} (hg : ∀ a, g (f a) = g a) :
    (update key k f l).map g = l.map g := by
  induction l with
  | nil => rfl
  | cons a l ih =>
    simp only [update]
    split <;> simp [ih, hg]

/-- Only the first element with the key is changed. -/
theorem mem_update_first (h : b ∈ update key k f l) :
    b ∈ l ∨ ∃ a, lookup key k l = some a ∧ b = f a := by
  induction l with
  | nil => simp [update] at h
  | cons a l ih =>
    by_cases hk : key a = k
    · rw [update, if_pos hk] at h
      rcases List.mem_cons.mp h with rfl | hb
      · exact Or.inr ⟨a, by simp [lookup, hk], rfl⟩
      · exact Or.inl (List.mem_cons_of_mem _ hb)
    · rw [update, if_neg hk] at h
      rcases List.mem_cons.mp h with rfl | hb
      · exact Or.inl (List.mem_cons_self ..)
      · rcases ih hb with hb | ⟨c, hc, he⟩
        · exact Or.inl (List.mem_cons_of_mem _ hb)
        · exact Or.inr ⟨c, by simpa [lookup, hk] using hc, he⟩

theorem mem_update (h : b ∈ update key k f l) : b ∈ l ∨ ∃ a ∈ l, key a = k ∧ b = f a := by
  rcases mem_update_first h with hb | ⟨a, ha, hb⟩
  · exact Or.inl hb
  · obtain ⟨hm, hk⟩ := lookup_mem ha
    exact Or.inr ⟨a, hm, hk, hb⟩

theorem mem_update_or_first (h : b ∈ l) : b ∈ update key k f l ∨ lookup key k l = some b := by
  induction l with
  | nil => cases h
  | cons a l ih =>
    by_cases hk : key a = k
    · rw [update, if_pos hk]
      rcases List.mem_cons.mp h with rfl | hb
      · exact Or.inr (by simp [lookup, hk])
      · exact Or.inl (List.mem_cons_of_mem _ hb)
    · rw [update, if_neg hk]
      rcases List.mem_cons.mp h with rfl | hb
      · exact Or.inl (List.mem_cons_self ..)
      · exact (ih hb).imp (List.mem_cons_of_mem _) fun hl => by simpa [lookup, hk] using hl

theorem mem_update_of_ne (h : b ∈ l) (hk : key b ≠ k) : b ∈ update key k f l := by
  induction l with
  | nil => simp at h
  | cons a l ih =>
    simp only [update]
    rcases List.mem_cons.mp h with rfl | hb
    · simp [hk]
    · split
      · exact List.mem_cons_of_mem _ hb
      · exact List.mem_cons_of_mem _ (ih hb)

theorem mem_update_lookup (h : lookup key k l = some a) : f a ∈ update key k f l := by
  induction l with
  | nil => simp [lookup] at h
  | cons c l ih =>
    by_cases hk : key c = k
    · have hc : c = a := by simpa [lookup, hk] using h
      subst c
      simp [update, hk]
    · have hl : lookup key k l = some a := by simpa [lookup, hk] using h
      simp [update, hk, ih hl]

theorem update_get_ne (h : l[i]? = some a) (hk : key a ≠ k) :
    (update key k f l)[i]? = some a := by
  induction l generalizing i with
  | nil => simp at h
  | cons c l ih =>
    simp only [update]
    cases i with
    | zero =>
      obtain rfl : c = a := by simpa using h
      simp [hk]
    | succ i =>
      have hl : l[i]? = some a := by simpa using h
      split
      · simpa using hl
      · simpa using ih hl

theorem countP_update (p : α → Bool) (h : lookup key k l = some a) :
    (update key k f l).countP p + (if p a then 1 else 0) =
      l.countP p + (if p (f a) then 1 else 0) := by
  induction l with
  | nil => simp [lookup] at h
  | cons c l ih =>
    by_cases hk : key c = k
    · have hc : c = a := by simpa [lookup, hk] using h
      subst c
      simp only [update, hk, ite_true, List.countP_cons]
      omega
    · have hl : lookup key k l = some a := by simpa [lookup, hk] using h
      simp only [update, hk, ite_false, List.countP_cons]
      have hrest := ih hl
      omega

/-- The first entry that passes a filter is changed so that it no longer passes. -/
theorem filter_update_head {p : α → Bool} {rest : List α} (ha : lookup key k l = some a)
    (hf : p (f a) = false) (h : l.filter p = a :: rest) : (update key k f l).filter p = rest := by
  induction l with
  | nil => simp [lookup] at ha
  | cons c l ih =>
    by_cases hk : key c = k
    · obtain rfl : c = a := by simpa [lookup, hk] using ha
      have hc : p c = true :=
        (List.mem_filter.mp (h ▸ List.mem_cons_self .. : c ∈ (c :: l).filter p)).2
      rw [List.filter_cons_of_pos hc] at h
      simp only [update, hk, ite_true]
      rw [List.filter_cons_of_neg (by rw [hf]; exact Bool.false_ne_true)]
      exact (List.cons_eq_cons.mp h).2
    · have hl : lookup key k l = some a := by simpa [lookup, hk] using ha
      have hc : ¬ p c = true := by
        intro hc
        rw [List.filter_cons_of_pos hc] at h
        rw [(List.cons_eq_cons.mp h).1] at hk
        exact hk (lookup_mem hl).2
      rw [List.filter_cons_of_neg hc] at h
      simp only [update, hk, ite_false]
      rw [List.filter_cons_of_neg hc]
      exact ih hl h

theorem lookup_update (hf : ∀ a, key (f a) = key a) :
    lookup key k (update key k f l) = (lookup key k l).map f := by
  induction l with
  | nil => rfl
  | cons a l ih =>
    by_cases hk : key a = k
    · simp [update, lookup, hk, hf]
    · simpa [update, lookup, hk] using ih

/-! ### Erasing -/

theorem erase_sublist : (erase key k l).Sublist l := by
  induction l with
  | nil => exact List.Sublist.refl _
  | cons a l ih =>
    simp only [erase]
    split
    · exact List.sublist_cons_self a l
    · exact ih.cons_cons a

theorem mem_erase_of_ne (h : b ∈ l) (hk : key b ≠ k) : b ∈ erase key k l := by
  induction l with
  | nil => simp at h
  | cons a l ih =>
    simp only [erase]
    rcases List.mem_cons.mp h with rfl | hb
    · simp [hk]
    · split
      · exact hb
      · exact List.mem_cons_of_mem _ (ih hb)

theorem erase_of_absent (h : ∀ a ∈ l, key a ≠ k) : erase key k l = l := by
  induction l with
  | nil => rfl
  | cons a l ih =>
    have ha := h a (List.mem_cons_self ..)
    simp [erase, ha, ih fun b hb => h b (List.mem_cons_of_mem _ hb)]

theorem lookup_erase_ne {k' : κ} (hk : k' ≠ k) :
    lookup key k' (erase key k l) = lookup key k' l := by
  induction l with
  | nil => rfl
  | cons a l ih =>
    by_cases ha : key a = k
    · have hne : key a ≠ k' := fun he => hk (he.symm.trans ha)
      simp [erase, lookup, ha, hk.symm]
    · by_cases ha' : key a = k'
      · simp [erase, lookup, ha', hk]
      · simpa [erase, lookup, ha, ha'] using ih

theorem erase_append_fresh (h : ∀ a ∈ l, key a ≠ key b) :
    erase key (key b) (l ++ [b]) = l := by
  induction l with
  | nil => simp [erase]
  | cons a l ih =>
    have ha := h a (List.mem_cons_self ..)
    simp [erase, ha, ih fun c hc => h c (List.mem_cons_of_mem _ hc)]

/-! ### Distinct keys -/

def Distinct (key : α → κ) (l : List α) : Prop := (l.map key).Nodup

instance (l : List α) : Decidable (Distinct key l) := inferInstanceAs (Decidable (l.map key).Nodup)

omit [DecidableEq κ] in
theorem Distinct.eq (h : Distinct key l) (ha : a ∈ l) (hb : b ∈ l) (hk : key a = key b) : a = b :=
  List.inj_on_of_nodup_map h ha hb hk

theorem Distinct.lookup (h : Distinct key l) (ha : a ∈ l) : lookup key (key a) l = some a := by
  cases hc : Keyed.lookup key (key a) l with
  | none => exact absurd rfl (lookup_eq_none.mp hc a ha)
  | some c =>
    obtain ⟨hm, hk⟩ := lookup_mem hc
    rw [h.eq hm ha hk]

omit [DecidableEq κ] in
theorem distinct_append_fresh :
    Distinct key (l ++ [b]) ↔ Distinct key l ∧ ∀ a ∈ l, key a ≠ key b := by
  simp [Distinct, List.nodup_append]

theorem Distinct.update_get (hd : Distinct key l) (h : l[i]? = some a) (hk : key a = k) :
    (update key k f l)[i]? = some (f a) := by
  induction l generalizing i with
  | nil => simp at h
  | cons c l ih =>
    obtain ⟨hc, hl⟩ := List.nodup_cons.mp hd
    cases i with
    | zero =>
      obtain rfl : c = a := by simpa using h
      simp [update, hk]
    | succ i =>
      have ha : l[i]? = some a := by simpa using h
      have hne : key c ≠ k := fun he =>
        hc (List.mem_map.mpr ⟨a, List.mem_of_getElem? ha, hk.trans he.symm⟩)
      simpa [update, hne] using ih hl ha

theorem Distinct.mem_update (h : Distinct key l) :
    b ∈ update key k f l ↔ (b ∈ l ∧ key b ≠ k) ∨ ∃ a ∈ l, key a = k ∧ b = f a := by
  induction l with
  | nil => simp [update]
  | cons a l ih =>
    obtain ⟨ha, hl⟩ := List.nodup_cons.mp h
    by_cases hk : key a = k
    · have hfree : ∀ c ∈ l, key c ≠ k := fun c hc he =>
        ha (List.mem_map.mpr ⟨c, hc, he.trans hk.symm⟩)
      constructor
      · intro hb
        simp only [update, hk, ite_true] at hb
        rcases List.mem_cons.mp hb with rfl | hb
        · exact Or.inr ⟨a, List.mem_cons_self .., hk, rfl⟩
        · exact Or.inl ⟨List.mem_cons_of_mem _ hb, hfree b hb⟩
      · rintro (⟨hb, hne⟩ | ⟨c, hc, hck, rfl⟩)
        · exact mem_update_of_ne hb hne
        · rcases List.mem_cons.mp hc with rfl | hc
          · simp [update, hk]
          · exact absurd hck (hfree c hc)
    · have ih' := ih hl
      simp only [update, hk, ite_false, List.mem_cons, ih']
      constructor
      · rintro (rfl | ⟨hb, hne⟩ | ⟨c, hc, hck, rfl⟩)
        · exact Or.inl ⟨Or.inl rfl, hk⟩
        · exact Or.inl ⟨Or.inr hb, hne⟩
        · exact Or.inr ⟨c, Or.inr hc, hck, rfl⟩
      · rintro (⟨rfl | hb, hne⟩ | ⟨c, rfl | hc, hck, rfl⟩)
        · exact Or.inl rfl
        · exact Or.inr (Or.inl ⟨hb, hne⟩)
        · exact absurd hck hk
        · exact Or.inr (Or.inr ⟨c, hc, hck, rfl⟩)

end CSimples.Keyed
