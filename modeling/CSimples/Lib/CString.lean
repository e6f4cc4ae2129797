import Mathlib.Data.List.Basic
import Mathlib.Data.List.TakeWhile

/-!
# Strings in byte buffers

A C string is the part of a buffer in front of the first NUL.
-/

namespace CSimples.CString

/-- The bytes of a literal; all characters are ASCII. -/
def text (s : String) : List UInt8 := s.toList.map fun c => UInt8.ofNat c.toNat

def cstr (bs : List UInt8) : List UInt8 := bs.takeWhile fun b => decide (b ≠ 0)

/-- `strncpy(dst, src, n)`: at most `n` bytes of the string, then NULs up to `n`. -/
def strncpy (dst src : List UInt8) (n : ℕ) : List UInt8 :=
  (cstr src).take n ++ List.replicate (n - (cstr src).length) 0 ++ dst.drop n

/-- `strstr`: the string from the first occurrence of the needle on. -/
def strstr (needle : List UInt8) : List UInt8 → Option (List UInt8)
  | [] => if needle = [] then some [] else none
  | b :: bs => if needle.isPrefixOf (b :: bs) = true then some (b :: bs) else strstr needle bs

/-- The tokens that successive calls of `strtok_r` return for one delimiter. -/
def strtok (delim : UInt8) (s : List UInt8) : List (List UInt8) :=
  (s.splitOn delim).filter fun token => decide (token ≠ [])

variable {dst bs needle : List UInt8} {n : ℕ}

theorem text_ofList (cs : List Char) :
    text (String.ofList cs) = cs.map fun c => UInt8.ofNat c.toNat := by
  rw [text, String.toList_ofList]

theorem text_append (a b : String) : text (a ++ b) = text a ++ text b := by
  rw [text, String.toList_append, List.map_append]
  rfl

theorem strstr_of_prefix (h : needle.isPrefixOf bs = true) : strstr needle bs = some bs := by
  cases bs with
  | nil =>
    have hnil := List.isPrefixOf_iff_prefix.mp h
    rw [strstr, if_pos (List.prefix_nil.mp hnil)]
  | cons b bs => rw [strstr, if_pos h]

theorem takeWhile_ne {a : UInt8} (h : a ∉ bs) : (bs.takeWhile fun b => decide (b ≠ a)) = bs := by
  apply List.takeWhile_eq_self_iff.mpr
  intro b hb
  apply decide_eq_true
  rintro rfl
  exact h hb

theorem cstr_eq_self (h : (0 : UInt8) ∉ bs) : cstr bs = bs := takeWhile_ne h

theorem cstr_append (h : (0 : UInt8) ∉ bs) (rest : List UInt8) :
    cstr (bs ++ rest) = bs ++ cstr rest := by
  refine List.takeWhile_append_of_pos fun b hb => decide_eq_true ?_
  rintro rfl
  exact h hb

theorem zero_notMem_cstr (bs : List UInt8) : (0 : UInt8) ∉ cstr bs := by
  intro h
  have hne := @List.mem_takeWhile_imp _ (fun b : UInt8 => decide (b ≠ 0)) bs 0 h
  exact of_decide_eq_true hne rfl

theorem length_cstr_lt (h : (0 : UInt8) ∈ bs) : (cstr bs).length < bs.length := by
  have hpre : cstr bs <+: bs := List.takeWhile_prefix _
  have hne : (cstr bs).length ≠ bs.length := by
    intro heq
    have h0 := zero_notMem_cstr bs
    rw [hpre.eq_of_length heq] at h0
    exact h0 h
  exact Nat.lt_of_le_of_ne hpre.length_le hne

/-- A string ends with its first NUL, whatever follows. -/
theorem cstr_append_nul (bs rest : List UInt8) : cstr (bs ++ 0 :: rest) = cstr bs := by
  induction bs with
  | nil => rfl
  | cons b bs ih =>
    rw [List.cons_append, cstr, cstr, List.takeWhile_cons, List.takeWhile_cons]
    split
    · exact congrArg (b :: ·) ih
    · rfl

theorem cstr_append_zero (h : (0 : UInt8) ∉ bs) (rest : List UInt8) : cstr (bs ++ 0 :: rest) = bs :=
  (cstr_append_nul bs rest).trans (cstr_eq_self h)

theorem strncpy_above (dst src : List UInt8) {n m : ℕ} (h : n ≤ m) :
    (strncpy dst src n)[m]? = dst[m]? := by
  have hlen : ((cstr src).take n ++ List.replicate (n - (cstr src).length) 0).length = n := by
    simp only [List.length_append, List.length_take, List.length_replicate]
    omega
  rw [strncpy, List.getElem?_append_right (by omega), hlen, List.getElem?_drop]
  congr 1
  omega

theorem length_strncpy (src : List UInt8) (h : n ≤ dst.length) :
    (strncpy dst src n).length = dst.length := by
  simp only [strncpy, List.length_append, List.length_take, List.length_replicate, List.length_drop]
  omega

/-- The buffer holds the string, cut to `n` bytes, if a NUL follows them. -/
theorem cstr_strncpy (src : List UInt8) (hdst : dst[n]? = some 0) :
    cstr (strncpy dst src n) = (cstr src).take n := by
  have hfree : (0 : UInt8) ∉ (cstr src).take n := fun h =>
    zero_notMem_cstr src (List.mem_of_mem_take h)
  have hdrop : dst.drop n = 0 :: dst.drop (n + 1) := by
    obtain ⟨hlt, hget⟩ := List.getElem?_eq_some_iff.mp hdst
    rw [List.drop_eq_getElem_cons hlt, hget]
  rw [strncpy, hdrop, List.append_assoc]
  cases n - (cstr src).length with
  | zero => exact cstr_append_zero hfree _
  | succ k =>
    rw [List.replicate_succ, List.cons_append]
    exact cstr_append_zero hfree _

/-! ### Where a needle is found -/

/-- No occurrence of the needle starts in front of the end of `pre`, whatever follows. -/
def Clear (needle pre : List UInt8) : Prop :=
  ∀ k < pre.length, ∀ post, ¬ needle <+: pre.drop k ++ post

/-- The two lists differ at some position that both have. -/
def clash (xs ys : List UInt8) : Bool := (List.zip xs ys).any fun p => decide (p.1 ≠ p.2)

variable {pre post rest : List UInt8}

theorem not_prefix_of_clash (h : clash needle pre = true) (post : List UInt8) :
    ¬ needle <+: pre ++ post := by
  induction needle generalizing pre with
  | nil => simp [clash] at h
  | cons b needle ih =>
    cases pre with
    | nil => simp [clash] at h
    | cons c pre =>
      intro hpre
      obtain ⟨hbc, hpre⟩ := List.cons_prefix_cons.mp hpre
      have hrest : clash needle pre = true := by
        simpa [clash, hbc] using h
      exact ih hrest hpre

theorem clear_of_clash (h : ∀ k < pre.length, clash needle (pre.drop k) = true) :
    Clear needle pre :=
  fun k hk post => not_prefix_of_clash (h k hk) post

theorem clear_of_head {b : UInt8} (h : b ∉ pre) : Clear (b :: needle) pre := by
  intro k hk post hpre
  rw [List.drop_eq_getElem_cons hk, List.cons_append] at hpre
  obtain ⟨rfl, _⟩ := List.cons_prefix_cons.mp hpre
  exact h (List.getElem_mem hk)

theorem Clear.append (h : Clear needle pre) (h' : Clear needle bs) : Clear needle (pre ++ bs) := by
  intro k hk post
  by_cases hpre : k < pre.length
  · rw [List.drop_append_of_le_length (by omega), List.append_assoc]
    exact h k hpre _
  · rw [List.drop_append, List.drop_eq_nil_of_le (by omega), List.nil_append]
    rw [List.length_append] at hk
    exact h' _ (by omega) post

theorem strstr_append (h : Clear needle pre) (bs : List UInt8) :
    strstr needle (pre ++ bs) = strstr needle bs := by
  induction pre with
  | nil => rfl
  | cons b pre ih =>
    have hhead : ¬ needle.isPrefixOf (b :: (pre ++ bs)) = true := by
      rw [List.isPrefixOf_iff_prefix]
      exact h 0 (by simp) bs
    have hrest : Clear needle pre := by
      intro k hk post
      simpa using h (k + 1) (by simpa using hk) post
    rw [List.cons_append, strstr, if_neg hhead, ih hrest]

theorem strstr_found (h : Clear needle pre) (rest : List UInt8) :
    strstr needle (pre ++ (needle ++ rest)) = some (needle ++ rest) := by
  rw [strstr_append h]
  exact strstr_of_prefix (List.isPrefixOf_iff_prefix.mpr (List.prefix_append needle rest))

theorem strstr_of_head {b : UInt8} (h : b ∉ pre) (rest : List UInt8) :
    strstr (b :: needle) (pre ++ rest) = strstr (b :: needle) rest :=
  strstr_append (clear_of_head h) rest

theorem strstr_cons {b : UInt8} (h : ¬ needle <+: b :: bs) :
    strstr needle (b :: bs) = strstr needle bs := by
  rw [← List.isPrefixOf_iff_prefix] at h
  rw [strstr, if_neg h]

/-- Two texts up to the same delimiter start alike only when they are equal. -/
theorem delimited_prefix_iff {q : UInt8} {xs ys : List UInt8} (hx : q ∉ xs) (hy : q ∉ ys) :
    xs ++ q :: pre <+: ys ++ q :: post ↔ xs = ys ∧ pre <+: post := by
  induction xs generalizing ys with
  | nil =>
    cases ys with
    | nil => simp
    | cons y ys =>
      refine iff_of_false (fun h => ?_) (fun h => absurd h.1 (by simp))
      exact hy ((List.cons_prefix_cons.mp h).1 ▸ List.mem_cons_self)
  | cons x xs ih =>
    obtain ⟨hqx, hx⟩ := List.ne_and_not_mem_of_not_mem_cons hx
    cases ys with
    | nil =>
      refine iff_of_false (fun h => ?_) (fun h => absurd h.1 (by simp))
      exact hqx (List.cons_prefix_cons.mp h).1.symm
    | cons y ys =>
      obtain ⟨_, hy⟩ := List.ne_and_not_mem_of_not_mem_cons hy
      rw [List.cons_append, List.cons_append, List.cons_prefix_cons, ih hx hy, List.cons.injEq,
        and_assoc]

theorem strstr_some (h : strstr needle bs = some rest) :
    needle <+: rest ∧ ∃ pre, bs = pre ++ rest := by
  induction bs with
  | nil =>
    by_cases hn : needle = []
    · obtain rfl : [] = rest := by simpa [strstr, hn] using h
      exact ⟨hn ▸ List.nil_prefix, [], rfl⟩
    · simp [strstr, hn] at h
  | cons b bs ih =>
    by_cases hp : needle.isPrefixOf (b :: bs) = true
    · obtain rfl : b :: bs = rest := by simpa [strstr, hp] using h
      exact ⟨List.isPrefixOf_iff_prefix.mp hp, [], rfl⟩
    · obtain ⟨hpre, pre, rfl⟩ := ih (by simpa [strstr, hp] using h)
      exact ⟨hpre, b :: pre, rfl⟩

theorem strstr_isSome : (strstr needle bs).isSome = true ↔ needle <:+: bs := by
  induction bs with
  | nil =>
    by_cases hn : needle = []
    · simp [strstr, hn]
    · simp [strstr, hn, List.infix_nil]
  | cons b bs ih =>
    rw [List.infix_cons_iff, ← ih, ← List.isPrefixOf_iff_prefix]
    by_cases hp : needle.isPrefixOf (b :: bs) = true <;> simp [strstr, hp]

/-- A needle without the byte `b` does not lie across it. -/
theorem infix_across {b : UInt8} (hb : b ∉ needle) (pre rest : List UInt8) :
    needle <:+: pre ++ b :: rest ↔ needle <:+: pre ∨ needle <:+: rest := by
  constructor
  · intro h
    induction pre with
    | nil =>
      rcases List.infix_cons_iff.mp h with hpre | hin
      · cases needle with
        | nil => exact .inl (List.nil_infix)
        | cons c needle =>
          rw [(List.cons_prefix_cons.mp hpre).1] at hb
          exact absurd List.mem_cons_self hb
      · exact .inr hin
    | cons a pre ih =>
      rw [List.cons_append] at h
      rcases List.infix_cons_iff.mp h with hpre | hin
      · have hbreak : a :: pre ++ [b] <+: a :: (pre ++ b :: rest) := ⟨rest, by simp⟩
        rcases List.prefix_or_prefix_of_prefix hpre hbreak with hshort | hlong
        · rcases List.prefix_concat_iff.mp hshort with heq | hshort
          · rw [heq] at hb
            exact absurd (List.mem_append_right _ (List.mem_singleton_self b)) hb
          · exact .inl hshort.isInfix
        · exact absurd (hlong.subset (List.mem_append_right _ (List.mem_singleton_self b))) hb
      · rcases ih hin with hin | hin
        · exact .inl (List.infix_cons hin)
        · exact .inr hin
  · rintro (hin | hin)
    · exact hin.trans (List.prefix_append _ _).isInfix
    · exact (List.infix_cons hin).trans (List.suffix_append _ _).isInfix

theorem strstr_short (h : bs.length < needle.length) : strstr needle bs = none := by
  rw [← Option.not_isSome_iff_eq_none, strstr_isSome]
  intro hin
  exact absurd hin.length_le (by omega)

theorem strstr_none_shorten (h : strstr needle bs = none) (hpre : pre <+: bs) :
    strstr needle pre = none := by
  rw [← Option.not_isSome_iff_eq_none, strstr_isSome] at h ⊢
  exact fun hin => h (hin.trans hpre.isInfix)

theorem prefix_cstr (h : pre <+: bs) : cstr pre <+: cstr bs := by
  obtain ⟨post, rfl⟩ := h
  rw [cstr, cstr, List.takeWhile_append]
  split
  · rename_i hall
    rw [(List.takeWhile_prefix _).eq_of_length hall]
    exact List.prefix_append _ _
  · exact List.prefix_refl _

/-- A needle cut short at the end of the text is not found. -/
theorem strstr_take (h : Clear needle pre) (post : List UInt8)
    (hn : n < pre.length + needle.length) : strstr needle ((pre ++ post).take n) = none := by
  cases hfound : strstr needle ((pre ++ post).take n) with
  | none => rfl
  | some rest =>
    obtain ⟨hpre, front, hfront⟩ := strstr_some hfound
    have hlen := congrArg List.length hfront
    have hneedle := hpre.length_le
    simp only [List.length_take, List.length_append] at hlen
    have hk : front.length < pre.length := by omega
    have hdrop : rest = ((pre ++ post).take n).drop front.length := by
      rw [hfront, List.drop_left]
    have hoccurs : needle <+: pre.drop front.length ++ post := by
      rw [← List.drop_append_of_le_length (by omega)]
      refine hpre.trans ?_
      rw [hdrop, List.drop_take]
      exact List.take_prefix _ _
    exact absurd hoccurs (h _ hk post)

end CSimples.CString
