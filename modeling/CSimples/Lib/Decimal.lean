import CSimples.Lib.CString
import Mathlib.Data.List.TakeWhile
import Mathlib.Tactic.Ring

/-!
# Decimal numbers in text

What `%u` and `%zu` print, and the digits at the front of a text read back.
-/

namespace CSimples.Decimal
open CString

def decimal (n : ℕ) : List UInt8 := text (toString n)

def isDigit (b : UInt8) : Bool := decide (48 ≤ b ∧ b ≤ 57)

def digitsValue (bs : List UInt8) : ℕ := bs.foldl (fun v b => 10 * v + (b.toNat - 48)) 0

/-- The number that the text starts with. -/
def number (bs : List UInt8) : ℕ := digitsValue (bs.takeWhile isDigit)

theorem decimal_eq (n : ℕ) :
    decimal n = (Nat.toDigits 10 n).map fun c => UInt8.ofNat c.toNat := by
  rw [decimal, text, Nat.toString_eq_ofList_toDigits, String.toList_ofList]

theorem digit_toNat {c : Char} (hc : c.isDigit = true) : (UInt8.ofNat c.toNat).toNat = c.toNat := by
  simp only [Char.isDigit, Bool.and_eq_true, decide_eq_true_eq] at hc
  have hle : c.toNat ≤ 57 := hc.2
  rw [UInt8.toNat_ofNat']
  omega

theorem decimal_isDigit {n : ℕ} {b : UInt8} (h : b ∈ decimal n) : isDigit b = true := by
  rw [decimal_eq] at h
  obtain ⟨c, hc, rfl⟩ := List.mem_map.mp h
  have hdigit := Nat.isDigit_of_mem_toDigits (by decide) (by decide) hc
  have hval := digit_toNat hdigit
  simp only [Char.isDigit, Bool.and_eq_true, decide_eq_true_eq] at hdigit
  have hlo : 48 ≤ c.toNat := hdigit.1
  have hhi : c.toNat ≤ 57 := hdigit.2
  simp only [isDigit, UInt8.le_iff_toNat_le, hval, decide_eq_true_eq]
  exact ⟨hlo, hhi⟩

theorem decimal_ne_nil (n : ℕ) : decimal n ≠ [] := by
  rw [decimal_eq]
  simp [Nat.toDigits_ne_nil]

theorem digitsValue_decimal (n : ℕ) : digitsValue (decimal n) = n := by
  have hfold : ∀ (cs : List Char) (v : ℕ), (∀ c ∈ cs, c.isDigit = true) →
      (cs.map fun c => UInt8.ofNat c.toNat).foldl (fun v b => 10 * v + (b.toNat - 48)) v =
        Nat.ofDigitChars 10 cs v := by
    intro cs
    induction cs with
    | nil => intro v _; rfl
    | cons c cs ih =>
      intro v hcs
      have hval := digit_toNat (hcs c (List.mem_cons_self ..))
      rw [List.map_cons, List.foldl_cons, hval, Nat.ofDigitChars_cons]
      exact ih _ fun d hd => hcs d (List.mem_cons_of_mem _ hd)
  rw [digitsValue, decimal_eq, hfold _ 0 fun c hc =>
    Nat.isDigit_of_mem_toDigits (by decide) (by decide) hc]
  exact Nat.ofDigitChars_ten_toDigits

theorem number_decimal (n : ℕ) : number (decimal n) = n := by
  rw [number, List.takeWhile_eq_self_iff.mpr fun b hb => decimal_isDigit hb, digitsValue_decimal]

theorem decimal_length_le {n k : ℕ} (hk : 0 < k) (h : n < 10 ^ k) : (decimal n).length ≤ k := by
  rw [decimal_eq, List.length_map]
  exact (Nat.length_toDigits_le_iff (by decide) hk).mpr h

theorem digitsValue_lt {ds : List UInt8} (h : ∀ b ∈ ds, isDigit b = true) :
    digitsValue ds < 10 ^ ds.length := by
  have hfold : ∀ v, ds.foldl (fun v b => 10 * v + (b.toNat - 48)) v < (v + 1) * 10 ^ ds.length := by
    induction ds with
    | nil => intro v; simp
    | cons b ds ih =>
      intro v
      have hb := h b (List.mem_cons_self ..)
      simp only [isDigit, decide_eq_true_eq, UInt8.le_iff_toNat_le, UInt8.reduceToNat] at hb
      have hrest := ih (fun c hc => h c (List.mem_cons_of_mem _ hc)) (10 * v + (b.toNat - 48))
      rw [List.foldl_cons, List.length_cons, pow_succ']
      calc ds.foldl (fun v b => 10 * v + (b.toNat - 48)) (10 * v + (b.toNat - 48))
          < (10 * v + (b.toNat - 48) + 1) * 10 ^ ds.length := hrest
        _ ≤ (10 * (v + 1)) * 10 ^ ds.length := Nat.mul_le_mul_right _ (by omega)
        _ = (v + 1) * (10 * 10 ^ ds.length) := by ring
  have h0 := hfold 0
  rwa [Nat.zero_add, Nat.one_mul] at h0

theorem decimal_head {n : ℕ} (h : 0 < n) : (decimal n).head? ≠ some 48 := by
  intro hhead
  obtain ⟨ds, hds⟩ : ∃ ds, decimal n = 48 :: ds := List.head?_eq_some_iff.mp hhead
  have hvalue : digitsValue ds = n := by
    have hzero := digitsValue_decimal n
    rw [hds] at hzero
    exact hzero
  have hlt := digitsValue_lt fun b hb =>
    decimal_isDigit (hds ▸ List.mem_cons_of_mem 48 hb : b ∈ decimal n)
  rw [hvalue] at hlt
  rcases Nat.eq_zero_or_pos ds.length with hnil | hpos
  · rw [hnil] at hlt
    omega
  · have hlen := decimal_length_le hpos hlt
    rw [hds, List.length_cons] at hlen
    omega

/-! ### strtol -/

def isSpace (b : UInt8) : Bool := decide (b = 32 ∨ (9 ≤ b ∧ b ≤ 13))

/-- `strtol` in base 10 for a 64-bit `long`: a bound for what is out of range. -/
def strtol (bs : List UInt8) : ℤ :=
  match bs.dropWhile isSpace with
  | 45 :: ds => max (-2 ^ 63) (-(number ds : ℤ))
  | 43 :: ds => min (2 ^ 63 - 1) (number ds : ℤ)
  | ds => min (2 ^ 63 - 1) (number ds : ℤ)

theorem strtol_decimal {n : ℕ} (h : n < 2 ^ 63) : strtol (decimal n) = n := by
  obtain ⟨b, ds, hds⟩ := List.exists_cons_of_ne_nil (decimal_ne_nil n)
  have hdigit : isDigit b = true := decimal_isDigit (hds ▸ List.mem_cons_self ..)
  have hspace : isSpace b = false := by
    simp only [isDigit, isSpace, decide_eq_true_eq, decide_eq_false_iff_not, UInt8.le_iff_toNat_le,
      ← UInt8.toNat_inj] at hdigit ⊢
    simp only [UInt8.reduceToNat] at hdigit ⊢
    omega
  have hnumber : number (b :: ds) = n := hds ▸ number_decimal n
  have hskip : (decimal n).dropWhile isSpace = b :: ds := by
    rw [hds, List.dropWhile_cons_of_neg (by simp [hspace])]
  have hsign : b ≠ 45 ∧ b ≠ 43 := by
    constructor <;> rintro rfl <;> exact absurd hdigit (by decide)
  rw [strtol, hskip]
  split
  · rename_i heq
    exact absurd (List.cons.inj heq).1 hsign.1
  · rename_i heq
    exact absurd (List.cons.inj heq).1 hsign.2
  · rw [hnumber]
    omega

/-! ### Numbers of a fixed width -/

def zeroPadded (width n : ℕ) : List UInt8 :=
  List.replicate (width - (decimal n).length) 48 ++ decimal n

/-- `%0*d`: the sign counts for the width. -/
def signedPadded (width : ℕ) (n : ℤ) : List UInt8 :=
  if n < 0 then 45 :: zeroPadded (width - 1) n.natAbs else zeroPadded width n.natAbs

theorem digitsValue_zeros (k : ℕ) (bs : List UInt8) :
    digitsValue (List.replicate k 48 ++ bs) = digitsValue bs := by
  have hzeros : (List.replicate k (48 : UInt8)).foldl (fun v b => 10 * v + (b.toNat - 48)) 0 = 0 := by
    induction k with
    | zero => rfl
    | succ k ih => simpa [List.replicate_succ] using ih
  rw [digitsValue, List.foldl_append, hzeros]
  rfl

theorem digitsValue_zeroPadded (width n : ℕ) : digitsValue (zeroPadded width n) = n := by
  rw [zeroPadded, digitsValue_zeros, digitsValue_decimal]

theorem zeroPadded_injective {width width' n m : ℕ} (h : zeroPadded width n = zeroPadded width' m) :
    n = m := by
  rw [← digitsValue_zeroPadded width n, h, digitsValue_zeroPadded]

theorem zeroPadded_length {width n : ℕ} (hw : 0 < width) (h : n < 10 ^ width) :
    (zeroPadded width n).length = width := by
  have hle := decimal_length_le hw h
  rw [zeroPadded, List.length_append, List.length_replicate]
  omega

theorem zeroPadded_isDigit {width n : ℕ} {b : UInt8} (h : b ∈ zeroPadded width n) :
    isDigit b = true := by
  rcases List.mem_append.mp h with h | h
  · rw [List.eq_of_mem_replicate h]
    rfl
  · exact decimal_isDigit h

theorem signedPadded_injective {width : ℕ} {n m : ℤ}
    (h : signedPadded width n = signedPadded width m) : n = m := by
  have hsign : ∀ {w k : ℕ} {bs : List UInt8}, zeroPadded w k ≠ 45 :: bs := by
    intro w k bs heq
    have hdigit : isDigit 45 = true := zeroPadded_isDigit (heq ▸ List.mem_cons_self ..)
    exact absurd hdigit (by decide)
  unfold signedPadded at h
  split at h <;> split at h
  · have habs := zeroPadded_injective (List.cons_injective h)
    omega
  · exact absurd h.symm hsign
  · exact absurd h hsign
  · have habs := zeroPadded_injective h
    omega

theorem signedPadded_length_le {width k : ℕ} {n : ℤ} (hk : 0 < k) (hw : width ≤ k)
    (h : n.natAbs < 10 ^ k) : (signedPadded width n).length ≤ k + 1 := by
  have hle := decimal_length_le hk h
  unfold signedPadded
  split
  · rw [List.length_cons, zeroPadded, List.length_append, List.length_replicate]
    omega
  · rw [zeroPadded, List.length_append, List.length_replicate]
    omega

end CSimples.Decimal
