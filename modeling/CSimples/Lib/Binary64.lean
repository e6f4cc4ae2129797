import Mathlib.Algebra.Order.Ring.Int

/-!
# Integers as doubles

A double has 53 bits of precision, so an integer of more bits is rounded to the nearest
multiple of a power of two, and of two equally near ones to the even one. Only integers of
at most 64 bits occur, which are far from the largest double.
-/

namespace CSimples.Binary64

/-- The bits of `n` beyond the precision. -/
def excess (n : ℕ) : ℕ := Nat.log2 n - 52

/-- The nearest multiple of `2^e`, ties to even. -/
def nearest (n e : ℕ) : ℕ :=
  if 2 ^ e < 2 * (n % 2 ^ e) ∨ 2 * (n % 2 ^ e) = 2 ^ e ∧ n / 2 ^ e % 2 = 1 then
    (n / 2 ^ e + 1) * 2 ^ e
  else n / 2 ^ e * 2 ^ e

def ofNat (n : ℕ) : ℕ := nearest n (excess n)

def ofInt (n : ℤ) : ℤ := n.sign * (ofNat n.natAbs : ℤ)

/-- A double has the value `n`. -/
def Exact (n : ℕ) : Prop := 2 ^ excess n ∣ n

instance (n : ℕ) : Decidable (Exact n) := inferInstanceAs (Decidable (2 ^ excess n ∣ n))

variable {n e : ℕ}

theorem dvd_nearest (n e : ℕ) : 2 ^ e ∣ nearest n e := by
  unfold nearest
  split
  · exact Nat.dvd_mul_left _ _
  · exact Nat.dvd_mul_left _ _

theorem nearest_eq_iff : nearest n e = n ↔ 2 ^ e ∣ n := by
  constructor
  · intro h
    rw [← h]
    exact dvd_nearest n e
  · intro h
    have hrem : n % 2 ^ e = 0 := Nat.mod_eq_zero_of_dvd h
    have hpos : 0 < 2 ^ e := Nat.two_pow_pos e
    rw [nearest, hrem, if_neg (by omega)]
    exact Nat.div_mul_cancel h

theorem ofNat_eq_iff : ofNat n = n ↔ Exact n := nearest_eq_iff

/-- The exact integers are those of at most 53 bits times a power of two. -/
theorem exact_iff : Exact n ↔ ∃ m k, m < 2 ^ 53 ∧ n = m * 2 ^ k := by
  constructor
  · intro h
    refine ⟨n / 2 ^ excess n, excess n, ?_, (Nat.div_mul_cancel h).symm⟩
    have hlt : n < 2 ^ (Nat.log2 n + 1) := Nat.lt_log2_self
    have hle : 2 ^ (Nat.log2 n + 1) ≤ 2 ^ (53 + excess n) :=
      Nat.pow_le_pow_right (by decide) (by unfold excess; omega)
    rw [Nat.div_lt_iff_lt_mul (Nat.two_pow_pos _), ← Nat.pow_add]
    exact Nat.lt_of_lt_of_le hlt hle
  · rintro ⟨m, k, hm, rfl⟩
    by_cases hzero : m = 0
    · simp [hzero, Exact]
    · have hlog : Nat.log2 (m * 2 ^ k) < 53 + k := by
        rw [Nat.log2_lt (Nat.mul_ne_zero hzero (Nat.ne_of_gt (Nat.two_pow_pos k))), Nat.pow_add]
        exact Nat.mul_lt_mul_of_pos_right hm (Nat.two_pow_pos k)
      have hle : excess (m * 2 ^ k) ≤ k := by
        unfold excess
        omega
      exact Nat.dvd_trans (Nat.pow_dvd_pow 2 hle) (Nat.dvd_mul_left _ _)

theorem exact_of_le (h : n ≤ 2 ^ 53) : Exact n := by
  by_cases hlt : n < 2 ^ 53
  · exact exact_iff.mpr ⟨n, 0, hlt, by rw [Nat.pow_zero, Nat.mul_one]⟩
  · exact exact_iff.mpr ⟨1, 53, by decide, by omega⟩

theorem ofInt_eq_self {n : ℤ} (h : n.natAbs ≤ 2 ^ 53) : ofInt n = n := by
  rw [ofInt, ofNat_eq_iff.mpr (exact_of_le h)]
  exact Int.sign_mul_natAbs n

end CSimples.Binary64
