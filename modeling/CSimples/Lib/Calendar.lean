import Mathlib.Data.Int.Basic
import Mathlib.Order.Monotone.Basic
import Mathlib.Logic.Function.Iterate
import Mathlib.Tactic.Linarith

/-!
# Dates of the Gregorian calendar

The days are counted from 1970-01-01, in both directions, and dates are given by
the step from one day to the next.
-/

namespace CSimples.Calendar

def isLeap (year : ℤ) : Bool := decide (year % 4 = 0 ∧ (year % 100 ≠ 0 ∨ year % 400 = 0))

def daysInMonth (year : ℤ) (month : ℕ) : ℕ :=
  if month = 2 then if isLeap year = true then 29 else 28
  else if month = 4 ∨ month = 6 ∨ month = 9 ∨ month = 11 then 30
  else 31

theorem daysInMonth_pos (year : ℤ) (month : ℕ) : 28 ≤ daysInMonth year month := by
  unfold daysInMonth
  split
  · split <;> omega
  · split <;> omega

theorem daysInMonth_le (year : ℤ) (month : ℕ) : daysInMonth year month ≤ 31 := by
  unfold daysInMonth
  split
  · split <;> omega
  · split <;> omega

structure Date where
  year : ℤ
  month : ℕ
  day : ℕ
  monthValid : 1 ≤ month ∧ month ≤ 12
  dayValid : 1 ≤ day ∧ day ≤ daysInMonth year month
  deriving DecidableEq

@[ext] theorem Date.ext' {d e : Date} (hyear : d.year = e.year) (hmonth : d.month = e.month)
    (hday : d.day = e.day) : d = e := by
  cases d
  cases e
  simp_all

def Date.next (d : Date) : Date :=
  if h : d.day < daysInMonth d.year d.month then
    ⟨d.year, d.month, d.day + 1, d.monthValid, by omega⟩
  else if hm : d.month < 12 then
    ⟨d.year, d.month + 1, 1, by omega, by have := daysInMonth_pos d.year (d.month + 1); omega⟩
  else ⟨d.year + 1, 1, 1, by omega, by have := daysInMonth_pos (d.year + 1) 1; omega⟩

def Date.prev (d : Date) : Date :=
  if h : 1 < d.day then
    ⟨d.year, d.month, d.day - 1, d.monthValid, by have := d.dayValid; omega⟩
  else if hm : 1 < d.month then
    ⟨d.year, d.month - 1, daysInMonth d.year (d.month - 1), by have := d.monthValid; omega,
      by have := daysInMonth_pos d.year (d.month - 1); omega⟩
  else ⟨d.year - 1, 12, 31, by omega, by simp [daysInMonth]⟩

def epoch : Date := ⟨1970, 1, 1, by omega, by decide⟩

/-- The date that is `n` days after 1970-01-01. -/
def ofDay : ℤ → Date
  | .ofNat n => Date.next^[n] epoch
  | .negSucc n => Date.prev^[n + 1] epoch

theorem prev_next (d : Date) : d.next.prev = d := by
  have hday := d.dayValid
  have hmonth := d.monthValid
  unfold Date.next
  split
  · rename_i h
    have hlong : 1 < d.day + 1 := by omega
    simp only [Date.prev, hlong, dif_pos]
    ext <;> simp
  · rename_i h
    split
    · rename_i hm
      have hlong : 1 < d.month + 1 := by omega
      simp only [Date.prev, Nat.lt_irrefl, dif_neg, hlong, dif_pos, not_false_eq_true]
      ext
      · rfl
      · simp
      · simp only [Nat.add_sub_cancel]
        omega
    · rename_i hm
      have hdec : d.month = 12 := by omega
      have hlast : daysInMonth d.year d.month = 31 := by rw [hdec]; rfl
      simp only [Date.prev, Nat.lt_irrefl, dif_neg, not_false_eq_true]
      ext
      · simp
      · exact hdec.symm
      · show 31 = d.day
        omega

theorem next_prev (d : Date) : d.prev.next = d := by
  have hday := d.dayValid
  have hmonth := d.monthValid
  unfold Date.prev
  split
  · rename_i h
    have hshort : d.day - 1 < daysInMonth d.year d.month := by omega
    simp only [Date.next, hshort, dif_pos]
    ext
    · rfl
    · rfl
    · show d.day - 1 + 1 = d.day
      omega
  · rename_i h
    split
    · rename_i hm
      have hroom : d.month - 1 < 12 := by omega
      simp only [Date.next, Nat.lt_irrefl, dif_neg, not_false_eq_true, hroom, dif_pos]
      ext
      · rfl
      · show d.month - 1 + 1 = d.month
        omega
      · show 1 = d.day
        omega
    · rename_i hm
      have hlast : ¬ 31 < daysInMonth (d.year - 1) 12 := by
        have := daysInMonth_le (d.year - 1) 12
        omega
      simp only [Date.next, hlast, dif_neg, not_false_eq_true, Nat.lt_irrefl]
      ext
      · simp
      · show 1 = d.month
        omega
      · show 1 = d.day
        omega

theorem ofDay_succ (n : ℤ) : ofDay (n + 1) = (ofDay n).next := by
  cases n with
  | ofNat n => exact Function.iterate_succ_apply' Date.next n epoch
  | negSucc n =>
    have hprev : ofDay (Int.negSucc n) = (Date.prev^[n] epoch).prev :=
      Function.iterate_succ_apply' Date.prev n epoch
    rw [hprev, next_prev]
    cases n with
    | zero => rfl
    | succ n =>
      have hstep : Int.negSucc (n + 1) + 1 = Int.negSucc n := by omega
      rw [hstep]
      rfl

theorem ofDay_pred (n : ℤ) : ofDay (n - 1) = (ofDay n).prev := by
  have h := ofDay_succ (n - 1)
  rw [Int.sub_add_cancel] at h
  rw [h, prev_next]

theorem ofDay_sub (n : ℤ) (k : ℕ) : ofDay (n - k) = Date.prev^[k] (ofDay n) := by
  induction k with
  | zero => simp
  | succ k ih =>
    rw [Function.iterate_succ_apply', ← ih, ← ofDay_pred]
    congr 1
    omega

/-! ### Different days have different dates -/

/-- A number that grows from each date to the next. -/
def Date.rank (d : Date) : ℤ := (d.year * 13 + d.month) * 32 + d.day

theorem rank_next (d : Date) : d.rank < d.next.rank := by
  have hday := d.dayValid
  have hmonth := d.monthValid
  have hle := daysInMonth_le d.year d.month
  unfold Date.next
  split
  · simp only [Date.rank]
    omega
  · split
    · simp only [Date.rank]
      omega
    · simp only [Date.rank]
      omega

theorem ofDay_injective : Function.Injective ofDay := by
  have hmono : StrictMono fun n => (ofDay n).rank :=
    strictMono_int_of_lt_succ fun n => by
      rw [ofDay_succ]
      exact rank_next (ofDay n)
  intro m n h
  exact hmono.injective (congrArg Date.rank h)

theorem year_next (d : Date) : d.year ≤ d.next.year ∧ d.next.year ≤ d.year + 1 := by
  unfold Date.next
  split
  · exact ⟨le_rfl, by simp⟩
  · split
    · exact ⟨le_rfl, by simp⟩
    · exact ⟨by simp, le_rfl⟩

theorem year_ofDay (n : ℤ) : (ofDay n).year.natAbs ≤ 1970 + n.natAbs := by
  have hpos : ∀ k : ℕ, 1970 ≤ (ofDay k).year ∧ (ofDay k).year ≤ 1970 + k := by
    intro k
    induction k with
    | zero => decide
    | succ k ih =>
      have hstep := year_next (ofDay k)
      rw [← ofDay_succ] at hstep
      push_cast
      omega
  have hneg : ∀ k : ℕ, 1970 - (k : ℤ) ≤ (ofDay (-k)).year ∧ (ofDay (-k)).year ≤ 1970 := by
    intro k
    induction k with
    | zero => decide
    | succ k ih =>
      have hstep := year_next (ofDay (-(k + 1 : ℕ)))
      rw [← ofDay_succ] at hstep
      have hk : -((k + 1 : ℕ) : ℤ) + 1 = -(k : ℤ) := by omega
      rw [hk] at hstep
      push_cast at hstep ⊢
      omega
  rcases Int.eq_nat_or_neg n with ⟨k, rfl | rfl⟩
  · have h := hpos k
    omega
  · have h := hneg k
    omega

end CSimples.Calendar
