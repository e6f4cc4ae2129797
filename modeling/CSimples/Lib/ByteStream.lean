import Mathlib.Data.List.Basic

/-!
# Reading and writing a stream in pieces

One `read` hands over at least one and at most the requested number of
elements, and one `write` accepts at least one of those offered or fails; how
many is up to the environment. A loop that repeats the call until the count is
reached therefore sees the stream through an arbitrary splitting. The two loops
below are independent of that splitting.
-/

namespace CSimples.ByteStream

variable {α : Type*}

/-- The reading end: the elements still to come, and for the `i`-th call the
bound `chunk i + 1` on what it hands over. With no elements left a read returns
nothing, as at the end of the stream. -/
structure Source (α : Type*) where
  rest : List α
  chunk : ℕ → ℕ
  reads : ℕ

/-- The writing end: what was accepted so far, and for the `i`-th call either
the bound `n + 1` on what it accepts or `none` for an error. -/
structure Sink (α : Type*) where
  written : List α
  accept : ℕ → Option ℕ
  writes : ℕ

def Source.read (s : Source α) (n : ℕ) : List α × Source α :=
  let k := min n (s.chunk s.reads + 1)
  (s.rest.take k, { s with rest := s.rest.drop k, reads := s.reads + 1 })

/-- `while (bytes_left > 0) { n = read(...); if (n <= 0) return -1; ... }`;
each round hands over something, so `left` rounds are enough. -/
def readLoop : ℕ → ℕ → List α → Source α → Option (List α) × Source α
  | _, 0, got, s => (some got, s)
  | 0, _ + 1, _, s => (none, s)
  | fuel + 1, left + 1, got, s =>
    let r := s.read (left + 1)
    if r.1.length = 0 then (none, r.2)
    else readLoop fuel (left + 1 - r.1.length) (got ++ r.1) r.2

def readExact (n : ℕ) (s : Source α) : Option (List α) × Source α := readLoop n n [] s

theorem read_length (s : Source α) (n : ℕ) : (s.read n).1.length ≤ n := by
  simp only [Source.read, List.length_take]
  omega

theorem read_split (s : Source α) (n : ℕ) :
    (s.read n).1 ++ (s.read n).2.rest = s.rest := List.take_append_drop ..

theorem read_pos (s : Source α) (n : ℕ) (hr : s.rest ≠ []) (hn : 0 < n) :
    0 < (s.read n).1.length := by
  have hl := List.length_pos_iff.mpr hr
  simp only [Source.read, List.length_take]
  omega

theorem readLoop_enough (fuel left : ℕ) (got : List α) (s : Source α) (hf : left ≤ fuel)
    (hl : left ≤ s.rest.length) :
    (readLoop fuel left got s).1 = some (got ++ s.rest.take left) ∧
      (readLoop fuel left got s).2.rest = s.rest.drop left := by
  induction fuel generalizing left got s with
  | zero =>
    obtain rfl : left = 0 := by omega
    simp [readLoop]
  | succ fuel ih =>
    cases left with
    | zero => simp [readLoop]
    | succ left =>
      have hne : s.rest ≠ [] := List.length_pos_iff.mp (by omega)
      have hpos := read_pos s (left + 1) hne (Nat.succ_pos _)
      have hle := read_length s (left + 1)
      have hsplit := read_split s (left + 1)
      have hlen : (s.read (left + 1)).1.length + (s.read (left + 1)).2.rest.length =
          s.rest.length := by rw [← List.length_append, hsplit]
      have hrec := ih (left + 1 - (s.read (left + 1)).1.length) (got ++ (s.read (left + 1)).1)
        (s.read (left + 1)).2 (by omega) (by omega)
      simp only [readLoop, if_neg (by omega : ¬ (s.read (left + 1)).1.length = 0)]
      rw [hrec.1, hrec.2, ← hsplit]
      constructor
      · rw [List.append_assoc, List.take_append, List.take_of_length_le hle]
      · rw [List.drop_append, List.drop_eq_nil_of_le hle, List.nil_append]

theorem readLoop_short (fuel left : ℕ) (got : List α) (s : Source α) (hf : left ≤ fuel)
    (hl : s.rest.length < left) :
    (readLoop fuel left got s).1 = none ∧ (readLoop fuel left got s).2.rest = [] := by
  induction fuel generalizing left got s with
  | zero => omega
  | succ fuel ih =>
    cases left with
    | zero => omega
    | succ left =>
      have hle := read_length s (left + 1)
      have hsplit := read_split s (left + 1)
      have hlen : (s.read (left + 1)).1.length + (s.read (left + 1)).2.rest.length =
          s.rest.length := by rw [← List.length_append, hsplit]
      simp only [readLoop]
      by_cases h0 : (s.read (left + 1)).1.length = 0
      · have hnil : s.rest = [] := by
          by_contra hne
          have := read_pos s (left + 1) hne (Nat.succ_pos _)
          omega
        rw [if_pos h0]
        refine ⟨rfl, List.eq_nil_of_length_eq_zero ?_⟩
        rw [hnil, List.length_nil] at hlen
        show (s.read (left + 1)).2.rest.length = 0
        omega
      · rw [if_neg h0]
        exact ih _ _ _ (by omega) (by omega)

theorem readExact_enough {n : ℕ} {s : Source α} (h : n ≤ s.rest.length) :
    (readExact n s).1 = some (s.rest.take n) ∧ (readExact n s).2.rest = s.rest.drop n := by
  simpa [readExact] using readLoop_enough n n [] s (Nat.le_refl n) h

theorem readExact_short {n : ℕ} {s : Source α} (h : s.rest.length < n) :
    (readExact n s).1 = none ∧ (readExact n s).2.rest = [] :=
  readLoop_short n n [] s (Nat.le_refl n) h

def Sink.write (s : Sink α) (bs : List α) : Option ℕ × Sink α :=
  match s.accept s.writes with
  | none => (none, { s with writes := s.writes + 1 })
  | some n =>
    let k := min bs.length (n + 1)
    (some k, { s with written := s.written ++ bs.take k, writes := s.writes + 1 })

/-- `while (bytes_left > 0) { n = write(...); if (n <= 0) return -1; ... }`. -/
def writeLoop : ℕ → List α → Sink α → Bool × Sink α
  | _, [], s => (true, s)
  | 0, _ :: _, s => (false, s)
  | fuel + 1, b :: bs, s =>
    match s.write (b :: bs) with
    | (none, s') => (false, s')
    | (some k, s') => writeLoop fuel ((b :: bs).drop k) s'

def writeExact (bs : List α) (s : Sink α) : Bool × Sink α := writeLoop bs.length bs s

theorem writeLoop_written (fuel : ℕ) (bs : List α) (s : Sink α)
    (h : (writeLoop fuel bs s).1 = true) :
    (writeLoop fuel bs s).2.written = s.written ++ bs := by
  induction fuel generalizing bs s with
  | zero =>
    cases bs with
    | nil => simp [writeLoop]
    | cons b bs => simp [writeLoop] at h
  | succ fuel ih =>
    cases bs with
    | nil => simp [writeLoop]
    | cons b bs =>
      cases ha : s.accept s.writes with
      | none => simp [writeLoop, Sink.write, ha] at h
      | some n =>
        simp only [writeLoop, Sink.write, ha] at h ⊢
        rw [ih _ _ h, List.append_assoc, List.take_append_drop]

theorem writeExact_written {bs : List α} {s : Sink α} (h : (writeExact bs s).1 = true) :
    (writeExact bs s).2.written = s.written ++ bs := writeLoop_written bs.length bs s h

theorem writeExact_whole {bs : List α} {s : Sink α} {n : ℕ} (ha : s.accept s.writes = some n)
    (hn : bs.length ≤ n + 1) : (writeExact bs s).1 = true := by
  cases bs with
  | nil => rfl
  | cons b bs =>
    have hk : min (b :: bs).length (n + 1) = (b :: bs).length := Nat.min_eq_left hn
    simp only [writeExact, List.length_cons, writeLoop, Sink.write, ha]
    rw [← List.length_cons (a := b), hk, List.drop_length]
    cases bs.length <;> rfl

/-- No call of `write` on this end fails. -/
def Sink.Open (s : Sink α) : Prop := ∀ n, (s.accept n).isSome = true

theorem writeLoop_open (fuel : ℕ) (bs : List α) (s : Sink α) (hopen : s.Open)
    (hf : bs.length ≤ fuel) : (writeLoop fuel bs s).1 = true ∧ (writeLoop fuel bs s).2.Open := by
  induction fuel generalizing bs s with
  | zero =>
    obtain rfl := List.length_eq_zero_iff.mp (Nat.le_zero.mp hf)
    exact ⟨rfl, hopen⟩
  | succ fuel ih =>
    cases bs with
    | nil => exact ⟨rfl, hopen⟩
    | cons b bs =>
      obtain ⟨n, ha⟩ := Option.isSome_iff_exists.mp (hopen s.writes)
      simp only [writeLoop, Sink.write, ha]
      refine ih _ _ hopen ?_
      rw [List.length_drop, List.length_cons]
      simp only [List.length_cons] at hf
      omega

theorem writeExact_open {bs : List α} {s : Sink α} (h : s.Open) :
    (writeExact bs s).1 = true ∧ (writeExact bs s).2.Open :=
  writeLoop_open bs.length bs s h (Nat.le_refl _)

end CSimples.ByteStream
