import CSimples.Lib.Block
import Mathlib.Data.Int.Notation

/-!
# Processing a job (worker/worker.c:437-514)

The three job types a worker supports: the bytes come back as they are, in
reverse order, or with the ASCII letters in upper case.
-/

namespace CSimples.JobProcessing
open Block

def jobTypeEcho : ℤ := 1
def jobTypeReverse : ℤ := 2
def jobTypeUppercase : ℤ := 3

/-- The `char` of C is signed or not; above 127 it is below 'a' or above 'z'. -/
def upperByte (b : UInt8) : UInt8 := if 97 ≤ b ∧ b ≤ 122 then b - 97 + 65 else b

/-- The loop bodies index the input, of which `data` are the bytes. -/
def reverseByte (data : List UInt8) (size i : ℕ) : UInt8 := data.getD (size - i - 1) 0

def uppercaseByte (data : List UInt8) (i : ℕ) : UInt8 := upperByte (data.getD i 0)

/-- What is stored through the two result pointers, when both are given; `mem` is
the answer of `malloc`. -/
def workerProcessJob (jobType : ℤ) (inputData : Option (List UInt8)) (inputSize : ℕ)
    (pointers : Bool) (mem : Slots UInt8 inputSize) : ℤ × Option (Option (List UInt8) × ℕ) :=
  let data := inputData.getD []
  if pointers = false then (-1, none)
  else if jobType = jobTypeEcho then match mem with
    | none => (-1, some (none, 0))
    | some copy => (0, some (some (memcpy copy.val data inputSize), inputSize))
  else if jobType = jobTypeReverse then match mem with
    | none => (-1, some (none, 0))
    | some copy =>
      (0, some (some (fill (reverseByte data inputSize) inputSize copy.val), inputSize))
  else if jobType = jobTypeUppercase then match mem with
    | none => (-1, some (none, 0))
    | some copy => (0, some (some (fill (uppercaseByte data) inputSize copy.val), inputSize))
  else (-1, some (none, 0))

/-! ### The result -/

def jobOutput (jobType : ℤ) (data : List UInt8) : Option (List UInt8) :=
  if jobType = jobTypeEcho then some data
  else if jobType = jobTypeReverse then some data.reverse
  else if jobType = jobTypeUppercase then some (data.map upperByte)
  else none

theorem jobOutput_length {jobType : ℤ} {data out : List UInt8}
    (h : jobOutput jobType data = some out) : out.length = data.length := by
  unfold jobOutput at h
  split at h
  · cases h
    rfl
  · split at h
    · cases h
      exact List.length_reverse
    · split at h
      · cases h
        exact List.length_map _
      · cases h

theorem reverse_range (data : List UInt8) :
    (List.range data.length).map (reverseByte data data.length) = data.reverse := by
  apply List.ext_getElem
  · simp
  · intro i hi hi'
    rw [List.length_reverse] at hi'
    have hlt : data.length - i - 1 < data.length := by omega
    have hsub : data.length - 1 - i = data.length - i - 1 := by omega
    simp [reverseByte, List.getElem?_eq_getElem hlt, hsub]

theorem uppercase_range (data : List UInt8) :
    (List.range data.length).map (uppercaseByte data) = data.map upperByte := by
  apply List.ext_getElem
  · simp
  · intro i hi hi'
    rw [List.length_map] at hi'
    simp [uppercaseByte, List.getElem?_eq_getElem hi']

/-- A worker that answers 0 has computed what the job is for. -/
theorem process_output {jobType : ℤ} {inputData : Option (List UInt8)} {inputSize : ℕ}
    {pointers : Bool} {mem : Slots UInt8 inputSize} {result : Option (List UInt8)} {size : ℕ}
    (hlen : (inputData.getD []).length = inputSize)
    (h : workerProcessJob jobType inputData inputSize pointers mem = (0, some (result, size))) :
    size = inputSize ∧ ∃ out, result = some out ∧
      jobOutput jobType (inputData.getD []) = some out := by
  subst hlen
  unfold workerProcessJob at h
  unfold jobOutput
  split at h
  · cases h
  · split at h
    · rename_i hecho
      split at h
      · cases h
      · rename_i copy
        cases h
        rw [memcpy_whole copy.property, List.take_length, if_pos hecho]
        exact ⟨rfl, _, rfl, rfl⟩
    · rename_i hecho
      split at h
      · rename_i hrev
        split at h
        · cases h
        · rename_i copy
          cases h
          rw [fill_whole _ copy.property, reverse_range, if_neg hecho, if_pos hrev]
          exact ⟨rfl, _, rfl, rfl⟩
      · rename_i hrev
        split at h
        · rename_i hupper
          split at h
          · cases h
          · rename_i copy
            cases h
            rw [fill_whole _ copy.property, uppercase_range, if_neg hecho, if_neg hrev,
              if_pos hupper]
            exact ⟨rfl, _, rfl, rfl⟩
        · cases h

example : (workerProcessJob 3 (some [104, 90, 105]) 3 true (some ⟨[0, 0, 0], rfl⟩)).2 =
    some (some [72, 90, 73], 3) := by decide

end CSimples.JobProcessing
