import CSimples.Lib.Decimal
import Mathlib.Data.List.Chain

/-!
# Reading C text

Line splices, line comments and tokens, the constants of an initialiser list and
identifiers. Punctuation is one token a byte; quotes and block comments are not read.
-/

namespace CSimples.CTokens
open CString Decimal

/-! ### Tokens -/

/-- A backslash at the end of a line joins it to the next one. -/
def splice : List UInt8 → List UInt8
  | [] => []
  | [b] => [b]
  | b :: c :: s => if b = 92 ∧ c = 10 then splice s else b :: splice (c :: s)

/-- The newline after a comment is kept; the flag says whether a comment is open. -/
def stripComments : Bool → List UInt8 → List UInt8
  | _, [] => []
  | true, b :: s => if b = 10 then 10 :: stripComments false s else stripComments true s
  | false, b :: s =>
    if b = 47 ∧ s.head? = some 47 then stripComments true s else b :: stripComments false s

def isAlnum (b : UInt8) : Bool :=
  decide ((97 ≤ b ∧ b ≤ 122) ∨ (65 ≤ b ∧ b ≤ 90) ∨ (48 ≤ b ∧ b ≤ 57))

def isWordByte (b : UInt8) : Bool := isAlnum b || decide (b = 95)

def flush (word : List UInt8) : List (List UInt8) := if word = [] then [] else [word]

/-- The tokens that end in the text, and the word that is open at its end. -/
def lex : List UInt8 → List UInt8 → List (List UInt8) × List UInt8
  | word, [] => ([], word)
  | word, b :: s =>
    if isWordByte b = true then lex (word ++ [b]) s
    else
      (flush word ++ (if isSpace b = true then [] else [[b]]) ++ (lex [] s).1, (lex [] s).2)

def tokens (s : List UInt8) : List (List UInt8) :=
  let r := lex [] (stripComments false (splice s))
  r.1 ++ flush r.2

/-! ### Constants and identifiers -/

def hexValue (b : UInt8) : Option ℕ :=
  if 48 ≤ b ∧ b ≤ 57 then some (b.toNat - 48)
  else if 65 ≤ b ∧ b ≤ 70 then some (b.toNat - 55)
  else if 97 ≤ b ∧ b ≤ 102 then some (b.toNat - 87)
  else none

/-- A constant `0xHH`. -/
def byteConstant : List UInt8 → Option UInt8
  | [z, x, h, l] =>
    if z = 48 ∧ (x = 120 ∨ x = 88) then
      match hexValue h, hexValue l with
      | some hi, some lo => some (UInt8.ofNat (16 * hi + lo))
      | _, _ => none
    else none
  | _ => none

/-- A decimal constant; one that starts with 0 is octal. -/
def decimalConstant (t : List UInt8) : Option ℕ :=
  if t ≠ [] ∧ t.all isDigit = true ∧ t.head? ≠ some 48 then some (digitsValue t) else none

/-- An initialiser list after its `{`: its bytes, and the tokens after its `}`. One comma
may follow the last constant. -/
def initialiser : List (List UInt8) → Option (List UInt8 × List (List UInt8))
  | c :: sep :: rest =>
    match byteConstant c with
    | none => none
    | some b =>
      if sep = text "\x7d" then some ([b], rest)
      else if sep = text "," then
        if rest.head? = some (text "\x7d") then some ([b], rest.tail)
        else (initialiser rest).map fun r => (b :: r.1, r.2)
      else none
  | _ => none

def keywords : List (List UInt8) :=
  ["auto", "break", "case", "char", "const", "continue", "default", "do", "double", "else",
    "enum", "extern", "float", "for", "goto", "if", "inline", "int", "long", "register",
    "restrict", "return", "short", "signed", "sizeof", "static", "struct", "switch", "typedef",
    "union", "unsigned", "void", "volatile", "while", "_Alignas", "_Alignof", "_Atomic", "_Bool",
    "_Complex", "_Generic", "_Imaginary", "_Noreturn", "_Static_assert", "_Thread_local"].map text

def IsIdentifier (w : List UInt8) : Prop :=
  (∃ b ∈ w.head?, isDigit b = false) ∧ (∀ b ∈ w, isWordByte b = true) ∧ w ∉ keywords

theorem isWordByte_of_isDigit {b : UInt8} (h : isDigit b = true) : isWordByte b = true := by
  simp only [isDigit, decide_eq_true_eq] at h
  simp [isWordByte, isAlnum, h]

theorem decimalConstant_decimal {n : ℕ} (h : 0 < n) : decimalConstant (decimal n) = some n := by
  have hall : (decimal n).all isDigit = true := List.all_eq_true.mpr fun b hb => decimal_isDigit hb
  rw [decimalConstant, if_pos ⟨decimal_ne_nil n, hall, decimal_head h⟩, digitsValue_decimal]

/-! ### Splices and comments -/

variable {s com word w : List UInt8}

theorem splice_cons (b : UInt8) (s : List UInt8) :
    splice (b :: s) = if b = 92 ∧ s.head? = some 10 then splice s.tail else b :: splice s := by
  cases s with
  | nil => simp [splice]
  | cons c s => simp [splice]

theorem splice_eq_self (h : (92 : UInt8) ∉ s) : splice s = s := by
  induction s with
  | nil => rw [splice]
  | cons b s ih =>
    obtain ⟨hb, hs⟩ := List.ne_and_not_mem_of_not_mem_cons h
    rw [splice_cons, if_neg (fun hsplice => hb hsplice.1.symm), ih hs]

theorem splice_append (h : (10 : UInt8) ∉ com) (hlast : com.getLast? ≠ some 92) (s : List UInt8) :
    splice (com ++ s) = com ++ splice s := by
  induction com with
  | nil => rfl
  | cons b com ih =>
    obtain ⟨_, hcom⟩ := List.ne_and_not_mem_of_not_mem_cons h
    have hkeep : ¬ (b = 92 ∧ (com ++ s).head? = some 10) := by
      rintro ⟨rfl, hhead⟩
      cases com with
      | nil => exact hlast rfl
      | cons c com =>
        obtain rfl := Option.some.inj hhead
        exact hcom (List.mem_cons_self ..)
    have hrest : com.getLast? ≠ some 92 := by
      cases com with
      | nil => simp
      | cons c com => simpa using hlast
    rw [List.cons_append, splice_cons, if_neg hkeep, ih hcom hrest, List.cons_append]

theorem splice_newline (s : List UInt8) : splice (10 :: s) = 10 :: splice s := by
  rw [splice_cons, if_neg (fun h => absurd h.1 (by decide))]

theorem splice_joined (h : (10 : UInt8) ∉ com) (s : List UInt8) :
    splice (com ++ 92 :: 10 :: s) = com ++ splice s := by
  induction com with
  | nil => rw [List.nil_append, splice_cons, if_pos ⟨rfl, rfl⟩, List.tail_cons, List.nil_append]
  | cons b com ih =>
    obtain ⟨_, hcom⟩ := List.ne_and_not_mem_of_not_mem_cons h
    have hkeep : ¬ (b = 92 ∧ (com ++ 92 :: 10 :: s).head? = some 10) := by
      rintro ⟨_, hhead⟩
      cases com with
      | nil => simp at hhead
      | cons c com =>
        obtain rfl := Option.some.inj hhead
        exact hcom (List.mem_cons_self ..)
    rw [List.cons_append, splice_cons, if_neg hkeep, ih hcom, List.cons_append]

theorem stripComments_eq_self (h : (47 : UInt8) ∉ s) : stripComments false s = s := by
  induction s with
  | nil => rfl
  | cons b s ih =>
    obtain ⟨hb, hs⟩ := List.ne_and_not_mem_of_not_mem_cons h
    rw [stripComments, if_neg (fun hcomment => hb hcomment.1.symm), ih hs]

theorem stripComments_line (h : (10 : UInt8) ∉ com) (s : List UInt8) :
    stripComments false (47 :: 47 :: (com ++ 10 :: s)) = 10 :: stripComments false s := by
  have hopen : ∀ {com : List UInt8}, (10 : UInt8) ∉ com →
      stripComments true (com ++ 10 :: s) = 10 :: stripComments false s := by
    intro com hcom
    induction com with
    | nil => rfl
    | cons b com ih =>
      obtain ⟨hb, hcom⟩ := List.ne_and_not_mem_of_not_mem_cons hcom
      rw [List.cons_append, stripComments, if_neg hb.symm, ih hcom]
  have hcom : (10 : UInt8) ∉ 47 :: com := by simpa using h
  rw [stripComments, if_pos ⟨rfl, rfl⟩, ← List.cons_append]
  exact hopen hcom

/-! ### Lexing in parts -/

theorem lex_append (word s t : List UInt8) :
    lex word (s ++ t) =
      ((lex word s).1 ++ (lex (lex word s).2 t).1, (lex (lex word s).2 t).2) := by
  induction s generalizing word with
  | nil => rfl
  | cons b s ih =>
    rw [List.cons_append, lex, lex]
    split
    · exact ih _
    · rw [ih]
      simp only [List.append_assoc]

theorem lex_word (h : ∀ b ∈ w, isWordByte b = true) (word s : List UInt8) :
    lex word (w ++ s) = lex (word ++ w) s := by
  induction w generalizing word with
  | nil => simp
  | cons b w ih =>
    rw [List.cons_append, lex, if_pos (h b (List.mem_cons_self ..)),
      ih fun c hc => h c (List.mem_cons_of_mem _ hc)]
    simp

theorem lex_stop {b : UInt8} (hb : isWordByte b = false) (hword : word ≠ []) (s : List UInt8) :
    lex word (b :: s) = (word :: (lex [] (b :: s)).1, (lex [] (b :: s)).2) := by
  have hstop : ¬ isWordByte b = true := by simp [hb]
  rw [lex, lex, if_neg hstop, if_neg hstop, flush, if_neg hword, flush, if_pos rfl]
  rfl

theorem isWordByte_of_isSpace {b : UInt8} (h : isSpace b = true) : isWordByte b = false := by
  simp only [isSpace, isWordByte, isAlnum, decide_eq_true_eq, Bool.or_eq_false_iff,
    decide_eq_false_iff_not, UInt8.le_iff_toNat_le, ← UInt8.toNat_inj, UInt8.reduceToNat] at h ⊢
  omega

theorem lex_punct {b : UInt8} (hword : isWordByte b = false) (hspace : isSpace b = false)
    (s : List UInt8) : lex [] (b :: s) = ([b] :: (lex [] s).1, (lex [] s).2) := by
  rw [lex, if_neg (by simp [hword]), flush, if_pos rfl, if_neg (by simp [hspace])]
  rfl

theorem lex_blanks (h : ∀ b ∈ s, isSpace b = true) (t : List UInt8) : lex [] (s ++ t) = lex [] t := by
  induction s with
  | nil => rfl
  | cons b s ih =>
    have hb := h b (List.mem_cons_self ..)
    rw [List.cons_append, lex, if_neg (by simp [isWordByte_of_isSpace hb]), flush, if_pos rfl,
      if_pos hb, ih fun c hc => h c (List.mem_cons_of_mem _ hc)]
    rfl

/-! ### Texts between quotes -/

theorem mem_intercalate {q b : UInt8} {pieces : List (List UInt8)}
    (h : b ∈ [q].intercalate pieces) : b = q ∨ ∃ piece ∈ pieces, b ∈ piece := by
  rw [List.intercalate, List.mem_flatten] at h
  obtain ⟨piece, hpiece, hb⟩ := h
  induction pieces with
  | nil => exact absurd hpiece List.not_mem_nil
  | cons first rest ih =>
    cases rest with
    | nil =>
      obtain rfl := List.mem_singleton.mp hpiece
      exact .inr ⟨piece, List.mem_cons_self, hb⟩
    | cons second rest =>
      rcases List.mem_cons.mp hpiece with rfl | hpiece
      · exact .inr ⟨piece, List.mem_cons_self, hb⟩
      rcases List.mem_cons.mp hpiece with rfl | hpiece
      · exact .inl (List.mem_singleton.mp hb)
      · obtain heq | ⟨found, hfound, hb⟩ := ih hpiece
        · exact .inl heq
        · exact .inr ⟨found, List.mem_cons_of_mem _ hfound, hb⟩

/-- Where every piece `k` between two delimiters is followed by one that begins with `b`, what
is found as `k` between two delimiters is followed by `b`. -/
theorem byte_after_quoted {q b : UInt8} {k pre post : List UInt8} {pieces : List (List UInt8)}
    (hpieces : ∀ piece ∈ pieces, q ∉ piece) (hk : q ∉ k)
    (hchain : pieces.IsChain fun piece next => piece = k → next.head? = some b)
    (h : [q].intercalate pieces = pre ++ q :: (k ++ q :: post)) : post.head? = some b := by
  have hne : pieces ≠ [] := by
    rintro rfl
    exact absurd h.symm (by simp)
  have hsplit := congrArg (List.splitOn q) h
  rw [List.splitOn_intercalate q hpieces hne, List.splitOn_append_cons_self,
    List.splitOn_append_cons_self_of_not_mem hk] at hsplit
  obtain ⟨next, rest, hnext⟩ := List.exists_cons_of_ne_nil (List.splitOn_ne_nil q post)
  rw [hsplit, hnext, List.isChain_append_cons_cons] at hchain
  have hhead := hchain.2.1 rfl
  have hpost : [q].intercalate (post.splitOn q) = post := List.intercalate_splitOn q
  rw [hnext] at hpost
  rw [← hpost]
  cases rest with
  | nil => rwa [List.intercalate_singleton]
  | cons second rest =>
    rw [List.intercalate_cons_cons, List.append_assoc, List.head?_append, hhead]
    rfl

end CSimples.CTokens
