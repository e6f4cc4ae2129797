import CSimples.Lib.CTokens

/-!
# bin2arr and extract (bin2arr/bin2arr.c, bin2arr/extract.c)

`bin2arr` writes a file as a C header. The theorem reads the header back as C text,
with the output seekable or not.
-/

namespace CSimples.Bin2Arr
open CString Decimal CTokens

/-! ### The output file -/

structure Output where
  text : List UInt8
  pos : ℕ

/-- `fprintf` writes over what follows the position. -/
def Output.print (out : Output) (s : List UInt8) : Output :=
  ⟨out.text.take out.pos ++ s ++ out.text.drop (out.pos + s.length), out.pos + s.length⟩

/-- `fseek(output_file, -n, SEEK_CUR)`; without effect where it fails. -/
def Output.seekBack (seekable : Bool) (n : ℕ) (out : Output) : Output :=
  if seekable = true ∧ n ≤ out.pos then { out with pos := out.pos - n } else out

/-! ### main (bin2arr.c:10-85) -/

def fileName (path : List UInt8) : List UInt8 :=
  ((cstr path).reverse.takeWhile fun b => decide (b ≠ 47)).reverse

def varPrefix (name : List UInt8) : List UInt8 :=
  (name.map fun b => if isAlnum b = true then b else 95).take 255

/-- `"// 由 bin2arr 工具生成"` -/
def generatedLine : List UInt8 :=
  text "// " ++ [231, 148, 177] ++ text " bin2arr " ++
    [229, 183, 165, 229, 133, 183, 231, 148, 159, 230, 136, 144]

/-- `"// 源文件: "` -/
def sourceLine : List UInt8 :=
  text "// " ++ [230, 186, 144, 230, 150, 135, 228, 187, 182] ++ text ": "

def hexDigit (n : ℕ) : UInt8 := if n < 10 then UInt8.ofNat (48 + n) else UInt8.ofNat (55 + n)

def hexText (b : UInt8) : List UInt8 :=
  [48, 120, hexDigit (b.toNat / 16), hexDigit (b.toNat % 16)]

/-- One turn of the inner loop; `total_bytes` is at most the size of a file. -/
def printByte (st : Output × ℕ) (b : UInt8) : Output × ℕ :=
  let out := st.1.print (hexText b ++ text ", ")
  let total := st.2 + 1
  (if total % 16 = 0 then out.print (text "\n    ") else out, total)

/-- The loop over the blocks that `fread` returns. -/
def readLoop : ℕ → List UInt8 → Output × ℕ → Output × ℕ
  | 0, _, st => st
  | fuel + 1, data, st =>
    let buffer := data.take 16
    if buffer = [] then st else readLoop fuel (data.drop 16) (buffer.foldl printByte st)

def writeHeader (filename data : List UInt8) (seekable : Bool) : List UInt8 :=
  let out := (Output.mk [] 0).print (generatedLine ++ [10])
  let out := out.print (sourceLine ++ filename ++ [10, 10])
  let out := out.print (text "const unsigned char _" ++ varPrefix filename ++ text "_data[] = \x7b\n    ")
  let (out, total) := readLoop data.length data (out, 0)
  let out := if 0 < total then out.seekBack seekable 2 else out
  let out := out.print (text "\n\x7d;\n\n")
  let out := out.print (text "const size_t _" ++ varPrefix filename ++ text "_size = " ++
    decimal total ++ text ";\n")
  out.text

inductive Outcome
  | usage
  | noInput
  | noOutput
  | written (text : List UInt8)

/-- `args` are the arguments after the program's name; `input` is `none` and `opens` false
where `fopen` fails. Without a second argument the output is `stdout`. -/
def main (args : List (List UInt8)) (input : Option (List UInt8)) (opens seekable : Bool) : Outcome :=
  match args with
  | path :: outs =>
    if 1 < outs.length then .usage
    else
      match input with
      | none => .noInput
      | some data =>
        if outs ≠ [] ∧ opens = false then .noOutput
        else .written (writeHeader (fileName path) data seekable)
  | [] => .usage

/-! ### The header as C text -/

structure Header where
  dataName : List UInt8
  data : List UInt8
  sizeName : List UInt8
  size : ℕ

/-- `const unsigned char name[] = { ... }; const size_t name = n;` -/
def parseHeader : List (List UInt8) → Option Header
  | t1 :: t2 :: t3 :: dataName :: t4 :: t5 :: t6 :: t7 :: rest =>
    if [t1, t2, t3, t4, t5, t6, t7] = [text "const", text "unsigned", text "char", text "[", text "]",
        text "=", text "\x7b"] then
      match initialiser rest with
      | some (data, [s1, s2, s3, sizeName, s4, n, s5]) =>
        if [s1, s2, s3, s4, s5] = [text ";", text "const", text "size_t", text "=", text ";"] then
          (decimalConstant n).map fun size => ⟨dataName, data, sizeName, size⟩
        else none
      | _ => none
    else none
  | _ => none

/-- `fwrite(data, 1, size, fp)` of extract.c:37-38. -/
def extract (h : Header) : List UInt8 := h.data.take h.size

/-! ### What is written -/

variable {out : Output} {s data filename path : List UInt8} {total n : ℕ}

theorem Output.print_end (h : out.pos = out.text.length) (s : List UInt8) :
    out.print s = ⟨out.text ++ s, (out.text ++ s).length⟩ := by
  rw [Output.print, h, List.take_length, List.drop_of_length_le (by omega), List.append_nil,
    List.length_append]

/-- What one byte adds to the output, as the `total`-th one. -/
def byteText (total : ℕ) (b : UInt8) : List UInt8 :=
  hexText b ++ text ", " ++ if total % 16 = 0 then text "\n    " else []

def dataText : ℕ → List UInt8 → List UInt8
  | _, [] => []
  | total, b :: data => byteText (total + 1) b ++ dataText (total + 1) data

theorem printByte_end (h : out.pos = out.text.length) (total : ℕ) (b : UInt8) :
    printByte (out, total) b =
      (⟨out.text ++ byteText (total + 1) b, (out.text ++ byteText (total + 1) b).length⟩,
        total + 1) := by
  have hbyte := Output.print_end h (hexText b ++ text ", ")
  simp only [printByte, byteText]
  split
  · rw [hbyte, Output.print_end rfl, List.append_assoc out.text]
  · rw [hbyte, List.append_nil]

theorem foldl_printByte (h : out.pos = out.text.length) (total : ℕ) (data : List UInt8) :
    data.foldl printByte (out, total) =
      (⟨out.text ++ dataText total data, (out.text ++ dataText total data).length⟩,
        total + data.length) := by
  induction data generalizing out total with
  | nil => simp [dataText, ← h]
  | cons b data ih =>
    rw [List.foldl_cons, printByte_end h, ih rfl, dataText, List.append_assoc, List.length_cons]
    congr 1
    omega

theorem readLoop_eq {fuel : ℕ} (h : data.length ≤ fuel) (st : Output × ℕ) :
    readLoop fuel data st = data.foldl printByte st := by
  induction fuel generalizing data st with
  | zero =>
    obtain rfl := List.length_eq_zero_iff.mp (Nat.le_zero.mp h)
    rfl
  | succ fuel ih =>
    rw [readLoop]
    by_cases hbuffer : data.take 16 = []
    · obtain rfl : data = [] := by
        rcases List.take_eq_nil_iff.mp hbuffer with h16 | hnil
        · omega
        · exact hnil
      rfl
    · have hlen : (data.drop 16).length ≤ fuel := by
        have hne : data ≠ [] := fun hnil => hbuffer (by rw [hnil, List.take_nil])
        have hpos := List.length_pos_iff.mpr hne
        rw [List.length_drop]
        omega
      rw [if_neg hbuffer, ih hlen, ← List.foldl_append, List.take_append_drop]

def keptText (seekable : Bool) (data : List UInt8) : List UInt8 :=
  let s := dataText 0 data
  if seekable = true then s.take (s.length - 2) else s

theorem two_le_dataText (hdata : data ≠ []) : 2 ≤ (dataText 0 data).length := by
  cases data with
  | nil => exact absurd rfl hdata
  | cons b data =>
    simp only [dataText, byteText, hexText, List.length_append, List.length_cons, List.length_nil]
    omega

/-- What is printed after the `fseek` covers the bytes it went back over. -/
theorem print_seekBack (hpos : out.pos = out.text.length) (htext : out.text = s ++ dataText 0 data)
    (hdata : data ≠ []) (seekable : Bool) {t : List UInt8} (ht : 2 ≤ t.length) :
    (out.seekBack seekable 2).print t =
      ⟨s ++ keptText seekable data ++ t, (s ++ keptText seekable data ++ t).length⟩ := by
  have hlen := two_le_dataText hdata
  have htotal : out.text.length = s.length + (dataText 0 data).length := by
    rw [htext, List.length_append]
  by_cases hseek : seekable = true
  · have htake : out.text.take (out.pos - 2) = s ++ keptText seekable data := by
      rw [htext, keptText, if_pos hseek, List.take_append, List.take_of_length_le (by omega)]
      congr 2
      omega
    have hkept : (s ++ keptText seekable data).length = out.pos - 2 := by
      rw [← htake, List.length_take]
      omega
    have hcover : out.text.length ≤ out.pos - 2 + t.length := by omega
    rw [Output.seekBack, if_pos ⟨hseek, by omega⟩, Output.print, htake,
      List.drop_of_length_le hcover, List.append_nil, List.length_append, hkept]
  · rw [Output.seekBack, if_neg (fun h => hseek h.1), Output.print_end hpos, htext, keptText,
      if_neg hseek]

def declarations (filename data : List UInt8) (seekable : Bool) : List UInt8 :=
  text "const unsigned char _" ++ varPrefix filename ++ text "_data[] = \x7b\n    " ++
    keptText seekable data ++ text "\n\x7d;\n\n" ++ (text "const size_t _" ++
      varPrefix filename ++ text "_size = " ++ decimal data.length ++ text ";\n")

theorem writeHeader_eq (filename : List UInt8) (hdata : data ≠ []) (seekable : Bool) :
    writeHeader filename data seekable =
      generatedLine ++ 10 :: (sourceLine ++ filename ++ 10 :: 10 ::
        declarations filename data seekable) := by
  have hpos := List.length_pos_iff.mpr hdata
  have hstart : ∀ s1 s2 s3, (((Output.mk [] 0).print s1).print s2).print s3 =
      ⟨s1 ++ s2 ++ s3, (s1 ++ s2 ++ s3).length⟩ := by
    intro s1 s2 s3
    have h1 : (Output.mk [] 0).print s1 = ⟨s1, s1.length⟩ := Output.print_end rfl s1
    have h2 : (Output.mk s1 s1.length).print s2 = ⟨s1 ++ s2, (s1 ++ s2).length⟩ :=
      Output.print_end rfl s2
    rw [h1, h2]
    exact Output.print_end rfl s3
  simp only [writeHeader]
  rw [hstart, readLoop_eq (le_refl _), foldl_printByte rfl, if_pos (by simpa using hpos),
    print_seekBack rfl rfl hdata seekable (by decide), Output.print_end rfl, Nat.zero_add,
    declarations]
  simp only [List.append_assoc, List.nil_append, List.cons_append]

/-! ### The constants -/

theorem hexDigit_facts : ∀ n < 16, hexValue (hexDigit n) = some n ∧ isWordByte (hexDigit n) = true := by
  decide

theorem byteConstant_hexText (b : UInt8) : byteConstant (hexText b) = some b := by
  have hlt := b.toNat_lt
  have hhi := (hexDigit_facts (b.toNat / 16) (by omega)).1
  have hlo := (hexDigit_facts (b.toNat % 16) (by omega)).1
  have hvalue : 16 * (b.toNat / 16) + b.toNat % 16 = b.toNat := by omega
  rw [hexText, byteConstant, if_pos ⟨rfl, .inl rfl⟩, hhi, hlo]
  simp only [hvalue, UInt8.ofNat_toNat]

theorem hexText_word (b : UInt8) : ∀ c ∈ hexText b, isWordByte c = true := by
  have hlt := b.toNat_lt
  have hhi := (hexDigit_facts (b.toNat / 16) (by omega)).2
  have hlo := (hexDigit_facts (b.toNat % 16) (by omega)).2
  simp [hexText, hhi, hlo, show isWordByte 48 = true by decide, show isWordByte 120 = true by decide]

theorem lex_hexText (b : UInt8) {c : UInt8} (hc : isWordByte c = false) (s : List UInt8) :
    lex [] (hexText b ++ c :: s) = (hexText b :: (lex [] (c :: s)).1, (lex [] (c :: s)).2) := by
  rw [lex_word (hexText_word b), List.nil_append, lex_stop hc (by simp [hexText])]

theorem lex_comma (s : List UInt8) : lex [] (44 :: s) = (text "," :: (lex [] s).1, (lex [] s).2) :=
  lex_punct (by decide) (by decide) s

theorem lex_dataText (total : ℕ) (data s : List UInt8) :
    lex [] (dataText total data ++ s) =
      ((data.flatMap fun b => [hexText b, text ","]) ++ (lex [] s).1, (lex [] s).2) := by
  induction data generalizing total with
  | nil => rfl
  | cons b data ih =>
    have hblanks : ∀ c ∈ (32 : UInt8) :: (if (total + 1) % 16 = 0 then text "\n    " else []),
        isSpace c = true := by
      apply List.all_eq_true.mp
      split <;> decide
    have htext : dataText total (b :: data) ++ s = hexText b ++ 44 ::
        ((32 :: if (total + 1) % 16 = 0 then text "\n    " else []) ++
          (dataText (total + 1) data ++ s)) := by
      simp only [dataText, byteText, show text ", " = [44, 32] by rfl, List.append_assoc,
        List.cons_append, List.nil_append]
    rw [htext, lex_hexText b (by decide), lex_comma, lex_blanks hblanks, ih]
    rfl

theorem dataText_append (total : ℕ) (data : List UInt8) (b : UInt8) :
    dataText total (data ++ [b]) = dataText total data ++ byteText (total + data.length + 1) b := by
  induction data generalizing total with
  | nil => simp [dataText]
  | cons c data ih =>
    rw [List.cons_append, dataText, dataText, ih, List.append_assoc, List.length_cons]
    congr 3
    omega

theorem take_sub_append (s t u : List UInt8) : (s ++ (t ++ u)).take ((s ++ (t ++ u)).length - u.length) =
    s ++ t := by
  have hlen : (s ++ t ++ u).length - u.length = (s ++ t).length := by
    rw [List.length_append, Nat.add_sub_cancel]
  rw [← List.append_assoc, hlen, List.take_left]

/-- The last constant stands alone or with its comma, by what the `fseek` went back over. -/
theorem keptText_append (seekable : Bool) (data : List UInt8) (b : UInt8) :
    ∃ tail, keptText seekable (data ++ [b]) = dataText 0 data ++ (hexText b ++ tail) ∧
      (tail = [] ∨ ∃ blanks, tail = 44 :: blanks ∧ ∀ c ∈ blanks, isSpace c = true) := by
  have htext := dataText_append 0 data b
  by_cases hline : (0 + data.length + 1) % 16 = 0
  · have hbyte : byteText (0 + data.length + 1) b = (hexText b ++ text ", \n  ") ++ text "  " := by
      rw [byteText, if_pos hline, List.append_assoc, List.append_assoc]
      rfl
    rw [hbyte] at htext
    by_cases hseek : seekable = true
    · refine ⟨text ", \n  ", ?_, .inr ⟨text " \n  ", rfl, List.all_eq_true.mp (by decide)⟩⟩
      rw [keptText, if_pos hseek, htext]
      exact take_sub_append _ _ (text "  ")
    · refine ⟨text ", \n    ", ?_, .inr ⟨text " \n    ", rfl, List.all_eq_true.mp (by decide)⟩⟩
      rw [keptText, if_neg hseek, htext, List.append_assoc]
      rfl
  · have hbyte : byteText (0 + data.length + 1) b = hexText b ++ text ", " := by
      rw [byteText, if_neg hline, List.append_nil]
    rw [hbyte] at htext
    by_cases hseek : seekable = true
    · refine ⟨[], ?_, .inl rfl⟩
      rw [keptText, if_pos hseek, htext, List.append_nil]
      exact take_sub_append _ _ (text ", ")
    · refine ⟨text ", ", ?_, .inr ⟨text " ", rfl, List.all_eq_true.mp (by decide)⟩⟩
      rw [keptText, if_neg hseek, htext]

theorem initialiser_constants {sep rest : List (List UInt8)} (hsep : sep = [] ∨ sep = [text ","])
    (data : List UInt8) (b : UInt8) :
    initialiser ((data.flatMap fun b => [hexText b, text ","]) ++
      (hexText b :: sep ++ text "\x7d" :: rest)) = some (data ++ [b], rest) := by
  have hcomma : text "," ≠ text "\x7d" := by decide
  induction data with
  | nil =>
    rcases hsep with rfl | rfl
    · simp [initialiser, byteConstant_hexText]
    · simp [initialiser, byteConstant_hexText, hcomma]
  | cons c data ih =>
    have hnext : ((data.flatMap fun b => [hexText b, text ","]) ++
        (hexText b :: sep ++ text "\x7d" :: rest)).head? ≠ some (text "\x7d") := by
      have hhex : ∀ b, hexText b ≠ text "\x7d" := fun b heq =>
        absurd (congrArg List.length heq) (by decide : (4 : ℕ) ≠ 1)
      cases data with
      | nil => simpa using hhex b
      | cons d data => simpa using hhex d
    rw [List.flatMap_cons, List.append_assoc, List.cons_append, List.cons_append, List.nil_append,
      initialiser, byteConstant_hexText]
    dsimp only
    rw [if_neg hcomma, if_pos rfl, if_neg hnext, ih]
    rfl

/-! ### The tokens of the header -/

theorem varPrefix_word (name : List UInt8) : ∀ b ∈ varPrefix name, isWordByte b = true := by
  intro b hb
  obtain ⟨c, _, rfl⟩ := List.mem_map.mp (List.mem_of_mem_take hb)
  split
  · rename_i halnum
    simp [isWordByte, halnum]
  · decide

def declared (filename suffix : List UInt8) : List UInt8 := text "_" ++ varPrefix filename ++ suffix

theorem lex_declared (filename : List UInt8) {suffix : List UInt8} (hsuffix : ∀ b ∈ suffix, isWordByte b = true)
    {c : UInt8} (hc : isWordByte c = false) (s : List UInt8) :
    lex (text "_") (varPrefix filename ++ (suffix ++ c :: s)) =
      (declared filename suffix :: (lex [] (c :: s)).1, (lex [] (c :: s)).2) := by
  rw [lex_word (varPrefix_word filename), lex_word hsuffix, lex_stop hc (by simp [text])]
  rfl

theorem lex_constants (seekable : Bool) (data : List UInt8) (b : UInt8) (s : List UInt8) :
    ∃ sep, (sep = [] ∨ sep = [text ","]) ∧ lex [] (keptText seekable (data ++ [b]) ++ 10 :: s) =
      ((data.flatMap fun b => [hexText b, text ","]) ++ (hexText b :: sep ++ (lex [] s).1),
        (lex [] s).2) := by
  obtain ⟨tail, htext, htail⟩ := keptText_append seekable data b
  have hnewline : lex [] (10 :: s) = lex [] s := lex_blanks (s := [10]) (List.all_eq_true.mp rfl) s
  rcases htail with rfl | ⟨blanks, rfl, hblanks⟩
  · refine ⟨[], .inl rfl, ?_⟩
    rw [htext, List.append_nil, List.append_assoc, lex_dataText, lex_hexText b (by decide), hnewline]
    rfl
  · refine ⟨[text ","], .inr rfl, ?_⟩
    rw [htext, List.append_assoc, List.append_assoc, List.cons_append, lex_dataText,
      lex_hexText b (by decide), lex_comma, lex_blanks hblanks, hnewline]
    rfl

theorem lex_size (n : ℕ) : lex [] (decimal n ++ text ";\n") = ([decimal n, text ";"], []) := by
  have hword : ∀ b ∈ decimal n, isWordByte b = true := fun b hb =>
    isWordByte_of_isDigit (decimal_isDigit hb)
  have hend : lex [] (text ";\n") = ([text ";"], []) := by decide
  have hstop := lex_stop (by decide : isWordByte 59 = false) (decimal_ne_nil n) [10]
  rw [lex_word hword, List.nil_append, show text ";\n" = 59 :: [10] by rfl, hstop,
    show (59 : UInt8) :: [10] = text ";\n" by rfl, hend]

theorem lex_declarations (filename data : List UInt8) (b : UInt8) (seekable : Bool) :
    ∃ sep, (sep = [] ∨ sep = [text ","]) ∧ lex [] (declarations filename (data ++ [b]) seekable) =
      ([text "const", text "unsigned", text "char", declared filename (text "_data"), text "[",
        text "]", text "=", text "\x7b"] ++ ((data.flatMap fun b => [hexText b, text ","]) ++
          (hexText b :: sep ++ text "\x7d" :: [text ";", text "const", text "size_t",
            declared filename (text "_size"), text "=", decimal (data ++ [b]).length, text ";"])), []) := by
  have hlex : ∀ {a : List UInt8} {ts : List (List UInt8)} {w : List UInt8}, lex [] a = (ts, w) →
      ∀ s, lex [] (a ++ s) = (ts ++ (lex w s).1, (lex w s).2) := by
    intro a ts w ha s
    rw [lex_append, ha]
  have hopen : lex [] (text "const unsigned char _") =
      ([text "const", text "unsigned", text "char"], text "_") := by decide
  have hbrace : ∀ s, lex [] (91 :: (text "] = \x7b\n    " ++ s)) =
      ([text "[", text "]", text "=", text "\x7b"] ++ (lex [] s).1, (lex [] s).2) :=
    hlex (by decide : lex [] (text "[] = \x7b\n    ") =
      ([text "[", text "]", text "=", text "\x7b"], []))
  have hclose : lex [] (text "\x7d;\n\nconst size_t _") =
      ([text "\x7d", text ";", text "const", text "size_t"], text "_") := by decide
  have hequal : ∀ s, lex [] (32 :: (text "= " ++ s)) =
      ([text "="] ++ (lex [] s).1, (lex [] s).2) :=
    hlex (by decide : lex [] (text " = ") = ([text "="], []))
  have hparts : declarations filename (data ++ [b]) seekable =
      text "const unsigned char _" ++ (varPrefix filename ++ (text "_data" ++ 91 ::
        (text "] = \x7b\n    " ++ (keptText seekable (data ++ [b]) ++ 10 ::
          (text "\x7d;\n\nconst size_t _" ++ (varPrefix filename ++ (text "_size" ++ 32 ::
            (text "= " ++ (decimal (data ++ [b]).length ++ text ";\n"))))))))) := by
    simp only [declarations, List.append_assoc]
    rfl
  obtain ⟨sep, hsep, hconstants⟩ := lex_constants seekable data b
    (text "\x7d;\n\nconst size_t _" ++ (varPrefix filename ++ (text "_size" ++ 32 ::
      (text "= " ++ (decimal (data ++ [b]).length ++ text ";\n")))))
  refine ⟨sep, hsep, ?_⟩
  rw [hparts, hlex hopen, lex_declared filename (List.all_eq_true.mp (by decide)) (by decide), hbrace, hconstants,
    hlex hclose, lex_declared filename (List.all_eq_true.mp (by decide)) (by decide), hequal, lex_size]
  simp only [List.cons_append, List.nil_append]

/-! ### Comments and splices -/

def NoComment (s : List UInt8) : Prop := (92 : UInt8) ∉ s ∧ (47 : UInt8) ∉ s

theorem noComment_append {s t : List UInt8} (hs : NoComment s) (ht : NoComment t) : NoComment (s ++ t) := by
  simp only [NoComment, List.mem_append, not_or]
  exact ⟨⟨hs.1, ht.1⟩, hs.2, ht.2⟩

theorem noComment_of_word {s : List UInt8} (h : ∀ c ∈ s, isWordByte c = true) : NoComment s :=
  ⟨fun hin => absurd (h 92 hin) (by decide), fun hin => absurd (h 47 hin) (by decide)⟩

theorem noComment_dataText (total : ℕ) (data : List UInt8) : NoComment (dataText total data) := by
  induction data generalizing total with
  | nil => exact ⟨List.not_mem_nil, List.not_mem_nil⟩
  | cons b data ih =>
    have hsep : NoComment (if (total + 1) % 16 = 0 then text "\n    " else []) := by
      unfold NoComment
      split <;> decide
    have hcomma : NoComment (text ", ") := by
      unfold NoComment
      decide
    exact noComment_append (noComment_append (noComment_append (noComment_of_word (hexText_word b))
      hcomma) hsep) (ih _)

theorem noComment_declarations (filename data : List UInt8) (seekable : Bool) :
    NoComment (declarations filename data seekable) := by
  have hname := noComment_of_word (varPrefix_word filename)
  have hsize : NoComment (decimal data.length) :=
    noComment_of_word fun b hb => isWordByte_of_isDigit (decimal_isDigit hb)
  have hkept : NoComment (keptText seekable data) := by
    have hdata := noComment_dataText 0 data
    unfold keptText
    split
    · exact ⟨fun hin => hdata.1 (List.mem_of_mem_take hin), fun hin => hdata.2 (List.mem_of_mem_take hin)⟩
    · exact hdata
  have hfixed : ∀ s ∈ ["const unsigned char _", "_data[] = \x7b\n    ", "\n\x7d;\n\n", "const size_t _",
      "_size = ", ";\n"].map text, NoComment s := by
    unfold NoComment
    decide
  simp only [List.map_cons, List.map_nil, List.forall_mem_cons] at hfixed
  obtain ⟨h1, h2, h3, h4, h5, h6, _⟩ := hfixed
  exact noComment_append (noComment_append (noComment_append (noComment_append
    (noComment_append h1 hname) h2) hkept) h3)
    (noComment_append (noComment_append (noComment_append (noComment_append h4 hname) h5) hsize) h6)

/-- Of the two comment lines newlines are left. A backslash at the end of the name takes the
first of the two that follow it. -/
theorem stripComments_header {filename s : List UInt8} (hname : (10 : UInt8) ∉ filename)
    (hs : NoComment s) :
    ∃ blanks, (∀ c ∈ blanks, isSpace c = true) ∧ stripComments false (splice
      (generatedLine ++ 10 :: (sourceLine ++ filename ++ 10 :: 10 :: s))) = blanks ++ s := by
  have hsplice : splice s = s := splice_eq_self hs.1
  have hstrip : stripComments false s = s := stripComments_eq_self hs.2
  have hfirst : ∀ t, stripComments false (splice (generatedLine ++ 10 :: t)) =
      10 :: stripComments false (splice t) := by
    intro t
    have hcom : (10 : UInt8) ∉ generatedLine.drop 2 := by decide
    rw [splice_append (by decide) (by decide), splice_newline]
    exact stripComments_line hcom _
  have hline : ∀ name : List UInt8, (10 : UInt8) ∉ name → ∀ t,
      stripComments false (sourceLine ++ name ++ 10 :: t) = 10 :: stripComments false t := by
    intro name hname t
    have hcom : (10 : UInt8) ∉ sourceLine.drop 2 ++ name := by
      rw [List.mem_append, not_or]
      exact ⟨by decide, hname⟩
    exact stripComments_line hcom t
  have hnotin : ∀ {name : List UInt8}, (10 : UInt8) ∉ name → (10 : UInt8) ∉ sourceLine ++ name := by
    intro name hname
    rw [List.mem_append, not_or]
    exact ⟨by decide, hname⟩
  by_cases hlast : (sourceLine ++ filename).getLast? = some 92
  · obtain rfl | ⟨name, c, rfl⟩ := List.eq_nil_or_concat' filename
    · exact absurd hlast (by decide)
    · obtain rfl : c = 92 := by simpa [List.getLast?_append] using hlast
      have hplain : (10 : UInt8) ∉ name := fun h => hname (by simp [h])
      refine ⟨[10, 10], List.all_eq_true.mp (by decide), ?_⟩
      rw [hfirst, ← List.append_assoc, List.append_assoc (sourceLine ++ name), List.singleton_append,
        splice_joined (hnotin hplain), splice_newline, hsplice, hline name hplain, hstrip]
      rfl
  · have hnewline : stripComments false (10 :: s) = 10 :: s := by
      rw [stripComments, if_neg (fun h => absurd h.1 (by decide)), hstrip]
    refine ⟨[10, 10, 10], List.all_eq_true.mp (by decide), ?_⟩
    rw [hfirst, splice_append (hnotin hname) hlast, splice_newline, splice_newline, hsplice,
      hline filename hname, hnewline]
    rfl

theorem tokens_header {filename s : List UInt8} (hname : (10 : UInt8) ∉ filename) (hs : NoComment s)
    {ts : List (List UInt8)} (hlex : lex [] s = (ts, [])) :
    tokens (generatedLine ++ 10 :: (sourceLine ++ filename ++ 10 :: 10 :: s)) = ts := by
  obtain ⟨blanks, hblanks, hstrip⟩ := stripComments_header hname hs
  simp only [tokens, hstrip, lex_blanks hblanks, hlex]
  exact List.append_nil ts

/-! ### What the header denotes -/

theorem isIdentifier_declared (filename : List UInt8) {suffix : List UInt8}
    (hword : ∀ b ∈ suffix, isWordByte b = true) (hkey : ∀ k ∈ keywords, ¬ suffix <:+ k) :
    IsIdentifier (declared filename suffix) := by
  refine ⟨⟨95, rfl, by decide⟩, ?_, fun hin => hkey _ hin (List.suffix_append ..)⟩
  intro b hb
  rcases List.mem_append.mp hb with hb | hb
  · rcases List.mem_append.mp hb with hb | hb
    · obtain rfl : b = 95 := by simpa [text] using hb
      decide
    · exact varPrefix_word filename b hb
  · exact hword b hb

theorem parseHeader_writeHeader {filename : List UInt8} (hname : (10 : UInt8) ∉ filename)
    (hdata : data ≠ []) (seekable : Bool) :
    parseHeader (tokens (writeHeader filename data seekable)) =
      some ⟨declared filename (text "_data"), data, declared filename (text "_size"), data.length⟩ := by
  rw [writeHeader_eq filename hdata seekable]
  obtain rfl | ⟨data, b, rfl⟩ := List.eq_nil_or_concat' data
  · exact absurd rfl hdata
  · obtain ⟨sep, hsep, hlex⟩ := lex_declarations filename data b seekable
    have htokens := tokens_header hname (noComment_declarations filename (data ++ [b]) seekable) hlex
    have hsize := decimalConstant_decimal (List.length_pos_iff.mpr hdata)
    rw [htokens]
    simp only [List.cons_append, List.nil_append, parseHeader, if_true]
    rw [← List.cons_append, initialiser_constants hsep data b]
    simp only [hsize, Option.map_some, if_true]

/-- The written text is a header that declares the bytes of the input and their number under one
stem, so `extract` gives the input back. -/
theorem header_denotes {outs : List (List UInt8)} (houts : outs.length ≤ 1)
    (hname : (10 : UInt8) ∉ fileName path) (hdata : data ≠ []) (seekable : Bool) :
    ∃ written h, main (path :: outs) (some data) true seekable = .written written ∧
      parseHeader (tokens written) = some h ∧ h.data = data ∧ h.size = data.length ∧
      h.dataName = declared (fileName path) (text "_data") ∧
      h.sizeName = declared (fileName path) (text "_size") ∧
      IsIdentifier h.dataName ∧ IsIdentifier h.sizeName ∧ extract h = data := by
  have hmain : main (path :: outs) (some data) true seekable =
      .written (writeHeader (fileName path) data seekable) := by
    have hfew : ¬ 1 < outs.length := by omega
    simp [main, hfew]
  have hkeys : ∀ suffix ∈ [text "_data", text "_size"], ∀ k ∈ keywords, ¬ suffix <:+ k := by
    decide +kernel
  refine ⟨_, _, hmain, parseHeader_writeHeader hname hdata seekable, rfl, rfl, rfl, rfl, ?_, ?_,
    List.take_length⟩
  · exact isIdentifier_declared _ (List.all_eq_true.mp (by decide)) (hkeys _ (by simp))
  · exact isIdentifier_declared _ (List.all_eq_true.mp (by decide)) (hkeys _ (by simp))

theorem header_denotes_oneLine :
    ∃ written h, main [text "images/10k.jpg"] (some (List.replicate 16 255)) true true = .written written ∧
      parseHeader (tokens written) = some h ∧ h.data = List.replicate 16 255 ∧
      h.size = (List.replicate 16 (255 : UInt8)).length ∧
      h.dataName = declared (fileName (text "images/10k.jpg")) (text "_data") ∧
      h.sizeName = declared (fileName (text "images/10k.jpg")) (text "_size") ∧
      IsIdentifier h.dataName ∧ IsIdentifier h.sizeName ∧ extract h = List.replicate 16 255 :=
  header_denotes (by decide : ([] : List (List UInt8)).length ≤ 1) (by decide) (by decide) true

end CSimples.Bin2Arr
