import CSimples.Lib.CString

/-!
# Reading a text file with fgets

The pieces in which successive calls of `fgets` return the bytes of a file.
-/

namespace CSimples.TextFile

/-- `fgets` into a buffer of `room + 1` bytes: up to a newline, which is kept. -/
def fgets : ℕ → List UInt8 → List UInt8
  | 0, _ => []
  | _, [] => []
  | room + 1, b :: s => if b = 10 then [b] else b :: fgets room s

def readsFrom (room : ℕ) : ℕ → List UInt8 → List (List UInt8)
  | 0, _ => []
  | fuel + 1, s =>
    if s = [] then [] else fgets room s :: readsFrom room fuel (s.drop (fgets room s).length)

/-- What the calls return until one returns NULL; each takes at least one byte. -/
def reads (room : ℕ) (s : List UInt8) : List (List UInt8) := readsFrom room s.length s

variable {room fuel : ℕ} {line rest s : List UInt8}

theorem fgets_ne_nil (hroom : 0 < room) (hs : s ≠ []) : fgets room s ≠ [] := by
  cases room with
  | zero => omega
  | succ room =>
    cases s with
    | nil => exact absurd rfl hs
    | cons b s =>
      rw [fgets]
      split <;> simp

theorem fgets_line (h : (10 : UInt8) ∉ line) (hroom : line.length < room) (rest : List UInt8) :
    fgets room (line ++ 10 :: rest) = line ++ [10] := by
  induction line generalizing room with
  | nil =>
    cases room with
    | zero => simp at hroom
    | succ room => rfl
  | cons b line ih =>
    cases room with
    | zero => simp at hroom
    | succ room =>
      obtain ⟨hb, hline⟩ := List.ne_and_not_mem_of_not_mem_cons h
      have hlen : line.length < room := by simpa using hroom
      rw [List.cons_append, fgets, if_neg hb.symm, ih hline hlen, List.cons_append]

theorem fgets_full (h : (10 : UInt8) ∉ s.take room) : fgets room s = s.take room := by
  induction s generalizing room with
  | nil => cases room <;> rfl
  | cons b s ih =>
    cases room with
    | zero => rfl
    | succ room =>
      rw [List.take_succ_cons] at h ⊢
      obtain ⟨hb, hs⟩ := List.ne_and_not_mem_of_not_mem_cons h
      rw [fgets, if_neg hb.symm, ih hs]

theorem fgets_prefix (room : ℕ) (s : List UInt8) : fgets room s <+: s.take room := by
  induction s generalizing room with
  | nil => cases room <;> exact List.nil_prefix
  | cons b s ih =>
    cases room with
    | zero => exact List.nil_prefix
    | succ room =>
      rw [fgets, List.take_succ_cons]
      split
      · exact List.cons_prefix_cons.mpr ⟨rfl, List.nil_prefix⟩
      · exact List.cons_prefix_cons.mpr ⟨rfl, ih room⟩

theorem readsFrom_bytes {piece : List UInt8} (h : piece ∈ readsFrom room fuel s) :
    piece.length ≤ room ∧ ∀ b ∈ piece, b ∈ s := by
  induction fuel generalizing s with
  | zero => exact absurd h List.not_mem_nil
  | succ fuel ih =>
    rw [readsFrom] at h
    split at h
    · exact absurd h List.not_mem_nil
    · rcases List.mem_cons.mp h with rfl | h
      · have hpre := fgets_prefix room s
        refine ⟨hpre.length_le.trans (List.length_take_le ..), ?_⟩
        exact fun b hb => List.mem_of_mem_take (hpre.subset hb)
      · obtain ⟨hlen, hmem⟩ := ih h
        exact ⟨hlen, fun b hb => List.mem_of_mem_drop (hmem b hb)⟩

theorem readsFrom_eq (hroom : 0 < room) (h : s.length ≤ fuel) : readsFrom room fuel s = reads room s := by
  have hagree : ∀ {n m : ℕ} {s : List UInt8}, s.length ≤ n → s.length ≤ m →
      readsFrom room n s = readsFrom room m s := by
    intro n
    induction n with
    | zero =>
      intro m s hn _
      obtain rfl := List.length_eq_zero_iff.mp (Nat.le_zero.mp hn)
      cases m <;> rfl
    | succ n ih =>
      intro m s hn hm
      cases m with
      | zero =>
        obtain rfl := List.length_eq_zero_iff.mp (Nat.le_zero.mp hm)
        rfl
      | succ m =>
        rw [readsFrom, readsFrom]
        split
        · rfl
        · rename_i hs
          have hpos := List.length_pos_iff.mpr (fgets_ne_nil hroom hs)
          have hlen := List.length_drop (i := (fgets room s).length) (l := s)
          rw [ih (by omega : _ ≤ n) (by omega : _ ≤ m)]
  exact hagree h (le_refl _)

theorem reads_cons (hroom : 0 < room) (hs : s ≠ []) :
    reads room s = fgets room s :: reads room (s.drop (fgets room s).length) := by
  have hpos := List.length_pos_iff.mpr hs
  have hread := List.length_pos_iff.mpr (fgets_ne_nil hroom hs)
  have hlen := List.length_drop (i := (fgets room s).length) (l := s)
  obtain ⟨n, hn⟩ : ∃ n, s.length = n + 1 := ⟨s.length - 1, by omega⟩
  have hrest : (s.drop (fgets room s).length).length ≤ n := by omega
  rw [← readsFrom_eq hroom hrest, reads, hn, readsFrom, if_neg hs]

theorem reads_line (h : (10 : UInt8) ∉ line) (hroom : line.length < room) (rest : List UInt8) :
    reads room (line ++ 10 :: rest) = (line ++ [10]) :: reads room rest := by
  rw [reads_cons (by omega) (by simp), fgets_line h hroom]
  congr 2
  simp [List.drop_append]

/-- What one call of `fgets` can return before the end of a file. -/
def IsRead (room : ℕ) (piece : List UInt8) : Prop :=
  (10 : UInt8) ∉ piece.dropLast ∧ (piece.length = room ∨ piece.length < room ∧
    piece.getLast? = some 10)

theorem fgets_read (hroom : 0 < room) (h : IsRead room line) (rest : List UInt8) :
    fgets room (line ++ rest) = line := by
  obtain ⟨hbody, hend⟩ := h
  have hne : line ≠ [] := by
    rintro rfl
    rcases hend with hlen | ⟨_, hlast⟩
    · rw [← hlen] at hroom
      exact Nat.lt_irrefl _ hroom
    · cases hlast
  have hsplit := List.dropLast_append_getLast hne
  have hpos := List.length_pos_iff.mpr hne
  have hlen := @List.length_dropLast _ line
  by_cases hlast : line.getLast hne = 10
  · rw [← hsplit, hlast, List.append_assoc]
    exact fgets_line hbody (by omega) rest
  · have hfull : line.length = room := by
      rcases hend with hlen | ⟨_, hten⟩
      · exact hlen
      · rw [List.getLast?_eq_some_getLast hne] at hten
        exact absurd (Option.some.inj hten) hlast
    have htake : (line ++ rest).take room = line := List.take_left' hfull
    rw [fgets_full, htake]
    rw [htake, ← hsplit]
    exact fun hm => (List.mem_append.mp hm).elim hbody fun hm =>
      hlast (List.mem_singleton.mp hm).symm

/-- A file that is a sequence of reads is read back as that sequence. -/
theorem reads_flatten (hroom : 0 < room) {ls : List (List UInt8)}
    (h : ∀ l ∈ ls, IsRead room l) : reads room ls.flatten = ls := by
  induction ls with
  | nil => rfl
  | cons l ls ih =>
    obtain ⟨hl, hls⟩ := List.forall_mem_cons.mp h
    have hfirst := fgets_read hroom hl ls.flatten
    have hne : (l :: ls).flatten ≠ [] := by
      intro hnil
      rw [List.flatten_cons] at hnil
      rw [hnil] at hfirst
      have hempty : l = [] := by rw [← hfirst]; cases room <;> rfl
      rcases hl.2 with hlen | ⟨_, hlast⟩
      · rw [hempty] at hlen
        exact Nat.ne_of_lt hroom hlen
      · rw [hempty] at hlast
        cases hlast
    rw [reads_cons hroom hne, List.flatten_cons, hfirst, List.drop_left, ih hls]

theorem flatten_reads (hroom : 0 < room) (s : List UInt8) : (reads room s).flatten = s := by
  induction hn : s.length using Nat.strong_induction_on generalizing s with
  | _ n ih =>
    by_cases hs : s = []
    · rw [hs]
      rfl
    · have hread := List.length_pos_iff.mpr (fgets_ne_nil hroom hs)
      have hpos := List.length_pos_iff.mpr hs
      have hlen : (s.drop (fgets room s).length).length < n := by
        rw [List.length_drop]
        omega
      have hpre := fgets_prefix room s
      have hwhole : fgets room s <+: s := hpre.trans (List.take_prefix room s)
      rw [reads_cons hroom hs, List.flatten_cons, ih _ hlen _ rfl]
      exact List.prefix_iff_eq_append.mp hwhole

/-- Reads that are appended to a file come back behind what it gave before. -/
theorem reads_append_flatten (hroom : 0 < room) (hs : ∀ piece ∈ reads room s, IsRead room piece)
    {ls : List (List UInt8)} (hls : ∀ l ∈ ls, IsRead room l) :
    reads room (s ++ ls.flatten) = reads room s ++ ls := by
  have hall := reads_flatten hroom (List.forall_mem_append.mpr ⟨hs, hls⟩)
  rwa [List.flatten_append, flatten_reads hroom] at hall

/-! ### Lines cut into pieces -/

/-- A read without its newline. -/
def content (piece : List UInt8) : List UInt8 := piece.takeWhile fun b => decide (b ≠ 10)

/-- The reads without their newlines, less the empty ones. -/
def pieces (room : ℕ) (s : List UInt8) : List (List UInt8) :=
  ((reads room s).map content).filter fun piece => decide (piece ≠ [])

theorem content_eq_self (h : (10 : UInt8) ∉ line) : content line = line := CString.takeWhile_ne h

theorem content_newline (h : (10 : UInt8) ∉ line) : content (line ++ [10]) = line := by
  have hself := content_eq_self h
  rw [content] at hself
  rw [content, List.takeWhile_append, hself, if_pos rfl]
  simp

theorem pieces_newline (hroom : 0 < room) (s : List UInt8) : pieces room (10 :: s) = pieces room s := by
  obtain ⟨n, rfl⟩ : ∃ n, room = n + 1 := ⟨room - 1, by omega⟩
  have hread : fgets (n + 1) (10 :: s) = [10] := by rw [fgets, if_pos rfl]
  rw [pieces, reads_cons hroom (by simp), hread]
  rfl

theorem pieces_nil (room : ℕ) : pieces room [] = [] := rfl

/-- A line is read in pieces of full size, up to its end or that of the file. -/
theorem pieces_line (hroom : 0 < room) (h : (10 : UInt8) ∉ line) (hne : line ≠ [])
    (hrest : rest = [] ∨ rest.head? = some 10) :
    pieces room (line ++ rest) = line.take room :: pieces room (line.drop room ++ rest) := by
  have htake : line.take room ≠ [] := by
    rw [Ne, List.take_eq_nil_iff, not_or]
    exact ⟨by omega, hne⟩
  have hplain : (10 : UInt8) ∉ line.take room := fun hin => h (List.mem_of_mem_take hin)
  have hcons : ∀ {read : List UInt8}, fgets room (line ++ rest) = read → content read = line.take room →
      pieces room (line ++ rest) = line.take room :: pieces room ((line ++ rest).drop read.length) := by
    intro read hread hcontent
    rw [pieces, reads_cons hroom (by simp [hne]), hread, List.map_cons, hcontent,
      List.filter_cons_of_pos (by simpa using htake)]
    rfl
  by_cases hfull : room ≤ line.length
  · have hread : fgets room (line ++ rest) = line.take room := by
      rw [fgets_full] <;> rw [List.take_append_of_le_length hfull]
      exact hplain
    rw [hcons hread (content_eq_self hplain), List.length_take, Nat.min_eq_left hfull,
      List.drop_append_of_le_length hfull]
  · have hall : line.take room = line := List.take_of_length_le (by omega)
    have hdrop : line.drop room = [] := List.drop_of_length_le (by omega)
    cases rest with
    | nil =>
      have hread : fgets room (line ++ []) = line := by
        rw [List.append_nil, fgets_full hplain, hall]
      rw [hcons hread (by rw [content_eq_self h, hall]), hdrop]
      simp
    | cons c rest =>
      obtain rfl : c = 10 := by simpa using hrest
      have hread := fgets_line h (by omega : line.length < room) rest
      rw [hcons hread (by rw [content_newline h, hall]), hdrop, List.nil_append, pieces_newline hroom]
      congr 2
      simp [List.drop_append]

theorem pieces_append (hroom : 0 < room) (h : (10 : UInt8) ∉ line) (rest : List UInt8) :
    pieces room (line ++ 10 :: rest) = pieces room line ++ pieces room rest := by
  induction hn : line.length using Nat.strong_induction_on generalizing line with
  | _ n ih =>
    by_cases hne : line = []
    · rw [hne, List.nil_append, pieces_newline hroom, pieces_nil, List.nil_append]
    · have hpos := List.length_pos_iff.mpr hne
      have hlen : (line.drop room).length < n := by
        rw [List.length_drop]
        omega
      have hdrop : (10 : UInt8) ∉ line.drop room := fun hin => h (List.mem_of_mem_drop hin)
      have hself := pieces_line hroom h hne (.inl rfl : ([] : List UInt8) = [] ∨ _)
      rw [List.append_nil, List.append_nil] at hself
      rw [pieces_line hroom h hne (.inr rfl), ih _ hlen hdrop rfl, hself, List.cons_append]

theorem pieces_bytes {piece : List UInt8} (h : piece ∈ pieces room s) :
    piece.length ≤ room ∧ ∀ b ∈ piece, b ∈ s := by
  obtain ⟨read, hread, rfl⟩ := List.mem_map.mp (List.mem_filter.mp h).1
  obtain ⟨hlen, hmem⟩ := readsFrom_bytes hread
  have hpre : content read <+: read := List.takeWhile_prefix _
  exact ⟨hpre.length_le.trans hlen, fun b hb => hmem b (hpre.subset hb)⟩

theorem splitOn_bytes {l : List UInt8} (h : l ∈ s.splitOn 10) :
    (10 : UInt8) ∉ l ∧ ∀ b ∈ l, b ∈ s := by
  induction hn : s.length using Nat.strong_induction_on generalizing s with
  | _ n ih =>
    by_cases hs : (10 : UInt8) ∈ s
    · obtain ⟨line, rest, rfl, hline⟩ := List.eq_append_cons_of_mem hs
      rw [List.splitOn_append_cons_self, List.splitOn_eq_singleton hline, List.singleton_append] at h
      rcases List.mem_cons.mp h with rfl | h
      · exact ⟨hline, fun b hb => List.mem_append_left _ hb⟩
      · have hlen : rest.length < n := by
          rw [← hn, List.length_append, List.length_cons]
          omega
        obtain ⟨h10, hmem⟩ := ih _ hlen h rfl
        exact ⟨h10, fun b hb => List.mem_append_right _ (List.mem_cons_of_mem _ (hmem b hb))⟩
    · rw [List.splitOn_eq_singleton hs] at h
      obtain rfl := List.mem_singleton.mp h
      exact ⟨hs, fun b hb => hb⟩

theorem pieces_lines (hroom : 0 < room) (s : List UInt8) :
    pieces room s = (s.splitOn 10).flatMap (pieces room) := by
  induction hn : s.length using Nat.strong_induction_on generalizing s with
  | _ n ih =>
    by_cases h : (10 : UInt8) ∈ s
    · obtain ⟨line, rest, rfl, hline⟩ := List.eq_append_cons_of_mem h
      have hlen : rest.length < n := by
        rw [← hn, List.length_append, List.length_cons]
        omega
      rw [pieces_append hroom hline, ih _ hlen rest rfl, List.splitOn_append_cons_self,
        List.splitOn_eq_singleton hline, List.singleton_append, List.flatMap_cons]
    · rw [List.splitOn_eq_singleton h, List.flatMap_singleton]

end CSimples.TextFile
