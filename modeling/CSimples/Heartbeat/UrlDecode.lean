import CSimples.Heartbeat.HeartbeatServer
import Mathlib.Data.List.TakeDrop

/-!
# Percent-decoding in place (heartbeat_server.c:50-89)

`url_decode` and `parse_key_value` on blocks of memory: a read outside its block, a write
outside its block and a loop that has run out of fuel are all `none`. A string is a block
that ends with its NUL, so that nothing behind the NUL can be read.
-/

namespace CSimples.UrlDecode
open CString HeartbeatServer

def store (block : List UInt8) (i : ℕ) (b : UInt8) : Option (List UInt8) :=
  if i < block.length then some (block.set i b) else none

/-- The condition of the first branch, with its reads, and the byte of the escape. -/
def escapeAt (src : List UInt8) (i : ℕ) (c : UInt8) : Option (Option UInt8) :=
  if c = 37 then
    src[i + 1]?.bind fun h =>
      if isxdigit h = true then
        src[i + 2]?.bind fun l =>
          some (if isxdigit l = true then some (hexDigit h * 16 + hexDigit l) else none)
      else some none
  else some none

/-- The loop of `url_decode`: the block and `j` after it. -/
def urlDecodeLoop (src : List UInt8) (dstSize : ℕ) :
    ℕ → List UInt8 → ℕ → ℕ → Option (List UInt8 × ℕ)
  | 0, _, _, _ => none
  | fuel + 1, dst, i, j =>
    src[i]?.bind fun c =>
      if c ≠ 0 ∧ j < dstSize - 1 then
        (escapeAt src i c).bind fun escaped =>
          match escaped with
          | some b =>
            (store dst j b).bind fun dst => urlDecodeLoop src dstSize fuel dst (i + 3) (j + 1)
          | none =>
            (store dst j (if c = 43 then 32 else c)).bind fun dst =>
              urlDecodeLoop src dstSize fuel dst (i + 1) (j + 1)
      else some (dst, j)

def urlDecodeBlock (fuel : ℕ) (dst src : List UInt8) (dstSize : ℕ) : Option (List UInt8) :=
  (urlDecodeLoop src dstSize fuel dst 0 0).bind fun ended => store ended.1 ended.2 0

/-! ### The loop against the function on strings -/

theorem store_append (written : List UInt8) (a b : UInt8) (free : List UInt8) :
    store (written ++ a :: free) written.length b = some (written ++ b :: free) := by
  rw [store, if_pos (by simp), List.set_append_right _ _ (Nat.le_refl _), Nat.sub_self,
    List.set_cons_zero]

theorem isxdigit_zero : isxdigit 0 = false := rfl

theorem read_drop {src rest : List UInt8} {i : ℕ} (hsrc : src.drop i = rest) (k : ℕ) :
    src[i + k]? = rest[k]? := by
  rw [← hsrc, List.getElem?_drop]

theorem escape_literal {b : UInt8} (h : b ≠ 37) (e : List UInt8) : escape (b :: e) = none := by
  unfold escape
  split
  · rename_i heq
    cases heq
    rw [if_neg fun hand => h hand.1]
  · rfl

theorem escapeAt_eq {src rest : List UInt8} {i : ℕ} {c : UInt8}
    (hsrc : src.drop i = c :: rest ++ [0]) :
    escapeAt src i c = some ((escape (c :: rest)).map Prod.fst) := by
  have h1 := read_drop hsrc 1
  have h2 := read_drop hsrc 2
  by_cases hc : c = 37
  · cases rest with
    | nil =>
      have hread : src[i + 1]? = some 0 := h1
      simp [escapeAt, hc, hread, isxdigit_zero, escape]
    | cons h rest =>
      have hread : src[i + 1]? = some h := h1
      cases rest with
      | nil =>
        have hread' : src[i + 2]? = some 0 := h2
        simp [escapeAt, hc, hread, hread', isxdigit_zero, escape]
      | cons l rest =>
        have hread' : src[i + 2]? = some l := h2
        by_cases hh : isxdigit h = true
        · by_cases hl : isxdigit l = true
          · simp [escapeAt, hc, hread, hread', hh, hl, escape]
          · simp [escapeAt, hc, hread, hread', hh, hl, escape]
        · simp [escapeAt, hc, hread, hh, escape]
  · simp [escapeAt, hc, escape_literal hc]

theorem escape_some {bs rest : List UInt8} {b : UInt8} (h : escape bs = some (b, rest)) :
    ∃ front, bs = front ++ rest ∧ front.length = 3 := by
  unfold escape at h
  split at h
  · rename_i p u v more
    split at h
    · cases h
      exact ⟨[p, u, v], rfl, rfl⟩
    · cases h
  · cases h

theorem urlDecode_nil (room : ℕ) : urlDecode room [] = [] := by
  cases room <;> rfl

theorem urlDecode_length (room : ℕ) (bs : List UInt8) : (urlDecode room bs).length ≤ room := by
  induction room generalizing bs with
  | zero => exact Nat.le_refl 0
  | succ room ih =>
    cases bs with
    | nil => exact Nat.zero_le _
    | cons b rest =>
      rw [urlDecode]
      split
      · rename_i code rest' _
        exact Nat.succ_le_succ (ih rest')
      · exact Nat.succ_le_succ (ih rest)

/-- One round decodes one byte: `n` bytes of the string are taken, and `b` is stored. -/
theorem urlDecodeLoop_round {src rest written free : List UInt8} {c a : UInt8} {i dstSize : ℕ}
    (hsrc : src.drop i = c :: rest ++ [0]) (h0 : (0 : UInt8) ∉ c :: rest)
    (hj : written.length < dstSize - 1) :
    ∃ b n rest', src.drop (i + n) = rest' ++ [0] ∧ (0 : UInt8) ∉ rest' ∧
      rest'.length ≤ rest.length ∧
      (∀ room, urlDecode (room + 1) (c :: rest) = b :: urlDecode room rest') ∧
      ∀ fuel, urlDecodeLoop src dstSize (fuel + 1) (written ++ a :: free) i written.length =
        urlDecodeLoop src dstSize fuel (written ++ b :: free) (i + n) (written.length + 1) := by
  obtain ⟨hne, hrest⟩ := List.ne_and_not_mem_of_not_mem_cons h0
  have hc : src[i]? = some c := read_drop hsrc 0
  have hgoes : c ≠ 0 ∧ written.length < dstSize - 1 := ⟨hne.symm, hj⟩
  cases hescape : escape (c :: rest) with
  | none =>
    refine ⟨if c = 43 then 32 else c, 1, rest, ?_, hrest, le_rfl, fun room => ?_, fun fuel => ?_⟩
    · rw [← List.drop_drop, hsrc]
      rfl
    · rw [urlDecode, hescape]
    · rw [urlDecodeLoop, hc, Option.bind_some, if_pos hgoes, escapeAt_eq hsrc, hescape]
      simp only [Option.map_none, Option.bind_some, store_append]
  | some found =>
    obtain ⟨b, rest'⟩ := found
    obtain ⟨front, hfront, hthree⟩ := escape_some hescape
    refine ⟨b, 3, rest', ?_, fun h => h0 ?_, ?_, fun room => ?_, fun fuel => ?_⟩
    · rw [← List.drop_drop, hsrc, hfront, ← hthree, List.append_assoc, List.drop_left]
    · rw [hfront]
      exact List.mem_append_right _ h
    · have hlen := congrArg List.length hfront
      rw [List.length_append, List.length_cons] at hlen
      omega
    · rw [urlDecode, hescape]
    · rw [urlDecodeLoop, hc, Option.bind_some, if_pos hgoes, escapeAt_eq hsrc, hescape]
      simp only [Option.map_some, Option.bind_some, store_append]

/-- By induction on the fuel; each round takes one byte of the string at least. -/
theorem urlDecodeLoop_eq {src bs written free : List UInt8} {i dstSize fuel : ℕ}
    (hsrc : src.drop i = bs ++ [0]) (h0 : (0 : UInt8) ∉ bs)
    (hroom : dstSize ≤ written.length + free.length) (hfuel : bs.length < fuel) :
    urlDecodeLoop src dstSize fuel (written ++ free) i written.length =
      some (written ++ urlDecode (dstSize - 1 - written.length) bs ++
          free.drop (urlDecode (dstSize - 1 - written.length) bs).length,
        written.length + (urlDecode (dstSize - 1 - written.length) bs).length) := by
  induction fuel generalizing bs written free i with
  | zero => exact absurd hfuel (Nat.not_lt_zero _)
  | succ fuel ih =>
    cases bs with
    | nil =>
      have hnul : src[i]? = some 0 := read_drop hsrc 0
      rw [urlDecodeLoop, hnul, urlDecode_nil]
      simp
    | cons c rest =>
      by_cases hj : written.length < dstSize - 1
      · obtain ⟨room, hroom'⟩ : ∃ room, dstSize - 1 - written.length = room + 1 :=
          ⟨dstSize - 1 - written.length - 1, by omega⟩
        have hnext : dstSize - 1 - (written.length + 1) = room := by omega
        cases free with
        | nil =>
          rw [List.length_nil] at hroom
          omega
        | cons a free =>
          obtain ⟨b, n, rest', hdrop, hrest, hlen, hdecode, hround⟩ :=
            @urlDecodeLoop_round src rest written free c a i dstSize hsrc h0 hj
          have hlater := @ih rest' (written ++ [b]) free (i + n) hdrop hrest
            (by simp at hroom ⊢; omega) (by simp at hfuel; omega)
          simp only [List.length_append, List.length_singleton, hnext, List.append_assoc,
            List.singleton_append] at hlater
          rw [hround, hlater, hroom', hdecode]
          simp [Nat.add_assoc, Nat.add_comm 1]
      · have hc : src[i]? = some c := read_drop hsrc 0
        have hroom' : dstSize - 1 - written.length = 0 := by omega
        rw [urlDecodeLoop, hc, hroom']
        simp [hj, urlDecode]

/-- Within its blocks, `url_decode` is the function on strings, and ends. -/
theorem urlDecodeBlock_eq {fuel dstSize : ℕ} {dst bs : List UInt8} (h0 : (0 : UInt8) ∉ bs)
    (hpos : 1 ≤ dstSize) (hroom : dstSize ≤ dst.length) (hfuel : bs.length < fuel) :
    urlDecodeBlock fuel dst (bs ++ [0]) dstSize =
      some (urlDecode (dstSize - 1) bs ++ 0 :: dst.drop ((urlDecode (dstSize - 1) bs).length + 1)) := by
  have hloop := @urlDecodeLoop_eq (bs ++ [0]) bs [] dst 0 dstSize fuel rfl h0
    (by simpa using hroom) hfuel
  have hlen := urlDecode_length (dstSize - 1) bs
  simp only [List.nil_append, List.length_nil, Nat.sub_zero, Nat.zero_add] at hloop
  rw [urlDecodeBlock, hloop, Option.bind_some]
  have hlt : (urlDecode (dstSize - 1) bs).length < dst.length := by omega
  rw [List.drop_eq_getElem_cons hlt, store_append]

/-! ### Percent-encoding -/

def nibble (upper : Bool) (x : ℕ) : UInt8 :=
  if x < 10 then .ofNat (48 + x) else .ofNat ((if upper then 55 else 87) + x)

/-- `Encodes s e`: `e` is one of the ways to write `s`. -/
inductive Encodes : List UInt8 → List UInt8 → Prop where
  | nil : Encodes [] []
  | literal {b : UInt8} {s e : List UInt8} (h : b ≠ 37 ∧ b ≠ 43 ∧ b ≠ 0) :
      Encodes s e → Encodes (b :: s) (b :: e)
  | escaped (b : UInt8) (u v : Bool) {s e : List UInt8} :
      Encodes s e →
        Encodes (b :: s) (37 :: nibble u (b.toNat / 16) :: nibble v (b.toNat % 16) :: e)
  | plus {s e : List UInt8} : Encodes s e → Encodes (32 :: s) (43 :: e)

theorem nibble_digit : ∀ x < 16, ∀ u, isxdigit (nibble u x) = true ∧ nibble u x ≠ 0 ∧
    (hexDigit (nibble u x)).toNat = x := by decide

theorem nibble_join (b : UInt8) (u v : Bool) :
    hexDigit (nibble u (b.toNat / 16)) * 16 + hexDigit (nibble v (b.toNat % 16)) = b := by
  have hlt := b.toNat_lt
  have hhigh := (nibble_digit (b.toNat / 16) (by omega) u).2.2
  have hlow := (nibble_digit (b.toNat % 16) (by omega) v).2.2
  have hsixteen : (16 : UInt8).toNat = 16 := rfl
  apply UInt8.toNat_inj.mp
  rw [UInt8.toNat_add, UInt8.toNat_mul, hhigh, hlow, hsixteen]
  omega

theorem escape_nibbles (b : UInt8) (u v : Bool) (e : List UInt8) :
    escape (37 :: nibble u (b.toNat / 16) :: nibble v (b.toNat % 16) :: e) = some (b, e) := by
  have hlt := b.toNat_lt
  have hhigh := (nibble_digit (b.toNat / 16) (by omega) u).1
  have hlow := (nibble_digit (b.toNat % 16) (by omega) v).1
  simp [escape, hhigh, hlow, nibble_join]

theorem Encodes.zero_notMem {s e : List UInt8} (h : Encodes s e) : (0 : UInt8) ∉ e := by
  induction h with
  | nil => exact List.not_mem_nil
  | literal hb _ ih => exact List.not_mem_cons_of_ne_of_not_mem hb.2.2.symm ih
  | escaped b u v _ ih =>
    have hlt := b.toNat_lt
    have hhigh := (nibble_digit (b.toNat / 16) (by omega) u).2.1
    have hlow := (nibble_digit (b.toNat % 16) (by omega) v).2.1
    refine List.not_mem_cons_of_ne_of_not_mem (by decide) ?_
    refine List.not_mem_cons_of_ne_of_not_mem hhigh.symm ?_
    exact List.not_mem_cons_of_ne_of_not_mem hlow.symm ih
  | plus _ ih => exact List.not_mem_cons_of_ne_of_not_mem (by decide) ih

theorem urlDecode_encodes {s e : List UInt8} (h : Encodes s e) (room : ℕ) :
    urlDecode room e = s.take room := by
  induction h generalizing room with
  | nil => rw [urlDecode_nil, List.take_nil]
  | @literal b s e hb _ ih =>
    cases room with
    | zero => rfl
    | succ room => rw [urlDecode, escape_literal hb.1, if_neg hb.2.1, ih, List.take_succ_cons]
  | @escaped b u v s e _ ih =>
    cases room with
    | zero => rfl
    | succ room =>
      rw [urlDecode, escape_nibbles]
      show b :: urlDecode room e = _
      rw [ih, List.take_succ_cons]
  | @plus s e _ ih =>
    cases room with
    | zero => rfl
    | succ room => rw [urlDecode, escape_literal (by decide), if_pos rfl, ih, List.take_succ_cons]

/-- `dst` has the string, cut to the room there is, and no byte from `dst_size` on has
changed. -/
structure Decoded (dstSize : ℕ) (dst dst' : List UInt8) : Prop where
  length : dst'.length = dst.length
  beyond : dst'.drop dstSize = dst.drop dstSize

theorem urlDecodeBlock_decoded {fuel dstSize : ℕ} {dst bs : List UInt8} (h0 : (0 : UInt8) ∉ bs)
    (hpos : 1 ≤ dstSize) (hroom : dstSize ≤ dst.length) (hfuel : bs.length < fuel) :
    ∃ dst', urlDecodeBlock fuel dst (bs ++ [0]) dstSize = some dst' ∧
      Decoded dstSize dst dst' := by
  have hlen := urlDecode_length (dstSize - 1) bs
  refine ⟨_, urlDecodeBlock_eq h0 hpos hroom hfuel, ?_, ?_⟩
  · rw [List.length_append, List.length_cons, List.length_drop]
    omega
  · rw [List.drop_append, List.drop_eq_nil_of_le (by omega), List.nil_append]
    obtain ⟨k, hk⟩ : ∃ k, dstSize - (urlDecode (dstSize - 1) bs).length = k + 1 :=
      ⟨dstSize - (urlDecode (dstSize - 1) bs).length - 1, by omega⟩
    rw [hk, List.drop_succ_cons, List.drop_drop]
    congr 1
    omega

theorem url_decode_inverts {dstSize : ℕ} {dst : List UInt8} (hpos : 1 ≤ dstSize)
    (hroom : dstSize ≤ dst.length) :
    (∀ s e fuel, (0 : UInt8) ∉ s → Encodes s e → e.length < fuel →
      ∃ dst', urlDecodeBlock fuel dst (e ++ [0]) dstSize = some dst' ∧
        s.take (dstSize - 1) ++ [0] <+: dst' ∧ cstr dst' = s.take (dstSize - 1)) ∧
    ∀ bs fuel, (0 : UInt8) ∉ bs → bs.length < fuel →
      ∃ dst', urlDecodeBlock fuel dst (bs ++ [0]) dstSize = some dst' ∧
        Decoded dstSize dst dst' := by
  constructor
  · intro s e fuel hs hencodes hfuel
    have hblock := urlDecodeBlock_eq hencodes.zero_notMem hpos hroom hfuel
    rw [urlDecode_encodes hencodes] at hblock
    have hs' : (0 : UInt8) ∉ s.take (dstSize - 1) := fun h => hs (List.mem_of_mem_take h)
    refine ⟨_, hblock, ?_, cstr_append_zero hs' _⟩
    exact ⟨_, by rw [List.append_assoc, List.singleton_append]⟩
  · exact fun bs fuel h0 hfuel => urlDecodeBlock_decoded h0 hpos hroom hfuel

/-- `%41+b` into four bytes of which three are used. -/
theorem url_decode_inverts_short :
    ∃ dst', urlDecodeBlock 6 [9, 9, 9, 9] [37, 52, 49, 43, 98, 0] 3 = some dst' ∧
      [65, 32, 0] <+: dst' ∧ cstr dst' = [65, 32] := by
  have hencodes : Encodes [65, 32, 98] [37, 52, 49, 43, 98] :=
    .escaped 65 true true (.plus (.literal (by decide) .nil))
  exact (@url_decode_inverts 3 [9, 9, 9, 9] (by decide) (by decide)).1 _ _ 6 (by decide) hencodes
    (by decide)

/-! ### Pairs (heartbeat_server.c:72-89) -/

/-- The value that `parse_key_value` returns, and the two blocks after it. -/
def parseKeyValueBlock (fuel : ℕ) (pair key : List UInt8) (keyLen : ℕ) (value : List UInt8)
    (valueLen : ℕ) : Option (Bool × List UInt8 × List UInt8) :=
  match (cstr pair).idxOf? 61 with
  | none => some (false, key, value)
  | some eq =>
    if keyLen ≤ eq then some (false, key, value)
    else (store (strncpy key (cstr pair) eq) eq 0).bind fun key =>
      let valStart := pair.drop (eq + 1)
      if valueLen ≤ (cstr valStart).length then some (false, key, value)
      else (urlDecodeBlock fuel value valStart valueLen).bind fun value => some (true, key, value)

def WellFormed (pair : List UInt8) (keyLen valueLen : ℕ) : Prop :=
  ∃ k v, pair = k ++ 61 :: v ∧ 61 ∉ k ∧ k ≠ [] ∧ k.length < keyLen ∧ v ≠ [] ∧ v.length < valueLen

/-- A pair that fits, with an empty key or an empty value. -/
def Hollow (pair : List UInt8) (keyLen valueLen : ℕ) : Prop :=
  ∃ k v, pair = k ++ 61 :: v ∧ 61 ∉ k ∧ k.length < keyLen ∧ v.length < valueLen ∧
    (k = [] ∨ v = [])

/-- The block has the string with its NUL. -/
def Holds (block s : List UInt8) : Prop := s ++ [0] <+: block

theorem holds_append (s rest : List UInt8) : Holds (s ++ 0 :: rest) s :=
  ⟨rest, (List.append_cons s 0 rest).symm⟩

theorem idxOf?_append {k : List UInt8} (hk : 61 ∉ k) (v : List UInt8) :
    (k ++ 61 :: v).idxOf? 61 = some k.length := by
  induction k with
  | nil => rfl
  | cons b k ih =>
    obtain ⟨hb, hk⟩ := List.ne_and_not_mem_of_not_mem_cons hk
    rw [List.cons_append, List.idxOf?_cons, ih hk]
    simp [hb.symm]

theorem cut_unique {k v k' v' : List UInt8} (hk : 61 ∉ k) (hk' : 61 ∉ k')
    (h : k ++ 61 :: v = k' ++ 61 :: v') : k = k' ∧ v = v' := by
  have hlen : k.length = k'.length := by
    have hidx := idxOf?_append hk v
    rw [h, idxOf?_append hk' v'] at hidx
    exact (Option.some.inj hidx).symm
  obtain ⟨rfl, htail⟩ := List.append_inj h hlen
  exact ⟨rfl, List.tail_eq_of_cons_eq htail⟩

theorem cut_iff {k v : List UInt8} (hk : 61 ∉ k) (P : List UInt8 → List UInt8 → Prop) :
    (∃ k' v', k ++ 61 :: v = k' ++ 61 :: v' ∧ 61 ∉ k' ∧ P k' v') ↔ P k v := by
  constructor
  · intro ⟨k', v', hpair, hk', hP⟩
    obtain ⟨rfl, rfl⟩ := cut_unique hk hk' hpair
    exact hP
  · exact fun hP => ⟨k, v, rfl, hk, hP⟩

theorem not_cut {pair : List UInt8} (h : 61 ∉ pair) (P : List UInt8 → List UInt8 → Prop) :
    ¬ ∃ k v, pair = k ++ 61 :: v ∧ 61 ∉ k ∧ P k v := by
  rintro ⟨k, v, rfl, _⟩
  exact h (by simp)

theorem urlDecode_room {room room' : ℕ} {bs : List UInt8} (h : bs.length ≤ room)
    (h' : bs.length ≤ room') : urlDecode room bs = urlDecode room' bs := by
  induction room generalizing bs room' with
  | zero =>
    rw [List.eq_nil_of_length_eq_zero (Nat.le_zero.mp h), urlDecode_nil, urlDecode_nil]
  | succ room ih =>
    cases bs with
    | nil => rw [urlDecode_nil, urlDecode_nil]
    | cons b rest =>
      cases room' with
      | zero => exact absurd h' (Nat.not_succ_le_zero _)
      | succ room' =>
        rw [List.length_cons] at h h'
        rw [urlDecode, urlDecode]
        cases hescape : escape (b :: rest) with
        | none => simp only [@ih room' rest (by omega) (by omega)]
        | some found =>
          obtain ⟨front, hfront, hthree⟩ := escape_some hescape
          have hlen := congrArg List.length hfront
          rw [List.length_append, List.length_cons] at hlen
          simp only [@ih room' found.2 (by omega) (by omega)]

section Pair
variable {fuel keyLen valueLen : ℕ} {k v key value : List UInt8}

theorem parseKeyValueBlock_cut (h0 : (0 : UInt8) ∉ k ++ 61 :: v) (hk : 61 ∉ k)
    (hkey : keyLen ≤ key.length) (hvalue : valueLen ≤ value.length) (hfuel : v.length < fuel) :
    parseKeyValueBlock fuel (k ++ 61 :: v ++ [0]) key keyLen value valueLen =
      if keyLen ≤ k.length then some (false, key, value)
      else if valueLen ≤ v.length then some (false, k ++ 0 :: key.drop (k.length + 1), value)
      else some (true, k ++ 0 :: key.drop (k.length + 1),
        urlDecode (valueLen - 1) v ++
          0 :: value.drop ((urlDecode (valueLen - 1) v).length + 1)) := by
  have hv : (0 : UInt8) ∉ v := fun h => h0 (by simp [h])
  have hpair : cstr (k ++ 61 :: v ++ [0]) = k ++ 61 :: v := cstr_append_zero h0 []
  have hstart : (k ++ 61 :: v ++ [0]).drop (k.length + 1) = v ++ [0] := by
    rw [List.append_assoc, List.drop_append]
    simp
  have hvalueStart : cstr (v ++ [0]) = v := cstr_append_zero hv []
  rw [parseKeyValueBlock, hpair, idxOf?_append hk]
  dsimp only
  split
  · rfl
  · rename_i hlt
    have hcopy : strncpy key (k ++ 61 :: v) k.length = k ++ key.drop k.length := by
      have hpad : k.length - (k ++ 61 :: v).length = 0 := by simp
      rw [strncpy, cstr_eq_self h0, hpad, List.take_left, List.replicate_zero, List.append_nil]
    have hend : k.length < key.length := by omega
    rw [hcopy, List.drop_eq_getElem_cons hend, store_append, Option.bind_some, hstart,
      hvalueStart]
    split
    · rfl
    · rename_i hlt'
      rw [urlDecodeBlock_eq hv (by omega) hvalue hfuel, Option.bind_some]

theorem parseKeyValueBlock_uncut {pair : List UInt8} (h0 : (0 : UInt8) ∉ pair)
    (heq : 61 ∉ pair) : parseKeyValueBlock fuel (pair ++ [0]) key keyLen value valueLen =
      some (false, key, value) := by
  rw [parseKeyValueBlock, cstr_append_zero h0 [], List.idxOf?_eq_none_iff.mpr heq]

theorem parseKeyValueBlock_refines {pair : List UInt8} (h0 : (0 : UInt8) ∉ pair)
    (hkey : keyLen ≤ key.length) (hvalue : valueLen ≤ value.length) (hfuel : pair.length < fuel) :
    ∃ ret key' value',
      parseKeyValueBlock fuel (pair ++ [0]) key keyLen value valueLen =
        some (ret, key', value') ∧
      parseKeyValue pair keyLen valueLen =
        if ret = true then some (cstr key', cstr value') else none := by
  by_cases heq : 61 ∈ pair
  · obtain ⟨k, v, rfl, hk⟩ := List.eq_append_cons_of_mem heq
    have hlen : v.length < fuel := by
      rw [List.length_append, List.length_cons] at hfuel
      omega
    have hk0 : (0 : UInt8) ∉ k := fun h => h0 (List.mem_append_left _ h)
    have hdrop : (k ++ 61 :: v).drop (k.length + 1) = v := by simp
    rw [parseKeyValueBlock_cut h0 hk hkey hvalue hlen, parseKeyValue, idxOf?_append hk]
    dsimp only
    rw [hdrop, List.take_left]
    by_cases hlong : keyLen ≤ k.length
    · exact ⟨_, _, _, if_pos hlong, if_pos hlong⟩
    · by_cases hlong' : valueLen ≤ v.length
      · exact ⟨_, _, _, (if_neg hlong).trans (if_pos hlong'), (if_neg hlong).trans (if_pos hlong')⟩
      · refine ⟨_, _, _, (if_neg hlong).trans (if_neg hlong'), ?_⟩
        rw [if_neg hlong, if_neg hlong', cstr_append_zero hk0, cstr_append_nul, if_pos rfl]
  · refine ⟨false, key, value, parseKeyValueBlock_uncut h0 heq, ?_⟩
    rw [parseKeyValue, List.idxOf?_eq_none_iff.mpr heq]
    rfl

theorem parse_key_value_iff {pair : List UInt8} (h0 : (0 : UInt8) ∉ pair)
    (hkey : keyLen ≤ key.length) (hvalue : valueLen ≤ value.length) (hfuel : pair.length < fuel) :
    ∃ ret key' value',
      parseKeyValueBlock fuel (pair ++ [0]) key keyLen value valueLen =
        some (ret, key', value') ∧
      (((ret = true ↔ WellFormed pair keyLen valueLen) ∧
          (ret = true → ∀ k v, pair = k ++ 61 :: v → 61 ∉ k →
            Holds key' k ∧ Holds value' (urlDecode v.length v))) ↔
        ¬ Hollow pair keyLen valueLen) := by
  by_cases heq : 61 ∈ pair
  · obtain ⟨k, v, rfl, hk⟩ := List.eq_append_cons_of_mem heq
    have hlen : v.length < fuel := by
      rw [List.length_append, List.length_cons] at hfuel
      omega
    have hwell : WellFormed (k ++ 61 :: v) keyLen valueLen ↔
        k ≠ [] ∧ k.length < keyLen ∧ v ≠ [] ∧ v.length < valueLen := cut_iff hk _
    have hhollow : Hollow (k ++ 61 :: v) keyLen valueLen ↔
        k.length < keyLen ∧ v.length < valueLen ∧ (k = [] ∨ v = []) := cut_iff hk _
    rw [parseKeyValueBlock_cut h0 hk hkey hvalue hlen, hwell, hhollow]
    by_cases hlong : keyLen ≤ k.length
    · refine ⟨_, _, _, if_pos hlong, ?_⟩
      have hnot : ¬ k.length < keyLen := Nat.not_lt.mpr hlong
      simp [hnot]
    · by_cases hlong' : valueLen ≤ v.length
      · refine ⟨_, _, _, (if_neg hlong).trans (if_pos hlong'), ?_⟩
        have hnot : ¬ v.length < valueLen := Nat.not_lt.mpr hlong'
        simp [hnot]
      · refine ⟨_, _, _, (if_neg hlong).trans (if_neg hlong'), ?_⟩
        have hholds : ∀ k' v', k ++ 61 :: v = k' ++ 61 :: v' → 61 ∉ k' →
            Holds (k ++ 0 :: key.drop (k.length + 1)) k' ∧
              Holds (urlDecode (valueLen - 1) v ++
                0 :: value.drop ((urlDecode (valueLen - 1) v).length + 1))
                (urlDecode v'.length v') := by
          intro k' v' hpair hk'
          obtain ⟨rfl, rfl⟩ := cut_unique hk hk' hpair
          rw [urlDecode_room (by omega : v.length ≤ valueLen - 1) (Nat.le_refl v.length)]
          exact ⟨holds_append _ _, holds_append _ _⟩
        have hk'' : k.length < keyLen := Nat.not_le.mp hlong
        have hv'' : v.length < valueLen := Nat.not_le.mp hlong'
        simp only [true_iff, forall_const, and_iff_left hholds]
        simp [hk'', hv'']
  · refine ⟨false, key, value, parseKeyValueBlock_uncut h0 heq, ?_⟩
    have hwell : ¬ WellFormed pair keyLen valueLen := not_cut heq _
    have hhollow : ¬ Hollow pair keyLen valueLen := not_cut heq _
    simp [hwell, hhollow]

end Pair

theorem parse_key_value_iff_pair :
    ∃ ret key' value',
      parseKeyValueBlock 8 [97, 61, 98, 61, 37, 50, 48, 0] [0, 0] 2 [0, 0, 0, 0, 0, 0] 6 =
        some (ret, key', value') ∧
      (((ret = true ↔ WellFormed [97, 61, 98, 61, 37, 50, 48] 2 6) ∧
          (ret = true → ∀ k v, [97, 61, 98, 61, 37, 50, 48] = k ++ 61 :: v → 61 ∉ k →
            Holds key' k ∧ Holds value' (urlDecode v.length v))) ↔
        ¬ Hollow [97, 61, 98, 61, 37, 50, 48] 2 6) :=
  @parse_key_value_iff 8 2 6 [0, 0] [0, 0, 0, 0, 0, 0] [97, 61, 98, 61, 37, 50, 48] (by decide)
    (by decide) (by decide) (by decide)

/-- `=b` and `a=` are accepted. -/
theorem empty_parts_accepted :
    parseKeyValueBlock 3 [61, 98, 0] [7, 7] 2 [7, 7] 2 = some (true, [0, 7], [98, 0]) ∧
      ¬ WellFormed [61, 98] 2 2 ∧
      parseKeyValueBlock 3 [97, 61, 0] [7, 7] 2 [7, 7] 2 = some (true, [97, 0], [0, 7]) ∧
      ¬ WellFormed [97, 61] 2 2 := by
  refine ⟨by decide, ?_, by decide, ?_⟩
  · rintro ⟨k, v, hpair, hk, hne, _⟩
    exact hne (@cut_unique [] [98] k v (by decide) hk hpair).1.symm
  · rintro ⟨k, v, hpair, hk, _, _, hne, _⟩
    exact hne (@cut_unique [97] [] k v (by decide) hk hpair).2.symm

end CSimples.UrlDecode
