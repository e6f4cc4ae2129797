import CSimples.Lib.CString
import CSimples.Lib.TextFile

/-!
# The IP filter (c-client-server-app/src/utils.c)

`ipfilter_init` adds the addresses of two files to the lists of a context. The
theorem says after which loads the lists hold what the last files list.
-/

namespace CSimples.ClientServer
open CString TextFile

/-! ### The context (utils.c:10-18, 56-66) -/

/-- The entries below the count, each a buffer of 16 bytes that ends in NUL. -/
structure IpList where
  entries : List (List UInt8)
  bound : entries.length ≤ 100
  buffers : ∀ e ∈ entries, e.length = 16 ∧ e[15]? = some 0

structure IpfilterCtx where
  blacklistIps : IpList
  whitelistIps : IpList

def IpList.empty : IpList := ⟨[], by decide, by simp⟩

def ipfilterCreate : IpfilterCtx := ⟨.empty, .empty⟩

/-! ### load_ip_list (utils.c:37-54) -/

/-- `strncpy` fills 15 bytes and the last one is set, whatever the slot held. -/
def ipEntry (line : List UInt8) : List UInt8 := strncpy (List.replicate 16 0) line 15

theorem ipEntry_buffer (line : List UInt8) :
    (ipEntry line).length = 16 ∧ (ipEntry line)[15]? = some 0 :=
  ⟨length_strncpy line (by decide), strncpy_above _ line (le_refl 15)⟩

def IpList.add (list : IpList) (line : List UInt8) (h : list.entries.length < 100) : IpList where
  entries := list.entries ++ [ipEntry line]
  bound := by
    rw [List.length_append, List.length_singleton]
    omega
  buffers := by
    intro e he
    rcases List.mem_append.mp he with he | he
    · exact list.buffers e he
    · obtain rfl := List.mem_singleton.mp he
      exact ipEntry_buffer line

def loadLines : List (List UInt8) → IpList → IpList
  | [], list => list
  | piece :: rest, list =>
    if h : list.entries.length < 100 then
      let line := content (cstr piece)
      loadLines rest (if line ≠ [] then list.add line h else list)
    else list

/-- `file` is `none` when it cannot be opened. -/
def loadIpList (file : Option (List UInt8)) (list : IpList) : IpList :=
  match file with
  | none => list
  | some s => loadLines (reads 15 s) list

/-! ### Calls (utils.c:75-113) -/

def ipfilterInit (ctx : IpfilterCtx) (blacklistFile whitelistFile : Option (List UInt8)) :
    IpfilterCtx :=
  ⟨loadIpList blacklistFile ctx.blacklistIps, loadIpList whitelistFile ctx.whitelistIps⟩

/-- The loops of `ipfilter_is_blacklisted` and `ipfilter_is_whitelisted`. -/
def isListed (list : IpList) (ip : List UInt8) : Bool :=
  list.entries.any fun e => decide (cstr ip = cstr e)

def ipfilterIsBlacklisted (ctx : IpfilterCtx) (ip : List UInt8) : Bool := isListed ctx.blacklistIps ip

def ipfilterIsWhitelisted (ctx : IpfilterCtx) (ip : List UInt8) : Bool := isListed ctx.whitelistIps ip

/-- A new context after the calls of `ipfilter_init` with the given files. -/
def run (calls : List (Option (List UInt8) × Option (List UInt8))) : IpfilterCtx :=
  calls.foldl (fun ctx files => ipfilterInit ctx files.1 files.2) ipfilterCreate

/-! ### The file format (README.md:104-128) -/

def textLines (s : List UInt8) : List (List UInt8) := (s.splitOn 10).filter fun l => decide (l ≠ [])

def isComment (line : List UInt8) : Bool := decide (line.head? = some 35)

/-- The first 100 lines that are neither empty nor comments. -/
def listed (s : List UInt8) : List (List UInt8) :=
  ((textLines s).filter fun l => !isComment l).take 100

/-! ### What is loaded -/

variable {list : IpList} {s ip : List UInt8}

def IpList.ips (list : IpList) : List (List UInt8) := list.entries.map cstr

theorem isListed_iff : isListed list ip = true ↔ cstr ip ∈ list.ips := by
  simp only [isListed, IpList.ips, List.any_eq_true, List.mem_map, decide_eq_true_eq]
  exact exists_congr fun e => and_congr_right fun _ => eq_comm

theorem IpList.length_ip {x : List UInt8} (h : x ∈ list.ips) : x.length ≤ 15 := by
  obtain ⟨e, he, rfl⟩ := List.mem_map.mp h
  obtain ⟨hlen, hend⟩ := list.buffers e he
  have hlt := length_cstr_lt (List.mem_of_getElem? hend)
  omega

theorem entries_loadLines (reads : List (List UInt8)) (list : IpList) :
    (loadLines reads list).entries = list.entries ++
      (((reads.map fun piece => content (cstr piece)).filter fun l => decide (l ≠ [])).take
        (100 - list.entries.length)).map ipEntry := by
  induction reads generalizing list with
  | nil => simp [loadLines]
  | cons piece reads ih =>
    have hbound := list.bound
    rw [loadLines]
    split
    · rename_i h
      by_cases hline : content (cstr piece) = []
      · simp [hline, ih]
      · obtain ⟨n, hn⟩ : ∃ n, 100 - list.entries.length = n + 1 :=
          ⟨99 - list.entries.length, by omega⟩
        have hn' : 100 - (list.entries.length + 1) = n := by omega
        simp [hline, ih, IpList.add, hn, hn']
    · rename_i h
      have hfull : 100 - list.entries.length = 0 := by omega
      simp [hfull]

/-- After the entries held come the pieces of the file, up to 100 in all. -/
theorem ips_loadIpList (h0 : (0 : UInt8) ∉ s) (list : IpList) :
    (loadIpList (some s) list).ips = list.ips ++ (pieces 15 s).take (100 - list.entries.length) := by
  have hplain : ((reads 15 s).map fun piece => content (cstr piece)) = (reads 15 s).map content := by
    apply List.map_congr_left
    intro piece hpiece
    rw [cstr_eq_self fun h => h0 ((readsFrom_bytes hpiece).2 0 h)]
  have hentry : ∀ piece ∈ (pieces 15 s).take (100 - list.entries.length),
      cstr (ipEntry piece) = piece := by
    intro piece hpiece
    obtain ⟨hlen, hmem⟩ := pieces_bytes (List.mem_of_mem_take hpiece)
    rw [ipEntry, cstr_strncpy piece rfl, cstr_eq_self fun h => h0 (hmem 0 h),
      List.take_of_length_le hlen]
  rw [IpList.ips, loadIpList, entries_loadLines, hplain, List.map_append, List.map_map, IpList.ips]
  congr 1
  exact (List.map_congr_left hentry).trans (List.map_id _)

/-! ### The lines of a file -/

theorem textLines_bytes {l : List UInt8} (h : l ∈ textLines s) :
    l ≠ [] ∧ (10 : UInt8) ∉ l ∧ ∀ b ∈ l, b ∈ s := by
  obtain ⟨hl, hne⟩ := List.mem_filter.mp h
  exact ⟨of_decide_eq_true hne, splitOn_bytes hl⟩

theorem pieces_textLine {l : List UInt8} (h : l ∈ textLines s) :
    pieces 15 l = l.take 15 :: pieces 15 (l.drop 15) := by
  obtain ⟨hne, h10, _⟩ := textLines_bytes h
  have hline := pieces_line (by decide : 0 < 15) h10 hne (.inl rfl : ([] : List UInt8) = [] ∨ _)
  rwa [List.append_nil, List.append_nil] at hline

theorem pieces_textLines (s : List UInt8) : pieces 15 s = (textLines s).flatMap (pieces 15) := by
  have hfilter : ∀ ls : List (List UInt8), ls.flatMap (pieces 15) =
      (ls.filter fun l => decide (l ≠ [])).flatMap (pieces 15) := by
    intro ls
    induction ls with
    | nil => rfl
    | cons l ls ih =>
      by_cases hl : l = []
      · simp [hl, pieces_nil, ih]
      · simp [hl, ih]
  rw [pieces_lines (by decide : 0 < 15), hfilter]
  rfl

theorem pieces_short {ls : List (List UInt8)} (hls : ∀ l ∈ ls, l ∈ textLines s)
    (hshort : ∀ l ∈ ls, l.length ≤ 15) : ls.flatMap (pieces 15) = ls := by
  induction ls with
  | nil => rfl
  | cons l ls ih =>
    have hl := hshort l (List.mem_cons_self ..)
    rw [List.flatMap_cons, pieces_textLine (hls l (List.mem_cons_self ..)),
      List.take_of_length_le hl, List.drop_of_length_le hl, pieces_nil,
      ih (fun k hk => hls k (List.mem_cons_of_mem _ hk))
        fun k hk => hshort k (List.mem_cons_of_mem _ hk)]
    rfl

theorem take_filter {α : Type} {p : α → Bool} {xs : List α} {m : ℕ} (h : ∀ x ∈ xs.take m, p x = true) :
    (xs.filter p).take m = xs.take m := by
  induction xs generalizing m with
  | nil => rfl
  | cons x xs ih =>
    cases m with
    | zero => rfl
    | succ m =>
      rw [List.take_succ_cons] at h ⊢
      rw [List.filter_cons_of_pos (h x (List.mem_cons_self ..)), List.take_succ_cons,
        ih fun y hy => h y (List.mem_cons_of_mem _ hy)]

theorem take_listed {m : ℕ} (hm : m ≤ 100) (h : ∀ l ∈ (textLines s).take m, isComment l = false) :
    (textLines s).take m = (listed s).take m := by
  have hplain : ∀ l ∈ (textLines s).take m, (!isComment l) = true := fun l hl => by rw [h l hl]; rfl
  rw [listed, List.take_take, Nat.min_eq_left hm, take_filter hplain]

theorem pieces_listed {m : ℕ} (hm : m ≤ 100) (hplain : ∀ l ∈ (textLines s).take m, isComment l = false)
    (hshort : ∀ l ∈ listed s, l.length ≤ 15) : (pieces 15 s).take m = (listed s).take m := by
  have hlines := take_listed hm hplain
  have hfirst : ((textLines s).take m).flatMap (pieces 15) = (textLines s).take m := by
    apply pieces_short fun l hl => List.mem_of_mem_take hl
    intro l hl
    rw [hlines] at hl
    exact hshort l (List.mem_of_mem_take hl)
  have hsplit : pieces 15 s = (textLines s).take m ++ ((textLines s).drop m).flatMap (pieces 15) := by
    rw [pieces_textLines]
    conv_lhs => rw [← List.take_append_drop m (textLines s)]
    rw [List.flatMap_append, hfirst]
  rw [← hlines, hsplit, List.take_append, List.take_take, Nat.min_self]
  by_cases hlen : m ≤ (textLines s).length
  · rw [List.length_take, Nat.min_eq_left hlen, Nat.sub_self, List.take_zero, List.append_nil]
  · rw [List.drop_of_length_le (by omega), List.flatMap_nil, List.take_nil, List.append_nil]

/-! ### When a list agrees with its file -/

/-- The list decides by the file: it holds the listed lines and nothing else. -/
def Decides (list : IpList) (s : List UInt8) : Prop :=
  ∀ ip, isListed list ip = true ↔ cstr ip ∈ listed s

/-- A load that ends in agreement: no listed line is cut, no comment is among the lines that there
is room for, what was held is listed again, and what there is no room for was held. -/
structure CleanLoad (held : IpList) (s : List UInt8) : Prop where
  short : ∀ l ∈ listed s, l.length ≤ 15
  plain : ∀ l ∈ (textLines s).take (100 - held.entries.length), isComment l = false
  old : ∀ x ∈ held.ips, x ∈ listed s
  fits : ∀ l ∈ listed s, l ∈ held.ips ∨ l ∈ (listed s).take (100 - held.entries.length)

theorem listed_bytes {l : List UInt8} (h : l ∈ listed s) : l ∈ textLines s ∧ isComment l = false := by
  obtain ⟨hl, hplain⟩ := List.mem_filter.mp (List.mem_of_mem_take h)
  exact ⟨hl, by simpa using hplain⟩

theorem decides_iff_mem (h0 : (0 : UInt8) ∉ s) (list : IpList) :
    Decides list s ↔ ∀ x, x ∈ list.ips ↔ x ∈ listed s := by
  constructor
  · intro h x
    have hx := h x
    rw [isListed_iff] at hx
    constructor
    · intro hin
      obtain ⟨e, _, rfl⟩ := List.mem_map.mp hin
      rw [cstr_eq_self (zero_notMem_cstr e)] at hx
      exact hx.mp hin
    · intro hin
      obtain ⟨_, _, hmem⟩ := textLines_bytes (listed_bytes hin).1
      rw [cstr_eq_self fun h => h0 (hmem 0 h)] at hx
      exact hx.mpr hin
  · intro h ip
    rw [isListed_iff]
    exact h (cstr ip)

/-- In front of the first comment all lines are listed, so they are read whole, and the first piece
of the comment is stored if there is room for it. -/
theorem comment_stored {m : ℕ} (hm : m ≤ 100) (hshort : ∀ l ∈ listed s, l.length ≤ 15)
    (h : ∃ l ∈ (textLines s).take m, isComment l = true) :
    ∃ x ∈ (pieces 15 s).take m, isComment x = true := by
  obtain ⟨c, hfound⟩ := Option.isSome_iff_exists.mp (List.find?_isSome.mpr h)
  obtain ⟨hc, pre, post, hsplit, hpre⟩ := List.find?_eq_some_iff_append.mp hfound
  have hlen : pre.length < m := by
    have hle := List.length_take_le m (textLines s)
    rw [hsplit, List.length_append, List.length_cons] at hle
    omega
  have hlines : textLines s = pre ++ c :: (post ++ (textLines s).drop m) := by
    conv_lhs => rw [← List.take_append_drop m (textLines s), hsplit, List.append_assoc, List.cons_append]
  have htake : (textLines s).take pre.length = pre := by
    rw [hlines, List.take_left]
  have hlisted : pre = (listed s).take pre.length := by
    rw [← take_listed (by omega) fun l hl => by simpa using hpre l (htake ▸ hl), htake]
  have hread : pre.flatMap (pieces 15) = pre := by
    apply pieces_short
    · intro l hl
      rw [hlines]
      exact List.mem_append_left _ hl
    · intro l hl
      rw [hlisted] at hl
      exact hshort l (List.mem_of_mem_take hl)
  have hcline : c ∈ textLines s := by
    rw [hlines]
    exact List.mem_append_right _ (List.mem_cons_self ..)
  refine ⟨c.take 15, ?_, ?_⟩
  · rw [pieces_textLines, hlines, List.flatMap_append, hread, List.flatMap_cons,
      pieces_textLine hcline, List.cons_append, List.take_append]
    obtain ⟨n, hn⟩ : ∃ n, m - pre.length = n + 1 := ⟨m - pre.length - 1, by omega⟩
    rw [hn, List.take_succ_cons]
    exact List.mem_append_right _ (List.mem_cons_self ..)
  · cases c with
    | nil => exact absurd hc (by decide)
    | cons b c => exact hc

theorem decides_iff_cleanLoad (h0 : (0 : UInt8) ∉ s) (held : IpList) :
    Decides (loadIpList (some s) held) s ↔ CleanLoad held s := by
  have hroom : 100 - held.entries.length ≤ 100 := by omega
  rw [decides_iff_mem h0]
  constructor
  · intro h
    have hshort : ∀ l ∈ listed s, l.length ≤ 15 := fun l hl => IpList.length_ip ((h l).mpr hl)
    rw [ips_loadIpList h0] at h
    have hplain : ∀ l ∈ (textLines s).take (100 - held.entries.length), isComment l = false := by
      by_contra hcomment
      have hex : ∃ l ∈ (textLines s).take (100 - held.entries.length), isComment l = true := by
        simpa using hcomment
      obtain ⟨x, hx, hstart⟩ := comment_stored hroom hshort hex
      have hnot := (listed_bytes ((h x).mp (List.mem_append_right _ hx))).2
      exact absurd hstart (by simp [hnot])
    refine ⟨hshort, hplain, fun x hx => (h x).mp (List.mem_append_left _ hx), ?_⟩
    intro l hl
    rw [← pieces_listed hroom hplain hshort]
    exact List.mem_append.mp ((h l).mpr hl)
  · intro h x
    rw [ips_loadIpList h0, pieces_listed hroom h.plain h.short, List.mem_append]
    constructor
    · rintro (hx | hx)
      · exact h.old x hx
      · exact List.mem_of_mem_take hx
    · exact h.fits x

/-! ### All calls -/

theorem run_append (calls : List (Option (List UInt8) × Option (List UInt8)))
    (blacklistFile whitelistFile : Option (List UInt8)) :
    run (calls ++ [(blacklistFile, whitelistFile)]) =
      ipfilterInit (run calls) blacklistFile whitelistFile := by
  rw [run, List.foldl_append]
  rfl

/-- After any calls, the last one with two readable files, both lists decide by the last files
exactly when both loads of the last call are clean. -/
theorem filter_decides_iff (calls : List (Option (List UInt8) × Option (List UInt8)))
    {black white : List UInt8} (hblack : (0 : UInt8) ∉ black) (hwhite : (0 : UInt8) ∉ white) :
    ((∀ ip, ipfilterIsBlacklisted (run (calls ++ [(some black, some white)])) ip = true ↔
        cstr ip ∈ listed black) ∧
      ∀ ip, ipfilterIsWhitelisted (run (calls ++ [(some black, some white)])) ip = true ↔
        cstr ip ∈ listed white) ↔
      CleanLoad (run calls).blacklistIps black ∧ CleanLoad (run calls).whitelistIps white := by
  rw [run_append, ← decides_iff_cleanLoad hblack, ← decides_iff_cleanLoad hwhite]
  rfl

theorem filter_decides_iff_twoAddresses :
    (∀ ip, ipfilterIsBlacklisted (run ([] ++ [(some (text "192.168.1.100\n10.0.0.5\n"), some [])])) ip =
        true ↔ cstr ip ∈ listed (text "192.168.1.100\n10.0.0.5\n")) ∧
      ∀ ip, ipfilterIsWhitelisted (run ([] ++ [(some (text "192.168.1.100\n10.0.0.5\n"), some [])])) ip =
        true ↔ cstr ip ∈ listed [] :=
  (filter_decides_iff [] (by decide +kernel) (by decide)).mpr
    ⟨⟨by decide +kernel, by decide +kernel, by decide, by decide +kernel⟩,
      ⟨by decide, by decide, by decide, by decide⟩⟩

/-- The end of the first comment of README.md:107 is stored as an address. -/
theorem comment_blacklisted :
    ipfilterIsBlacklisted
        (run [(some (text "# Blocked IP addresses\n192.168.1.100\n"), some [])]) (text "dresses") = true ∧
      cstr (text "dresses") ∉ listed (text "# Blocked IP addresses\n192.168.1.100\n") := by
  decide +kernel

end CSimples.ClientServer
