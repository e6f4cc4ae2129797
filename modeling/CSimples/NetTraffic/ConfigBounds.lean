import CSimples.NetTraffic.Config

/-!
# The buffers of load_config (NetTrafficAnalyzer/additional_functions.c:194-225)

Neither conversion of the `sscanf` has a width, so a line of the file decides how
much is stored in `key[256]` and `value[768]`. The file names are cut by `strncpy`,
which writes no terminator behind 255 bytes.
-/

namespace CSimples.NetTraffic
open CString TextFile

/-! ### One line -/

/-- What is in front of the first `=`, or the whole line. -/
def lineKey (line : List UInt8) : List UInt8 := (cstr line).takeWhile fun b => decide (b ≠ 61)

/-- What is behind the first `=`, up to the newline. -/
def lineValue (line : List UInt8) : List UInt8 :=
  ((cstr line).drop ((lineKey line).length + 1)).takeWhile fun b => decide (b ≠ 10)

/-- Both parts of the line leave room for a terminator; a line that starts with `=`
stores nothing. -/
def Fits (line : List UInt8) : Prop :=
  (lineKey line).length < 256 ∧ (lineKey line = [] ∨ (lineValue line).length < 768)

def applyLine (current : AnalyzerConfig) (line : List UInt8) : AnalyzerConfig :=
  if lineKey line = [] ∨ lineValue line = [] then current
  else setMember (lineKey line) (lineValue line) current

theorem scanLine_eq (line : List UInt8) :
    (lineKey line = [] ∧ scanLine line = (none, none)) ∨
    (lineKey line ≠ [] ∧ lineValue line = [] ∧ scanLine line = (some (lineKey line), none)) ∨
    (lineKey line ≠ [] ∧ lineValue line ≠ [] ∧
      scanLine line = (some (lineKey line), some (lineValue line))) := by
  by_cases hkey : lineKey line = []
  · exact Or.inl ⟨hkey, if_pos hkey⟩
  · right
    have hunfold : lineKey line = (cstr line).takeWhile fun b => decide (b ≠ 61) := rfl
    unfold scanLine
    simp only [← hunfold, if_neg hkey]
    split
    · rename_i hd
      have hvalue : lineValue line = [] := by rw [lineValue, ← List.drop_drop, hd]; rfl
      exact Or.inl ⟨hkey, hvalue, rfl⟩
    · rename_i b rest hd
      have hvalue : lineValue line = rest.takeWhile fun b => decide (b ≠ 10) := by
        rw [lineValue, ← List.drop_drop, hd]
        rfl
      rw [← hvalue]
      by_cases he : lineValue line = []
      · exact Or.inl ⟨hkey, he, by rw [if_pos he]⟩
      · exact Or.inr ⟨hkey, he, by rw [if_neg he]⟩

theorem loadLine_fits {line : List UInt8} (current : AnalyzerConfig) (h : Fits line) :
    loadLine current line = some (applyLine current line) := by
  obtain ⟨hk, hv⟩ := h
  obtain ⟨hkey, hs⟩ | ⟨hkey, hvalue, hs⟩ | ⟨hkey, hvalue, hs⟩ := scanLine_eq line
  · simp only [loadLine, applyLine, hs, hkey, true_or, if_true]
  · simp only [loadLine, applyLine, hs, hvalue, hk, or_true, if_true]
  · have hlen := hv.resolve_left hkey
    simp only [loadLine, applyLine, hs, hkey, hvalue, hk, hlen, or_self, and_self, if_true,
      if_false]

theorem loadLine_overflows {line : List UInt8} (current : AnalyzerConfig) (h : ¬ Fits line) :
    loadLine current line = none := by
  obtain ⟨hkey, hs⟩ | ⟨hkey, hvalue, hs⟩ | ⟨hkey, hvalue, hs⟩ := scanLine_eq line
  · exact absurd ⟨by rw [hkey]; decide, Or.inl hkey⟩ h
  · simp only [loadLine, hs]
    exact if_neg fun hk => h ⟨hk, Or.inr (by rw [hvalue]; decide)⟩
  · simp only [loadLine, hs]
    exact if_neg fun hk => h ⟨hk.1, Or.inr hk.2⟩

theorem foldlM_loadLine_iff (lines : List (List UInt8)) (current c' : AnalyzerConfig) :
    lines.foldlM loadLine current = some c' ↔
      (∀ line ∈ lines, Fits line) ∧ lines.foldl applyLine current = c' := by
  induction lines generalizing current with
  | nil => simp
  | cons line lines ih =>
    rw [List.foldlM_cons, List.forall_mem_cons, List.foldl_cons]
    by_cases hfits : Fits line
    · rw [loadLine_fits current hfits, and_iff_right hfits]
      exact ih (applyLine current line)
    · rw [loadLine_overflows current hfits]
      exact iff_of_false (by simp) fun h => hfits h.1.1

/-! ### The file names -/

inductive NameMember where
  | blacklistFile
  | whitelistFile
  | databaseFile

def NameMember.key : NameMember → String
  | .blacklistFile => "blacklist_file"
  | .whitelistFile => "whitelist_file"
  | .databaseFile => "database_file"

def NameMember.get (c : AnalyzerConfig) : NameMember → FileName
  | .blacklistFile => c.blacklistFile
  | .whitelistFile => c.whitelistFile
  | .databaseFile => c.databaseFile

/-- The values that the lines assign to a member, in order. -/
def assigned (m : NameMember) (lines : List (List UInt8)) : List (List UInt8) :=
  (lines.filter fun line => decide (lineKey line = text m.key ∧ lineValue line ≠ [])).map lineValue

theorem get_setMember (m : NameMember) (key value : List UInt8) (c : AnalyzerConfig) :
    m.get (setMember key value c) =
      if key = text m.key then (m.get c).set value else m.get c := by
  have hne := keys_nodup
  simp only [keys, List.map_cons, List.map_nil, List.nodup_cons, List.mem_cons, List.not_mem_nil,
    or_false, not_or, not_false_eq_true, List.nodup_nil, and_true] at hne
  by_cases h : key = text m.key
  · rw [if_pos h, h]
    cases m with
    | blacklistFile => simp only [NameMember.key, setMember, hne, if_false, if_true]; rfl
    | whitelistFile => simp only [NameMember.key, setMember, hne, if_false, if_true]; rfl
    | databaseFile => simp only [NameMember.key, setMember, hne, if_false, if_true]; rfl
  · rw [if_neg h]
    cases m with
    | blacklistFile =>
      have hkey : ¬ key = text "blacklist_file" := h
      simp only [setMember, hkey, if_false]
      split_ifs <;> rfl
    | whitelistFile =>
      have hkey : ¬ key = text "whitelist_file" := h
      simp only [setMember, hkey, if_false]
      split_ifs <;> rfl
    | databaseFile =>
      have hkey : ¬ key = text "database_file" := h
      simp only [setMember, hkey, if_false]
      split_ifs <;> rfl

theorem text_key_ne_nil (m : NameMember) : text m.key ≠ [] := by
  have hkey : m.key ∈ keys := by cases m <;> simp [keys, NameMember.key]
  exact (keys_plain hkey).1

theorem get_applyLine (m : NameMember) (c : AnalyzerConfig) (line : List UInt8) :
    m.get (applyLine c line) = (assigned m [line]).foldl FileName.set (m.get c) := by
  by_cases h : lineKey line = text m.key ∧ lineValue line ≠ []
  · have hval : assigned m [line] = [lineValue line] := by simp [assigned, h]
    have hkey : ¬ (lineKey line = [] ∨ lineValue line = []) := by
      rintro (hnil | hnil)
      · exact text_key_ne_nil m (h.1.symm.trans hnil)
      · exact h.2 hnil
    rw [hval, applyLine, if_neg hkey, get_setMember, if_pos h.1]
    rfl
  · have hval : assigned m [line] = [] := by
      simp only [assigned, List.filter, h, decide_false, List.map_nil]
    rw [hval, applyLine]
    split
    · rfl
    · rename_i hne
      rw [get_setMember, if_neg fun hk => h ⟨hk, fun hnil => hne (Or.inr hnil)⟩]
      rfl

theorem get_foldl_applyLine (m : NameMember) (lines : List (List UInt8)) (c : AnalyzerConfig) :
    m.get (lines.foldl applyLine c) = (assigned m lines).foldl FileName.set (m.get c) := by
  induction lines generalizing c with
  | nil => rfl
  | cons line lines ih =>
    have hsplit : assigned m (line :: lines) = assigned m [line] ++ assigned m lines := by
      rw [assigned, assigned, assigned, ← List.map_append, ← List.filter_append,
        List.singleton_append]
    rw [List.foldl_cons, ih, get_applyLine, hsplit, List.foldl_append]

/-- A terminator stays in the buffer when the last value is shorter than 255 bytes or the
byte behind them is one. -/
def KeepsEnd (old : FileName) (values : List (List UInt8)) : Prop :=
  ∀ value ∈ values.getLast?, value.length < 255 ∨ old.bytes[255]? = some 0

theorem foldl_set_last (values : List (List UInt8)) (old : FileName) :
    (values.foldl FileName.set old).bytes[255]? = old.bytes[255]? := by
  induction values generalizing old with
  | nil => rfl
  | cons value values ih =>
    rw [List.foldl_cons, ih, FileName.set_bytes, strncpy_above _ _ (le_refl 255)]

theorem set_terminated {old : FileName} {value : List UInt8} (hvalue : (0 : UInt8) ∉ value) :
    (0 : UInt8) ∈ (old.set value).bytes ↔ value.length < 255 ∨ old.bytes[255]? = some 0 := by
  have hself := cstr_eq_self hvalue
  have hlt : 255 < old.bytes.length := by rw [old.length_eq]; decide
  have hlast : old.bytes.drop 255 = [old.bytes[255]] := by
    rw [List.drop_eq_getElem_cons hlt, List.drop_of_length_le (by rw [old.length_eq])]
  rw [FileName.set_bytes, strncpy, hself, hlast, List.getElem?_eq_getElem hlt, List.mem_append,
    List.mem_append, List.mem_singleton, List.mem_replicate, Option.some_inj]
  have htake : (0 : UInt8) ∉ value.take 255 := fun h => hvalue (List.mem_of_mem_take h)
  constructor
  · rintro ((h | h) | h)
    · exact absurd h htake
    · exact Or.inl (by omega)
    · exact Or.inr h.symm
  · rintro (h | h)
    · exact Or.inl (Or.inr ⟨by omega, rfl⟩)
    · exact Or.inr h.symm

theorem foldl_set_terminated {values : List (List UInt8)} {old : FileName}
    (hvalues : ∀ value ∈ values, (0 : UInt8) ∉ value) (hold : (0 : UInt8) ∈ old.bytes) :
    (0 : UInt8) ∈ (values.foldl FileName.set old).bytes ↔ KeepsEnd old values := by
  rcases List.eq_nil_or_concat values with rfl | ⟨front, value, rfl⟩
  · exact iff_of_true hold fun value h => absurd h (by simp)
  · rw [List.concat_eq_append, List.foldl_concat, set_terminated (hvalues value (by simp)),
      foldl_set_last, KeepsEnd]
    simp

theorem zero_notMem_assigned {m : NameMember} {lines : List (List UInt8)} {value : List UInt8}
    (h : value ∈ assigned m lines) : (0 : UInt8) ∉ value := by
  obtain ⟨line, _, rfl⟩ := List.mem_map.mp h
  intro h0
  exact zero_notMem_cstr line (List.mem_of_mem_drop ((List.takeWhile_prefix _).subset h0))

/-! ### The whole file -/

/-- `load_config` stays within its buffers and leaves every terminated file name
terminated exactly when every read line fits and every name keeps its end. -/
theorem loadConfig_bounded_iff (s : List UInt8) (current : AnalyzerConfig) :
    (∃ c', loadConfig (some s) current = some c' ∧
      ∀ m : NameMember, (0 : UInt8) ∈ (m.get current).bytes → (0 : UInt8) ∈ (m.get c').bytes) ↔
    (∀ line ∈ reads 1023 s, Fits line) ∧
      ∀ m : NameMember, (0 : UInt8) ∈ (m.get current).bytes →
        KeepsEnd (m.get current) (assigned m (reads 1023 s)) := by
  have hend : ∀ m : NameMember, (0 : UInt8) ∈ (m.get current).bytes →
      ((0 : UInt8) ∈ (m.get ((reads 1023 s).foldl applyLine current)).bytes ↔
        KeepsEnd (m.get current) (assigned m (reads 1023 s))) := by
    intro m hm
    rw [get_foldl_applyLine]
    exact foldl_set_terminated (fun _ => zero_notMem_assigned) hm
  constructor
  · rintro ⟨c', hload, hkept⟩
    obtain ⟨hfits, rfl⟩ := (foldlM_loadLine_iff _ current c').mp hload
    exact ⟨hfits, fun m hm => (hend m hm).mp (hkept m hm)⟩
  · rintro ⟨hfits, hkept⟩
    exact ⟨_, (foldlM_loadLine_iff _ current _).mpr ⟨hfits, rfl⟩,
      fun m hm => (hend m hm).mpr (hkept m hm)⟩

/-- 256 bytes without an `=` do not fit in `key`. -/
theorem loadConfig_overflow :
    ¬ ∃ c', loadConfig (some (List.replicate 256 97)) initialConfig = some c' ∧
      ∀ m : NameMember, (0 : UInt8) ∈ (m.get initialConfig).bytes →
        (0 : UInt8) ∈ (m.get c').bytes := by
  rintro ⟨c', hload, _⟩
  have hread : reads 1023 (List.replicate 256 97) = [List.replicate 256 97] := by decide +kernel
  have hfits := ((foldlM_loadLine_iff _ initialConfig c').mp hload).1
  rw [hread] at hfits
  have hkey := (hfits _ (List.mem_singleton_self _)).1
  exact absurd hkey (by decide +kernel)

end CSimples.NetTraffic
