import CSimples.Lib.TextFile
import CSimples.NetTraffic.Report

/-!
# The configuration file (NetTrafficAnalyzer/additional_functions.c)

`save_config` writes one `key=value` line for each member and `load_config` reads
such lines. The theorem says from which saved and current configurations all eight
members come back.
-/

namespace CSimples.NetTraffic
open CString Decimal TextFile

/-! ### Configurations (net_traffic_analyzer.h:66-75) -/

structure FileName where
  bytes : List UInt8
  length_eq : bytes.length = 256

structure AnalyzerConfig where
  suspiciousRequestsThreshold : UInt32
  suspiciousTimeWindow : UInt32
  enableGeoTracking : UInt8
  enablePatternAnalysis : UInt8
  enableAdaptiveThreshold : UInt8
  blacklistFile : FileName
  whitelistFile : FileName
  databaseFile : FileName

def FileName.empty : FileName := ⟨List.replicate 256 0, List.length_replicate⟩

/-- The first `current_config` (net_traffic_analyzer.c:17-23). -/
def initialConfig : AnalyzerConfig := ⟨100, 60, 1, 1, 1, .empty, .empty, .empty⟩

def FileName.set (name : FileName) (value : List UInt8) : FileName :=
  ⟨strncpy name.bytes value 255, by rw [length_strncpy value (by simp [name.length_eq]), name.length_eq]⟩

@[simp] theorem FileName.set_bytes (name : FileName) (value : List UInt8) :
    (name.set value).bytes = strncpy name.bytes value 255 := rfl

/-! ### save_config (additional_functions.c:178-192) -/

/-- The text of `"key=%u\n"` and `"key=%s\n"`. -/
def configLine (key : String) (value : List UInt8) : List UInt8 := text key ++ 61 :: (value ++ [10])

/-- The file, if it can be opened; the names are NUL-terminated. -/
def saveConfig (current : AnalyzerConfig) : List UInt8 :=
  configLine "suspicious_requests_threshold" (decimal current.suspiciousRequestsThreshold.toNat) ++
  configLine "suspicious_time_window" (decimal current.suspiciousTimeWindow.toNat) ++
  configLine "enable_geo_tracking" (decimal current.enableGeoTracking.toNat) ++
  configLine "enable_pattern_analysis" (decimal current.enablePatternAnalysis.toNat) ++
  configLine "enable_adaptive_threshold" (decimal current.enableAdaptiveThreshold.toNat) ++
  configLine "blacklist_file" (cstr current.blacklistFile.bytes) ++
  configLine "whitelist_file" (cstr current.whitelistFile.bytes) ++
  configLine "database_file" (cstr current.databaseFile.bytes)

/-! ### load_config (additional_functions.c:194-225) -/

/-- `sscanf(line, "%[^=]=%[^\n]", key, value)`: each conversion needs at least one byte. -/
def scanLine (line : List UInt8) : Option (List UInt8) × Option (List UInt8) :=
  let s := cstr line
  let key := s.takeWhile fun b => decide (b ≠ 61)
  if key = [] then (none, none)
  else
    match s.drop key.length with
    | [] => (some key, none)
    | _ :: rest =>
      let value := rest.takeWhile fun b => decide (b ≠ 10)
      (some key, if value = [] then none else some value)

/-- `atoi` of glibc: the `long` of `strtol`, converted to `int`. -/
def atoi (value : List UInt8) : ℤ := toInt (strtol value)

def setMember (key value : List UInt8) (current : AnalyzerConfig) : AnalyzerConfig :=
  if key = text "suspicious_requests_threshold" then
    { current with suspiciousRequestsThreshold := UInt32.ofInt (atoi value) }
  else if key = text "suspicious_time_window" then
    { current with suspiciousTimeWindow := UInt32.ofInt (atoi value) }
  else if key = text "enable_geo_tracking" then
    { current with enableGeoTracking := UInt8.ofInt (atoi value) }
  else if key = text "enable_pattern_analysis" then
    { current with enablePatternAnalysis := UInt8.ofInt (atoi value) }
  else if key = text "enable_adaptive_threshold" then
    { current with enableAdaptiveThreshold := UInt8.ofInt (atoi value) }
  else if key = text "blacklist_file" then
    { current with blacklistFile := current.blacklistFile.set value }
  else if key = text "whitelist_file" then
    { current with whitelistFile := current.whitelistFile.set value }
  else if key = text "database_file" then
    { current with databaseFile := current.databaseFile.set value }
  else current

/-- `none` when `sscanf` would write beyond `key[256]` or `value[768]`. -/
def loadLine (current : AnalyzerConfig) (line : List UInt8) : Option AnalyzerConfig :=
  match scanLine line with
  | (none, _) => some current
  | (some key, none) => if key.length < 256 then some current else none
  | (some key, some value) =>
    if key.length < 256 ∧ value.length < 768 then some (setMember key value current) else none

/-- `file` is `none` when it cannot be opened; `line` has 1024 bytes. -/
def loadConfig (file : Option (List UInt8)) (current : AnalyzerConfig) : Option AnalyzerConfig :=
  match file with
  | none => some current
  | some s => (reads 1023 s).foldlM loadLine current

/-! ### One line -/

variable {c prev current : AnalyzerConfig} {key : String} {value name old rest : List UInt8}

/-- No byte of the key ends one of the scanned parts. -/
def PlainKey (key : String) : Prop :=
  text key ≠ [] ∧ (text key).length < 256 ∧ 0 ∉ text key ∧ 10 ∉ text key ∧ 61 ∉ text key

theorem scanLine_configLine (hkey : PlainKey key) (h0 : (0 : UInt8) ∉ value) (h10 : (10 : UInt8) ∉ value) :
    scanLine (configLine key value) = (some (text key), if value = [] then none else some value) := by
  obtain ⟨hne, _, hkey0, _, hkey61⟩ := hkey
  have hs : cstr (configLine key value) = configLine key value := by
    apply cstr_eq_self
    simp only [configLine, List.mem_append, List.mem_cons, List.not_mem_nil, or_false, not_or]
    exact ⟨hkey0, by decide, h0, by decide⟩
  have hkey : (configLine key value).takeWhile (fun b => decide (b ≠ 61)) = text key := by
    rw [configLine, List.takeWhile_append, takeWhile_ne hkey61, if_pos rfl]
    simp
  have hvalue : (value ++ [10]).takeWhile (fun b => decide (b ≠ 10)) = value := content_newline h10
  have hdrop : (configLine key value).drop (text key).length = 61 :: (value ++ [10]) := by
    rw [configLine, List.drop_left]
  simp only [scanLine, hs, hkey, hdrop, hvalue, if_neg hne]

theorem loadLine_configLine (hkey : PlainKey key) (h0 : (0 : UInt8) ∉ value) (h10 : (10 : UInt8) ∉ value)
    (hlen : value.length < 768) :
    loadLine current (configLine key value) =
      some (if value = [] then current else setMember (text key) value current) := by
  rw [loadLine, scanLine_configLine hkey h0 h10]
  by_cases hv : value = []
  · simp [hv, hkey.2.1]
  · simp [hv, hkey.2.1, hlen]

theorem foldlM_configLine (hkey : PlainKey key) (h0 : (0 : UInt8) ∉ value) (h10 : (10 : UInt8) ∉ value)
    (hlen : value.length < 256) (current : AnalyzerConfig) (rest : List UInt8) :
    (reads 1023 (configLine key value ++ rest)).foldlM loadLine current =
      (reads 1023 rest).foldlM loadLine (if value = [] then current
        else setMember (text key) value current) := by
  have hline : (10 : UInt8) ∉ text key ++ 61 :: value := by
    simp only [List.mem_append, List.mem_cons, not_or]
    exact ⟨hkey.2.2.2.1, by decide, h10⟩
  have hroom : (text key ++ 61 :: value).length < 1023 := by
    have := hkey.2.1
    simp only [List.length_append, List.length_cons]
    omega
  have hread : reads 1023 (configLine key value ++ rest) =
      configLine key value :: reads 1023 rest := by
    simpa [configLine] using reads_line hline hroom rest
  rw [hread, List.foldlM_cons, loadLine_configLine hkey h0 h10 (by omega)]
  rfl

/-! ### All members -/

def keys : List String :=
  ["database_file", "whitelist_file", "blacklist_file", "enable_adaptive_threshold",
    "enable_pattern_analysis", "enable_geo_tracking", "suspicious_time_window",
    "suspicious_requests_threshold"]

theorem keys_nodup : (keys.map text).Nodup := by
  simp only [keys, List.map_cons, List.map_nil]
  rw [text_ofList, text_ofList, text_ofList, text_ofList, text_ofList, text_ofList, text_ofList,
    text_ofList]
  decide

theorem keys_plain {key : String} (hkey : key ∈ keys) : PlainKey key := by
  have hall : ∀ t ∈ keys.map text, t ≠ [] ∧ t.length < 256 ∧ 0 ∉ t ∧ 10 ∉ t ∧ 61 ∉ t := by
    simp only [keys, List.map_cons, List.map_nil]
    rw [text_ofList, text_ofList, text_ofList, text_ofList, text_ofList, text_ofList, text_ofList,
      text_ofList]
    decide
  exact hall _ (List.mem_map_of_mem hkey)

theorem notMem_decimal (n : ℕ) {b : UInt8} (h : isDigit b = false) : b ∉ decimal n := by
  intro hb
  rw [decimal_isDigit hb] at h
  exact absurd h (by decide)

theorem length_decimal_lt {n : ℕ} (h : n < 2 ^ 32) : (decimal n).length < 256 := by
  have hlen := decimal_length_le (n := n) (k := 10) (by decide) (by omega)
  omega

theorem atoi_decimal {n : ℕ} (h : n < 2 ^ 32) : atoi (decimal n) = toInt n := by
  rw [atoi, strtol_decimal (by omega)]

theorem ofInt_atoi32 (n : UInt32) : UInt32.ofInt (atoi (decimal n.toNat)) = n := by
  have hlt := n.toNat_lt
  rw [atoi_decimal hlt, toInt, ← UInt32.toNat_inj, UInt32.ofInt, UInt32.toNat_ofNat', Int.bmod_def]
  omega

theorem ofInt_atoi8 (n : UInt8) : UInt8.ofInt (atoi (decimal n.toNat)) = n := by
  have hlt := n.toNat_lt
  have hint : toInt n.toNat = n.toNat := by
    rw [toInt, Int.bmod_def]
    omega
  rw [atoi_decimal (by omega), hint, ← UInt8.toNat_inj, UInt8.ofInt, UInt8.toNat_ofNat']
  omega

/-- A saved name has an end inside its buffer and is one line of the file. -/
structure FileName.Plain (name : FileName) : Prop where
  terminated : (0 : UInt8) ∈ name.bytes
  line : (10 : UInt8) ∉ cstr name.bytes

def FileName.load (old name : FileName) : FileName :=
  if cstr name.bytes = [] then old else old.set (cstr name.bytes)

theorem FileName.Plain.length_lt {name : FileName} (h : name.Plain) : (cstr name.bytes).length < 256 := by
  rw [← name.length_eq]
  exact length_cstr_lt h.terminated

theorem loadConfig_saveConfig (hb : c.blacklistFile.Plain) (hw : c.whitelistFile.Plain)
    (hd : c.databaseFile.Plain) (prev : AnalyzerConfig) :
    loadConfig (some (saveConfig c)) prev = some { c with
      blacklistFile := prev.blacklistFile.load c.blacklistFile
      whitelistFile := prev.whitelistFile.load c.whitelistFile
      databaseFile := prev.databaseFile.load c.databaseFile } := by
  have hne := keys_nodup
  have hplain : ∀ key ∈ keys, PlainKey key := fun _ => keys_plain
  simp only [keys, List.forall_mem_cons] at hplain
  obtain ⟨hdatabase, hwhitelist, hblacklist, hadaptive, hpattern, hgeo, hwindow, hrequests, _⟩ := hplain
  simp only [keys, List.map_cons, List.map_nil, List.nodup_cons, List.mem_cons, List.not_mem_nil, or_false,
    not_or, not_false_eq_true, List.nodup_nil, and_true] at hne
  have hnum : ∀ {key : String} {n : ℕ}, PlainKey key → n < 2 ^ 32 → ∀ current rest,
      (reads 1023 (configLine key (decimal n) ++ rest)).foldlM loadLine current =
        (reads 1023 rest).foldlM loadLine (setMember (text key) (decimal n) current) := by
    intro key n hkey hn current rest
    rw [foldlM_configLine hkey (notMem_decimal n (by decide)) (notMem_decimal n (by decide))
      (length_decimal_lt hn), if_neg (decimal_ne_nil n)]
  have h8 : ∀ n : UInt8, n.toNat < 2 ^ 32 := fun n => by have := n.toNat_lt; omega
  have hlast : ∀ current, (reads 1023 []).foldlM loadLine current = some current := fun _ => rfl
  rw [loadConfig, saveConfig]
  simp only [List.append_assoc]
  rw [hnum hrequests (UInt32.toNat_lt _), hnum hwindow (UInt32.toNat_lt _), hnum hgeo (h8 _),
    hnum hpattern (h8 _), hnum hadaptive (h8 _),
    foldlM_configLine hblacklist (zero_notMem_cstr _) hb.line hb.length_lt,
    foldlM_configLine hwhitelist (zero_notMem_cstr _) hw.line hw.length_lt,
    ← List.append_nil (configLine "database_file" _),
    foldlM_configLine hdatabase (zero_notMem_cstr _) hd.line hd.length_lt, hlast]
  simp only [setMember, hne, reduceIte, ofInt_atoi32, ofInt_atoi8]
  simp only [FileName.load]
  split_ifs <;> rfl

/-! ### What comes back -/

structure Restored (c c' : AnalyzerConfig) : Prop where
  suspiciousRequestsThreshold : c'.suspiciousRequestsThreshold = c.suspiciousRequestsThreshold
  suspiciousTimeWindow : c'.suspiciousTimeWindow = c.suspiciousTimeWindow
  enableGeoTracking : c'.enableGeoTracking = c.enableGeoTracking
  enablePatternAnalysis : c'.enablePatternAnalysis = c.enablePatternAnalysis
  enableAdaptiveThreshold : c'.enableAdaptiveThreshold = c.enableAdaptiveThreshold
  blacklistFile : cstr c'.blacklistFile.bytes = cstr c.blacklistFile.bytes
  whitelistFile : cstr c'.whitelistFile.bytes = cstr c.whitelistFile.bytes
  databaseFile : cstr c'.databaseFile.bytes = cstr c.databaseFile.bytes

/-- An empty name is not written over another, and a name of 255 bytes gets no NUL. -/
def FileName.Replaces (name old : FileName) : Prop :=
  (cstr name.bytes ≠ [] ∨ cstr old.bytes = []) ∧
    ((cstr name.bytes).length < 255 ∨ old.bytes[255]? = some 0)

theorem cstr_set_short {src : List UInt8} (old : FileName) (h : (cstr src).length < 255) :
    cstr (old.set src).bytes = cstr src := by
  obtain ⟨k, hk⟩ : ∃ k, 255 - (cstr src).length = k + 1 := ⟨254 - (cstr src).length, by omega⟩
  rw [FileName.set_bytes, strncpy, List.take_of_length_le (by omega), hk, List.replicate_succ,
    List.append_assoc, List.cons_append]
  exact cstr_append_zero (zero_notMem_cstr src) _

theorem cstr_set_full {src : List UInt8} {old : FileName} (h : (cstr src).length = 255)
    (hold : old.bytes[255]? ≠ some 0) : (cstr (old.set src).bytes).length = 256 := by
  have hlt : 255 < old.bytes.length := by simp [old.length_eq]
  have hlast : old.bytes.drop 255 = [old.bytes[255]] := by
    rw [List.drop_eq_getElem_cons hlt, List.drop_of_length_le (by simp [old.length_eq])]
  have hb : old.bytes[255] ≠ 0 := by
    intro h0
    rw [List.getElem?_eq_getElem hlt, h0] at hold
    exact hold rfl
  have hfree : (0 : UInt8) ∉ (old.set src).bytes := by
    rw [FileName.set_bytes, strncpy, h, hlast, List.take_of_length_le (by omega)]
    simp only [Nat.sub_self, List.replicate_zero, List.append_nil, List.mem_append, List.mem_singleton,
      not_or]
    exact ⟨zero_notMem_cstr src, hb.symm⟩
  rw [cstr_eq_self hfree]
  exact (old.set src).length_eq

theorem cstr_load_iff {name : FileName} (h : name.Plain) (old : FileName) :
    cstr (old.load name).bytes = cstr name.bytes ↔ name.Replaces old := by
  have hlen := h.length_lt
  have hcstr : cstr (cstr name.bytes) = cstr name.bytes := cstr_eq_self (zero_notMem_cstr _)
  by_cases hempty : cstr name.bytes = []
  · simp [FileName.load, FileName.Replaces, hempty]
  · rw [FileName.load, if_neg hempty, FileName.Replaces]
    simp only [ne_eq, hempty, not_false_eq_true, true_or, true_and]
    rcases Nat.lt_or_ge (cstr name.bytes).length 255 with hshort | hfull
    · rw [cstr_set_short old (by rw [hcstr]; exact hshort), hcstr]
      exact iff_of_true rfl (.inl hshort)
    · have h255 : (cstr name.bytes).length = 255 := by omega
      by_cases hold : old.bytes[255]? = some 0
      · rw [FileName.set_bytes, cstr_strncpy _ hold, hcstr, List.take_of_length_le (by omega)]
        exact iff_of_true rfl (.inr hold)
      · apply iff_of_false
        · intro heq
          have h256 := cstr_set_full (by rw [hcstr]; exact h255) hold
          rw [heq] at h256
          omega
        · rintro (hlt | hlast)
          · omega
          · exact hold hlast

/-- `load_config` restores what `save_config` wrote exactly when each name replaces the one
that is current. -/
theorem load_save_iff (hb : c.blacklistFile.Plain) (hw : c.whitelistFile.Plain)
    (hd : c.databaseFile.Plain) (prev : AnalyzerConfig) :
    (∃ c', loadConfig (some (saveConfig c)) prev = some c' ∧ Restored c c') ↔
      c.blacklistFile.Replaces prev.blacklistFile ∧ c.whitelistFile.Replaces prev.whitelistFile ∧
        c.databaseFile.Replaces prev.databaseFile := by
  rw [loadConfig_saveConfig hb hw hd prev, ← cstr_load_iff hb, ← cstr_load_iff hw,
    ← cstr_load_iff hd]
  constructor
  · rintro ⟨c', hc', h⟩
    obtain rfl := Option.some.inj hc'
    exact ⟨h.blacklistFile, h.whitelistFile, h.databaseFile⟩
  · rintro ⟨h1, h2, h3⟩
    exact ⟨_, rfl, rfl, rfl, rfl, rfl, rfl, h1, h2, h3⟩

/-- The configuration of test_analyzer.c:157-189. -/
def testConfig : AnalyzerConfig :=
  ⟨20, 300, 1, 1, 1, FileName.empty.set (text "test_blacklist.txt"),
    FileName.empty.set (text "test_whitelist.txt"), FileName.empty.set (text "test_ip_stats.csv")⟩

theorem FileName.empty_plain : FileName.empty.Plain := ⟨by decide +kernel, by decide +kernel⟩

theorem load_save_iff_test :
    ∃ c', loadConfig (some (saveConfig testConfig)) initialConfig = some c' ∧ Restored testConfig c' :=
  (load_save_iff ⟨by decide +kernel, by decide +kernel⟩ ⟨by decide +kernel, by decide +kernel⟩
    ⟨by decide +kernel, by decide +kernel⟩ initialConfig).mpr
    ⟨⟨.inr rfl, .inl (by decide +kernel)⟩, ⟨.inr rfl, .inl (by decide +kernel)⟩,
      ⟨.inr rfl, .inl (by decide +kernel)⟩⟩

/-- Names saved as empty leave those that were set since. -/
theorem empty_names_kept :
    initialConfig.blacklistFile.Plain ∧ initialConfig.whitelistFile.Plain ∧
      initialConfig.databaseFile.Plain ∧
      ¬ ∃ c', loadConfig (some (saveConfig initialConfig)) testConfig = some c' ∧
        Restored initialConfig c' := by
  have hplain := FileName.empty_plain
  refine ⟨hplain, hplain, hplain, ?_⟩
  rintro ⟨c', hc', h⟩
  rw [loadConfig_saveConfig hplain hplain hplain] at hc'
  obtain rfl := Option.some.inj hc'
  have hreplaces := ((cstr_load_iff hplain _).mp h.blacklistFile).1
  have hset : cstr testConfig.blacklistFile.bytes ≠ [] := by decide +kernel
  exact hreplaces.elim (fun hne => hne rfl) hset

end CSimples.NetTraffic
