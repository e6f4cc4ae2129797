import CSimples.ClientServer.IpStats
import CSimples.Lib.Binary64
import CSimples.Lib.Keyed

/-!
# The statistics file (c-client-server-app/src/server.c:125-204)

`save_ip_stats` writes the list as a JSON array of objects, `load_ip_stats` reads it
back. The JSON library is a parameter: it prints and parses documents whose
numbers are doubles. All numbers that are written are integers.
-/

namespace CSimples.ClientServer
open CString Binary64 Keyed

inductive JsonValue where
  | number (valuedouble : ℤ)
  | string (valuestring : List UInt8)
  deriving DecidableEq

abbrev JsonItem := List (String × JsonValue)

/-- `cJSON_Print` and `cJSON_Parse` for arrays of objects. -/
structure CJson where
  print : List JsonItem → List UInt8
  parse : List UInt8 → Option (List JsonItem)

/-! ### Writing -/

def saveItem (e : IpStat) : JsonItem :=
  [("ip", .string e.ip),
    ("first_seen", .number (ofInt e.firstSeen)),
    ("last_seen", .number (ofInt e.lastSeen)),
    ("total_bytes", .number (ofNat e.totalBytes.toNat)),
    ("daily_bytes", .number (ofNat e.dailyBytes.toNat)),
    ("weekly_bytes", .number (ofNat e.weeklyBytes.toNat)),
    ("monthly_bytes", .number (ofNat e.monthlyBytes.toNat)),
    ("total_connections", .number (ofInt e.totalConnections.toInt)),
    ("daily_connections", .number (ofInt e.dailyConnections.toInt)),
    ("weekly_connections", .number (ofInt e.weeklyConnections.toInt)),
    ("monthly_connections", .number (ofInt e.monthlyConnections.toInt))]

def statsFile (json : CJson) (entries : List IpStat) : List UInt8 :=
  json.print (entries.map saveItem)

/-! ### Reading -/

def lower (b : UInt8) : UInt8 := if 65 ≤ b ∧ b ≤ 90 then b + 32 else b

def lowered (m : String × JsonValue) : List UInt8 := (text m.1).map lower

/-- `cJSON_GetObjectItem` ignores case. -/
def getObjectItem (item : JsonItem) (key : String) : Option JsonValue :=
  (lookup lowered ((text key).map lower) item).map Prod.snd

def JsonValue.valuedouble : JsonValue → ℤ
  | .number d => d
  | .string _ => 0

/-- A number as an `int`, with saturation. -/
def JsonValue.valueint (v : JsonValue) : Int32 :=
  .ofInt (max (-2 ^ 31) (min (2 ^ 31 - 1) v.valuedouble))

def JsonValue.valuestring : JsonValue → Option (List UInt8)
  | .number _ => none
  | .string s => some s

/-- The conversions of a double are undefined out of range. -/
def toTime (d : ℤ) : Option ℤ := if -2 ^ 63 ≤ d ∧ d < 2 ^ 63 then some d else none

def toUint64 (d : ℤ) : Option UInt64 := if 0 ≤ d ∧ d < 2 ^ 64 then some (.ofNat d.toNat) else none

/-- `none` where a member is missing or a number is out of range. -/
def loadItem (item : JsonItem) : Option IpStat := do
  let ip ← (← getObjectItem item "ip").valuestring
  let firstSeen ← toTime (← getObjectItem item "first_seen").valuedouble
  let lastSeen ← toTime (← getObjectItem item "last_seen").valuedouble
  let totalBytes ← toUint64 (← getObjectItem item "total_bytes").valuedouble
  let dailyBytes ← toUint64 (← getObjectItem item "daily_bytes").valuedouble
  let weeklyBytes ← toUint64 (← getObjectItem item "weekly_bytes").valuedouble
  let monthlyBytes ← toUint64 (← getObjectItem item "monthly_bytes").valuedouble
  let totalConnections := (← getObjectItem item "total_connections").valueint
  let dailyConnections := (← getObjectItem item "daily_connections").valueint
  let weeklyConnections := (← getObjectItem item "weekly_connections").valueint
  let monthlyConnections := (← getObjectItem item "monthly_connections").valueint
  some ⟨(cstr ip).take 45, firstSeen, lastSeen, totalBytes, dailyBytes, weeklyBytes, monthlyBytes,
    totalConnections, dailyConnections, weeklyConnections, monthlyConnections⟩

/-- `none` is undefined behaviour, `some none` a file that cannot be parsed. -/
def readStats (json : CJson) (file : List UInt8) : Option (Option (List IpStat)) :=
  match json.parse file with
  | none => some none
  | some items => (items.mapM loadItem).map some

/-- The list is saved, and loaded by a process that has none. -/
def restart (json : CJson) (reentrant : Bool) (st : Stats) : Option Stats := do
  let saved ← saveIpStats reentrant st
  let read ← readStats json (statsFile json saved.2)
  loadIpStats reentrant read startStats

/-! ### One entry -/

theorem getObjectItem_of_mem {item : JsonItem} (hd : Distinct lowered item) {key : String}
    {v : JsonValue} (hm : (key, v) ∈ item) : getObjectItem item key = some v := by
  have hfind := hd.lookup hm
  rw [lowered] at hfind
  rw [getObjectItem, hfind, Option.map_some]

theorem saveItem_distinct (e : IpStat) : Distinct lowered (saveItem e) := by
  simp only [Distinct, saveItem, lowered, List.map_cons, List.map_nil]
  rw [text_ofList, text_ofList, text_ofList, text_ofList, text_ofList, text_ofList, text_ofList,
    text_ofList, text_ofList, text_ofList, text_ofList]
  decide

theorem toUint64_ofNat (n : UInt64) : toUint64 (ofNat n.toNat) = some n ↔ Exact n.toNat := by
  have hlt := n.toNat_lt
  constructor
  · intro h
    obtain ⟨hrange, hn⟩ := Option.ite_none_right_eq_some.mp h
    have hsome : UInt64.ofNat (ofNat n.toNat) = n := Option.some_inj.mp hn
    have hnat := congrArg UInt64.toNat hsome
    rw [UInt64.toNat_ofNat', Nat.mod_eq_of_lt (by omega)] at hnat
    exact ofNat_eq_iff.mp hnat
  · intro h
    rw [ofNat_eq_iff.mpr h, toUint64, if_pos (by omega)]
    simp

theorem toTime_ofInt {t : ℤ} (h : t.natAbs ≤ 2 ^ 53) : toTime (ofInt t) = some t := by
  rw [ofInt_eq_self h, toTime, if_pos (by omega)]

theorem valueint_ofInt (n : Int32) : (JsonValue.number (ofInt n.toInt)).valueint = n := by
  have hlow := n.le_toInt
  have hhigh := n.toInt_lt
  have hrange : max (-2 ^ 31) (min (2 ^ 31 - 1) n.toInt) = n.toInt := by omega
  rw [JsonValue.valueint, JsonValue.valuedouble, ofInt_eq_self (by omega), hrange, Int32.ofInt_toInt]

/-- What the members of an entry hold as C data: a string in 46 bytes, and times whose doubles
are exact. -/
structure IpStat.Storable (e : IpStat) : Prop where
  ip_length : e.ip.length ≤ 45
  ip_string : (0 : UInt8) ∉ e.ip
  firstSeen : e.firstSeen.natAbs ≤ 2 ^ 53
  lastSeen : e.lastSeen.natAbs ≤ 2 ^ 53

structure IpStat.Exact (e : IpStat) : Prop where
  totalBytes : Binary64.Exact e.totalBytes.toNat
  dailyBytes : Binary64.Exact e.dailyBytes.toNat
  weeklyBytes : Binary64.Exact e.weeklyBytes.toNat
  monthlyBytes : Binary64.Exact e.monthlyBytes.toNat

theorem loadItem_counters {e : IpStat} (h : e.Storable) :
    loadItem (saveItem e) = (do
      let totalBytes ← toUint64 (ofNat e.totalBytes.toNat)
      let dailyBytes ← toUint64 (ofNat e.dailyBytes.toNat)
      let weeklyBytes ← toUint64 (ofNat e.weeklyBytes.toNat)
      let monthlyBytes ← toUint64 (ofNat e.monthlyBytes.toNat)
      some { e with
        totalBytes := totalBytes
        dailyBytes := dailyBytes
        weeklyBytes := weeklyBytes
        monthlyBytes := monthlyBytes }) := by
  have hget (key : String) (v : JsonValue) (hm : (key, v) ∈ saveItem e) :
      getObjectItem (saveItem e) key = some v := getObjectItem_of_mem (saveItem_distinct e) hm
  have hip : (cstr e.ip).take 45 = e.ip := by
    rw [cstr_eq_self h.ip_string, List.take_of_length_le h.ip_length]
  have hbind {α β : Type} (a : α) (f : α → Option β) : (some a >>= f) = f a := rfl
  have hstring : (JsonValue.string e.ip).valuestring = some e.ip := rfl
  have hdouble (d : ℤ) : (JsonValue.number d).valuedouble = d := rfl
  unfold loadItem
  rw [hget "ip" (.string e.ip) (by simp [saveItem]),
    hget "first_seen" (.number (ofInt e.firstSeen)) (by simp [saveItem]),
    hget "last_seen" (.number (ofInt e.lastSeen)) (by simp [saveItem]),
    hget "total_bytes" (.number (ofNat e.totalBytes.toNat)) (by simp [saveItem]),
    hget "daily_bytes" (.number (ofNat e.dailyBytes.toNat)) (by simp [saveItem]),
    hget "weekly_bytes" (.number (ofNat e.weeklyBytes.toNat)) (by simp [saveItem]),
    hget "monthly_bytes" (.number (ofNat e.monthlyBytes.toNat)) (by simp [saveItem]),
    hget "total_connections" (.number (ofInt e.totalConnections.toInt)) (by simp [saveItem]),
    hget "daily_connections" (.number (ofInt e.dailyConnections.toInt)) (by simp [saveItem]),
    hget "weekly_connections" (.number (ofInt e.weeklyConnections.toInt)) (by simp [saveItem]),
    hget "monthly_connections" (.number (ofInt e.monthlyConnections.toInt)) (by simp [saveItem])]
  simp only [hbind, hstring, hdouble, toTime_ofInt h.firstSeen, toTime_ofInt h.lastSeen,
    valueint_ofInt, hip]

theorem loadItem_saveItem {e : IpStat} (h : e.Storable) :
    loadItem (saveItem e) = some e ↔ e.Exact := by
  rw [loadItem_counters h]
  constructor
  · intro hload
    obtain ⟨total, htotal, hload⟩ := Option.bind_eq_some_iff.mp hload
    obtain ⟨daily, hdaily, hload⟩ := Option.bind_eq_some_iff.mp hload
    obtain ⟨weekly, hweekly, hload⟩ := Option.bind_eq_some_iff.mp hload
    obtain ⟨monthly, hmonthly, hload⟩ := Option.bind_eq_some_iff.mp hload
    have he := Option.some_inj.mp hload
    obtain rfl := congrArg IpStat.totalBytes he
    obtain rfl := congrArg IpStat.dailyBytes he
    obtain rfl := congrArg IpStat.weeklyBytes he
    obtain rfl := congrArg IpStat.monthlyBytes he
    exact ⟨(toUint64_ofNat _).mp htotal, (toUint64_ofNat _).mp hdaily, (toUint64_ofNat _).mp hweekly,
      (toUint64_ofNat _).mp hmonthly⟩
  · intro ⟨htotal, hdaily, hweekly, hmonthly⟩
    rw [(toUint64_ofNat _).mpr htotal, (toUint64_ofNat _).mpr hdaily,
      (toUint64_ofNat _).mpr hweekly, (toUint64_ofNat _).mpr hmonthly]
    rfl

/-! ### The whole list -/

theorem mapM_loadItem {entries : List IpStat} :
    (entries.map saveItem).mapM loadItem = some entries ↔
      ∀ e ∈ entries, loadItem (saveItem e) = some e := by
  induction entries with
  | nil => exact iff_of_true rfl fun e he => absurd he List.not_mem_nil
  | cons e entries ih =>
    rw [List.map_cons, List.mapM_cons, List.forall_mem_cons]
    constructor
    · intro h
      obtain ⟨first, hfirst, h⟩ := Option.bind_eq_some_iff.mp h
      obtain ⟨rest, hrest, h⟩ := Option.bind_eq_some_iff.mp h
      obtain ⟨rfl, rfl⟩ := List.cons_eq_cons.mp (Option.some_inj.mp h)
      exact ⟨hfirst, ih.mp hrest⟩
    · rintro ⟨hfirst, hrest⟩
      rw [hfirst, ih.mpr hrest]
      rfl

theorem restart_eq {json : CJson} {st : Stats} (hfree : st.statsMutex = 0)
    (hjson : json.parse (statsFile json st.ipStatsList) = some (st.ipStatsList.map saveItem))
    (reentrant : Bool) : restart json reentrant st =
      ((st.ipStatsList.map saveItem).mapM loadItem).map fun entries => ⟨entries, 0, 0, 0⟩ := by
  have hsave : saveIpStats reentrant st = some (st, st.ipStatsList) := by
    cases st
    cases hfree
    simp [saveIpStats, lock, unlock]
  have hload (entries : List IpStat) :
      loadIpStats reentrant (some entries) startStats = some ⟨entries, 0, 0, 0⟩ := by
    simp [loadIpStats, lock, unlock, startStats]
  have hread : readStats json (statsFile json st.ipStatsList) =
      ((st.ipStatsList.map saveItem).mapM loadItem).map some := by
    rw [readStats, hjson]
  rw [restart, hsave, Option.bind_eq_bind, Option.bind_some, hread]
  cases (st.ipStatsList.map saveItem).mapM loadItem with
  | none => rfl
  | some entries => exact hload entries

theorem restored_iff_loaded {json : CJson} {st : Stats} (hfree : st.statsMutex = 0)
    (hjson : json.parse (statsFile json st.ipStatsList) = some (st.ipStatsList.map saveItem))
    (reentrant : Bool) : restart json reentrant st = some ⟨st.ipStatsList, 0, 0, 0⟩ ↔
      ∀ e ∈ st.ipStatsList, loadItem (saveItem e) = some e := by
  rw [restart_eq hfree hjson, Option.map_eq_some_iff, ← mapM_loadItem]
  constructor
  · rintro ⟨entries, hentries, heq⟩
    have hsame : entries = st.ipStatsList := congrArg Stats.ipStatsList heq
    rw [hentries, hsame]
  · exact fun h => ⟨_, h, rfl⟩

/-- The list comes back exactly when its byte counters are values of doubles. -/
theorem stats_restored_iff {json : CJson} {st : Stats} (hfree : st.statsMutex = 0)
    (hjson : json.parse (statsFile json st.ipStatsList) = some (st.ipStatsList.map saveItem))
    (hstorable : ∀ e ∈ st.ipStatsList, e.Storable) (reentrant : Bool) :
    restart json reentrant st = some ⟨st.ipStatsList, 0, 0, 0⟩ ↔
      ∀ e ∈ st.ipStatsList, e.Exact := by
  rw [restored_iff_loaded hfree hjson]
  exact forall₂_congr fun e he => loadItem_saveItem (hstorable e he)

def oneDocument (document : List JsonItem) (file : List UInt8) : CJson :=
  ⟨fun _ => file, fun s => if s = file then some document else none⟩

theorem oneDocument_parse (document other : List JsonItem) (file : List UInt8) :
    (oneDocument document file).parse ((oneDocument document file).print other) = some document :=
  if_pos rfl

def oneVisitor (bytes : UInt64) : Stats :=
  ⟨[⟨text "10.0.0.1", 1700000000, 1700000300, bytes, 5, 5, 5, 1, 1, 1, 1⟩], 0, 1700000000, 0⟩

/-- `bytes` is printed as the double next to it. -/
def oneVisitorFile (bytes : String) : List UInt8 :=
  text ("[\x7b\n\t\t\"ip\":\t\"10.0.0.1\",\n\t\t\"first_seen\":\t1700000000,\n" ++
    "\t\t\"last_seen\":\t1700000300,\n\t\t\"total_bytes\":\t" ++ bytes ++ ",\n" ++
    "\t\t\"daily_bytes\":\t5,\n\t\t\"weekly_bytes\":\t5,\n\t\t\"monthly_bytes\":\t5,\n" ++
    "\t\t\"total_connections\":\t1,\n\t\t\"daily_connections\":\t1,\n" ++
    "\t\t\"weekly_connections\":\t1,\n\t\t\"monthly_connections\":\t1\n\t\x7d]")

def oneVisitorJson (bytes : UInt64) (printed : String) : CJson :=
  oneDocument ((oneVisitor bytes).ipStatsList.map saveItem) (oneVisitorFile printed)

theorem oneVisitor_parsed (bytes : UInt64) (printed : String) :
    (oneVisitorJson bytes printed).parse
        (statsFile (oneVisitorJson bytes printed) (oneVisitor bytes).ipStatsList) =
      some ((oneVisitor bytes).ipStatsList.map saveItem) := oneDocument_parse _ _ _

theorem oneVisitor_storable (bytes : UInt64) :
    ∀ e ∈ (oneVisitor bytes).ipStatsList, e.Storable := by
  intro e he
  obtain rfl := List.mem_singleton.mp he
  exact ⟨(by decide : (text "10.0.0.1").length ≤ 45), (by decide : (0 : UInt8) ∉ text "10.0.0.1"),
    (by decide : (1700000000 : ℤ).natAbs ≤ 2 ^ 53), (by decide : (1700000300 : ℤ).natAbs ≤ 2 ^ 53)⟩

def twoVisitors : Stats :=
  ⟨(oneVisitor 5).ipStatsList ++
    [⟨text "10.0.0.2", 1700000100, 1700000200, 7, 7, 7, 7, 0, 0, 0, 0⟩], 0, 1700000000, 0⟩

def twoVisitorsJson : CJson :=
  oneDocument (twoVisitors.ipStatsList.map saveItem)
    ((oneVisitorFile "5").dropLast ++ text (", \x7b\n\t\t\"ip\":\t\"10.0.0.2\",\n" ++
      "\t\t\"first_seen\":\t1700000100,\n\t\t\"last_seen\":\t1700000200,\n" ++
      "\t\t\"total_bytes\":\t7,\n\t\t\"daily_bytes\":\t7,\n\t\t\"weekly_bytes\":\t7,\n" ++
      "\t\t\"monthly_bytes\":\t7,\n\t\t\"total_connections\":\t0,\n" ++
      "\t\t\"daily_connections\":\t0,\n\t\t\"weekly_connections\":\t0,\n" ++
      "\t\t\"monthly_connections\":\t0\n\t\x7d]"))

theorem twoVisitors_storable : ∀ e ∈ twoVisitors.ipStatsList, e.Storable := by
  refine List.forall_mem_append.mpr ⟨oneVisitor_storable 5, fun e he => ?_⟩
  obtain rfl := List.mem_singleton.mp he
  exact ⟨(by decide : (text "10.0.0.2").length ≤ 45), (by decide : (0 : UInt8) ∉ text "10.0.0.2"),
    (by decide : (1700000100 : ℤ).natAbs ≤ 2 ^ 53), (by decide : (1700000200 : ℤ).natAbs ≤ 2 ^ 53)⟩

theorem stats_restored_iff_twoVisitors :
    restart twoVisitorsJson false twoVisitors = some ⟨twoVisitors.ipStatsList, 0, 0, 0⟩ ↔
      ∀ e ∈ twoVisitors.ipStatsList, e.Exact :=
  stats_restored_iff rfl (oneDocument_parse _ _ _) twoVisitors_storable false

/-- 2^53 + 1 bytes come back as 2^53. -/
theorem stats_not_restored :
    restart (oneVisitorJson 9007199254740993 "9007199254740992") false
        (oneVisitor 9007199254740993) ≠
      some ⟨(oneVisitor 9007199254740993).ipStatsList, 0, 0, 0⟩ := by
  rw [ne_eq, restored_iff_loaded rfl (oneVisitor_parsed _ _)]
  intro h
  have hload := h _ (List.mem_singleton_self _)
  have hexact := (loadItem_saveItem (oneVisitor_storable _ _ (List.mem_singleton_self _))).mp hload
  exact absurd hexact.totalBytes (by decide)

end CSimples.ClientServer
