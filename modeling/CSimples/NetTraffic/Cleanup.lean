import CSimples.Lib.Block
import CSimples.NetTraffic.DailyReport

/-!
# Cleaning up old records (NetTrafficAnalyzer/additional_functions.c:1-27)

`cleanup_old_records` closes up the two global arrays in place. A report on days
after the cutoff does not see the difference.
-/

namespace CSimples.NetTraffic
open Block Calendar CString

/-- The global arrays and their counts; what is behind the counts is left over. -/
structure Analyzer where
  connections : List ConnectionRecord
  connectionCount : ℕ
  ipStats : List IPStats
  ipStatsCount : ℕ
  connectionsFit : connectionCount ≤ connections.length
  ipStatsFit : ipStatsCount ≤ ipStats.length

def Analyzer.liveConnections (a : Analyzer) : List ConnectionRecord :=
  a.connections.take a.connectionCount

def Analyzer.liveStats (a : Analyzer) : List IPStats := a.ipStats.take a.ipStatsCount

def recent (cutoffTime : ℤ) (c : ConnectionRecord) : Bool := decide (c.timestamp > cutoffTime)

def seenRecently (cutoffTime : ℤ) (s : IPStats) : Bool := decide (s.lastSeen > cutoffTime)

theorem compact_fits {α : Type} (keep : α → Bool) {l : List α} {count : ℕ} (h : count ≤ l.length) :
    (compact keep l count).2 ≤ (compact keep l count).1.length := by
  obtain ⟨hlen, hle, _, _⟩ := compact_loop keep h
  omega

def cleanupOldRecords (a : Analyzer) (cutoffTime : ℤ) : Analyzer :=
  let connections := compact (recent cutoffTime) a.connections a.connectionCount
  let ipStats := compact (seenRecently cutoffTime) a.ipStats a.ipStatsCount
  ⟨connections.1, connections.2, ipStats.1, ipStats.2, compact_fits _ a.connectionsFit,
    compact_fits _ a.ipStatsFit⟩

def Analyzer.dailyReport (a : Analyzer) (z : Zone) (refTs : ℤ) : Option (List TrafficReport) :=
  generateDailyReport z a.liveConnections a.liveStats refTs true

/-! ### What is kept -/

theorem cleanup_connections (a : Analyzer) (cutoffTime : ℤ) :
    (cleanupOldRecords a cutoffTime).liveConnections =
      a.liveConnections.filter (recent cutoffTime) := by
  obtain ⟨_, _, _, htake⟩ := compact_loop (recent cutoffTime) a.connectionsFit
  exact htake

theorem cleanup_stats (a : Analyzer) (cutoffTime : ℤ) :
    (cleanupOldRecords a cutoffTime).liveStats = a.liveStats.filter (seenRecently cutoffTime) := by
  obtain ⟨_, _, _, htake⟩ := compact_loop (seenRecently cutoffTime) a.ipStatsFit
  exact htake

/-! ### What the report sees -/

/-- Every entry of an address was last seen no earlier than the address connected. -/
def SeenLast (conns : List ConnectionRecord) (ipStats : List IPStats) : Prop :=
  ∀ s ∈ ipStats, ∀ c ∈ conns, cstr s.ip = cstr c.ip → c.timestamp ≤ s.lastSeen

variable {z : Zone} {conns : List ConnectionRecord} {ipStats : List IPStats}
  {c : ConnectionRecord} {day cutoffTime refTs : ℤ}

theorem onDay_recent (h : ∀ c ∈ conns, localDay z c.timestamp = day → c.timestamp > cutoffTime) :
    onDay z day (conns.filter (recent cutoffTime)) = onDay z day conns := by
  unfold onDay
  rw [List.filter_filter]
  apply List.filter_congr
  intro c hc
  by_cases hday : localDay z c.timestamp = day
  · simp [hday, recent, h c hc hday]
  · simp [hday]

/-- An entry that is removed is no entry of an address that connected after the cutoff. -/
theorem flagged_recent (hseen : SeenLast conns ipStats) (hc : c ∈ conns)
    (hlate : c.timestamp > cutoffTime) :
    flagged (ipStats.filter (seenRecently cutoffTime)) (cstr c.ip) = flagged ipStats (cstr c.ip) := by
  rw [Bool.eq_iff_iff]
  simp only [flagged, List.any_eq_true, List.mem_filter, seenRecently, decide_eq_true_eq]
  constructor
  · rintro ⟨s, ⟨hs, _⟩, hflag⟩
    exact ⟨s, hs, hflag⟩
  · rintro ⟨s, hs, hflag⟩
    have hle := hseen s hs c hc hflag.1
    exact ⟨s, ⟨hs, by omega⟩, hflag⟩

theorem dailyRow_recent (hseen : SeenLast conns ipStats)
    (h : ∀ c ∈ conns, localDay z c.timestamp = day → c.timestamp > cutoffTime) :
    dailyRow z (ipStats.filter (seenRecently cutoffTime)) (conns.filter (recent cutoffTime)) day =
      dailyRow z ipStats conns day := by
  have hflags : ((ipsOf (onDay z day conns)).filter fun ip =>
      flagged (ipStats.filter (seenRecently cutoffTime)) ip = true) =
        (ipsOf (onDay z day conns)).filter fun ip => flagged ipStats ip = true := by
    apply Finset.filter_congr
    intro ip hip
    obtain ⟨c, hc, rfl⟩ := List.mem_map.mp (List.mem_toFinset.mp hip)
    obtain ⟨hc, hday⟩ := List.mem_filter.mp hc
    rw [flagged_recent hseen hc (h c hc (of_decide_eq_true hday))]
  rw [dailyRow, dailyRow, onDay_recent h, hflags]

theorem reported_late (hz : FixedOffset z) (hcutoff : cutoffTime < dayStart z refTs - 29 * 86400)
    {i : ℕ} (hi : i < 30) (hday : localDay z c.timestamp = localDay z refTs - i) :
    c.timestamp > cutoffTime := by
  have hsame := hz c.timestamp refTs
  rw [dayStart_eq] at hcutoff
  have hlocal : localDay z c.timestamp = (c.timestamp + z.offset c.timestamp) / 86400 := rfl
  omega

/-- The clean-up keeps exactly the recent records in their order, and the report on days
after the cutoff. -/
theorem cleanup_keeps_report (a : Analyzer) (cutoffTime : ℤ) :
    (cleanupOldRecords a cutoffTime).liveConnections =
        (a.liveConnections.filter fun c => decide (c.timestamp > cutoffTime)) ∧
      (cleanupOldRecords a cutoffTime).liveStats =
        (a.liveStats.filter fun s => decide (s.lastSeen > cutoffTime)) ∧
      ∀ z refTs, FixedOffset z → |refTs| < 2 ^ 50 → Near refTs a.liveConnections →
        cutoffTime < dayStart z refTs - 29 * 86400 → SeenLast a.liveConnections a.liveStats →
        (cleanupOldRecords a cutoffTime).dailyReport z refTs = a.dailyReport z refTs := by
  refine ⟨cleanup_connections a cutoffTime, cleanup_stats a cutoffTime, ?_⟩
  intro z refTs hz href hnear hcutoff hseen
  have hnear' : Near refTs (a.liveConnections.filter (recent cutoffTime)) :=
    fun c hc => hnear c (List.mem_of_mem_filter hc)
  rw [Analyzer.dailyReport, Analyzer.dailyReport, cleanup_connections, cleanup_stats,
    report_eq hz href hnear, report_eq hz href hnear', dailyRows, dailyRows, Option.some.injEq]
  apply List.map_congr_left
  intro i hi
  exact dailyRow_recent hseen fun c _ hday => reported_late hz hcutoff (List.mem_range.mp hi) hday

/-- Two days of connections and an older one, with an entry of its own. -/
def withOldRecords : Analyzer :=
  ⟨⟨address 4, -3000000, 1⟩ :: twoDays, 6,
    [⟨address 4, -3000000, 1⟩, ⟨address 2, 90000, 1⟩], 2, by decide, by decide⟩

theorem cleanup_keeps_report_twoDays :
    (cleanupOldRecords withOldRecords (-2500000)).liveConnections.length = 5 ∧
      (cleanupOldRecords withOldRecords (-2500000)).dailyReport utc 90000 =
        withOldRecords.dailyReport utc 90000 := by
  refine ⟨by decide, (cleanup_keeps_report withOldRecords (-2500000)).2.2 utc 90000 utc_fixed
    (by decide) ?_ (by decide) ?_⟩
  · unfold Near
    decide
  · unfold SeenLast
    decide +kernel

end CSimples.NetTraffic
