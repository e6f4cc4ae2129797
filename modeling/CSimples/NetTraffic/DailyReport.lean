import CSimples.NetTraffic.Report
import Mathlib.Data.Finset.Card
import Mathlib.Data.List.Perm.Basic
import Mathlib.Algebra.BigOperators.Group.List.Basic

/-!
# What the daily report counts (net_traffic_analyzer.c:52-94)

In a zone with one offset the days all start at the same local time, and the
30 rows are those of 30 sets of connections, one for each date.
-/

namespace CSimples.NetTraffic
open Calendar CString Decimal

/-! ### The rows, from sets of connections -/

def label (d : Date) : List UInt8 := dateText d.year d.month d.day

def onDay (z : Zone) (day : ℤ) (conns : List ConnectionRecord) : List ConnectionRecord :=
  conns.filter fun c => decide (localDay z c.timestamp = day)

def ipsOf (conns : List ConnectionRecord) : Finset (List UInt8) :=
  (conns.map fun c => cstr c.ip).toFinset

/-- Some entry for the address is marked suspicious. -/
def flagged (ipStats : List IPStats) (ip : List UInt8) : Bool :=
  ipStats.any fun s => decide (cstr s.ip = ip ∧ s.isSuspicious ≠ 0)

def dailyRow (z : Zone) (ipStats : List IPStats) (conns : List ConnectionRecord) (day : ℤ) :
    TrafficReport :=
  ⟨label (ofDay day),
    UInt64.ofNat ((onDay z day conns).map fun c => c.bytes.toNat).sum,
    UInt32.ofNat (onDay z day conns).length,
    UInt32.ofNat (ipsOf (onDay z day conns)).card,
    UInt32.ofNat ((ipsOf (onDay z day conns)).filter fun ip => flagged ipStats ip = true).card⟩

def dailyRows (z : Zone) (ipStats : List IPStats) (conns : List ConnectionRecord) (today : ℤ) :
    List TrafficReport :=
  (List.range 30).map fun i : ℕ => dailyRow z ipStats conns (today - i)

variable {z : Zone} {ipStats : List IPStats} {conns prev : List ConnectionRecord}
  {c : ConnectionRecord} {day today refTs t u : ℤ}

theorem ipsOf_append (conns : List ConnectionRecord) (c : ConnectionRecord) :
    ipsOf (conns ++ [c]) = insert (cstr c.ip) (ipsOf conns) := by
  ext ip
  simp [ipsOf, eq_comm]

theorem onDay_append_same (h : localDay z c.timestamp = day) :
    onDay z day (prev ++ [c]) = onDay z day prev ++ [c] := by
  simp [onDay, h]

theorem onDay_append_other (h : localDay z c.timestamp ≠ day) :
    onDay z day (prev ++ [c]) = onDay z day prev := by
  simp [onDay, h]

theorem dailyRow_append_other (h : localDay z c.timestamp ≠ day) :
    dailyRow z ipStats (prev ++ [c]) day = dailyRow z ipStats prev day := by
  simp only [dailyRow, onDay_append_other h]

/-! ### One connection -/

def FixedOffset (z : Zone) : Prop := ∀ t u, z.offset t = z.offset u

theorem dayStart_inj (hz : FixedOffset z) :
    dayStart z t = dayStart z u ↔ localDay z t = localDay z u := by
  rw [dayStart_eq, dayStart_eq, hz t u]
  omega

theorem isUnique_iff (hz : FixedOffset z) (prev : List ConnectionRecord) (c : ConnectionRecord) :
    isUnique z prev c = true ↔ cstr c.ip ∉ ipsOf (onDay z (localDay z c.timestamp) prev) := by
  simp only [isUnique, Bool.not_eq_true', List.any_eq_false, decide_eq_true_eq, dayStart_inj hz,
    ipsOf, onDay, List.mem_toFinset, List.mem_map, List.mem_filter]
  constructor
  · rintro h ⟨p, ⟨hp, hday⟩, hip⟩
    exact h p hp ⟨hday, hip⟩
  · rintro h p hp ⟨hday, hip⟩
    exact h ⟨p, ⟨hp, hday⟩, hip⟩

theorem countIn_dailyRow (hz : FixedOffset z) (hday : localDay z c.timestamp = day) :
    countIn z ipStats prev c (dailyRow z ipStats prev day) =
      dailyRow z ipStats (prev ++ [c]) day := by
  have hunique := isUnique_iff hz prev c
  rw [hday] at hunique
  have hknown : knownSuspicious ipStats c = flagged ipStats (cstr c.ip) := rfl
  simp only [countIn, dailyRow, onDay_append_same hday, ipsOf_append, List.map_append,
    List.map_cons, List.map_nil, List.sum_append, List.sum_singleton, List.length_append,
    List.length_singleton, UInt64.ofNat_add, UInt64.ofNat_toNat, UInt32.ofNat_add, hknown]
  by_cases hin : cstr c.ip ∈ ipsOf (onDay z day prev)
  · have hold : ¬ isUnique z prev c = true := fun h => hunique.mp h hin
    simp [hold, Finset.insert_eq_of_mem hin]
  · have hnew : isUnique z prev c = true := hunique.mpr hin
    have hcard := Finset.card_insert_of_notMem hin
    by_cases hflag : flagged ipStats (cstr c.ip) = true
    · have hout : cstr c.ip ∉ (ipsOf (onDay z day prev)).filter fun ip => flagged ipStats ip = true :=
        fun h => hin (Finset.mem_filter.mp h).1
      simp [hnew, hcard, hflag, Finset.filter_insert, Finset.card_insert_of_notMem hout,
        UInt32.ofNat_add]
    · simp [hnew, hcard, hflag, Finset.filter_insert, UInt32.ofNat_add]

/-! ### All connections -/

theorem toInt_small {n : ℤ} (h : |n| < 2 ^ 31) : toInt n = n := by
  rw [abs_lt] at h
  rw [toInt, Int.bmod_def]
  split <;> omega

/-- Timestamps within 2^46 seconds of the reference. -/
def Near (refTs : ℤ) (conns : List ConnectionRecord) : Prop :=
  ∀ c ∈ conns, |c.timestamp - refTs| ≤ 2 ^ 46

theorem dayDiff_eq (hz : FixedOffset z) (hnear : |c.timestamp - refTs| ≤ 2 ^ 46) :
    dayDiff z (dayStart z refTs) c = localDay z refTs - localDay z c.timestamp := by
  have hdiff : dayStart z refTs - dayStart z c.timestamp =
      86400 * (localDay z refTs - localDay z c.timestamp) := by
    rw [dayStart_eq, dayStart_eq, hz refTs c.timestamp]
    omega
  rw [dayDiff, hdiff, Int.mul_tdiv_cancel_left _ (by decide)]
  apply toInt_small
  rw [abs_le] at hnear
  rw [abs_lt, localDay, localDay, hz refTs c.timestamp]
  omega

theorem modify_range {n k : ℕ} {f g : ℕ → TrafficReport} {change : TrafficReport → TrafficReport}
    (hsame : change (f k) = g k) (hother : ∀ i < n, i ≠ k → f i = g i) :
    ((List.range n).map f).modify k change = (List.range n).map g := by
  apply List.ext_getElem
  · simp
  · intro i hi _
    have hin : i < n := by simpa using hi
    rw [List.getElem_modify, List.getElem_map, List.getElem_map, List.getElem_range]
    split
    · rename_i hk
      subst hk
      exact hsame
    · rename_i hk
      exact hother i hin (Ne.symm hk)

theorem countConnection_dailyRows (hz : FixedOffset z) (hnear : |c.timestamp - refTs| ≤ 2 ^ 46) :
    countConnection z ipStats (dayStart z refTs) prev c
        (dailyRows z ipStats prev (localDay z refTs)) =
      dailyRows z ipStats (prev ++ [c]) (localDay z refTs) := by
  simp only [countConnection, dayDiff_eq hz hnear]
  split
  · rename_i hin
    apply modify_range
    · apply countIn_dailyRow hz
      omega
    · intro i _ hi
      refine (dailyRow_append_other ?_).symm
      omega
  · rename_i hout
    apply List.map_congr_left
    intro i hi
    have hlt := List.mem_range.mp hi
    refine (dailyRow_append_other ?_).symm
    omega

theorem countAll_dailyRows (hz : FixedOffset z) (hnear : Near refTs conns) :
    countAll z ipStats (dayStart z refTs) prev conns
        (dailyRows z ipStats prev (localDay z refTs)) =
      dailyRows z ipStats (prev ++ conns) (localDay z refTs) := by
  induction conns generalizing prev with
  | nil => rw [countAll, List.append_nil]
  | cons c conns ih =>
    have hrest : Near refTs conns := fun d hd => hnear d (List.mem_cons_of_mem _ hd)
    rw [countAll, countConnection_dailyRows hz (hnear c (List.mem_cons_self ..)), ih hrest,
      List.append_assoc, List.singleton_append]

/-! ### The labels -/

theorem label_eq (d : Date) :
    label d = signedPadded 4 d.year ++ 45 :: signedPadded 2 d.month ++ 45 :: signedPadded 2 d.day :=
  rfl

theorem twoDigits_length {n : ℕ} (h : n < 100) : (signedPadded 2 n).length = 2 := by
  have hpos : ¬ (n : ℤ) < 0 := by omega
  rw [signedPadded, if_neg hpos, Int.natAbs_natCast]
  exact zeroPadded_length (by decide) h

theorem label_length (h : day.natAbs < 10 ^ 20) : (label (ofDay day)).length ≤ 31 := by
  have hyear := year_ofDay day
  have hmonth := (ofDay day).monthValid
  have hday := (ofDay day).dayValid
  have hlast := daysInMonth_le (ofDay day).year (ofDay day).month
  have hy : (signedPadded 4 (ofDay day).year).length ≤ 21 + 1 :=
    signedPadded_length_le (by decide) (by decide) (by omega)
  have hm := twoDigits_length (n := (ofDay day).month) (by omega)
  have hd := twoDigits_length (n := (ofDay day).day) (by omega)
  simp only [label_eq, List.length_append, List.length_cons, hm, hd]
  omega

theorem emptyReport_eq (h : (localDay z t).natAbs < 10 ^ 20) :
    emptyReport z t = ⟨label (localDate z t), 0, 0, 0, 0⟩ := by
  have hlabel : (label (localDate z t)).take 31 = label (localDate z t) :=
    List.take_of_length_le (label_length h)
  simp only [emptyReport, dateText_localtime]
  rw [← label, hlabel]

/-! ### The report -/

theorem localDay_dayStart (hz : FixedOffset z) (refTs : ℤ) (i : ℕ) :
    localDay z (dayStart z refTs - i * 86400) = localDay z refTs - i := by
  have hsame := hz (86400 * localDay z refTs - z.offset refTs - i * 86400) refTs
  rw [dayStart_eq]
  generalize localDay z refTs = today at hsame ⊢
  rw [localDay, hsame]
  omega

theorem localDay_small {i : ℕ} (hi : i < 30) (href : |refTs| < 2 ^ 50) :
    (localDay z refTs - i).natAbs < 10 ^ 20 := by
  have hoffset := z.bound refTs
  rw [abs_lt] at href hoffset
  unfold localDay
  omega

theorem emptyReports_eq (hz : FixedOffset z) (href : |refTs| < 2 ^ 50) (ipStats : List IPStats) :
    ((List.range 30).map fun i : ℕ => emptyReport z (dayStart z refTs - i * 86400)) =
      dailyRows z ipStats [] (localDay z refTs) := by
  apply List.map_congr_left
  intro i hi
  have hday := localDay_dayStart hz refTs i
  rw [emptyReport_eq, localDate, hday]
  · rfl
  · rw [hday]
    exact localDay_small (List.mem_range.mp hi) href

theorem report_eq (hz : FixedOffset z) (href : |refTs| < 2 ^ 50) (hnear : Near refTs conns) :
    generateDailyReport z conns ipStats refTs true =
      some (dailyRows z ipStats conns (localDay z refTs)) := by
  simp only [generateDailyReport, if_true, emptyReports_eq hz href ipStats,
    countAll_dailyRows hz hnear, List.nil_append]

theorem dailyRow_perm {conns' : List ConnectionRecord} (h : conns'.Perm conns) (day : ℤ) :
    dailyRow z ipStats conns' day = dailyRow z ipStats conns day := by
  have hon : (onDay z day conns').Perm (onDay z day conns) := h.filter _
  have hips : ipsOf (onDay z day conns') = ipsOf (onDay z day conns) :=
    List.toFinset_eq_of_perm _ _ (hon.map _)
  rw [dailyRow, dailyRow, hips, hon.length_eq, (hon.map _).sum_eq]

def onDate (z : Zone) (date : Date) (conns : List ConnectionRecord) : List ConnectionRecord :=
  conns.filter fun c => decide (localDate z c.timestamp = date)

theorem onDate_eq (z : Zone) (day : ℤ) (conns : List ConnectionRecord) :
    onDate z (ofDay day) conns = onDay z day conns := by
  simp only [onDate, onDay, localDate, ofDay_injective.eq_iff]

/-- The row of one date: its label, and what it counts over the connections of that date. -/
structure RowFor (z : Zone) (ipStats : List IPStats) (conns : List ConnectionRecord) (date : Date)
    (row : TrafficReport) : Prop where
  period : row.period = label date
  totalBytes : row.totalBytes.toNat =
    ((onDate z date conns).map fun c => c.bytes.toNat).sum % 2 ^ 64
  totalConnections : row.totalConnections.toNat = (onDate z date conns).length % 2 ^ 32
  uniqueIps : row.uniqueIps.toNat = (ipsOf (onDate z date conns)).card % 2 ^ 32
  suspiciousIps : row.suspiciousIps.toNat =
    ((ipsOf (onDate z date conns)).filter fun ip => flagged ipStats ip = true).card % 2 ^ 32

theorem dailyRow_for (z : Zone) (ipStats : List IPStats) (conns : List ConnectionRecord) (day : ℤ) :
    RowFor z ipStats conns (ofDay day) (dailyRow z ipStats conns day) := by
  constructor <;> simp [dailyRow, onDate_eq]

/-- The report is the aggregation of the 30 dates up to that of the reference time,
whatever the order of the connections. -/
theorem daily_report_exact (hz : FixedOffset z) (href : |refTs| < 2 ^ 50) (hnear : Near refTs conns)
    (ipStats : List IPStats) :
    ∃ rows, generateDailyReport z conns ipStats refTs true = some rows ∧ rows.length = 30 ∧
      (∀ d < 30, ∀ row, rows[d]? = some row →
        RowFor z ipStats conns (Date.prev^[d] (localDate z refTs)) row) ∧
      ∀ conns', conns'.Perm conns →
        generateDailyReport z conns' ipStats refTs true = some rows := by
  refine ⟨_, report_eq hz href hnear, by simp [dailyRows], ?_, ?_⟩
  · intro d hd row hrow
    have hget : (dailyRows z ipStats conns (localDay z refTs))[d]? =
        some (dailyRow z ipStats conns (localDay z refTs - d)) := by
      simp [dailyRows, hd]
    obtain rfl := Option.some.inj (hget.symm.trans hrow)
    rw [localDate, ← ofDay_sub]
    exact dailyRow_for z ipStats conns _
  · intro conns' hperm
    have hnear' : Near refTs conns' := fun c hc => hnear c (hperm.subset hc)
    rw [report_eq hz href hnear', dailyRows, dailyRows]
    simp only [dailyRow_perm hperm]

/-! ### Five connections of three addresses on two days -/

def utc : Zone := ⟨fun _ => 0, fun _ => by decide⟩

def address (last : UInt8) : List UInt8 := text "192.168.1." ++ [48 + last] ++ List.replicate 5 0

def twoDays : List ConnectionRecord :=
  [⟨address 1, 90000, 1000⟩, ⟨address 2, 3600, 2000⟩, ⟨address 3, 90000, 3000⟩,
    ⟨address 1, 3600, 4000⟩, ⟨address 2, 90000, 5000⟩]

theorem utc_fixed : FixedOffset utc := fun _ _ => rfl

theorem daily_report_exact_twoDays :
    ∃ rows, generateDailyReport utc twoDays [⟨address 2, 90000, 1⟩] 90000 true = some rows ∧
      rows.length = 30 ∧
      (∀ d < 30, ∀ row, rows[d]? = some row →
        RowFor utc [⟨address 2, 90000, 1⟩] twoDays (Date.prev^[d] (localDate utc 90000)) row) ∧
      ∀ conns', conns'.Perm twoDays →
        generateDailyReport utc conns' [⟨address 2, 90000, 1⟩] 90000 true = some rows :=
  daily_report_exact utc_fixed (by decide) (by unfold Near twoDays; decide) _

end CSimples.NetTraffic
