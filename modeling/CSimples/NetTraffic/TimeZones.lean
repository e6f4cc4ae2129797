import CSimples.NetTraffic.DailyReport

/-!
# Days that are not 24 hours long (net_traffic_analyzer.c:26-63)

`start_day`, the 30 labels and the bucket of a connection are computed with days
of 86400 seconds. They are right as long as the offset is nowhere lower than at
the reference time.
-/

namespace CSimples.NetTraffic
open Calendar CString Decimal

/-- The row that a connection is counted in (60-63). -/
def rowOf (z : Zone) (startDay : ℤ) (conn : ConnectionRecord) : Option ℕ :=
  if 0 ≤ dayDiff z startDay conn ∧ dayDiff z startDay conn < 30 then
    some (dayDiff z startDay conn).toNat
  else none

variable {z : Zone} {ipStats : List IPStats} {conns prev : List ConnectionRecord}
  {c : ConnectionRecord} {startDay refTs t : ℤ} {reports : List TrafficReport} {d : ℕ}

/-! ### What the loop leaves of a row -/

theorem countConnection_get (prev : List ConnectionRecord) (c : ConnectionRecord)
    (reports : List TrafficReport) (d : ℕ) :
    (countConnection z ipStats startDay prev c reports)[d]? =
      if rowOf z startDay c = some d then reports[d]?.map (countIn z ipStats prev c)
      else reports[d]? := by
  simp only [countConnection, rowOf]
  split
  · by_cases hd : (dayDiff z startDay c).toNat = d
    · simp [hd]
    · simp [hd]
  · rw [if_neg (by simp)]

theorem countAll_period (conns prev : List ConnectionRecord) (reports : List TrafficReport) (d : ℕ) :
    (countAll z ipStats startDay prev conns reports)[d]?.map TrafficReport.period =
      reports[d]?.map TrafficReport.period := by
  induction conns generalizing prev reports with
  | nil => rfl
  | cons c conns ih =>
    rw [countAll, ih, countConnection_get]
    split
    · rw [Option.map_map]
      rfl
    · rfl

theorem countAll_total (conns prev : List ConnectionRecord) (reports : List TrafficReport) (d : ℕ) :
    (countAll z ipStats startDay prev conns reports)[d]?.map TrafficReport.totalConnections =
      reports[d]?.map fun r => r.totalConnections +
        UInt32.ofNat (conns.countP fun c => decide (rowOf z startDay c = some d)) := by
  induction conns generalizing prev reports with
  | nil => simp [countAll]
  | cons c conns ih =>
    rw [countAll, ih, countConnection_get]
    by_cases hrow : rowOf z startDay c = some d
    · rw [if_pos hrow, Option.map_map]
      congr 1
      funext r
      simp only [Function.comp_apply, countIn, List.countP_cons, hrow, decide_true, if_true,
        UInt32.ofNat_add, UInt32.add_assoc]
      rw [UInt32.add_comm 1]
      rfl
    · rw [if_neg hrow]
      simp [hrow]

/-! ### Labels -/

theorem label_injective : Function.Injective label := by
  intro d e h
  have hmonth := d.monthValid
  have hmonth' := e.monthValid
  have hday := d.dayValid
  have hday' := e.dayValid
  have hlast := daysInMonth_le d.year d.month
  have hlast' := daysInMonth_le e.year e.month
  have hm := twoDigits_length (n := d.month) (by omega)
  have hm' := twoDigits_length (n := e.month) (by omega)
  have hd := twoDigits_length (n := d.day) (by omega)
  have hd' := twoDigits_length (n := e.day) (by omega)
  rw [label_eq, label_eq] at h
  obtain ⟨hfront, hback⟩ := List.append_inj' h (by rw [List.length_cons, List.length_cons, hd, hd'])
  obtain ⟨hyear, hmiddle⟩ :=
    List.append_inj' hfront (by rw [List.length_cons, List.length_cons, hm, hm'])
  have hy := signedPadded_injective hyear
  have hmm := signedPadded_injective (List.cons_injective hmiddle)
  have hdd := signedPadded_injective (List.cons_injective hback)
  exact Date.ext' hy (by omega) (by omega)

/-- The instant whose date is printed in row `i`. -/
def rowInstant (z : Zone) (refTs : ℤ) (i : ℕ) : ℤ := dayStart z refTs - i * 86400

theorem rowInstant_day (z : Zone) (refTs : ℤ) (i : ℕ) :
    localDay z (rowInstant z refTs i) = localDay z refTs - i ↔
      0 ≤ z.offset (rowInstant z refTs i) - z.offset refTs ∧
        z.offset (rowInstant z refTs i) - z.offset refTs < 86400 := by
  have hinstant : rowInstant z refTs i = 86400 * localDay z refTs - z.offset refTs - i * 86400 := by
    rw [rowInstant, dayStart_eq]
  generalize localDay z refTs = today at hinstant ⊢
  rw [localDay]
  generalize z.offset (rowInstant z refTs i) = offset
  rw [hinstant]
  omega

/-! ### Connections -/

theorem tdiv_day (n : ℤ) : n.tdiv 86400 = if 0 ≤ n then n / 86400 else -(-n / 86400) := by
  split
  · rename_i h
    exact Int.tdiv_eq_ediv_of_nonneg h
  · have hpos : 0 ≤ -n := by omega
    rw [← Int.tdiv_eq_ediv_of_nonneg hpos, Int.neg_tdiv, Int.neg_neg]

/-- A connection on one of the 30 dates is counted in the row of that date exactly when its
offset is not too far from that of the reference time. -/
theorem rowOf_day (hk : localDay z refTs - localDay z c.timestamp = d) (hd : d < 30) :
    rowOf z (dayStart z refTs) c = some d ↔
      -86400 < z.offset c.timestamp - z.offset refTs ∧
        z.offset c.timestamp - z.offset refTs < 86400 ∧
        (0 < d → 0 ≤ z.offset c.timestamp - z.offset refTs) := by
  have hdiff : dayStart z refTs - dayStart z c.timestamp =
      86400 * d + (z.offset c.timestamp - z.offset refTs) := by
    rw [dayStart_eq, dayStart_eq]
    omega
  have hbound := z.bound c.timestamp
  have hbound' := z.bound refTs
  rw [abs_lt] at hbound hbound'
  have he : -172800 < z.offset c.timestamp - z.offset refTs ∧
      z.offset c.timestamp - z.offset refTs < 172800 := by omega
  generalize z.offset c.timestamp - z.offset refTs = e at hdiff he ⊢
  have hdays : dayDiff z (dayStart z refTs) c = (86400 * d + e).tdiv 86400 := by
    rw [dayDiff, hdiff]
    apply toInt_small
    rw [abs_lt, tdiv_day]
    split <;> omega
  have hrow : rowOf z (dayStart z refTs) c = some d ↔ (86400 * d + e).tdiv 86400 = d := by
    rw [rowOf, hdays]
    split
    · rw [Option.some.injEq]
      omega
    · constructor
      · intro h
        cases h
      · omega
  rw [hrow, tdiv_day]
  split <;> omega

/-! ### The report in any zone -/

/-- The labels are the 30 dates up to that of the reference time, and each connection of one
of these dates is counted in its row. -/
structure CorrectRows (z : Zone) (refTs : ℤ) (conns : List ConnectionRecord)
    (rows : List TrafficReport) : Prop where
  labels : ∀ d < 30, (rows[d]?).map TrafficReport.period =
    some (label (Date.prev^[d] (localDate z refTs)))
  counted : ∀ c ∈ conns, ∀ d < 30, localDate z c.timestamp = Date.prev^[d] (localDate z refTs) →
    rowOf z (dayStart z refTs) c = some d

/-- The offset at the 30 instants, and at the connections of earlier dates, is not lower than
at the reference time, and nowhere a day higher. -/
def OffsetsAgree (z : Zone) (refTs : ℤ) (conns : List ConnectionRecord) : Prop :=
  (∀ i < 30, 0 ≤ z.offset (rowInstant z refTs i) - z.offset refTs ∧
    z.offset (rowInstant z refTs i) - z.offset refTs < 86400) ∧
  ∀ c ∈ conns, ∀ d < 30, localDay z c.timestamp = localDay z refTs - (d : ℕ) →
    -86400 < z.offset c.timestamp - z.offset refTs ∧
      z.offset c.timestamp - z.offset refTs < 86400 ∧
      (0 < d → 0 ≤ z.offset c.timestamp - z.offset refTs)

theorem rowInstant_small {i : ℕ} (hi : i < 30) (href : |refTs| ≤ 2 ^ 63) :
    (localDay z (rowInstant z refTs i)).natAbs < 10 ^ 20 := by
  have hbound := z.bound refTs
  have hbound' := z.bound (rowInstant z refTs i)
  have hinstant : rowInstant z refTs i = 86400 * localDay z refTs - z.offset refTs - i * 86400 := by
    rw [rowInstant, dayStart_eq]
  have hday : localDay z refTs = (refTs + z.offset refTs) / 86400 := rfl
  rw [abs_le] at href
  rw [abs_lt] at hbound hbound'
  rw [localDay]
  generalize z.offset (rowInstant z refTs i) = offset at hbound' ⊢
  omega

/-- In every zone: the report is right exactly when the offsets agree. -/
theorem rows_correct_iff (href : |refTs| ≤ 2 ^ 63) (conns : List ConnectionRecord)
    (ipStats : List IPStats) :
    (∃ rows, generateDailyReport z conns ipStats refTs true = some rows ∧
        CorrectRows z refTs conns rows) ↔ OffsetsAgree z refTs conns := by
  have hperiod : ∀ rows, generateDailyReport z conns ipStats refTs true = some rows → ∀ d < 30,
      (rows[d]?).map TrafficReport.period = some (label (localDate z (rowInstant z refTs d))) := by
    intro rows hrows d hd
    have hall : countAll z ipStats (dayStart z refTs) [] conns ((List.range 30).map fun i : ℕ =>
        emptyReport z (dayStart z refTs - i * 86400)) = rows := Option.some.inj hrows
    rw [← hall, countAll_period, List.getElem?_map, List.getElem?_range hd]
    simp only [Option.map_some]
    rw [← rowInstant, emptyReport_eq (rowInstant_small hd href)]
  have hdate : ∀ d < 30, label (localDate z (rowInstant z refTs d)) =
      label (Date.prev^[d] (localDate z refTs)) ↔
        0 ≤ z.offset (rowInstant z refTs d) - z.offset refTs ∧
          z.offset (rowInstant z refTs d) - z.offset refTs < 86400 := by
    intro d _
    rw [label_injective.eq_iff, localDate, localDate, ← ofDay_sub, ofDay_injective.eq_iff,
      rowInstant_day]
  have hon : ∀ (c : ConnectionRecord) (d : ℕ),
      localDate z c.timestamp = Date.prev^[d] (localDate z refTs) ↔
        localDay z c.timestamp = localDay z refTs - d := by
    intro c d
    rw [localDate, localDate, ← ofDay_sub, ofDay_injective.eq_iff]
  constructor
  · rintro ⟨rows, hrows, hcorrect⟩
    constructor
    · intro d hd
      have hlabel := (hperiod rows hrows d hd).symm.trans (hcorrect.labels d hd)
      exact (hdate d hd).mp (Option.some.inj hlabel)
    · intro c hc d hd hday
      exact (rowOf_day (by omega) hd).mp (hcorrect.counted c hc d hd ((hon c d).mpr hday))
  · rintro ⟨hinstants, hconns⟩
    refine ⟨_, rfl, ?_, ?_⟩
    · intro d hd
      rw [hperiod _ rfl d hd, (hdate d hd).mpr (hinstants d hd)]
    · intro c hc d hd hday
      have hlocal := (hon c d).mp hday
      exact (rowOf_day (by omega) hd).mpr (hconns c hc d hd hlocal)

theorem report_total {rows : List TrafficReport}
    (h : generateDailyReport z conns ipStats refTs true = some rows) (hd : d < 30) :
    (rows[d]?).map TrafficReport.totalConnections = some (UInt32.ofNat
      (conns.countP fun c => decide (rowOf z (dayStart z refTs) c = some d))) := by
  have hall : countAll z ipStats (dayStart z refTs) [] conns ((List.range 30).map fun i : ℕ =>
      emptyReport z (dayStart z refTs - i * 86400)) = rows := Option.some.inj h
  rw [← hall, countAll_total, List.getElem?_map, List.getElem?_range hd]
  simp [emptyReport]

/-! ### One hour forward at 1970-01-01 00:00 -/

def oneForward : Zone :=
  ⟨fun t => if t < 0 then 0 else 3600, fun t => by split <;> decide⟩

theorem rows_correct_iff_oneForward :
    (∃ rows, generateDailyReport oneForward twoDays [] 172800 true = some rows ∧
      CorrectRows oneForward 172800 twoDays rows) ↔ OffsetsAgree oneForward 172800 twoDays :=
  rows_correct_iff (by decide) twoDays []

/-- Row 2 is labelled a day too early, and a connection three days back is counted in it. -/
theorem rows_misdated :
    (∃ rows, generateDailyReport oneForward [⟨address 1, -10, 1⟩] [] 172800 true = some rows ∧
      (rows[2]?).map TrafficReport.period = some (text "1969-12-31") ∧
      (rows[2]?).map TrafficReport.totalConnections = some 1) ∧
    Date.prev^[2] (localDate oneForward 172800) = ⟨1970, 1, 1, by decide, by decide⟩ ∧
    Date.prev^[3] (localDate oneForward 172800) = localDate oneForward (-10) ∧
    ¬ ∃ rows, generateDailyReport oneForward [⟨address 1, -10, 1⟩] [] 172800 true = some rows ∧
      CorrectRows oneForward 172800 [⟨address 1, -10, 1⟩] rows := by
  refine ⟨⟨_, rfl, by decide +kernel, by decide +kernel⟩, by decide, by decide, ?_⟩
  rintro ⟨rows, hrows, hcorrect⟩
  have hrow := hcorrect.counted _ (List.mem_singleton_self _) 3 (by decide) (by decide)
  exact absurd hrow (by decide)

end CSimples.NetTraffic
