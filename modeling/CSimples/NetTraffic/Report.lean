import CSimples.Lib.Calendar
import CSimples.Lib.CString
import CSimples.Lib.Decimal

/-!
# The daily report (NetTrafficAnalyzer/net_traffic_analyzer.c, net_traffic_analyzer.h)

`generate_daily_report` counts the connections of the 30 days up to a reference
time. `localtime` is that of any time zone: an offset from UTC for every time.
-/

namespace CSimples.NetTraffic
open Calendar CString Decimal

/-! ### Local time -/

/-- The UTC offset in force at each time, in seconds, of less than a day. -/
structure Zone where
  offset : ℤ → ℤ
  bound : ∀ t, |offset t| < 86400

structure Tm where
  tmYear : ℤ
  tmMon : ℤ
  tmMday : ℤ
  tmHour : ℤ
  tmMin : ℤ
  tmSec : ℤ

def localDay (z : Zone) (t : ℤ) : ℤ := (t + z.offset t) / 86400

def localDate (z : Zone) (t : ℤ) : Date := ofDay (localDay z t)

def localtime (z : Zone) (t : ℤ) : Tm :=
  let second := (t + z.offset t) % 86400
  ⟨(localDate z t).year - 1900, (localDate z t).month - 1, (localDate z t).day,
    second / 3600, second % 3600 / 60, second % 60⟩

/-! ### Records (net_traffic_analyzer.h:18-52) -/

structure ConnectionRecord where
  ip : List UInt8
  timestamp : ℤ
  bytes : UInt64
  deriving DecidableEq

structure TrafficReport where
  period : List UInt8
  totalBytes : UInt64
  totalConnections : UInt32
  uniqueIps : UInt32
  suspiciousIps : UInt32
  deriving DecidableEq

/-- The members that the report and the clean-up read. -/
structure IPStats where
  ip : List UInt8
  lastSeen : ℤ
  isSuspicious : UInt8
  deriving DecidableEq

/-! ### generate_daily_report (net_traffic_analyzer.c:26-98) -/

/-- The computation of `start_day`, `conn_day` and `prev_day`. -/
def dayStart (z : Zone) (t : ℤ) : ℤ :=
  t - ((localtime z t).tmHour * 3600 + (localtime z t).tmMin * 60 + (localtime z t).tmSec)

/-- The text of `"%04d-%02d-%02d"`. -/
def dateText (year month day : ℤ) : List UInt8 :=
  signedPadded 4 year ++ 45 :: signedPadded 2 month ++ 45 :: signedPadded 2 day

/-- `period` has room for 31 bytes. -/
def emptyReport (z : Zone) (dayTs : ℤ) : TrafficReport :=
  let dayTm := localtime z dayTs
  ⟨(dateText (dayTm.tmYear + 1900) (dayTm.tmMon + 1) dayTm.tmMday).take 31, 0, 0, 0, 0⟩

/-- The conversion to a 32-bit `int`. -/
def toInt (n : ℤ) : ℤ := n.bmod (2 ^ 32)

/-- `/` of C cuts towards zero. -/
def dayDiff (z : Zone) (startDay : ℤ) (conn : ConnectionRecord) : ℤ :=
  toInt ((startDay - dayStart z conn.timestamp).tdiv 86400)

/-- `prev` are the connections in front of `conn`. -/
def isUnique (z : Zone) (prev : List ConnectionRecord) (conn : ConnectionRecord) : Bool :=
  !prev.any fun p => decide (dayStart z p.timestamp = dayStart z conn.timestamp ∧
    cstr p.ip = cstr conn.ip)

def knownSuspicious (ipStats : List IPStats) (conn : ConnectionRecord) : Bool :=
  ipStats.any fun s => decide (cstr s.ip = cstr conn.ip ∧ s.isSuspicious ≠ 0)

def countIn (z : Zone) (ipStats : List IPStats) (prev : List ConnectionRecord)
    (conn : ConnectionRecord) (r : TrafficReport) : TrafficReport :=
  { r with
    totalBytes := r.totalBytes + conn.bytes
    totalConnections := r.totalConnections + 1
    uniqueIps := if isUnique z prev conn = true then r.uniqueIps + 1 else r.uniqueIps
    suspiciousIps := if isUnique z prev conn = true ∧ knownSuspicious ipStats conn = true then
      r.suspiciousIps + 1 else r.suspiciousIps }

def countConnection (z : Zone) (ipStats : List IPStats) (startDay : ℤ)
    (prev : List ConnectionRecord) (conn : ConnectionRecord) (reports : List TrafficReport) :
    List TrafficReport :=
  let diff := dayDiff z startDay conn
  if 0 ≤ diff ∧ diff < 30 then reports.modify diff.toNat (countIn z ipStats prev conn)
  else reports

/-- The loop over the connections; `prev` are those already counted. -/
def countAll (z : Zone) (ipStats : List IPStats) (startDay : ℤ) :
    List ConnectionRecord → List ConnectionRecord → List TrafficReport → List TrafficReport
  | _, [], reports => reports
  | prev, conn :: conns, reports =>
    countAll z ipStats startDay (prev ++ [conn]) conns
      (countConnection z ipStats startDay prev conn reports)

/-- `none` is NULL; `alloc` says whether `malloc` succeeds. -/
def generateDailyReport (z : Zone) (connections : List ConnectionRecord) (ipStats : List IPStats)
    (refTs : ℤ) (alloc : Bool) : Option (List TrafficReport) :=
  let startDay := dayStart z refTs
  let reports := (List.range 30).map fun i : ℕ => emptyReport z (startDay - i * 86400)
  if alloc = true then some (countAll z ipStats startDay [] connections reports) else none

/-! ### Days -/

variable {z : Zone} {t u : ℤ}

theorem dayStart_eq (z : Zone) (t : ℤ) : dayStart z t = 86400 * localDay z t - z.offset t := by
  simp only [dayStart, localtime, localDay]
  omega

theorem dateText_localtime (z : Zone) (t : ℤ) :
    dateText ((localtime z t).tmYear + 1900) ((localtime z t).tmMon + 1) (localtime z t).tmMday =
      dateText (localDate z t).year (localDate z t).month (localDate z t).day := by
  simp only [localtime, Int.sub_add_cancel]

end CSimples.NetTraffic
