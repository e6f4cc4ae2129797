import CSimples.Lib.CString
import CSimples.Lib.Run

/-!
# IP statistics and their mutex (c-client-server-app/src/server.c)

The server has one thread. `stats_mutex` is a default mutex, so a thread that locks
it twice waits for itself; the model takes as a parameter whether it is re-entrant.
-/

namespace CSimples.ClientServer
open CString Run

/-! ### Data (server.c:18-39) -/

/-- `ip` is the string of its buffer of 46 bytes. -/
structure IpStat where
  ip : List UInt8
  firstSeen : ℤ
  lastSeen : ℤ
  totalBytes : UInt64
  dailyBytes : UInt64
  weeklyBytes : UInt64
  monthlyBytes : UInt64
  totalConnections : Int32
  dailyConnections : Int32
  weeklyConnections : Int32
  monthlyConnections : Int32
  deriving DecidableEq

/-- `statsMutex` counts the locks that the thread holds. -/
structure Stats where
  ipStatsList : List IpStat
  statsMutex : ℕ
  lastStatsSave : ℤ
  lastCleanup : ℤ
  deriving DecidableEq

def startStats : Stats := ⟨[], 0, 0, 0⟩

/-! ### stats_mutex -/

/-- `none`: the thread waits for itself. -/
def lock (reentrant : Bool) (st : Stats) : Option Stats :=
  if st.statsMutex = 0 ∨ reentrant = true then some { st with statsMutex := st.statsMutex + 1 }
  else none

def unlock (st : Stats) : Stats := { st with statsMutex := st.statsMutex - 1 }

/-! ### The functions (server.c:64-249) -/

def newEntry (ip : List UInt8) (now : ℤ) : IpStat :=
  ⟨(cstr ip).take 45, now, now, 0, 0, 0, 0, 0, 0, 0, 0⟩

/-- A message of `bytes` bytes; 0 stands for a new connection. -/
def countBytes (bytes : UInt64) (now : ℤ) (e : IpStat) : IpStat :=
  let e := { e with
    lastSeen := now
    totalBytes := e.totalBytes + bytes
    dailyBytes := e.dailyBytes + bytes
    weeklyBytes := e.weeklyBytes + bytes
    monthlyBytes := e.monthlyBytes + bytes }
  if bytes = 0 then
    { e with
      totalConnections := e.totalConnections + 1
      dailyConnections := e.dailyConnections + 1
      weeklyConnections := e.weeklyConnections + 1
      monthlyConnections := e.monthlyConnections + 1 }
  else e

/-- The first entry of the address, or a new one at the end, is updated; `malloc` succeeds. -/
def updateEntry (ip : List UInt8) (bytes : UInt64) (now : ℤ) : List IpStat → List IpStat
  | [] => [countBytes bytes now (newEntry ip now)]
  | e :: entries =>
    if e.ip = cstr ip then countBytes bytes now e :: entries
    else e :: updateEntry ip bytes now entries

/-- With what it writes to the file, when that opens. -/
def saveIpStats (reentrant : Bool) (st : Stats) : Option (Stats × List IpStat) :=
  (lock reentrant st).map fun st => (unlock st, st.ipStatsList)

def cleanupOldEntries (reentrant : Bool) (now : ℤ) (st : Stats) : Option Stats :=
  (lock reentrant st).map fun st => unlock { st with
    ipStatsList := st.ipStatsList.filter fun e => decide (now - e.lastSeen ≤ 2592000) }

def periodicSave (reentrant : Bool) (now : ℤ) (st : Stats) : Option Stats :=
  if 300 < now - st.lastStatsSave then
    (saveIpStats reentrant st).map fun r => { r.1 with lastStatsSave := now }
  else some st

/-- `cleanup_old_entries` reads the clock itself. -/
def periodicCleanup (reentrant : Bool) (now cleanupNow : ℤ) (st : Stats) : Option Stats :=
  if 3600 < now - st.lastCleanup then
    (cleanupOldEntries reentrant cleanupNow st).map fun st => { st with lastCleanup := now }
  else some st

def updateIpStats (reentrant : Bool) (ip : List UInt8) (bytes : UInt64) (now cleanupNow : ℤ)
    (st : Stats) : Option Stats := do
  let st ← lock reentrant st
  let st := { st with ipStatsList := updateEntry ip bytes now st.ipStatsList }
  let st ← periodicSave reentrant now st
  let st ← periodicCleanup reentrant now cleanupNow st
  some (unlock st)

/-- `read` holds the entries that the file gives, `none` if it cannot be opened or parsed. -/
def loadIpStats (reentrant : Bool) (read : Option (List IpStat)) (st : Stats) : Option Stats :=
  match read with
  | none => some st
  | some entries =>
    (lock reentrant st).map fun st => unlock { st with ipStatsList := st.ipStatsList ++ entries }

def printIpStats (reentrant : Bool) (st : Stats) : Option Stats := (lock reentrant st).map unlock

/-! ### Calls -/

inductive Call
  | update (ip : List UInt8) (bytes : UInt64) (now cleanupNow : ℤ)
  | print
  | save
  | load (read : Option (List IpStat))
  | cleanup (now : ℤ)

def call (reentrant : Bool) (st : Stats) : Call → Option Stats
  | .update ip bytes now cleanupNow => updateIpStats reentrant ip bytes now cleanupNow st
  | .print => printIpStats reentrant st
  | .save => (saveIpStats reentrant st).map Prod.fst
  | .load read => loadIpStats reentrant read st
  | .cleanup now => cleanupOldEntries reentrant now st

/-- A thread that waits for itself makes no further call. -/
def step (reentrant : Bool) (s : Option Stats) (c : Call) : Option Stats :=
  s.bind fun st => call reentrant st c

/-! ### When the thread waits for itself -/

/-- The last call has returned, with the mutex released. -/
def Released (s : Option Stats) : Prop := ∃ st, s = some st ∧ st.statsMutex = 0

/-- An update finds neither interval elapsed, both counted from the time 0 of the first state. -/
def OnTime : Call → Prop
  | .update _ _ now _ => now ≤ 300
  | _ => True

variable {st : Stats} {now cleanupNow : ℤ}

theorem lock_free (h : st.statsMutex = 0) : lock false st = some { st with statsMutex := 1 } := by
  rw [lock, if_pos (.inl h), h]

theorem lock_held (h : st.statsMutex = 1) : lock false st = none := by
  rw [lock, if_neg (by simp [h])]

theorem periodicSave_held (h : st.statsMutex = 1) :
    periodicSave false now st = if 300 < now - st.lastStatsSave then none else some st := by
  rw [periodicSave, saveIpStats, lock_held h]
  rfl

theorem periodicCleanup_held (h : st.statsMutex = 1) :
    periodicCleanup false now cleanupNow st =
      if 3600 < now - st.lastCleanup then none else some st := by
  rw [periodicCleanup, cleanupOldEntries, lock_held h]
  rfl

theorem updateIpStats_free (h : st.statsMutex = 0) (ip : List UInt8) (bytes : UInt64)
    (now cleanupNow : ℤ) :
    updateIpStats false ip bytes now cleanupNow st =
      if 300 < now - st.lastStatsSave ∨ 3600 < now - st.lastCleanup then none
      else some { st with ipStatsList := updateEntry ip bytes now st.ipStatsList } := by
  let held : Stats := ⟨updateEntry ip bytes now st.ipStatsList, 1, st.lastStatsSave, st.lastCleanup⟩
  have hlock : updateIpStats false ip bytes now cleanupNow st =
      ((periodicSave false now held).bind (periodicCleanup false now cleanupNow)).map unlock := by
    rw [updateIpStats, lock_free h]
    cases hsave : periodicSave false now held with
    | none => simp [held, hsave]
    | some r =>
      cases hclean : periodicCleanup false now cleanupNow r <;> simp [held, hsave, hclean]
  rw [hlock, periodicSave_held rfl]
  by_cases hsave : 300 < now - st.lastStatsSave
  · rw [if_pos hsave, if_pos (.inl hsave)]
    rfl
  · rw [if_neg hsave, Option.bind_some, periodicCleanup_held rfl]
    by_cases hclean : 3600 < now - st.lastCleanup
    · rw [if_pos hclean, if_pos (.inr hclean)]
      rfl
    · rw [if_neg hclean, if_neg (not_or.mpr ⟨hsave, hclean⟩), Option.map_some, unlock]
      simp only [held, h]

structure Early (st : Stats) : Prop where
  free : st.statsMutex = 0
  lastStatsSave : st.lastStatsSave = 0
  lastCleanup : st.lastCleanup = 0

theorem call_early (h : Early st) {c : Call} (hc : OnTime c) :
    ∃ st', call false st c = some st' ∧ Early st' := by
  obtain ⟨hfree, hsave, hclean⟩ := h
  cases c with
  | update ip bytes now cleanupNow =>
    have hnow : now ≤ 300 := hc
    rw [call, updateIpStats_free hfree, if_neg (by omega)]
    exact ⟨_, rfl, hfree, hsave, hclean⟩
  | print =>
    rw [call, printIpStats, lock_free hfree]
    exact ⟨_, rfl, rfl, hsave, hclean⟩
  | save =>
    rw [call, saveIpStats, lock_free hfree]
    exact ⟨_, rfl, rfl, hsave, hclean⟩
  | load read =>
    cases read with
    | none => exact ⟨st, rfl, hfree, hsave, hclean⟩
    | some entries =>
      simp only [call, loadIpStats, lock_free hfree]
      exact ⟨_, rfl, rfl, hsave, hclean⟩
  | cleanup now =>
    rw [call, cleanupOldEntries, lock_free hfree]
    exact ⟨_, rfl, rfl, hsave, hclean⟩

theorem call_late (h : Early st) {c : Call} (hc : ¬ OnTime c) : call false st c = none := by
  obtain ⟨hfree, hsave, hclean⟩ := h
  cases c with
  | update ip bytes now cleanupNow =>
    have hnow : ¬ now ≤ 300 := hc
    rw [call, updateIpStats_free hfree, if_pos (.inl (by omega))]
  | _ => exact absurd trivial hc

/-- With a default mutex, every call of a run returns with the mutex released exactly when no update
reads a clock above 300. -/
theorem released_iff_onTime (calls : List Call) :
    Along (step false) Released (some startStats) calls ↔ ∀ c ∈ calls, OnTime c := by
  have hrun : Along (step false) Released (some startStats) calls ↔
      Meets (step false) (fun _ c => OnTime c) (some startStats) calls := by
    apply along_iff_meets_of_inv (I := fun s => ∃ st, s = some st ∧ Early st)
    · rintro s ⟨st, rfl, h⟩
      exact ⟨st, rfl, h.free⟩
    · rintro s c ⟨st, rfl, h⟩ hc
      exact call_early h hc
    · rintro s c ⟨st, rfl, h⟩ hc ⟨st', hst', _⟩
      have hnone : step false (some st) c = none := call_late h hc
      rw [hnone] at hst'
      exact absurd hst' (by simp)
    · exact ⟨startStats, rfl, rfl, rfl, rfl⟩
  exact hrun.trans meets_iff_forall

/-- The first message to the server, at a time of 2023. -/
theorem first_update_waits :
    ¬ Along (step false) Released (some startStats)
      [.update (text "127.0.0.1") 5 1700000000 1700000000] := by
  rintro ⟨_, st, hst, _⟩
  have hnone : step false (some startStats)
      (.update (text "127.0.0.1") 5 1700000000 1700000000) = none := by decide
  rw [hnone] at hst
  exact absurd hst (by simp)

end CSimples.ClientServer
