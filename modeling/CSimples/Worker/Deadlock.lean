import CSimples.Lib.Run
import CSimples.Worker.WorkerServer

/-!
# The main loop waits with the mutex held

The main loop keeps `socket_mutex` while it waits in `recv_header`
(worker_server.c:317-318). The handler sends nothing on its own, only answers
to heartbeats and results, and the heartbeat thread needs the mutex to send one:
a main loop that starts to wait while nothing is under way waits for ever, and
with it everybody else.
-/

namespace CSimples.Deadlock
open WorkerServer Run

def MainWaits (s : Session) : Prop := s.main = .recv ∨ ∃ r, s.main = .resultRecv r

/-- Each of the three waits for another, and nothing is in flight. -/
def Deadlocked (s : Session) : Prop :=
  MainWaits s ∧ s.owner = some .main ∧ s.heartbeat = .lock ∧ s.handler = .wait ∧
    s.toServer = [] ∧ s.toWorker = []

def UnderWay (s : Session) : Prop :=
  s.toServer ≠ [] ∨ s.toWorker ≠ [] ∨ s.handler ≠ .wait

/-- The main loop takes the mutex to wait only while something is under way, and
a handler that finishes while the main loop waits leaves it a message. -/
def Fed (s : Session) : Act → Prop
  | .main _ => s.main = .lock → s.owner = none → UnderWay s
  | .heartbeat _ => True
  | .handler _ task => s.handler = .assign → MainWaits s → s.owner = some .main →
      s.toServer ≠ [] ∨ s.toWorker ≠ [] ∨ task ≠ none

/-- The invariant. The heartbeat thread is excepted between its request and the
unlock that follows, which frees the mutex. -/
def Inv (s : Session) : Prop :=
  MainWaits s → s.owner = some .main → (∀ r, s.heartbeat ≠ .recv r) →
    (∀ m, s.heartbeat ≠ .unlock m) → UnderWay s

theorem Inv.not_deadlocked {s : Session} (h : Inv s) : ¬ Deadlocked s := by
  rintro ⟨hwaits, howner, hlock, hwait, hserver, hworker⟩
  have hway := h hwaits howner (by simp [hlock]) (by simp [hlock])
  unfold UnderWay at hway
  simp [hwait, hserver, hworker] at hway

theorem pushed_underWay (s : Session) (r : Request) :
    s.pushed r ≠ [] ∨ s.toWorker ≠ [] ∨ s.handler ≠ .wait := by
  unfold Session.pushed
  by_cases hstop : s.handler = .stopped
  · refine Or.inr (Or.inr ?_)
    rw [hstop]
    decide
  · rw [if_neg hstop]
    exact Or.inl (by simp)

/-! ### The invariant is kept -/

theorem inv_main {s : Session} (h : Inv s) (ok : Bool) (hc : Fed s (.main ok)) :
    Inv (mainStep s ok) := by
  cases hm : s.main with
  | lock =>
    simp only [mainStep, hm]
    split
    · rename_i howner
      exact fun _ _ _ _ => hc hm howner
    · exact h
  | recv =>
    simp only [mainStep, hm]
    split
    · intro hwaits
      simp [MainWaits] at hwaits
    · split
      · intro hwaits
        simp [MainWaits] at hwaits
      · exact h
  | handle m =>
    have hfree : (mainStep s ok).owner = none := by
      simp only [mainStep, hm]
      split
      · split <;> rfl
      · rfl
    intro _ howner
    rw [hfree] at howner
    cases howner
  | resultLock taskId =>
    simp only [mainStep, hm]
    split
    · intro hwaits
      simp [MainWaits] at hwaits
    · exact h
  | resultSend taskId =>
    simp only [mainStep, hm]
    split
    · exact fun _ _ _ _ => pushed_underWay s (.taskResult s.serial)
    · intro hwaits
      simp [MainWaits] at hwaits
  | resultRecv r =>
    simp only [mainStep, hm]
    split
    · intro hwaits
      simp [MainWaits] at hwaits
    · split
      · intro hwaits
        simp [MainWaits] at hwaits
      · exact h
  | unlock | process taskId | resultUnlock =>
    intro hwaits
    simp [MainWaits, mainStep, hm] at hwaits
  | stopped =>
    simp only [mainStep, hm]
    exact h

theorem inv_heartbeat {s : Session} (h : Inv s) (ok : Bool) : Inv (heartbeatStep s ok) := by
  cases hh : s.heartbeat with
  | sleep =>
    simp only [heartbeatStep, hh]
    exact fun hwaits howner _ _ => h hwaits howner (by simp [hh]) (by simp [hh])
  | lock =>
    simp only [heartbeatStep, hh]
    split
    · intro _ howner
      cases howner
    · exact h
  | send =>
    simp only [heartbeatStep, hh]
    split
    · exact fun _ _ hrecv _ => absurd rfl (hrecv _)
    · exact fun _ _ _ hunlock => absurd rfl (hunlock _)
  | recv r =>
    simp only [heartbeatStep, hh]
    split
    · exact fun _ _ _ hunlock => absurd rfl (hunlock _)
    · split
      · exact fun _ _ _ hunlock => absurd rfl (hunlock _)
      · exact h
  | unlock m =>
    -- whoever holds the mutex loses it
    have hfree : (heartbeatStep s ok).owner = none := by
      cases m with
      | none => simp only [heartbeatStep, hh]
      | some m => cases m <;> simp only [heartbeatStep, hh]
    intro _ howner
    rw [hfree] at howner
    cases howner
  | unlockAgain =>
    intro _ howner
    simp [heartbeatStep, hh] at howner

theorem inv_handler {s : Session} (h : Inv s) (ok : Bool) (task : Option ℕ)
    (hc : Fed s (.handler ok task)) : Inv (handlerStep s ok task) := by
  cases hs : s.handler with
  | wait =>
    simp only [handlerStep, hs]
    split
    · split
      · exact fun _ _ _ _ => Or.inr (Or.inr (by simp))
      · exact h
    · exact fun _ _ _ _ => Or.inr (Or.inr (by simp))
  | reply r =>
    simp only [handlerStep, hs]
    exact fun _ _ _ _ => Or.inr (Or.inr (by simp))
  | assign =>
    simp only [handlerStep, hs]
    intro hwaits howner _ _
    rcases hc hs hwaits howner with hserver | hworker | htask
    · exact Or.inl hserver
    · exact Or.inr (Or.inl fun he => hworker (List.append_eq_nil_iff.mp he).1)
    · cases task with
      | none => exact absurd rfl htask
      | some taskId => exact Or.inr (Or.inl (by simp))
  | stopped =>
    simp only [handlerStep, hs]
    exact h

theorem inv_next (s : Session) (a : Act) (h : Inv s) (hc : Fed s a) : Inv (next s a) := by
  cases a with
  | main ok => exact inv_main h ok hc
  | heartbeat ok => exact inv_heartbeat h ok
  | handler ok task => exact inv_handler h ok task hc

/-- In every interleaving in which the main loop is fed no state is deadlocked. -/
theorem no_deadlock_when_fed (as : List Act) (h : Meets next Fed start as) :
    Along next (fun s => ¬ Deadlocked s) start as := by
  have h0 : Inv start := by
    intro hwaits
    simp [MainWaits, start] at hwaits
  exact along_mono (fun _ hi => hi.not_deadlocked) (along_of_meets inv_next h0 h)

def fedRun : List Act :=
  [.heartbeat true, .heartbeat true, .heartbeat true, .handler true none, .handler true none,
    .heartbeat true, .heartbeat true, .handler true (some 7), .main true, .main true]

theorem no_deadlock_fedRun : Along next (fun s => ¬ Deadlocked s) start fedRun := by
  refine no_deadlock_when_fed fedRun ?_
  simp [fedRun, Meets, Fed, next, start, mainStep, heartbeatStep, handlerStep, Session.pushed,
    UnderWay, MainWaits]

/-- A main loop that starts to wait while nothing is under way is deadlocked as
soon as the heartbeat thread wakes up. -/
theorem unfed_deadlocks {s : Session} (hm : s.main = .lock) (howner : s.owner = none)
    (hh : s.heartbeat = .sleep) (hway : ¬ UnderWay s) (ok ok' : Bool) :
    Deadlocked (next (next s (.main ok)) (.heartbeat ok')) := by
  have hall : s.toServer = [] ∧ s.toWorker = [] ∧ s.handler = .wait := by
    simpa [UnderWay] using hway
  obtain ⟨hserver, hworker, hwait⟩ := hall
  simp only [next, mainStep, hm, howner, ite_true, heartbeatStep, hh]
  exact ⟨Or.inl rfl, rfl, rfl, hwait, hserver, hworker⟩

/-- The main loop waits first, then the heartbeat thread wakes up. -/
theorem deadlock_reached :
    ¬ Along next (fun s => ¬ Deadlocked s) start [.main true, .heartbeat true] := by
  intro h
  have hdead : Deadlocked (next (next start (.main true)) (.heartbeat true)) :=
    unfed_deadlocks rfl rfl rfl (by simp [UnderWay, start]) true true
  exact along_iff_prefix.mp h [.main true, .heartbeat true] [] rfl hdead

end CSimples.Deadlock
