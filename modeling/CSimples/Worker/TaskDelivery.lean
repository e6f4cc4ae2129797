import CSimples.Lib.Run
import CSimples.Worker.WorkerServer

/-!
# What becomes of the messages a worker receives

Replies and tasks come over one connection, and whoever receives next gets the
next message. The heartbeat thread takes a TASK for the answer to its heartbeat
and drops it (worker_server.c:145-148). The main loop drops every TASK as well:
it compares the 0 that `recv_payload` returns with `sizeof(task)`
(worker_server.c:328-332). As long as nobody takes a TASK off the connection,
every exchange gets the reply to its own request.
-/

namespace CSimples.TaskDelivery
open WorkerServer Run

def inHand : MainPc → List ℕ
  | .handle m => m.tasks
  | .process taskId => [taskId]
  | _ => []

/-- Received tasks are handed to `process_task` once each, in order, and every
exchange consumed the reply to its request. -/
def Delivers (s : Session) : Prop :=
  s.received = s.processed ++ inHand s.main ∧ ∀ x ∈ s.exchanges, x.2 = .reply x.1

/-- The thread does not deal with a TASK: the main loop holds none, and the
heartbeat thread receives none. -/
def TaskFree (s : Session) : Act → Prop
  | .main _ => ∀ taskId, s.main ≠ .handle (.task taskId)
  | .heartbeat _ => ∀ r taskId, s.heartbeat = .recv r → s.toWorker.head? ≠ some (.task taskId)
  | .handler _ _ => True

def mainHolds : MainPc → Bool
  | .recv | .handle _ | .unlock | .resultSend _ | .resultRecv _ | .resultUnlock => true
  | _ => false

def heartbeatHolds : HeartbeatPc → Bool
  | .send | .recv _ | .unlock _ => true
  | _ => false

def answers : Message → List Request
  | .reply r => [r]
  | .task _ => []

def handling : HandlerPc → List Request
  | .reply r => [r]
  | _ => []

def pending (toWorker : List Message) (handler : HandlerPc) (toServer : List Request) :
    List Request := toWorker.flatMap answers ++ handling handler ++ toServer

def awaited : HeartbeatPc → List Request
  | .recv r => [r]
  | _ => []

def Idle : MainPc → Prop
  | .process _ | .resultLock _ | .resultSend _ | .resultRecv _ | .resultUnlock => False
  | _ => True

def Calm : HeartbeatPc → Prop
  | .unlock (some (.task _)) | .unlockAgain => False
  | _ => True

/-- The invariant of runs that deal with no TASK. -/
structure Inv (s : Session) : Prop where
  delivers : Delivers s
  idle : Idle s.main
  calm : Calm s.heartbeat
  mainOwns : mainHolds s.main = true → s.owner = some .main
  heartbeatOwns : heartbeatHolds s.heartbeat = true → s.owner = some .heartbeat
  ended : s.handler = .stopped → s.toServer = []
  outstanding : (pending s.toWorker s.handler s.toServer).Sublist (awaited s.heartbeat)

theorem holds_false {b : Bool} {P : Prop} (h : b = true → P) (hn : ¬ P) : b = false := by
  cases b with
  | true => exact absurd (h rfl) hn
  | false => rfl

theorem Inv.heartbeat_free {s : Session} (h : Inv s) (hm : mainHolds s.main = true) :
    heartbeatHolds s.heartbeat = false := by
  refine holds_false h.heartbeatOwns ?_
  rw [h.mainOwns hm]
  decide

theorem Inv.main_free {s : Session} (h : Inv s) (hb : heartbeatHolds s.heartbeat = true) :
    mainHolds s.main = false := by
  refine holds_false h.mainOwns ?_
  rw [h.heartbeatOwns hb]
  decide

theorem pending_cons (m : Message) (rest : List Message) (handler : HandlerPc)
    (toServer : List Request) :
    pending (m :: rest) handler toServer = answers m ++ pending rest handler toServer := by
  simp only [pending, List.flatMap_cons, List.append_assoc]

theorem pending_reply {r r' : Request} {rest : List Message} {handler : HandlerPc}
    {toServer : List Request}
    (h : (pending (.reply r' :: rest) handler toServer).Sublist (awaited (.recv r))) :
    r' = r ∧ pending rest handler toServer = [] := by
  rw [pending_cons] at h
  have hlen := h.length_le
  simp only [answers, awaited, List.length_append, List.length_singleton] at hlen
  exact ⟨List.mem_singleton.mp (h.subset (List.mem_cons_self ..)),
    List.eq_nil_of_length_eq_zero (by omega)⟩

theorem not_holds {b : Bool} (h : b = false) {P : Prop} : b = true → P := by
  intro hb
  rw [h] at hb
  cases hb

/-! ### The invariant is kept by steps that deal with no TASK -/

theorem inv_main {s : Session} (h : Inv s) (ok : Bool) (hc : TaskFree s (.main ok)) :
    Inv (mainStep s ok) := by
  have hreceived := h.delivers.1
  cases hm : s.main with
  | lock =>
    rw [hm] at hreceived
    simp only [mainStep, hm]
    split
    · rename_i howner
      have hfree : heartbeatHolds s.heartbeat = false :=
        holds_false h.heartbeatOwns (by rw [howner]; simp)
      exact ⟨⟨hreceived, h.delivers.2⟩, trivial, h.calm, fun _ => rfl, not_holds hfree, h.ended,
        h.outstanding⟩
    · exact h
  | recv =>
    rw [hm] at hreceived
    have hholds : mainHolds s.main = true := by rw [hm]; rfl
    have hown := h.mainOwns hholds
    simp only [mainStep, hm]
    split
    · rename_i m rest hw
      refine ⟨⟨?_, h.delivers.2⟩, trivial, h.calm, fun _ => hown, h.heartbeatOwns, h.ended, ?_⟩
      · simp only [inHand, List.append_nil] at hreceived ⊢
        rw [hreceived]
      · have hout := h.outstanding
        rw [hw, pending_cons] at hout
        exact (List.sublist_append_right _ _).trans hout
    · split
      · exact ⟨⟨hreceived, h.delivers.2⟩, trivial, h.calm, fun _ => hown, h.heartbeatOwns, h.ended,
          h.outstanding⟩
      · exact h
  | handle m =>
    rw [hm] at hreceived
    have hfree := h.heartbeat_free (by rw [hm]; rfl)
    cases m with
    | task taskId => exact absurd hm (hc taskId)
    | reply r =>
      simp only [mainStep, hm]
      exact ⟨⟨hreceived, h.delivers.2⟩, trivial, h.calm, not_holds rfl, not_holds hfree, h.ended,
        h.outstanding⟩
  | unlock =>
    rw [hm] at hreceived
    have hfree := h.heartbeat_free (by rw [hm]; rfl)
    simp only [mainStep, hm]
    exact ⟨⟨hreceived, h.delivers.2⟩, trivial, h.calm, not_holds rfl, not_holds hfree, h.ended,
      h.outstanding⟩
  | stopped =>
    simp only [mainStep, hm]
    exact h
  | process | resultLock | resultSend | resultRecv | resultUnlock =>
    have hidle := h.idle
    rw [hm] at hidle
    exact hidle.elim

theorem inv_send {s : Session} (h : Inv s) (ok : Bool) (hh : s.heartbeat = .send) :
    Inv (heartbeatStep s ok) := by
  have hout := h.outstanding
  have hown := h.heartbeatOwns (by rw [hh]; rfl)
  rw [hh] at hout
  simp only [heartbeatStep, hh]
  split
  · refine ⟨h.delivers, h.idle, trivial, h.mainOwns, fun _ => hown, ?_, ?_⟩
    · intro (hstop : s.handler = .stopped)
      simp only [Session.pushed, hstop, ite_true]
      exact h.ended hstop
    · have hnone := List.sublist_nil.mp hout
      simp only [pending, List.append_eq_nil_iff] at hnone
      simp only [pending, Session.pushed, hnone, awaited]
      split
      · exact List.nil_sublist _
      · exact List.Sublist.refl _
  · exact ⟨h.delivers, h.idle, trivial, h.mainOwns, fun _ => hown, h.ended, hout⟩

theorem inv_receive {s : Session} (h : Inv s) (ok : Bool) (hc : TaskFree s (.heartbeat ok))
    {r : Request} (hh : s.heartbeat = .recv r) : Inv (heartbeatStep s ok) := by
  have hout := h.outstanding
  have hown := h.heartbeatOwns (by rw [hh]; rfl)
  rw [hh] at hout
  simp only [heartbeatStep, hh]
  split
  · rename_i m rest hw
    cases m with
    | task taskId => exact absurd (by rw [hw]; rfl) (hc r taskId hh)
    | reply r' =>
      rw [hw] at hout
      obtain ⟨rfl, hrest⟩ := pending_reply hout
      refine ⟨⟨?_, ?_⟩, h.idle, trivial, h.mainOwns, fun _ => hown, h.ended, ?_⟩
      · simpa [Message.tasks] using h.delivers.1
      · intro x hx
        rcases List.mem_append.mp hx with hx | hx
        · exact h.delivers.2 x hx
        · rw [List.mem_singleton.mp hx]
      · rw [hrest]
        exact List.nil_sublist _
  · rename_i hw
    split
    · rename_i hstop
      refine ⟨h.delivers, h.idle, trivial, h.mainOwns, fun _ => hown, h.ended, ?_⟩
      rw [hw, hstop, h.ended hstop]
      exact List.Sublist.refl _
    · exact h

theorem inv_heartbeat {s : Session} (h : Inv s) (ok : Bool) (hc : TaskFree s (.heartbeat ok)) :
    Inv (heartbeatStep s ok) := by
  have hout := h.outstanding
  cases hh : s.heartbeat with
  | sleep =>
    rw [hh] at hout
    simp only [heartbeatStep, hh]
    exact ⟨h.delivers, h.idle, trivial, h.mainOwns, not_holds rfl, h.ended, hout⟩
  | lock =>
    rw [hh] at hout
    simp only [heartbeatStep, hh]
    split
    · rename_i howner
      have hfree : mainHolds s.main = false :=
        holds_false h.mainOwns (by rw [howner]; simp)
      exact ⟨h.delivers, h.idle, trivial, not_holds hfree, fun _ => rfl, h.ended, hout⟩
    · exact h
  | send => exact inv_send h ok hh
  | recv r => exact inv_receive h ok hc hh
  | unlock m =>
    rw [hh] at hout
    have hcalm := h.calm
    rw [hh] at hcalm
    have hfree := h.main_free (by rw [hh]; rfl)
    have hsleep : heartbeatStep s ok = { s with owner := none, heartbeat := .sleep } := by
      cases m with
      | none => simp only [heartbeatStep, hh]
      | some m =>
        cases m with
        | task taskId => exact hcalm.elim
        | reply r => simp only [heartbeatStep, hh]
    rw [hsleep]
    exact ⟨h.delivers, h.idle, trivial, not_holds hfree, not_holds rfl, h.ended, hout⟩
  | unlockAgain =>
    have hcalm := h.calm
    rw [hh] at hcalm
    exact hcalm.elim

theorem inv_handler {s : Session} (h : Inv s) (ok : Bool) (task : Option ℕ) :
    Inv (handlerStep s ok task) := by
  have hout := h.outstanding
  cases hs : s.handler with
  | wait =>
    rw [hs] at hout
    simp only [handlerStep, hs]
    split
    · split
      · rename_i r rest hw
        rw [hw] at hout
        refine ⟨h.delivers, h.idle, h.calm, h.mainOwns, h.heartbeatOwns, by simp, ?_⟩
        simpa [pending, handling] using hout
      · exact h
    · refine ⟨h.delivers, h.idle, h.calm, h.mainOwns, h.heartbeatOwns, fun _ => rfl, ?_⟩
      refine List.Sublist.trans ?_ hout
      simp only [pending, handling, List.append_nil]
      exact List.sublist_append_left _ _
  | reply r =>
    rw [hs] at hout
    simp only [handlerStep, hs]
    refine ⟨h.delivers, h.idle, h.calm, h.mainOwns, h.heartbeatOwns, by simp, ?_⟩
    refine List.Sublist.trans ?_ hout
    cases ok with
    | true => simp [pending, handling, answers]
    | false => simp [pending, handling]
  | assign =>
    rw [hs] at hout
    simp only [handlerStep, hs]
    refine ⟨h.delivers, h.idle, h.calm, h.mainOwns, h.heartbeatOwns, by simp, ?_⟩
    cases task with
    | none => simpa [pending, handling] using hout
    | some taskId => simpa [pending, handling, answers] using hout
  | stopped =>
    simp only [handlerStep, hs]
    exact h

theorem inv_next (s : Session) (a : Act) (h : Inv s) (hc : TaskFree s a) : Inv (next s a) := by
  cases a with
  | main ok => exact inv_main h ok hc
  | heartbeat ok => exact inv_heartbeat h ok hc
  | handler ok task => exact inv_handler h ok task

theorem task_dropped {s : Session} {a : Act} (h : Inv s) (hc : ¬ TaskFree s a) :
    ¬ Delivers (next s a) := by
  rintro ⟨hafter, _⟩
  have hbefore := h.delivers.1
  cases a with
  | main ok =>
    obtain ⟨taskId, hm⟩ := not_forall_not.mp hc
    simp only [next, mainStep, hm, payload_never_complete, Bool.false_eq_true, ite_false] at hafter
    rw [hm, hafter] at hbefore
    simp [inHand, Message.tasks] at hbefore
  | heartbeat ok =>
    simp only [TaskFree, not_forall, not_not] at hc
    obtain ⟨r, taskId, hh, hhead⟩ := hc
    obtain ⟨rest, hw⟩ := List.head?_eq_some_iff.mp hhead
    simp only [next, heartbeatStep, hh, hw, Message.tasks] at hafter
    rw [← hbefore] at hafter
    simp at hafter
  | handler ok task => exact hc trivial

/-- Along an interleaving every TASK is processed and every exchange gets its
reply exactly as long as neither thread deals with a TASK. -/
theorem delivers_iff_taskFree (as : List Act) :
    Along next Delivers start as ↔ Meets next TaskFree start as := by
  refine along_iff_meets_of_inv (I := Inv) (fun _ h => h.delivers) inv_next
    (fun _ _ h hc => task_dropped h hc) ?_ as
  exact ⟨⟨rfl, by simp [start]⟩, trivial, trivial, not_holds rfl, not_holds rfl, by simp [start],
    List.Sublist.refl _⟩

def taskToMain : List Act :=
  [.heartbeat true, .heartbeat true, .heartbeat true, .handler true none, .handler true none,
    .handler true (some 7), .heartbeat true, .heartbeat true, .main true, .main true, .main true]

def taskToHeartbeat : List Act :=
  [.heartbeat true, .heartbeat true, .heartbeat true, .handler true none, .handler true none,
    .handler true (some 7), .heartbeat true, .heartbeat true,
    .heartbeat true, .heartbeat true, .heartbeat true, .heartbeat true]

/-- Both threads lose the task, and the heartbeat takes it for its reply. -/
theorem task_lost :
    ¬ Along next Delivers start taskToMain ∧ ¬ Along next Delivers start taskToHeartbeat := by
  constructor
  · intro h
    obtain ⟨hreceived, _⟩ := along_iff_prefix.mp h taskToMain [] (List.append_nil _).symm
    revert hreceived
    decide
  · intro h
    obtain ⟨_, hreplies⟩ := along_iff_prefix.mp h taskToHeartbeat [] (List.append_nil _).symm
    have hmem : (Request.heartbeat 1, Message.task 7) ∈
        (taskToHeartbeat.foldl next start).exchanges := by decide
    exact absurd (hreplies _ hmem) (by decide)

end CSimples.TaskDelivery
