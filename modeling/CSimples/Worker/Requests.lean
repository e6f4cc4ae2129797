import CSimples.Server.ServerMessages
import CSimples.Worker.JobProcessing

/-!
# Requests and their answers (worker/worker.c:215-243, 310-434, 516-709)

The heartbeat thread and the job thread of a worker on one connection. The lock
covers the preparation of a message, not its exchange, so the sends and receives of
the two threads interleave; only `worker_disconnect_from_server` keeps the lock until
it has closed the socket. `worker_id` is not negative once the threads run.
-/

namespace CSimples.Requests
open Block JobHandler ServerMessages JobProcessing Run

inductive Thread where
  | heartbeat
  | job
  deriving Repr, DecidableEq

def Thread.other : Thread → Thread
  | .heartbeat => .job
  | .job => .heartbeat

def sender : Body → Thread
  | .workerHeartbeat | .workerDisconnect => .heartbeat
  | _ => .job

structure Sent where
  number : ℕ
  body : Body
  deriving Repr, DecidableEq

/-- In front of the section that prepares a message, in front of `send_message`, or in
front of `receive_message`; `draining` is the receive after a WORKER_DISCONNECT that
could not be sent. A thread is `gone` when it uses this connection no more. -/
inductive Point where
  | before (body : Body)
  | ready (body : Body)
  | waiting (r : Sent)
  | draining
  | closing
  | gone
  deriving Repr, DecidableEq

/-! ### After an exchange -/

/-- What `worker_process_job` meets: its allocation, and the time it takes. -/
structure Work where
  mem : (size : ℕ) → Slots UInt8 size
  processingTime : ℤ

/-- `ERR_JOB_PROCESSING_FAILED` is defined nowhere in the repository. -/
def report (errJobProcessingFailed : ℤ) (w : Work) (msg : JobAssigned) : Body :=
  let r := workerProcessJob msg.jobType msg.data msg.dataSize true (w.mem msg.dataSize)
  let result := r.2.getD (none, 0)
  if r.1 < 0 then .jobFailed msg.jobId errJobProcessingFailed
  else .jobCompleted msg.jobId result.1 result.2 w.processingTime

/-- A failed heartbeat makes its thread leave the connection; the job thread asks again. -/
def failed : Body → Point
  | .workerHeartbeat => .before .workerDisconnect
  | .workerDisconnect => .closing
  | _ => .before .requestJob

def answered (errJobProcessingFailed : ℤ) (w : Work) : Body → Answer → Point
  | .workerHeartbeat, .workerHeartbeatAck => .before .workerHeartbeat
  | .requestJob, .jobAssigned msg => .before (report errJobProcessingFailed w msg)
  | body, _ => failed body

/-! ### The connection -/

/-- Requests on their way to the server and answers on their way back, each answer with
the request that it answers; `givenUp` are the requests whose receive has failed. -/
structure Link where
  running : Bool
  connected : Bool
  points : Thread → Point
  requests : List Sent
  answers : List (Sent × Answer)
  sent : ℕ
  givenUp : List Sent

def Link.goto (s : Link) (t : Thread) (p : Point) : Link :=
  { s with points := Function.update s.points t p }

/-- `worker_disconnect_from_server` has the lock. -/
def Link.lockHeld (s : Link) : Bool :=
  match s.points .heartbeat with
  | .ready .workerDisconnect | .waiting ⟨_, .workerDisconnect⟩ | .draining | .closing => true
  | _ => false

def canAnswer : Body → Answer → Bool
  | .workerHeartbeat, .workerHeartbeatAck => true
  | .requestJob, .jobAssigned _ => true
  | .requestJob, .noJobAvailable => true
  | .jobCompleted jobId _ _ _, .jobCompletionAck id => decide (id = jobId)
  | .jobFailed jobId _, .jobFailureAck id => decide (id = jobId)
  | .workerDisconnect, .workerDisconnectAck => true
  | .workerRegister _ _ _ _, .workerRegistered _ => true
  | _, .error _ _ => true
  | _, _ => false

theorem canAnswer_error (body : Body) (code : ErrorCode) (text : String) :
    canAnswer body (.error code text) = true := by
  cases body <;> rfl

/-- The server of server.c is such a server, as long as it does not give the connection up
and its sends succeed. -/
theorem server_answers (c : Settings) (srv : Server) (socket : ℤ) (msg : Message) {out : Outcome}
    (hjob : out.jobSent = true)
    (hret : ¬ (serverHandleWorkerMessage c srv socket msg out).ret < 0) :
    ∃ header answer, (serverHandleWorkerMessage c srv socket msg out).sends = [⟨header, answer⟩] ∧
      canAnswer msg.body answer = true := by
  have herror : ∀ (srv : Server) code text, ∃ header answer,
      (sendErrorResponse srv out code text).sends = [⟨header, answer⟩] ∧
        canAnswer msg.body answer = true :=
    fun srv code text => ⟨_, _, rfl, canAnswer_error _ code text⟩
  obtain ⟨header, body⟩ := msg
  cases body with
  | workerRegister ipAddress port jobTypesSupported numJobTypes =>
    simp only [serverHandleWorkerMessage, handleRegister]
    split
    · exact herror _ _ _
    · exact ⟨_, _, rfl, rfl⟩
  | workerHeartbeat =>
    simp only [serverHandleWorkerMessage, handleHeartbeat]
    split
    · exact herror _ _ _
    · exact ⟨_, _, rfl, rfl⟩
  | requestJob =>
    simp only [serverHandleWorkerMessage, handleRequestJob] at hret ⊢
    split
    · exact herror _ _ _
    · have hrefused := assign_refused srv.handler socket out.now out.jobSent
      split
      · rename_i hneg
        have hnone := (hrefused.mp hneg).resolve_right (by simp [hjob])
        simp only [assignSelect, hnone]
        exact ⟨_, _, rfl, rfl⟩
      · rename_i hassigned
        obtain ⟨⟨i, job⟩, hsome⟩ :=
          Option.ne_none_iff_exists'.mp fun hnone => hassigned (hrefused.mpr (.inl hnone))
        simp only [assignSelect, hsome]
        exact ⟨_, _, rfl, rfl⟩
  | jobCompleted jobId resultData resultSize processingTimeMs =>
    simp only [serverHandleWorkerMessage, handleJobCompleted] at hret ⊢
    split
    · exact herror _ _ _
    · split
      · rename_i hknown hunknown
        simp [hknown, hunknown] at hret
      · exact ⟨_, _, rfl, by simp [canAnswer]⟩
  | jobFailed jobId errorCode =>
    simp only [serverHandleWorkerMessage, handleJobFailed] at hret ⊢
    split
    · exact herror _ _ _
    · split
      · rename_i hknown hunknown
        simp [hknown, hunknown] at hret
      · exact ⟨_, _, rfl, by simp [canAnswer]⟩
  | workerDisconnect =>
    simp only [serverHandleWorkerMessage, handleDisconnect]
    split
    · exact herror _ _ _
    · exact ⟨_, _, rfl, rfl⟩
  | submitJob jobType data dataSize => exact herror _ _ _
  | getJobStatus jobId => exact herror _ _ _
  | getJobResult jobId => exact herror _ _ _
  | other messageType => exact herror _ _ _

inductive Action where
  | enter (t : Thread)
  | send (t : Thread) (ok : Bool)
  | serve (answer : Answer)
  | receive (t : Thread) (ok : Bool) (w : Work)
  | close
  | stop

/-- The loops look at `is_running` in front of a heartbeat and of a request for a job. -/
def Link.enter (s : Link) (t : Thread) : Link :=
  match s.points t with
  | .before body =>
    if s.lockHeld = true then s
    else if s.running = false ∧ (body = .workerHeartbeat ∨ body = .requestJob) then s.goto t .gone
    else if s.connected = true then s.goto t (.ready body)
    else if body = .workerDisconnect then s.goto t .gone
    else s.goto t (failed body)
  | _ => s

/-- The result of sending WORKER_DISCONNECT is not looked at. -/
def Link.send (s : Link) (t : Thread) (ok : Bool) : Link :=
  match s.points t with
  | .ready body =>
    if ok = true ∧ s.connected = true then
      { s.goto t (.waiting ⟨s.sent, body⟩) with
        requests := s.requests ++ [⟨s.sent, body⟩]
        sent := s.sent + 1 }
    else if body = .workerDisconnect then s.goto t .draining
    else s.goto t (failed body)
  | _ => s

def Link.serve (s : Link) (answer : Answer) : Link :=
  match s.requests with
  | [] => s
  | r :: rest =>
    if canAnswer r.body answer = true then
      { s with requests := rest, answers := s.answers ++ [(r, answer)] }
    else s

/-- Without an answer on the connection the thread stays where it is. -/
def Link.receive (errJobProcessingFailed : ℤ) (s : Link) (t : Thread) (ok : Bool) (w : Work) :
    Link :=
  match s.points t with
  | .waiting r =>
    if ok = true ∧ s.connected = true then match s.answers with
      | [] => s
      | (_, answer) :: rest =>
        { s.goto t (answered errJobProcessingFailed w r.body answer) with answers := rest }
    else { s.goto t (failed r.body) with givenUp := r :: s.givenUp }
  | .draining =>
    if ok = true ∧ s.connected = true then match s.answers with
      | [] => s
      | _ :: rest => { s.goto t .closing with answers := rest }
    else s.goto t .closing
  | _ => s

def Link.close (s : Link) : Link :=
  match s.points .heartbeat with
  | .closing => { s.goto .heartbeat .gone with connected := false }
  | _ => s

def Link.step (errJobProcessingFailed : ℤ) (s : Link) : Action → Link
  | .enter t => s.enter t
  | .send t ok => s.send t ok
  | .serve answer => s.serve answer
  | .receive t ok w => s.receive errJobProcessingFailed t ok w
  | .close => s.close
  | .stop => { s with running := false }

def startLink : Link :=
  ⟨true, true, fun t => match t with
    | .heartbeat => .before .workerHeartbeat
    | .job => .before .requestJob, [], [], 0, []⟩

/-! ### Matching -/

def Link.taken (s : Link) (ok : Bool) : Option (Sent × Answer) :=
  if ok = true ∧ s.connected = true then s.answers.head? else none

def isAssigned : Answer → Bool
  | .jobAssigned _ => true
  | _ => false

/-- A receive returns the answer to the request in front of it, and no job goes to the
heartbeat thread. -/
def Matched (s : Link) : Action → Prop
  | .receive t ok _ => match s.points t with
    | .waiting r => ∀ a, s.taken ok = some a →
        a.1 = r ∧ (isAssigned a.2 = true → t = .job)
    | .draining => s.taken ok = none
    | _ => True
  | _ => True

/-- No earlier request is still waited for, or was given up. -/
def InTurn (s : Link) : Action → Prop
  | .receive t ok _ => match s.points t with
    | .waiting r => s.taken ok ≠ none →
        (∀ r', s.points t.other = .waiting r' → ¬ r'.number < r.number) ∧
          ∀ g ∈ s.givenUp, ¬ g.number < r.number
    | .draining => s.taken ok = none
    | _ => True
  | _ => True

def Link.outstanding (s : Link) : List Sent := s.answers.map Prod.fst ++ s.requests

/-- Every outstanding request is waited for by one thread, or given up. -/
structure Paired (s : Link) : Prop where
  ordered : s.outstanding.Pairwise fun r r' => r.number < r'.number
  numbered : ∀ r ∈ s.outstanding, r.number < s.sent
  owed : ∀ r ∈ s.outstanding, (∃ t, s.points t = .waiting r) ∨ r ∈ s.givenUp
  waits : ∀ t r, s.points t = .waiting r →
    r ∈ s.outstanding ∧ r ∉ s.givenUp ∧ sender r.body = t
  abandoned : ∀ r ∈ s.givenUp, r ∈ s.outstanding
  own : ∀ t body, s.points t = .before body ∨ s.points t = .ready body → sender body = t
  kinds : ∀ a ∈ s.answers, canAnswer a.1.body a.2 = true

variable {errJobProcessingFailed : ℤ} {s : Link} {t : Thread}

theorem other_of_ne {t u : Thread} (h : t ≠ u) : u = t.other := by
  cases t <;> cases u <;> first | rfl | exact absurd rfl h

theorem goto_self (p : Point) : (s.goto t p).points t = p := Function.update_self ..

theorem goto_other {u : Thread} (h : u ≠ t) (p : Point) : (s.goto t p).points u = s.points u :=
  Function.update_of_ne h ..

theorem taken_head {ok : Bool} {a : Sent × Answer} (h : s.taken ok = some a) :
    ∃ rest, s.answers = a :: rest := by
  unfold Link.taken at h
  split at h
  · exact List.head?_eq_some_iff.mp h
  · cases h

theorem canAnswer_assigned {body : Body} {answer : Answer} (h : canAnswer body answer = true)
    (hassigned : isAssigned answer = true) : sender body = .job := by
  cases answer with
  | jobAssigned msg => cases body <;> first | rfl | cases h
  | _ => cases hassigned

theorem Paired.first (h : Paired s) {a : Sent × Answer} {rest : List (Sent × Answer)}
    (hanswers : s.answers = a :: rest) :
    a.1 ∈ s.outstanding ∧ ∀ r ∈ s.outstanding, r = a.1 ∨ a.1.number < r.number := by
  have hout : s.outstanding = a.1 :: (rest.map Prod.fst ++ s.requests) := by
    rw [Link.outstanding, hanswers, List.map_cons, List.cons_append]
  have hordered := h.ordered
  rw [hout] at hordered ⊢
  constructor
  · exact List.mem_cons_self ..
  · intro r hr
    rcases List.mem_cons.mp hr with heq | hin
    · exact .inl heq
    · exact .inr ((List.pairwise_cons.mp hordered).1 r hin)

theorem head_iff_turn (h : Paired s) {r : Sent} (hp : s.points t = .waiting r)
    {a : Sent × Answer} {rest : List (Sent × Answer)} (hanswers : s.answers = a :: rest) :
    a.1 = r ↔ (∀ r', s.points t.other = .waiting r' → ¬ r'.number < r.number) ∧
      ∀ g ∈ s.givenUp, ¬ g.number < r.number := by
  obtain ⟨hhead, hleast⟩ := h.first hanswers
  constructor
  · intro heq
    have hnone : ∀ r' ∈ s.outstanding, ¬ r'.number < r.number := by
      intro r' hr'
      rcases hleast r' hr' with h' | h'
      · rw [h', heq]
        omega
      · rw [heq] at h'
        omega
    exact ⟨fun r' hw => hnone r' (h.waits _ r' hw).1, fun g hg => hnone g (h.abandoned g hg)⟩
  · intro ⟨hother, hgiven⟩
    by_contra hne
    have hlt : a.1.number < r.number :=
      (hleast r (h.waits t r hp).1).resolve_left fun heq => hne heq.symm
    rcases h.owed a.1 hhead with ⟨u, hu⟩ | hg
    · have hut : t ≠ u := by
        rintro rfl
        rw [hp] at hu
        cases hu
        exact hne rfl
      rw [other_of_ne hut] at hu
      exact hother a.1 hu hlt
    · exact hgiven a.1 hg hlt

theorem matched_iff_inTurn (h : Paired s) (a : Action) : Matched s a ↔ InTurn s a := by
  cases a with
  | receive t ok w =>
    simp only [Matched, InTurn]
    cases hp : s.points t with
    | waiting r =>
      dsimp only
      cases htaken : s.taken ok with
      | none => simp
      | some a =>
        obtain ⟨rest, hanswers⟩ := taken_head htaken
        have hturn := head_iff_turn h hp hanswers
        constructor
        · intro hmatched _
          exact hturn.mp (hmatched a rfl).1
        · intro hin a' ha'
          cases ha'
          have heq := hturn.mpr (hin (by simp))
          refine ⟨heq, ?_⟩
          intro hassigned
          have hkind := h.kinds a (by simp [hanswers])
          rw [← (h.waits t r hp).2.2, ← heq]
          exact canAnswer_assigned hkind hassigned
    | _ => exact Iff.rfl
  | _ => exact Iff.rfl

/-! ### What a step keeps -/

theorem goto_cases {p q : Point} {u : Thread} (hu : (s.goto t p).points u = q) :
    u = t ∧ p = q ∨ u ≠ t ∧ s.points u = q := by
  by_cases hut : u = t
  · subst hut
    rw [goto_self] at hu
    exact .inl ⟨rfl, hu⟩
  · rw [goto_other hut] at hu
    exact .inr ⟨hut, hu⟩

theorem Paired.own_goto (h : Paired s) {p : Point}
    (hown : ∀ body, p = .before body ∨ p = .ready body → sender body = t) (u : Thread) (body : Body)
    (hu : (s.goto t p).points u = .before body ∨ (s.goto t p).points u = .ready body) :
    sender body = u := by
  by_cases hut : u = t
  · subst hut
    rw [goto_self] at hu
    exact hown body hu
  · rw [goto_other hut] at hu
    exact h.own u body hu

theorem Paired.owed_goto (h : Paired s) {r : Sent} (hr : r ∈ s.outstanding)
    (hne : s.points t ≠ .waiting r) (p : Point) :
    (∃ u, (s.goto t p).points u = .waiting r) ∨ r ∈ s.givenUp := by
  rcases h.owed r hr with ⟨u, hu⟩ | hg
  · have hut : u ≠ t := by
      rintro rfl
      exact hne hu
    exact .inl ⟨u, (goto_other hut p).trans hu⟩
  · exact .inr hg

/-- Nothing is sent or received, and no thread begins or stops to wait. -/
theorem Paired.goto (h : Paired s) (hold : ∀ r, s.points t ≠ .waiting r) {p : Point}
    (hnew : ∀ r, p ≠ .waiting r)
    (hown : ∀ body, p = .before body ∨ p = .ready body → sender body = t) : Paired (s.goto t p) := by
  constructor
  · exact h.ordered
  · exact h.numbered
  · exact fun r hr => h.owed_goto hr (hold r) p
  · intro u r hu
    rcases goto_cases hu with ⟨_, heq⟩ | ⟨_, hu⟩
    · exact absurd heq (hnew r)
    · exact h.waits u r hu
  · exact h.abandoned
  · exact h.own_goto hown
  · exact h.kinds

theorem failed_waits (body : Body) (r : Sent) : failed body ≠ .waiting r := by
  cases body <;> simp [failed]

theorem failed_own {body body' : Body} (h : failed body = .before body' ∨ failed body = .ready body') :
    sender body' = sender body := by
  rcases h with h | h
  · cases body <;> cases h <;> rfl
  · cases body <;> cases h

theorem answered_waits (w : Work) (body : Body) (answer : Answer) (r : Sent) :
    answered errJobProcessingFailed w body answer ≠ .waiting r := by
  unfold answered
  split
  · simp
  · simp
  · exact failed_waits _ r

theorem sender_report (w : Work) (msg : JobAssigned) :
    sender (report errJobProcessingFailed w msg) = .job := by
  unfold report
  dsimp only
  split <;> rfl

theorem answered_own {w : Work} {body body' : Body} {answer : Answer}
    (h : answered errJobProcessingFailed w body answer = .before body' ∨
      answered errJobProcessingFailed w body answer = .ready body') :
    sender body' = sender body := by
  unfold answered at h
  split at h
  · rcases h with h | h
    · cases h
      rfl
    · cases h
  · rcases h with h | h
    · cases h
      exact sender_report w _
    · cases h
  · exact failed_own h

theorem enter_paired (h : Paired s) (t : Thread) : Paired (s.enter t) := by
  unfold Link.enter
  split
  · rename_i body hp
    have hbody := h.own t body (.inl hp)
    have hold : ∀ r, s.points t ≠ .waiting r := by simp [hp]
    split
    · exact h
    · split
      · exact h.goto hold (by simp) (by simp)
      · split
        · apply h.goto hold (by simp)
          rintro body' (hb | hb)
          · cases hb
          · cases hb
            exact hbody
        · split
          · exact h.goto hold (by simp) (by simp)
          · exact h.goto hold (failed_waits body) fun body' hb => (failed_own hb).trans hbody
  · exact h

theorem sent_paired (h : Paired s) {body : Body} (hp : s.points t = .ready body) :
    Paired { s.goto t (.waiting ⟨s.sent, body⟩) with
      requests := s.requests ++ [⟨s.sent, body⟩], sent := s.sent + 1 } := by
  have hbody := h.own t body (.inr hp)
  have hold : ∀ r, s.points t ≠ .waiting r := by simp [hp]
  set new : Sent := ⟨s.sent, body⟩
  set s' : Link := { s.goto t (.waiting new) with
    requests := s.requests ++ [new], sent := s.sent + 1 }
  have hout : s'.outstanding = s.outstanding ++ [new] := by
    show s.answers.map Prod.fst ++ (s.requests ++ [new]) = _
    rw [Link.outstanding, List.append_assoc]
  have hfresh : new ∉ s.givenUp := by
    intro hg
    have hlt : s.sent < s.sent := h.numbered _ (h.abandoned _ hg)
    omega
  constructor
  · rw [hout, List.pairwise_append]
    refine ⟨h.ordered, by simp, ?_⟩
    intro r hr r' hr'
    rw [List.mem_singleton.mp hr']
    exact h.numbered r hr
  · intro r hr
    rw [hout] at hr
    show r.number < s.sent + 1
    rcases List.mem_append.mp hr with hr | hr
    · have hlt := h.numbered r hr
      omega
    · rw [List.mem_singleton.mp hr]
      exact Nat.lt_succ_self _
  · intro r hr
    rw [hout] at hr
    rcases List.mem_append.mp hr with hr | hr
    · exact h.owed_goto hr (hold r) _
    · rw [List.mem_singleton.mp hr]
      exact .inl ⟨t, goto_self _⟩
  · intro u r hu
    rw [hout]
    rcases goto_cases hu with ⟨rfl, heq⟩ | ⟨_, hu⟩
    · cases heq
      exact ⟨by simp, hfresh, hbody⟩
    · obtain ⟨hmem, hrest⟩ := h.waits u r hu
      exact ⟨List.mem_append_left _ hmem, hrest⟩
  · intro g hg
    rw [hout]
    exact List.mem_append_left _ (h.abandoned g hg)
  · exact h.own_goto (by simp)
  · exact h.kinds

theorem send_paired (h : Paired s) (t : Thread) (ok : Bool) : Paired (s.send t ok) := by
  unfold Link.send
  split
  · rename_i body hp
    have hbody := h.own t body (.inr hp)
    have hold : ∀ r, s.points t ≠ .waiting r := by simp [hp]
    split
    · exact sent_paired h hp
    · split
      · exact h.goto hold (by simp) (by simp)
      · exact h.goto hold (failed_waits body) fun body' hb => (failed_own hb).trans hbody
  · exact h

theorem serve_paired (h : Paired s) (answer : Answer) : Paired (s.serve answer) := by
  unfold Link.serve
  split
  · exact h
  · rename_i r rest hreq
    split
    · rename_i hkind
      set s' : Link := { s with requests := rest, answers := s.answers ++ [(r, answer)] }
      have hout : s'.outstanding = s.outstanding := by
        show (s.answers ++ [(r, answer)]).map Prod.fst ++ rest = _
        simp [Link.outstanding, hreq]
      constructor
      · rw [hout]
        exact h.ordered
      · rw [hout]
        exact h.numbered
      · rw [hout]
        exact h.owed
      · rw [hout]
        exact h.waits
      · rw [hout]
        exact h.abandoned
      · exact h.own
      · intro a ha
        rcases List.mem_append.mp ha with ha | ha
        · exact h.kinds a ha
        · rw [List.mem_singleton.mp ha]
          exact hkind
    · exact h

theorem receive_taken (h : Paired s) {r : Sent} (hp : s.points t = .waiting r) {answer : Answer}
    {rest : List (Sent × Answer)} (hanswers : s.answers = (r, answer) :: rest) (w : Work) :
    Paired { s.goto t (answered errJobProcessingFailed w r.body answer) with answers := rest } := by
  set s' : Link :=
    { s.goto t (answered errJobProcessingFailed w r.body answer) with answers := rest }
  obtain ⟨_, hkept, hsender⟩ := h.waits t r hp
  have hout : s.outstanding = r :: s'.outstanding := by
    show s.answers.map Prod.fst ++ s.requests = r :: (rest.map Prod.fst ++ s.requests)
    rw [hanswers, List.map_cons, List.cons_append]
  have hordered := h.ordered
  rw [hout] at hordered
  have hfirst := (List.pairwise_cons.mp hordered).1
  have hsub : ∀ r', r' ∈ s'.outstanding → r' ∈ s.outstanding := by
    intro r' hr'
    rw [hout]
    exact List.mem_cons_of_mem _ hr'
  have hback : ∀ r', r' ∈ s.outstanding → r' ≠ r → r' ∈ s'.outstanding := by
    intro r' hr' hne
    rw [hout] at hr'
    exact (List.mem_cons.mp hr').resolve_left hne
  constructor
  · exact (List.pairwise_cons.mp hordered).2
  · exact fun r' hr' => h.numbered r' (hsub r' hr')
  · intro r' hr'
    apply h.owed_goto (hsub r' hr')
    intro heq
    rw [hp] at heq
    cases heq
    have hlt := hfirst r hr'
    omega
  · intro u r' hu
    rcases goto_cases hu with ⟨_, heq⟩ | ⟨hut, hu⟩
    · exact absurd heq (answered_waits w r.body answer r')
    · obtain ⟨hmem, hgiven, hsender'⟩ := h.waits u r' hu
      refine ⟨hback r' hmem ?_, hgiven, hsender'⟩
      rintro rfl
      exact hut (hsender'.symm.trans hsender)
  · intro g hg
    apply hback g (h.abandoned g hg)
    rintro rfl
    exact hkept hg
  · exact h.own_goto fun body hb => (answered_own hb).trans hsender
  · intro a ha
    apply h.kinds
    rw [hanswers]
    exact List.mem_cons_of_mem _ ha

theorem receive_failed (h : Paired s) {r : Sent} (hp : s.points t = .waiting r) :
    Paired { s.goto t (failed r.body) with givenUp := r :: s.givenUp } := by
  obtain ⟨hmem, _, hsender⟩ := h.waits t r hp
  constructor
  · exact h.ordered
  · exact h.numbered
  · intro r' hr'
    by_cases heq : r' = r
    · rw [heq]
      exact .inr (List.mem_cons_self ..)
    · have hne : s.points t ≠ .waiting r' := by
        rw [hp]
        intro hw
        cases hw
        exact heq rfl
      rcases h.owed_goto hr' hne (failed r.body) with hw | hg
      · exact .inl hw
      · exact .inr (List.mem_cons_of_mem _ hg)
  · intro u r' hu
    rcases goto_cases hu with ⟨_, heq⟩ | ⟨hut, hu⟩
    · exact absurd heq (failed_waits r.body r')
    · obtain ⟨hmem', hgiven, hsender'⟩ := h.waits u r' hu
      refine ⟨hmem', ?_, hsender'⟩
      intro hin
      rcases List.mem_cons.mp hin with rfl | hin
      · exact hut (hsender'.symm.trans hsender)
      · exact hgiven hin
  · intro g hg
    rcases List.mem_cons.mp hg with rfl | hg
    · exact hmem
    · exact h.abandoned g hg
  · exact h.own_goto fun body hb => (failed_own hb).trans hsender
  · exact h.kinds

theorem receive_paired (h : Paired s) (ok : Bool) (w : Work)
    (hmatched : Matched s (.receive t ok w)) :
    Paired (s.receive errJobProcessingFailed t ok w) := by
  simp only [Matched, Link.taken] at hmatched
  unfold Link.receive
  cases hp : s.points t with
  | waiting r =>
    rw [hp] at hmatched
    dsimp only at hmatched ⊢
    split
    · rename_i hok
      rw [if_pos hok] at hmatched
      cases hanswers : s.answers with
      | nil => exact h
      | cons a rest =>
        obtain ⟨r₀, answer⟩ := a
        rw [hanswers] at hmatched
        obtain ⟨heq, _⟩ := hmatched _ rfl
        cases heq
        exact receive_taken h hp hanswers w
    · exact receive_failed h hp
  | draining =>
    rw [hp] at hmatched
    dsimp only at hmatched ⊢
    have hold : ∀ r, s.points t ≠ .waiting r := by simp [hp]
    split
    · rename_i hok
      rw [if_pos hok] at hmatched
      rw [List.head?_eq_none_iff.mp hmatched]
      exact h
    · exact h.goto hold (by simp) (by simp)
  | _ => exact h

theorem close_paired (h : Paired s) : Paired s.close := by
  unfold Link.close
  split
  · rename_i hp
    have hgone := h.goto (t := .heartbeat) (p := .gone) (by simp [hp]) (by simp) (by simp)
    exact ⟨hgone.ordered, hgone.numbered, hgone.owed, hgone.waits, hgone.abandoned, hgone.own,
      hgone.kinds⟩
  · exact h

theorem step_paired (h : Paired s) (a : Action) (hmatched : Matched s a) :
    Paired (s.step errJobProcessingFailed a) := by
  cases a with
  | enter t => exact enter_paired h t
  | send t ok => exact send_paired h t ok
  | serve answer => exact serve_paired h answer
  | receive t ok w => exact receive_paired h ok w hmatched
  | close => exact close_paired h
  | stop => exact ⟨h.ordered, h.numbered, h.owed, h.waits, h.abandoned, h.own, h.kinds⟩

theorem start_paired : Paired startLink := by
  constructor
  · exact List.Pairwise.nil
  · intro r hr
    cases hr
  · intro r hr
    cases hr
  · intro t r ht
    cases t <;> cases ht
  · intro g hg
    cases hg
  · intro t body ht
    cases t with
    | heartbeat =>
      rcases ht with ht | ht
      · cases ht
        rfl
      · cases ht
    | job =>
      rcases ht with ht | ht
      · cases ht
        rfl
      · cases ht
  · intro a ha
    cases ha

/-- Every receive of a run is matched exactly when every receive comes in turn. -/
theorem responses_matched_iff (errJobProcessingFailed : ℤ) (as : List Action) :
    Meets (Link.step errJobProcessingFailed) Matched startLink as ↔
      Meets (Link.step errJobProcessingFailed) InTurn startLink as := by
  constructor
  · exact meets_of_meets (P := Paired) (fun s a h hm => step_paired h a hm)
      (fun s a h hm => (matched_iff_inTurn h a).mp hm) start_paired
  · exact meets_of_meets (P := Paired)
      (fun s a h ht => step_paired h a ((matched_iff_inTurn h a).mpr ht))
      (fun s a h ht => (matched_iff_inTurn h a).mpr ht) start_paired

def instantly : Work := ⟨fun _ => none, 0⟩

/-- Both threads have sent, the heartbeat first; the job thread is the first to receive. -/
def crossed : List Action :=
  [.enter .heartbeat, .enter .job, .send .heartbeat true, .send .job true,
    .serve .workerHeartbeatAck, .serve (.jobAssigned ⟨1, 1, none, 0⟩),
    .receive .job true instantly, .receive .heartbeat true instantly]

/-- The job thread takes the acknowledgment for its answer, and the heartbeat thread drops
job 1 and leaves the connection. -/
theorem answers_exchanged :
    (crossed.foldl (Link.step 5) startLink).points .job = .before .requestJob ∧
      (crossed.foldl (Link.step 5) startLink).points .heartbeat = .before .workerDisconnect ∧
      ¬ Meets (Link.step 5) Matched startLink crossed := by
  refine ⟨by decide, by decide, ?_⟩
  intro hall
  have hjob : Matched ((crossed.take 6).foldl (Link.step 5) startLink)
      (.receive .job true instantly) := hall.2.2.2.2.2.2.1
  obtain ⟨heq, _⟩ := hjob _ rfl
  cases heq

end CSimples.Requests
