import CSimples.Central.Handlers
import CSimples.Lib.Run
import Mathlib.Logic.Function.Basic

/-!
# The descriptors of the worker connections (central_server/central_server.c)

`worker_handler_thread` step by step, with the open descriptors of the process: each is
the number of the connection it belongs to, in order of acceptance. A descriptor is free
for the next connection as soon as it is closed. What the handlers of a message do to the
registry is cut into single calls, in any order.
-/

namespace CSimples.Descriptors
open WorkerRegistry CentralServer Keyed Run

/-- Where a worker thread is: in front of its registration, between
`worker_registry_add` and `send_message`, in front of the removal that follows a failed
send, in front of its own `close`, in its message loop, or gone. -/
inductive Phase where
  | waiting
  | added (workerId : ℕ)
  | unsent (workerId : ℕ)
  | refused
  | serving (workerId : ℕ)
  | returned
  deriving DecidableEq

structure Thread where
  sockfd : ℤ
  phase : Phase
  deriving DecidableEq

/-- A call of `close`, and the connection the descriptor was open for, if it was. -/
structure Close where
  closer : ℕ
  sockfd : ℤ
  hit : Option ℕ
  deriving DecidableEq

/-- The connections without a thread are those of clients. -/
structure World where
  registry : Registry
  accepted : ℕ
  opened : ℤ → Option ℕ
  thread : ℕ → Option Thread
  closes : List Close

def World.close (w : World) (closer : ℕ) (sockfd : ℤ) : World :=
  { w with
    opened := Function.update w.opened sockfd none
    closes := w.closes ++ [⟨closer, sockfd, w.opened sockfd⟩] }

def World.goto (w : World) (closer : ℕ) (t : Thread) : World :=
  { w with thread := Function.update w.thread closer (some t) }

def World.remove (w : World) (closer workerId : ℕ) : World :=
  let removed := workerRegistryRemove w.registry workerId
  removed.closed.foldl (fun w sockfd => w.close closer sockfd)
    { w with registry := removed.registry }

/-! ### Steps (central_server.c:118-142, 252-332, 357-364) -/

/-- `worker` says whether the connection is handed to `worker_handler_thread`. -/
inductive Event where
  | accept (sockfd : ℤ) (worker : Bool)
  | clientCloses (sockfd : ℤ)
  | fail (connection : ℕ)
  | add (connection threadId : ℕ) (now : ℤ)
  | respond (connection : ℕ) (sent : Bool)
  | undo (connection : ℕ)
  | close (connection : ℕ)
  | message (connection : ℕ) (piece : Piece)
  | checkTimeouts (now : ℤ)
  | leave (connection : ℕ)

def step (w : World) : Event → Option World
  | .accept sockfd worker =>
    if 0 ≤ sockfd ∧ w.opened sockfd = none then
      some { w with
        accepted := w.accepted + 1
        opened := Function.update w.opened sockfd (some w.accepted)
        thread := Function.update w.thread w.accepted
          (if worker then some ⟨sockfd, .waiting⟩ else none) }
    else none
  | .clientCloses sockfd => match w.opened sockfd with
    | some c => if w.thread c = none then some (w.close c sockfd) else none
    | none => none
  | .fail c => match w.thread c with
    | some ⟨sockfd, .waiting⟩ => some (w.goto c ⟨sockfd, .refused⟩)
    | _ => none
  | .add c threadId now => match w.thread c with
    | some ⟨sockfd, .waiting⟩ =>
      let added := workerRegistryAdd w.registry sockfd threadId now
      if added.1 = 0 then some (w.goto c ⟨sockfd, .refused⟩)
      else some ({ w with registry := added.2 }.goto c ⟨sockfd, .added added.1⟩)
    | _ => none
  | .respond c sent => match w.thread c with
    | some ⟨sockfd, .added workerId⟩ =>
      some (w.goto c ⟨sockfd, if sent then .serving workerId else .unsent workerId⟩)
    | _ => none
  | .undo c => match w.thread c with
    | some ⟨sockfd, .unsent workerId⟩ => some ((w.remove c workerId).goto c ⟨sockfd, .refused⟩)
    | _ => none
  | .close c => match w.thread c with
    | some ⟨sockfd, .refused⟩ => some ((w.close c sockfd).goto c ⟨sockfd, .returned⟩)
    | _ => none
  | .message c piece => match w.thread c with
    | some ⟨_, .serving workerId⟩ =>
      some { w with registry := piece.apply workerId w.registry }
    | _ => none
  | .checkTimeouts now =>
    some { w with registry := (workerRegistryCheckTimeouts w.registry now workerTimeoutSec).2 }
  | .leave c => match w.thread c with
    | some ⟨sockfd, .serving workerId⟩ =>
      some ((w.remove c workerId).goto c ⟨sockfd, .returned⟩)
    | _ => none

def start (r : Registry) : World := ⟨r, 0, fun _ => none, fun _ => none, []⟩

/-- The thread of the connection has closed its descriptor and nothing else, and
nobody else has. -/
def Settled (w : World) (c : ℕ) (sockfd : ℤ) : Prop :=
  w.closes.filter (fun x => x.closer = c) = [⟨c, sockfd, some c⟩] ∧
    w.closes.filter (fun x => x.hit = some c) = [⟨c, sockfd, some c⟩]

def ClosedOnce (w : World) : Prop :=
  ∀ c t, w.thread c = some t → t.phase = .returned → Settled w c t.sockfd

/-! ### The handlers as steps -/

theorem messages_reach {C : World → Event → Prop} (hC : ∀ w c piece, C w (.message c piece))
    {w : World} {c workerId : ℕ} {sockfd : ℤ}
    (ht : w.thread c = some ⟨sockfd, .serving workerId⟩) (pieces : List Piece) :
    Reach step C w { w with registry := pieces.foldl (Piece.apply workerId) w.registry } := by
  induction pieces using List.reverseRecOn with
  | nil => exact .start
  | append_singleton pieces piece ih =>
    refine ih.next (.message c piece) (hC _ c piece) ?_
    rw [List.foldl_append]
    simp only [step, ht]
    rfl

theorem message_reach {C : World → Event → Prop} (hC : ∀ w c piece, C w (.message c piece))
    {w : World} {c workerId : ℕ} {sockfd : ℤ}
    (ht : w.thread c = some ⟨sockfd, .serving workerId⟩) {s : Server}
    (hs : s.registry = w.registry) (conn : ByteStream.Source UInt8) (now : ℤ)
    (sent taskSent : Bool) :
    Reach step C w { w with registry := (assignPending
      (handleWorkerHeartbeat s workerId sockfd now sent) workerId now taskSent).registry } ∧
    Reach step C w { w with registry := (assignPending
      (handleTaskResult s workerId sockfd conn now sent).1 workerId now taskSent).registry } := by
  constructor
  · obtain ⟨pieces, hpieces⟩ := heartbeat_pieces s workerId sockfd now sent
    obtain ⟨more, _, hmore⟩ := assign_pieces (handleWorkerHeartbeat s workerId sockfd now sent)
      workerId now taskSent
    rw [assignPending_eq, hmore, hpieces, hs, ← List.foldl_append]
    exact messages_reach hC ht (pieces ++ more)
  · obtain ⟨pieces, _, hpieces⟩ := taskResult_pieces s workerId sockfd conn now sent
    obtain ⟨more, _, hmore⟩ := assign_pieces (handleTaskResult s workerId sockfd conn now sent).1
      workerId now taskSent
    rw [assignPending_eq, hmore, hpieces, hs, ← List.foldl_append]
    exact messages_reach hC ht (pieces ++ more)

theorem foldl_close (w : World) (c : ℕ) (fds : List ℤ) :
    ∃ new, (fds.foldl (fun w fd => w.close c fd) w).closes = w.closes ++ new ∧
      new.map Close.sockfd = fds ∧
      (fds.foldl (fun w fd => w.close c fd) w).registry = w.registry := by
  induction fds generalizing w with
  | nil => exact ⟨[], (List.append_nil _).symm, rfl, rfl⟩
  | cons fd fds ih =>
    obtain ⟨new, hnew, hfds, hregistry⟩ := ih (w.close c fd)
    refine ⟨⟨c, fd, w.opened fd⟩ :: new, ?_, by rw [List.map_cons, hfds], hregistry⟩
    rw [List.foldl_cons, hnew, World.close, List.append_assoc, List.singleton_append]

theorem registration_reach {w : World} {c : ℕ} {sockfd : ℤ}
    (ht : w.thread c = some ⟨sockfd, .waiting⟩) {s : Server} (hs : s.registry = w.registry)
    (threadId : ℕ) (now : ℤ) (sent : Bool) :
    ∃ w' new, Reach step (fun _ _ => True) w w' ∧
      w'.registry = (handleWorkerRegistration s sockfd threadId now sent).2.registry ∧
      w'.closes = w.closes ++ new ∧
      (handleWorkerRegistration s sockfd threadId now sent).2.closed =
        s.closed ++ new.map Close.sockfd ∧
      w'.thread c = some ⟨sockfd,
        if (handleWorkerRegistration s sockfd threadId now sent).1 = 0 then .refused
        else .serving (handleWorkerRegistration s sockfd threadId now sent).1⟩ := by
  have hstart : Reach step (fun _ _ => True) w w := .start
  by_cases hzero : (workerRegistryAdd w.registry sockfd threadId now).1 = 0
  · have hadd := hstart.next (Event.add c threadId now) trivial (by
      simp only [step, ht, if_pos hzero]
      rfl)
    refine ⟨_, [], hadd, ?_⟩
    simp [handleWorkerRegistration, hs, hzero, World.goto]
  · have hadd := hstart.next (Event.add c threadId now) trivial (by
      simp only [step, ht, if_neg hzero]
      rfl)
    have hrespond := hadd.next (Event.respond c sent) trivial (by
      simp only [step, World.goto, Function.update_self]
      rfl)
    cases sent with
    | true =>
      refine ⟨_, [], hrespond, ?_⟩
      simp [handleWorkerRegistration, hs, hzero, Server.send]
    | false =>
      have hundo := hrespond.next (Event.undo c) trivial (by
        simp only [step, Function.update_self]
        rfl)
      obtain ⟨new, hnew, hfds, hregistry⟩ := foldl_close _ c
        (workerRegistryRemove (workerRegistryAdd w.registry sockfd threadId now).2
          (workerRegistryAdd w.registry sockfd threadId now).1).closed
      refine ⟨_, new, hundo, hregistry.trans ?_, hnew, ?_, ?_⟩
      · simp [handleWorkerRegistration, hs, hzero, Server.send, Server.removeWorker]
      · simp [handleWorkerRegistration, hs, hzero, Server.send, Server.removeWorker, hfds]
      · simp [handleWorkerRegistration, hs, hzero, Server.send, World.goto]

/-! ### The invariant -/

def Untouched (w : World) (c : ℕ) : Prop :=
  w.closes.filter (fun x => x.closer = c) = [] ∧ w.closes.filter (fun x => x.hit = some c) = []

structure Tidy (w : World) : Prop where
  fresh : ∀ c, w.accepted ≤ c → w.thread c = none ∧ Untouched w c
  opened_lt : ∀ fd c, w.opened fd = some c → c < w.accepted
  owner : ∀ fd c t, w.opened fd = some c → w.thread c = some t →
    t.sockfd = fd ∧ t.phase ≠ .returned
  active : ∀ c t, w.thread c = some t → t.phase ≠ .returned →
    0 ≤ t.sockfd ∧ w.opened t.sockfd = some c ∧ Untouched w c
  returned : ClosedOnce w

theorem tidy_start (r : Registry) : Tidy (start r) where
  fresh := fun _ _ => ⟨rfl, rfl, rfl⟩
  opened_lt := nofun
  owner := nofun
  active := nofun
  returned := nofun

theorem Tidy.setRegistry {w : World} (h : Tidy w) (r : Registry) :
    Tidy { w with registry := r } :=
  ⟨h.fresh, h.opened_lt, h.owner, h.active, h.returned⟩

theorem Tidy.goto {w : World} (h : Tidy w) {c : ℕ} {t t' : Thread} (ht : w.thread c = some t)
    (hactive : t.phase ≠ .returned) (hsockfd : t'.sockfd = t.sockfd)
    (hactive' : t'.phase ≠ .returned) : Tidy (w.goto c t') := by
  have hother : ∀ x, x ≠ c → (w.goto c t').thread x = w.thread x :=
    fun x hx => Function.update_of_ne hx _ _
  have hself : (w.goto c t').thread c = some t' := Function.update_self _ _ _
  constructor
  · intro x hx
    have hne : x ≠ c := by
      rintro rfl
      rw [(h.fresh x hx).1] at ht
      cases ht
    rw [hother x hne]
    exact h.fresh x hx
  · exact h.opened_lt
  · intro fd x tx hopened hx
    by_cases hne : x = c
    · subst hne
      rw [hself] at hx
      cases hx
      rw [hsockfd]
      exact ⟨(h.owner fd x t hopened ht).1, hactive'⟩
    · rw [hother x hne] at hx
      exact h.owner fd x tx hopened hx
  · intro x tx hx hphase
    by_cases hne : x = c
    · subst hne
      rw [hself] at hx
      cases hx
      rw [hsockfd]
      exact h.active x t ht hactive
    · rw [hother x hne] at hx
      exact h.active x tx hx hphase
  · intro x tx hx hphase
    by_cases hne : x = c
    · subst hne
      rw [hself] at hx
      cases hx
      exact absurd hphase hactive'
    · rw [hother x hne] at hx
      exact h.returned x tx hx hphase

theorem filter_close_closer (w : World) {c x : ℕ} (fd : ℤ) (hne : x ≠ c) :
    (w.close c fd).closes.filter (fun a => a.closer = x) =
      w.closes.filter (fun a => a.closer = x) := by
  have hcx : c ≠ x := hne.symm
  simp [World.close, hcx]

theorem filter_close_hit {w : World} {c x : ℕ} {fd : ℤ} (ho : w.opened fd = some c)
    (hne : x ≠ c) : (w.close c fd).closes.filter (fun a => a.hit = some x) =
      w.closes.filter (fun a => a.hit = some x) := by
  have hcx : c ≠ x := hne.symm
  simp [World.close, ho, hcx]

theorem close_settled {w : World} {c : ℕ} {fd : ℤ} (ho : w.opened fd = some c)
    (h : Untouched w c) : Settled (w.close c fd) c fd := by
  obtain ⟨hcloser, hhit⟩ := h
  simp [Settled, World.close, ho, List.filter_append, hcloser, hhit]

theorem Tidy.close {w : World} (h : Tidy w) {c : ℕ} {fd : ℤ} (ho : w.opened fd = some c)
    {thread : ℕ → Option Thread} (hother : ∀ x, x ≠ c → thread x = w.thread x)
    (hself : thread c = none ∨ Untouched w c ∧ (∃ t, w.thread c = some t) ∧
      thread c = some ⟨fd, .returned⟩) : Tidy { w.close c fd with thread := thread } := by
  have hopened : ∀ fd' x, (w.close c fd).opened fd' = some x → fd' ≠ fd ∧ w.opened fd' = some x := by
    intro fd' x hx
    have hne : fd' ≠ fd := by
      rintro rfl
      simp [World.close] at hx
    simp only [World.close, Function.update_of_ne hne] at hx
    exact ⟨hne, hx⟩
  have huntouched : ∀ x, x ≠ c → Untouched w x → Untouched (w.close c fd) x := by
    intro x hne hx
    rw [Untouched, filter_close_closer w fd hne, filter_close_hit ho hne]
    exact hx
  constructor
  · intro x hx
    have hne : x ≠ c := by
      have hlt := h.opened_lt fd c ho
      rintro rfl
      exact absurd hx (Nat.not_le.mpr hlt)
    obtain ⟨hthread, hfresh⟩ := h.fresh x hx
    exact ⟨(hother x hne).trans hthread, huntouched x hne hfresh⟩
  · intro fd' x hx
    exact h.opened_lt fd' x (hopened fd' x hx).2
  · intro fd' x t hx ht
    obtain ⟨hne, hopen⟩ := hopened fd' x hx
    by_cases hxc : x = c
    · subst hxc
      rcases hself with hnone | ⟨_, ⟨t', ht'⟩, _⟩
      · cases hnone.symm.trans ht
      · have hfd := (h.owner fd x t' ho ht').1
        have hfd' := (h.owner fd' x t' hopen ht').1
        exact absurd (hfd'.symm.trans hfd) hne
    · exact h.owner fd' x t hopen ((hother x hxc).symm.trans ht)
  · intro x t ht hphase
    by_cases hxc : x = c
    · subst hxc
      rcases hself with hnone | ⟨_, _, hreturned⟩
      · cases hnone.symm.trans ht
      · cases hreturned.symm.trans ht
        exact absurd rfl hphase
    · obtain ⟨hpos, hx, hnone⟩ := h.active x t ((hother x hxc).symm.trans ht) hphase
      have hne : t.sockfd ≠ fd := by
        intro he
        rw [he, ho] at hx
        exact hxc (Option.some.inj hx).symm
      refine ⟨hpos, ?_, huntouched x hxc hnone⟩
      exact (Function.update_of_ne hne _ _).trans hx
  · intro x t ht hphase
    by_cases hxc : x = c
    · subst hxc
      rcases hself with hnone | ⟨hnone, _, hreturned⟩
      · cases hnone.symm.trans ht
      · cases hreturned.symm.trans ht
        exact close_settled ho hnone
    · rw [Settled]
      show (w.close c fd).closes.filter _ = _ ∧ (w.close c fd).closes.filter _ = _
      rw [filter_close_closer w fd hxc, filter_close_hit ho hxc]
      exact h.returned x t ((hother x hxc).symm.trans ht) hphase

theorem Tidy.returns {w : World} (h : Tidy w) {c : ℕ} {t : Thread} (ht : w.thread c = some t)
    (hphase : t.phase ≠ .returned) :
    Tidy ((w.close c t.sockfd).goto c ⟨t.sockfd, .returned⟩) := by
  obtain ⟨_, ho, huntouched⟩ := h.active c t ht hphase
  refine h.close ho (fun x hx => Function.update_of_ne hx _ _) (.inr ?_)
  exact ⟨huntouched, ⟨t, ht⟩, Function.update_self _ _ _⟩

theorem Tidy.accept {w : World} (h : Tidy w) {fd : ℤ} (hpos : 0 ≤ fd) (ho : w.opened fd = none)
    (worker : Bool) : Tidy { w with
      accepted := w.accepted + 1
      opened := Function.update w.opened fd (some w.accepted)
      thread := Function.update w.thread w.accepted
        (if worker then some ⟨fd, .waiting⟩ else none) } := by
  have hopened : ∀ fd' x, Function.update w.opened fd (some w.accepted) fd' = some x →
      fd' = fd ∧ x = w.accepted ∨ fd' ≠ fd ∧ w.opened fd' = some x := by
    intro fd' x hx
    by_cases hne : fd' = fd
    · subst hne
      rw [Function.update_self] at hx
      exact .inl ⟨rfl, (Option.some.inj hx).symm⟩
    · rw [Function.update_of_ne hne] at hx
      exact .inr ⟨hne, hx⟩
  have hthread : ∀ x t, Function.update w.thread w.accepted
      (if worker then some ⟨fd, .waiting⟩ else none) x = some t →
      x = w.accepted ∧ t = ⟨fd, .waiting⟩ ∨ x ≠ w.accepted ∧ w.thread x = some t := by
    intro x t hx
    by_cases hne : x = w.accepted
    · subst hne
      rw [Function.update_self] at hx
      split at hx
      · exact .inl ⟨rfl, (Option.some.inj hx).symm⟩
      · cases hx
    · rw [Function.update_of_ne hne] at hx
      exact .inr ⟨hne, hx⟩
  constructor
  · intro x hx
    have hlt : w.accepted < x := hx
    obtain ⟨hnone, huntouched⟩ := h.fresh x hlt.le
    exact ⟨(Function.update_of_ne hlt.ne' _ _).trans hnone, huntouched⟩
  · intro fd' x hx
    rcases hopened fd' x hx with ⟨_, rfl⟩ | ⟨_, hx⟩
    · exact Nat.lt_succ_self _
    · exact Nat.lt_succ_of_lt (h.opened_lt fd' x hx)
  · intro fd' x t hx ht
    rcases hopened fd' x hx with ⟨rfl, rfl⟩ | ⟨_, hopen⟩
    · rcases hthread _ t ht with ⟨_, rfl⟩ | ⟨hne, _⟩
      · exact ⟨rfl, nofun⟩
      · exact absurd rfl hne
    · rcases hthread x t ht with ⟨rfl, _⟩ | ⟨_, ht⟩
      · exact absurd (h.opened_lt fd' _ hopen) (Nat.lt_irrefl _)
      · exact h.owner fd' x t hopen ht
  · intro x t ht hphase
    rcases hthread x t ht with ⟨rfl, rfl⟩ | ⟨_, ht⟩
    · exact ⟨hpos, Function.update_self _ _ _, (h.fresh _ le_rfl).2⟩
    · obtain ⟨hfd, hopen, huntouched⟩ := h.active x t ht hphase
      have hne : t.sockfd ≠ fd := by
        intro he
        rw [he, ho] at hopen
        cases hopen
      exact ⟨hfd, (Function.update_of_ne hne _ _).trans hopen, huntouched⟩
  · intro x t ht hphase
    rcases hthread x t ht with ⟨rfl, rfl⟩ | ⟨_, ht⟩
    · cases hphase
    · exact h.returned x t ht hphase

/-! ### Every run -/

/-- The response reaches the worker, and a thread that leaves finds its own entry under
its id. -/
def Own (w : World) : Event → Prop
  | .respond _ sent => sent = true
  | .leave c => ∀ sockfd workerId, w.thread c = some ⟨sockfd, .serving workerId⟩ →
    ∃ worker, workerRegistryGet w.registry workerId = some worker ∧
      (deref w.registry worker).sockfd = sockfd
  | _ => True

theorem remove_own {r : Registry} {workerId worker : ℕ} (hpos : 0 ≤ (deref r worker).sockfd)
    (h : workerRegistryGet r workerId = some worker) :
    (workerRegistryRemove r workerId).closed = [(deref r worker).sockfd] := by
  obtain ⟨hid, _, w, hw, _, _⟩ := get_spec h
  have hderef : deref r worker = w := by
    rw [deref, List.getD_eq_getElem?_getD, hw, Option.getD_some]
  rw [get_eq_find hid] at h
  rw [hderef] at hpos ⊢
  unfold workerRegistryRemove
  rw [if_neg hid]
  split
  · rename_i hnone
    cases hnone.symm.trans h
  · rename_i i hi
    cases hi.symm.trans h
    simp [hw, hpos]

def Answered (w : World) : Prop :=
  ∀ c sockfd workerId, w.thread c ≠ some ⟨sockfd, .unsent workerId⟩

theorem Answered.update {thread : ℕ → Option Thread} {c : ℕ} {t : Option Thread}
    (h : ∀ x sockfd workerId, thread x ≠ some ⟨sockfd, .unsent workerId⟩)
    (ht : ∀ sockfd workerId, t ≠ some ⟨sockfd, .unsent workerId⟩) (x : ℕ) (sockfd : ℤ)
    (workerId : ℕ) : Function.update thread c t x ≠ some ⟨sockfd, .unsent workerId⟩ := by
  rw [Function.update_apply]
  split
  · exact ht sockfd workerId
  · exact h x sockfd workerId

theorem tidy_step {w w' : World} {e : Event} (h : Tidy w) (hanswered : Answered w)
    (hown : Own w e) (hs : step w e = some w') : Tidy w' ∧ Answered w' := by
  cases e with
  | accept fd worker =>
    simp only [step] at hs
    split at hs
    · rename_i hfree
      cases hs
      refine ⟨h.accept hfree.1 hfree.2 worker, Answered.update hanswered ?_⟩
      intro sockfd workerId
      cases worker <;> exact nofun
    · cases hs
  | clientCloses fd =>
    simp only [step] at hs
    split at hs
    · rename_i c ho
      split at hs
      · rename_i hclient
        cases hs
        exact ⟨h.close ho (fun _ _ => rfl) (.inl hclient), hanswered⟩
      · cases hs
    · cases hs
  | fail c =>
    simp only [step] at hs
    split at hs
    · rename_i sockfd ht
      cases hs
      exact ⟨h.goto ht nofun rfl nofun, Answered.update hanswered nofun⟩
    · cases hs
  | add c threadId now =>
    simp only [step] at hs
    split at hs
    · rename_i sockfd ht
      split at hs
      · cases hs
        exact ⟨h.goto ht nofun rfl nofun, Answered.update hanswered nofun⟩
      · cases hs
        exact ⟨(h.setRegistry _).goto ht nofun rfl nofun, Answered.update hanswered nofun⟩
    · cases hs
  | respond c sent =>
    cases (hown : sent = true)
    simp only [step] at hs
    split at hs
    · rename_i sockfd workerId ht
      cases hs
      exact ⟨h.goto ht nofun rfl nofun, Answered.update hanswered nofun⟩
    · cases hs
  | undo c =>
    simp only [step] at hs
    split at hs
    · rename_i sockfd workerId ht
      exact absurd ht (hanswered c sockfd workerId)
    · cases hs
  | close c =>
    simp only [step] at hs
    split at hs
    · rename_i sockfd ht
      cases hs
      exact ⟨h.returns ht nofun, Answered.update hanswered nofun⟩
    · cases hs
  | message c piece =>
    simp only [step] at hs
    split at hs
    · cases hs
      exact ⟨h.setRegistry _, hanswered⟩
    · cases hs
  | checkTimeouts now =>
    cases hs
    exact ⟨h.setRegistry _, hanswered⟩
  | leave c =>
    simp only [step] at hs
    split at hs
    · rename_i sockfd workerId ht
      cases hs
      obtain ⟨worker, hget, hfd⟩ := hown sockfd workerId ht
      obtain ⟨hpos, _⟩ := h.active c _ ht nofun
      have hclosed := remove_own (hfd ▸ hpos) hget
      simp only [World.remove, hclosed, hfd, List.foldl_cons, List.foldl_nil]
      have hset := h.setRegistry (workerRegistryRemove w.registry workerId).registry
      exact ⟨hset.returns ht nofun, Answered.update hanswered nofun⟩
    · cases hs

theorem sockets_closed_once (r : Registry) {w : World} (h : Reach step Own (start r) w) :
    ClosedOnce w := by
  have hinv : Tidy w ∧ Answered w := by
    refine h.invariant (I := fun w => Tidy w ∧ Answered w) ⟨tidy_start r, nofun⟩ ?_
    intro w e w' hw hown hs
    exact tidy_step hw.1 hw.2 hown hs
  exact hinv.1.returned

def twoWorkers : Registry :=
  (workerRegistryCreate 2 (by decide) (some ⟨List.replicate 2 (newWorker 0 0 0 0), rfl⟩)).get rfl

/-- The second worker leaves after a heartbeat; the first is still there. -/
theorem sockets_closed_once_twoWorkers :
    ∃ w, Reach step Own (start twoWorkers) w ∧ w.thread 1 = some ⟨5, .returned⟩ ∧
      ClosedOnce w := by
  have hstart : Reach step Own (start twoWorkers) _ := .start
  have hfirst := hstart.next (Event.accept 4 true) trivial rfl
  have hsecond := hfirst.next (Event.accept 5 true) trivial rfl
  have hadded := hsecond.next (Event.add 0 7 100) trivial rfl
  have hadded' := hadded.next (Event.add 1 8 101) trivial rfl
  have hanswered := hadded'.next (Event.respond 1 true) rfl rfl
  have hheartbeat := hanswered.next (Event.message 1 (.heartbeat 102)) trivial rfl
  have hleft := hheartbeat.next (Event.leave 1) (by
    intro sockfd workerId ht
    cases ht
    exact ⟨1, rfl, rfl⟩) rfl
  exact ⟨_, hleft, rfl, sockets_closed_once twoWorkers hleft⟩

/-- The response to the first worker cannot be sent, so its descriptor is closed by
`worker_registry_remove`; when the thread closes it again, it is that of the next worker. -/
theorem socket_closed_twice :
    ∃ w, Reach step (fun _ _ => True) (start twoWorkers) w ∧
      w.thread 0 = some ⟨4, .returned⟩ ∧ w.closes = [⟨0, 4, some 0⟩, ⟨0, 4, some 1⟩] ∧
      ¬ ClosedOnce w := by
  have hstart : Reach step (fun _ _ => True) (start twoWorkers) _ := .start
  have hfirst := hstart.next (Event.accept 4 true) trivial rfl
  have hadded := hfirst.next (Event.add 0 7 100) trivial rfl
  have hunsent := hadded.next (Event.respond 0 false) trivial rfl
  have hundone := hunsent.next (Event.undo 0) trivial rfl
  have hsecond := hundone.next (Event.accept 4 true) trivial rfl
  have hclosed := hsecond.next (Event.close 0) trivial rfl
  refine ⟨_, hclosed, rfl, rfl, ?_⟩
  intro hall
  have hsettled := hall 0 ⟨4, .returned⟩ rfl rfl
  exact absurd hsettled.1 (by decide)

end CSimples.Descriptors
