import CSimples.Central.Handlers
import CSimples.Lib.Run

/-!
# Who receives the registration

`main` receives the first message of a connection to decide which handler to
start (central_server.c:499-512), and the handler then waits for a registration
of its own (central_server.c:266-276, 395-405). A peer sends one REGISTER; once
`main` has consumed it the handler waits for a message that never comes, and the
peer for an answer. Every receive here takes one whole message off the
connection and gives its header in host order.
-/

namespace CSimples.Handshake
open Keyed Protocol WorkerRegistry CentralServer Run

/-- Which thread a connection is with, and what that thread waits for. -/
inductive Place where
  | backlog
  | main
  | handler (worker : Bool)
  | workerLoop (workerId : ℕ)
  | clientLoop
  | gone
  deriving DecidableEq

/-- A connection and its peer, which sends one REGISTER with `clientId` and then
waits; `responses` are the ids of the REGISTER_RESPONSEs it was sent. -/
structure Connection where
  sockfd : ℤ
  clientId : UInt32
  registerSent : Bool
  inFlight : List MessageHeader
  place : Place
  responses : List ℕ
  closed : Bool

structure Listener where
  server : Server
  conns : List Connection

inductive Event where
  | connect (sockfd : ℤ) (clientId : UInt32)
  | sendRegister (i : ℕ)
  | accept (i : ℕ) (allocated : Bool)
  | mainReceives (i : ℕ) (created : Bool)
  | mainFails (i : ℕ)
  | handlerReceives (i : ℕ) (threadId : ℕ) (now : ℤ) (sent : Bool)
  | handlerFails (i : ℕ)
  | loopReceives (i : ℕ)
  | loopFails (i : ℕ)

def isRegister (h : MessageHeader) : Bool := decide (h.messageType = MessageType.register.code)

def registerHeader (clientId : UInt32) : MessageHeader := ⟨MessageType.register.code, clientId⟩

def closing (c : Connection) : Connection := { c with place := .gone, closed := true }

def sendRegister (c : Connection) : Connection :=
  if c.registerSent then c
  else { c with
    registerSent := true
    inFlight := c.inFlight ++ [registerHeader c.clientId] }

/-- `accept` and the allocation for the descriptor (central_server.c:481-497). -/
def acceptConnection (allocated : Bool) (c : Connection) : Connection :=
  if c.place = .backlog then
    if allocated then { c with place := .main } else closing c
  else c

/-- The first message, and the thread it decides on (central_server.c:499-519);
`created` says whether `pthread_create` succeeds. -/
def mainReceive (created : Bool) (c : Connection) : Connection :=
  match c.place, c.inFlight with
  | .main, h :: rest =>
    if isRegister h && created then
      { c with inFlight := rest, place := .handler (decide (h.clientId = 0)) }
    else closing { c with inFlight := rest }
  | _, _ => c

def mainFail (c : Connection) : Connection := if c.place = .main then closing c else c

def handlerFail (c : Connection) : Connection :=
  match c.place with
  | .handler _ => closing c
  | _ => c

/-- A peer sends nothing but REGISTER, which both loops answer with a warning. -/
def loopReceive (c : Connection) : Connection :=
  match c.place with
  | .workerLoop _ | .clientLoop => { c with inFlight := c.inFlight.tail }
  | _ => c

def closeAll (fds : List ℤ) (conns : List Connection) : List Connection :=
  conns.map fun c => if c.sockfd ∈ fds then { c with closed := true } else c

/-- The registration as the handlers see it: `worker_handler_thread`
(central_server.c:266-283) or `client_handler_thread` (central_server.c:395-420). -/
def handlerReceive (s : Listener) (i : ℕ) (threadId : ℕ) (now : ℤ) (sent : Bool) : Listener :=
  match s.conns[i]? with
  | none => s
  | some c => match c.place, c.inFlight with
    | .handler worker, h :: rest =>
      if ¬ isRegister h then
        { s with conns := s.conns.set i (closing { c with inFlight := rest }) }
      else if worker then
        let r := handleWorkerRegistration s.server c.sockfd threadId now sent
        let conns := closeAll (r.2.closed.drop s.server.closed.length) s.conns
        if r.1 = 0 then ⟨r.2, conns.set i (closing { c with inFlight := rest })⟩
        else ⟨r.2, conns.set i { c with
          inFlight := rest
          place := .workerLoop r.1
          responses := c.responses ++ [r.1] }⟩
      else if sent then
        { s with conns := s.conns.set i { c with
          inFlight := rest
          place := .clientLoop
          responses := c.responses ++ [1] } }
      else { s with conns := s.conns.set i (closing { c with inFlight := rest }) }
    | _, _ => s

/-- The end of a loop: a worker is removed from the registry, which closes the
descriptor (central_server.c:325-331), a client's is closed by the thread. -/
def loopFail (s : Listener) (i : ℕ) : Listener :=
  match s.conns[i]? with
  | none => s
  | some c => match c.place with
    | .workerLoop workerId =>
      let server := s.server.removeWorker workerId
      ⟨server, (closeAll (server.closed.drop s.server.closed.length) s.conns).modify i
        fun c => { c with place := .gone }⟩
    | .clientLoop => { s with conns := s.conns.set i (closing c) }
    | _ => s

/-- An event that is not enabled changes nothing. `main` looks at one
connection at a time. -/
def next (s : Listener) : Event → Listener
  | .connect sockfd clientId =>
    { s with conns := s.conns ++ [⟨sockfd, clientId, false, [], .backlog, [], false⟩] }
  | .sendRegister i => { s with conns := s.conns.modify i sendRegister }
  | .accept i allocated =>
    if s.conns.all fun c => decide (c.place ≠ .main) then
      { s with conns := s.conns.modify i (acceptConnection allocated) }
    else s
  | .mainReceives i created => { s with conns := s.conns.modify i (mainReceive created) }
  | .mainFails i => { s with conns := s.conns.modify i mainFail }
  | .handlerReceives i threadId now sent => handlerReceive s i threadId now sent
  | .handlerFails i => { s with conns := s.conns.modify i handlerFail }
  | .loopReceives i => { s with conns := s.conns.modify i loopReceive }
  | .loopFails i => loopFail s i

/-! ### The handshake -/

def HandlerWaits (c : Connection) : Prop :=
  (∃ worker, c.place = .handler worker) ∨ (∃ workerId, c.place = .workerLoop workerId) ∨
    c.place = .clientLoop

/-- The handler waits for the peer, which waits for the handler. -/
def Stuck (c : Connection) : Prop :=
  HandlerWaits c ∧ c.inFlight = [] ∧ c.registerSent = true ∧ c.responses = [] ∧ c.closed = false

/-- A worker that was answered is registered under the id it was told. -/
def RegisteredUnder (s : Server) (c : Connection) : Prop :=
  c.clientId = 0 → c.closed = false → ∀ id ∈ c.responses,
    ∃ w, lookup WorkerInfo.workerId id s.registry.live = some w ∧ w.sockfd = c.sockfd

def HandshakeOk (s : Listener) : Prop :=
  ∀ c ∈ s.conns, ¬ Stuck c ∧ RegisteredUnder s.server c

/-- `main` receives a REGISTER and `pthread_create` succeeds. -/
def StartsHandler (s : Listener) : Event → Prop
  | .mainReceives i created => created = true ∧ ∃ c, s.conns[i]? = some c ∧ c.place = .main ∧
      ∃ h rest, c.inFlight = h :: rest ∧ isRegister h = true
  | _ => False

structure Unhandled (c : Connection) : Prop where
  place : c.place = .backlog ∨ c.place = .main ∨ c.place = .gone
  unanswered : c.responses = []
  flight : c.inFlight = [] ∨ c.registerSent = true ∧ c.inFlight = [registerHeader c.clientId]
  silent : c.registerSent = false → c.inFlight = []
  opened : c.closed = true → c.place = .gone

def Inv (s : Listener) : Prop := ∀ c ∈ s.conns, Unhandled c

theorem forall_modify {α : Type*} {P : α → Prop} {l : List α} {i : ℕ} {f : α → α}
    (h : ∀ a ∈ l, P a) (hf : ∀ a, l[i]? = some a → P a → P (f a)) :
    ∀ a ∈ l.modify i f, P a := by
  intro b hb
  obtain ⟨j, hj⟩ := List.mem_iff_getElem?.mp hb
  rw [List.getElem?_modify] at hj
  obtain ⟨a, ha, rfl⟩ := Option.map_eq_some_iff.mp hj
  have hp := h a (List.mem_of_getElem? ha)
  by_cases hij : i = j
  · subst i
    simpa using hf a ha hp
  · simpa [hij] using hp

theorem Unhandled.closing {c : Connection} (h : Unhandled c) : Unhandled (closing c) :=
  ⟨Or.inr (Or.inr rfl), h.unanswered, h.flight, h.silent, fun _ => rfl⟩

theorem Unhandled.consumed {c : Connection} (h : Unhandled c) :
    Unhandled { c with inFlight := [] } :=
  ⟨h.place, h.unanswered, Or.inl rfl, fun _ => rfl, h.opened⟩

theorem Unhandled.inFlight {c : Connection} (h : Unhandled c) {m : MessageHeader}
    {rest : List MessageHeader} (hf : c.inFlight = m :: rest) :
    c.registerSent = true ∧ isRegister m = true ∧ rest = [] := by
  rcases h.flight with hnil | ⟨hsent, hone⟩
  · rw [hnil] at hf
    cases hf
  · rw [hone] at hf
    cases hf
    exact ⟨hsent, by simp [isRegister, registerHeader], rfl⟩

theorem Unhandled.sendRegister {c : Connection} (h : Unhandled c) :
    Unhandled (sendRegister c) := by
  unfold Handshake.sendRegister
  split
  · exact h
  · rename_i hsent
    have hnil := h.silent (by simpa using hsent)
    exact ⟨h.place, h.unanswered, Or.inr ⟨rfl, by simp [hnil]⟩, by simp, h.opened⟩

theorem Unhandled.acceptConnection {c : Connection} (h : Unhandled c) (allocated : Bool) :
    Unhandled (acceptConnection allocated c) := by
  unfold Handshake.acceptConnection
  split
  · rename_i hplace
    split
    · refine ⟨Or.inr (Or.inl rfl), h.unanswered, h.flight, h.silent, fun hc => ?_⟩
      have hgone := h.opened hc
      rw [hplace] at hgone
      cases hgone
    · exact h.closing
  · exact h

theorem Unhandled.mainReceive {c : Connection} (h : Unhandled c) {created : Bool}
    (hc : created = true → c.place = .main → c.inFlight = []) :
    Unhandled (mainReceive created c) := by
  unfold Handshake.mainReceive
  split
  · rename_i m rest hplace hflight
    obtain ⟨_, _, rfl⟩ := h.inFlight hflight
    cases created with
    | true =>
      rw [hc rfl hplace] at hflight
      cases hflight
    | false =>
      rw [Bool.and_false, if_neg (by decide)]
      exact h.consumed.closing
  · exact h

theorem Unhandled.mainFail {c : Connection} (h : Unhandled c) : Unhandled (mainFail c) := by
  unfold Handshake.mainFail
  split
  · exact h.closing
  · exact h

theorem Unhandled.idle {c : Connection} (h : Unhandled c) :
    handlerFail c = c ∧ loopReceive c = c := by
  unfold handlerFail loopReceive
  rcases h.place with hp | hp | hp <;> simp [hp]

theorem Unhandled.ok {c : Connection} (h : Unhandled c) (s : Server) :
    ¬ Stuck c ∧ RegisteredUnder s c := by
  constructor
  · rintro ⟨hwaits, _⟩
    unfold HandlerWaits at hwaits
    rcases h.place with hp | hp | hp <;> simp [hp] at hwaits
  · intro _ _ id hid
    rw [h.unanswered] at hid
    cases hid

theorem handlerReceive_idle {s : Listener} (h : Inv s) (i threadId : ℕ) (now : ℤ) (sent : Bool) :
    handlerReceive s i threadId now sent = s := by
  unfold handlerReceive
  split
  · rfl
  · rename_i c hget
    rcases (h c (List.mem_of_getElem? hget)).place with hp | hp | hp <;> simp only [hp]

theorem loopFail_idle {s : Listener} (h : Inv s) (i : ℕ) : loopFail s i = s := by
  unfold loopFail
  split
  · rfl
  · rename_i c hget
    rcases (h c (List.mem_of_getElem? hget)).place with hp | hp | hp <;> simp only [hp]

theorem inv_next (s : Listener) (e : Event) (h : Inv s) (hc : ¬ StartsHandler s e) :
    Inv (next s e) := by
  cases e with
  | connect sockfd clientId =>
    intro c hm
    rcases List.mem_append.mp hm with hm | hm
    · exact h c hm
    · rw [List.mem_singleton.mp hm]
      exact ⟨Or.inl rfl, rfl, Or.inl rfl, fun _ => rfl, by simp⟩
  | sendRegister i => exact forall_modify h fun _ _ hu => hu.sendRegister
  | accept i allocated =>
    simp only [next]
    split
    · exact forall_modify h fun _ _ hu => hu.acceptConnection allocated
    · exact h
  | mainReceives i created =>
    refine forall_modify h fun c hget hu => hu.mainReceive fun hcreated hplace => ?_
    by_contra hne
    obtain ⟨m, rest, hflight⟩ := List.exists_cons_of_ne_nil hne
    exact hc ⟨hcreated, c, hget, hplace, m, rest, hflight, (hu.inFlight hflight).2.1⟩
  | mainFails i => exact forall_modify h fun _ _ hu => hu.mainFail
  | handlerReceives i threadId now sent =>
    simp only [next, handlerReceive_idle h]
    exact h
  | handlerFails i => exact forall_modify h fun _ _ hu => hu.idle.1.symm ▸ hu
  | loopReceives i => exact forall_modify h fun _ _ hu => hu.idle.2.symm ▸ hu
  | loopFails i =>
    simp only [next, loopFail_idle h]
    exact h

theorem stuck_of_startsHandler {s : Listener} {e : Event} (h : Inv s) (hs : StartsHandler s e) :
    ¬ HandshakeOk (next s e) := by
  cases e with
  | mainReceives i created =>
    obtain ⟨rfl, c, hget, hplace, m, rest, hflight, hreg⟩ := hs
    have hu := h c (List.mem_of_getElem? hget)
    obtain ⟨hsent, _, rfl⟩ := hu.inFlight hflight
    have hopen : c.closed = false := by
      by_contra hne
      have hgone := hu.opened (by simpa using hne)
      rw [hplace] at hgone
      cases hgone
    intro hok
    have hmem : mainReceive true c ∈ (next s (.mainReceives i true)).conns := by
      refine List.mem_iff_getElem?.mpr ⟨i, ?_⟩
      simp only [next, List.getElem?_modify, hget, ite_true]
      rfl
    refine (hok _ hmem).1 ?_
    have hstarted : mainReceive true c =
        { c with inFlight := [], place := .handler (decide (m.clientId = 0)) } := by
      simp only [mainReceive, hplace, hflight, hreg, Bool.and_true, ite_true]
    rw [hstarted]
    exact ⟨Or.inl ⟨_, rfl⟩, rfl, hsent, hu.unanswered, hopen⟩
  | _ => exact absurd hs id

/-- The handshake is in order along a run exactly as long as no handler thread
is started. -/
theorem handshake_ok_iff (server : Server) (es : List Event) :
    Along next HandshakeOk ⟨server, []⟩ es ↔
      Meets next (fun s e => ¬ StartsHandler s e) ⟨server, []⟩ es := by
  refine along_iff_meets_of_inv (I := Inv) ?_ inv_next ?_ ?_ es
  · exact fun s h c hm => (h c hm).ok s.server
  · exact fun s e h hne => stuck_of_startsHandler h (not_not.mp hne)
  · intro c hm
    cases hm

def oneWorker : List Event :=
  [.connect 4 0, .sendRegister 0, .accept 0 true, .mainReceives 0 true]

/-- The worker's handler waits for a second REGISTER. -/
theorem handshake_stuck : ¬ Along next HandshakeOk ⟨blankServer, []⟩ oneWorker := by
  intro h
  have hlast := along_iff_prefix.mp h oneWorker [] (List.append_nil _).symm
  exact (hlast ⟨4, 0, true, [], .handler true, [], false⟩ (List.mem_singleton_self _)).1
    ⟨Or.inl ⟨true, rfl⟩, rfl, rfl, rfl, rfl⟩

end CSimples.Handshake
