import CSimples.Shared.MessageTransfer

/-!
# Registration with the central server (worker_server/worker_server.c:73-114)

`register_with_server` sends REGISTER and makes up to three attempts to receive a
REGISTER_RESPONSE. The counter of the loop also tells afterwards whether there was
one; after a response to the third attempt it is 0, as if there had been none.
-/

namespace CSimples.Registration
open ByteStream Protocol NetUtils
open MessageTransfer (openSink sendMessage_openSink)

theorem zeroBody_length : (List.replicate bodySize (0 : UInt8)).length = bodySize :=
  List.length_replicate

/-- `reg_msg`: the members that are not mentioned are zero. -/
def registerRequest : Message where
  header := ⟨MessageType.register.code, 0⟩
  body := ⟨List.replicate bodySize 0, zeroBody_length⟩

/-- `while (retries-- > 0)` with the outcome of the `call`-th `recv_header`: the counter
behind the loop, and the header that ended it. -/
def retryLoop (recv : ℕ → Option MessageHeader) : ℕ → ℕ → ℤ × Option MessageHeader
  | 0, _ => (-1, none)
  | retries + 1, call =>
    match recv call with
    | some header =>
      if header.messageType = MessageType.registerResponse.code then (retries, some header)
      else retryLoop recv retries (call + 1)
    | none => retryLoop recv retries (call + 1)

/-- The value of the call, `worker_id` after it, and the connection. -/
def registerWithServer (host : Endian) (recv : ℕ → Option MessageHeader) (workerId : UInt32)
    (conn : Sink UInt8) : ℤ × UInt32 × Sink UInt8 :=
  let sent := sendMessage host registerRequest conn
  if sent.1 < 0 then (-1, workerId, sent.2)
  else
    match retryLoop recv 3 0 with
    | (retries, some header) =>
      if retries ≤ 0 then (-1, workerId, sent.2) else (0, header.clientId, sent.2)
    | (_, none) => (-1, workerId, sent.2)

def IsResponse (outcome : Option MessageHeader) : Prop :=
  ∃ header, outcome = some header ∧ header.messageType = MessageType.registerResponse.code

/-- The `i`-th outcome is the first response, with this header. -/
def FirstResponse (recv : ℕ → Option MessageHeader) (i : ℕ) (header : MessageHeader) : Prop :=
  recv i = some header ∧ header.messageType = MessageType.registerResponse.code ∧
    ∀ j < i, ¬ IsResponse (recv j)

/-- A first response among three outcomes gives the worker its id; without one the
call fails and the id stays. -/
def Honoured (recv : ℕ → Option MessageHeader) (workerId : UInt32)
    (called : ℤ × UInt32 × Sink UInt8) : Prop :=
  (∀ i < 3, ∀ header, FirstResponse recv i header →
    called.1 = 0 ∧ called.2.1 = header.clientId) ∧
  ((∀ i < 3, ¬ IsResponse (recv i)) → called.1 = -1 ∧ called.2.1 = workerId)

/-! ### The loop -/

variable {recv : ℕ → Option MessageHeader} {header : MessageHeader} {retries call i : ℕ}

theorem retryLoop_response (h : recv call = some header)
    (htype : header.messageType = MessageType.registerResponse.code) :
    retryLoop recv (retries + 1) call = ((retries : ℤ), some header) := by
  simp only [retryLoop, h, htype, if_true]

theorem retryLoop_other (h : ¬ IsResponse (recv call)) :
    retryLoop recv (retries + 1) call = retryLoop recv retries (call + 1) := by
  rw [retryLoop]
  split
  · rename_i header hrecv
    exact if_neg fun htype => h ⟨header, hrecv, htype⟩
  · rfl

/-- The counter behind the loop is the number of attempts that were left. -/
theorem retryLoop_first (hresp : recv (call + i) = some header)
    (htype : header.messageType = MessageType.registerResponse.code)
    (hbefore : ∀ j < i, ¬ IsResponse (recv (call + j))) (hi : i < retries) :
    retryLoop recv retries call = ((retries : ℤ) - 1 - i, some header) := by
  induction retries generalizing call i with
  | zero => omega
  | succ retries ih =>
    cases i with
    | zero =>
      rw [Nat.add_zero] at hresp
      rw [retryLoop_response hresp htype]
      congr 1
      omega
    | succ i =>
      have hnext : call + (i + 1) = call + 1 + i := by omega
      rw [hnext] at hresp
      have hrest : ∀ j < i, ¬ IsResponse (recv (call + 1 + j)) := by
        intro j hj
        have hj := hbefore (j + 1) (by omega)
        rwa [show call + (j + 1) = call + 1 + j by omega] at hj
      have hfirst : ¬ IsResponse (recv call) := hbefore 0 (by omega)
      rw [retryLoop_other hfirst, ih hresp hrest (by omega)]
      congr 1
      omega

theorem retryLoop_none (h : ∀ j < retries, ¬ IsResponse (recv (call + j))) :
    retryLoop recv retries call = (-1, none) := by
  induction retries generalizing call with
  | zero => rfl
  | succ retries ih =>
    have hfirst : ¬ IsResponse (recv call) := h 0 (by omega)
    rw [retryLoop_other hfirst]
    apply ih
    intro j hj
    have hj := h (j + 1) (by omega)
    rwa [show call + (j + 1) = call + 1 + j by omega] at hj

/-! ### The call -/

section
variable {host : Endian} {conn : Sink UInt8}

theorem registerWithServer_first (hs : (sendMessage host registerRequest conn).1 = 0)
    (h : FirstResponse recv i header) (hi : i < 3) (workerId : UInt32) :
    registerWithServer host recv workerId conn =
      if i < 2 then (0, header.clientId, (sendMessage host registerRequest conn).2)
      else (-1, workerId, (sendMessage host registerRequest conn).2) := by
  obtain ⟨hrecv, htype, hbefore⟩ := h
  have hloop : retryLoop recv 3 0 = ((3 : ℕ) - 1 - (i : ℤ), some header) :=
    retryLoop_first (by rw [Nat.zero_add]; exact hrecv) htype
      (fun j hj => by rw [Nat.zero_add]; exact hbefore j hj) hi
  simp only [registerWithServer, hs, Int.lt_irrefl, if_false, hloop]
  by_cases hlast : i < 2
  · rw [if_neg (by omega), if_pos hlast]
  · rw [if_pos (by omega), if_neg hlast]

theorem registerWithServer_none (hs : (sendMessage host registerRequest conn).1 = 0)
    (h : ∀ i < 3, ¬ IsResponse (recv i)) (workerId : UInt32) :
    registerWithServer host recv workerId conn =
      (-1, workerId, (sendMessage host registerRequest conn).2) := by
  have hloop : retryLoop recv 3 0 = (-1, none) :=
    retryLoop_none fun j hj => by rw [Nat.zero_add]; exact h j hj
  simp only [registerWithServer, hs, Int.lt_irrefl, if_false, hloop]

/-- After a successful send the three attempts are honoured exactly when the first
response does not come at the last of them. -/
theorem register_honoured_iff (hs : (sendMessage host registerRequest conn).1 = 0)
    (recv : ℕ → Option MessageHeader) (workerId : UInt32) :
    Honoured recv workerId (registerWithServer host recv workerId conn) ↔
      ¬ ∃ header, FirstResponse recv 2 header := by
  constructor
  · rintro ⟨hfirst, _⟩ ⟨header, h⟩
    have hret := (hfirst 2 (by decide) header h).1
    rw [registerWithServer_first hs h (by decide)] at hret
    cases hret
  · intro hlast
    refine ⟨fun i hi header h => ?_, fun hnone => ?_⟩
    · have hi2 : i < 2 := by
        by_contra hge
        obtain rfl : i = 2 := by omega
        exact hlast ⟨header, h⟩
      rw [registerWithServer_first hs h hi, if_pos hi2]
      exact ⟨rfl, rfl⟩
    · rw [registerWithServer_none hs hnone]
      exact ⟨rfl, rfl⟩

end

/-! ### A response to the last attempt -/

/-- A REGISTER_RESPONSE for worker 7 to the `n`-th attempt, and failures before and after. -/
def respondAt (n : ℕ) (call : ℕ) : Option MessageHeader :=
  if call = n then some ⟨MessageType.registerResponse.code, 7⟩ else none

theorem respondAt_first (n : ℕ) :
    FirstResponse (respondAt n) n ⟨MessageType.registerResponse.code, 7⟩ := by
  refine ⟨if_pos rfl, rfl, ?_⟩
  rintro j hj ⟨header, hrecv, _⟩
  rw [respondAt, if_neg (by omega)] at hrecv
  cases hrecv

theorem register_third_lost :
    ¬ Honoured (respondAt 2) 0 (registerWithServer .little (respondAt 2) 0 openSink) := by
  rintro ⟨hfirst, _⟩
  have hret := (hfirst 2 (by decide) _ (respondAt_first 2)).1
  rw [registerWithServer_first (sendMessage_openSink .little _) (respondAt_first 2) (by decide)] at hret
  cases hret

theorem register_second_honoured :
    Honoured (respondAt 1) 0 (registerWithServer .little (respondAt 1) 0 openSink) := by
  refine (register_honoured_iff (sendMessage_openSink .little _) (respondAt 1) 0).mpr ?_
  rintro ⟨header, hrecv, _⟩
  rw [respondAt, if_neg (by decide)] at hrecv
  cases hrecv

end CSimples.Registration
