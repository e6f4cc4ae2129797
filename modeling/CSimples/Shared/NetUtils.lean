import CSimples.Lib.ByteStream
import CSimples.Shared.Protocol

/-!
# Sending and receiving (lib/src/net_utils.c:8-77)

`send_message` writes the whole fixed-size `Message`; `recv_header` and
`recv_payload` read a header and a given number of bytes. `recv_payload`
answers 0 on success, as `recv_header` does, not a byte count; a `recv_header`
that answers -1 is `none` here.
-/

namespace CSimples.NetUtils
open ByteStream Protocol

/-- The bytes of `net_msg` (net_utils.c:8-13): the type is converted once, the
client id twice. -/
def netBytes (host : Endian) (m : Message) : List UInt8 :=
  headerBytes host
    ⟨htonl host m.header.messageType, htonl host (htonl host m.header.clientId)⟩ ++ m.body.val

def sendMessage (host : Endian) (m : Message) (s : Sink UInt8) : ℤ × Sink UInt8 :=
  let r := writeExact (netBytes host m) s
  (if r.1 then 0 else -1, r.2)

/-- `receive_message`, with `none` for its -1: the bytes go straight into `msg`,
then the type is converted once and the client id twice. -/
def receiveMessage (host : Endian) (s : Source UInt8) : Option Message × Source UInt8 :=
  let r := readExact messageSize s
  (r.1.map fun bs =>
    let msg := messageOfBytes host bs
    ⟨⟨ntohl host msg.header.messageType, ntohl host (ntohl host msg.header.clientId)⟩, msg.body⟩,
    r.2)

def recvHeader (host : Endian) (s : Source UInt8) : Option MessageHeader × Source UInt8 :=
  let r := readExact headerSize s
  (r.1.map (headerOf host), r.2)

/-- `recv_payload` (net_utils.c:64-77): the returned `int`, the bytes stored in
`buf`, and the stream after the call. -/
def recvPayload (len : ℕ) (s : Source UInt8) : ℤ × List UInt8 × Source UInt8 :=
  match readExact len s with
  | (some bs, s') => (0, bs, s')
  | (none, s') => (-1, [], s')

theorem netBytes_length (host : Endian) (m : Message) :
    (netBytes host m).length = messageSize := by
  rw [netBytes, List.length_append, headerBytes_length, m.body.property, messageSize]

/-- The first 8 bytes on the wire: the type in network order, the client id as
it lies in the sender's memory. -/
theorem netBytes_eq (host : Endian) (m : Message) :
    netBytes host m =
      bytesBE m.header.messageType ++ bytesOf host m.header.clientId ++ m.body.val := by
  simp only [netBytes, headerBytes, htonl_htonl, bytesOf_htonl]

theorem sendMessage_written {host : Endian} {m : Message} {s : Sink UInt8}
    (h : (sendMessage host m s).1 = 0) :
    (sendMessage host m s).2.written = s.written ++ netBytes host m := by
  by_cases hw : (writeExact (netBytes host m) s).1 = true
  · exact writeExact_written hw
  · simp [sendMessage, hw] at h

theorem recvHeader_enough (host : Endian) {s : Source UInt8} (h : headerSize ≤ s.rest.length) :
    (recvHeader host s).1 = some (headerOf host (s.rest.take headerSize)) ∧
      (recvHeader host s).2.rest = s.rest.drop headerSize := by
  obtain ⟨h1, h2⟩ := readExact_enough h
  simp [recvHeader, h1, h2]

theorem recvHeader_short (host : Endian) {s : Source UInt8} (h : s.rest.length < headerSize) :
    (recvHeader host s).1 = none ∧ (recvHeader host s).2.rest = [] := by
  obtain ⟨h1, h2⟩ := readExact_short h
  simp [recvHeader, h1, h2]

theorem receiveMessage_enough (host : Endian) {s : Source UInt8}
    (h : messageSize ≤ s.rest.length) :
    (receiveMessage host s).1 = some
      ⟨⟨ntohl host (messageOfBytes host (s.rest.take messageSize)).header.messageType,
        ntohl host (ntohl host (messageOfBytes host (s.rest.take messageSize)).header.clientId)⟩,
        (messageOfBytes host (s.rest.take messageSize)).body⟩ ∧
      (receiveMessage host s).2.rest = s.rest.drop messageSize := by
  obtain ⟨h1, h2⟩ := readExact_enough h
  simp [receiveMessage, h1, h2]

theorem receiveMessage_short (host : Endian) {s : Source UInt8}
    (h : s.rest.length < messageSize) : (receiveMessage host s).1 = none := by
  obtain ⟨h1, _⟩ := readExact_short h
  simp [receiveMessage, h1]

theorem recvPayload_enough {len : ℕ} {s : Source UInt8} (h : len ≤ s.rest.length) :
    (recvPayload len s).1 = 0 ∧ (recvPayload len s).2.1 = s.rest.take len ∧
      (recvPayload len s).2.2.rest = s.rest.drop len := by
  obtain ⟨h1, h2⟩ := readExact_enough h
  cases hr : readExact len s with
  | mk r s' =>
    rw [hr] at h1 h2
    cases h1
    simp only [recvPayload, hr, true_and]
    exact h2

theorem recvPayload_short {len : ℕ} {s : Source UInt8} (h : s.rest.length < len) :
    (recvPayload len s).1 = -1 := by
  obtain ⟨h1, _⟩ := readExact_short h
  cases hr : readExact len s with
  | mk r s' =>
    rw [hr] at h1
    cases h1
    simp only [recvPayload, hr]

theorem recvPayload_ret (len : ℕ) (s : Source UInt8) :
    (recvPayload len s).1 = 0 ∨ (recvPayload len s).1 = -1 := by
  unfold recvPayload
  split
  · exact Or.inl rfl
  · exact Or.inr rfl

theorem recvPayload_rest (len : ℕ) (s : Source UInt8) :
    s.rest.length - len ≤ (recvPayload len s).2.2.rest.length ∧
      (recvPayload len s).2.2.rest.length ≤ s.rest.length := by
  by_cases h : len ≤ s.rest.length
  · rw [(recvPayload_enough h).2.2, List.length_drop]
    omega
  · have hshort := readExact_short (Nat.lt_of_not_le h)
    cases hr : readExact len s with
    | mk r s' =>
      rw [hr] at hshort
      obtain ⟨rfl, hrest⟩ : r = none ∧ s'.rest = [] := hshort
      simp only [recvPayload, hr, hrest, List.length_nil]
      omega

def sendAll (host : Endian) : List Message → Sink UInt8 → ℤ × Sink UInt8
  | [], s => (0, s)
  | m :: ms, s =>
    let r := sendMessage host m s
    if r.1 = 0 then sendAll host ms r.2 else r

theorem sendAll_written {host : Endian} {ms : List Message} {s : Sink UInt8}
    (h : (sendAll host ms s).1 = 0) :
    (sendAll host ms s).2.written = s.written ++ ms.flatMap (netBytes host) := by
  induction ms generalizing s with
  | nil => simp [sendAll]
  | cons m ms ih =>
    by_cases hm : (sendMessage host m s).1 = 0
    · simp only [sendAll, hm, ite_true] at h ⊢
      rw [ih h, sendMessage_written hm, List.flatMap_cons, List.append_assoc]
    · simp only [sendAll, hm, ite_false] at h

theorem flatMap_netBytes_length (host : Endian) (ms : List Message) :
    (ms.flatMap (netBytes host)).length = ms.length * messageSize := by
  induction ms with
  | nil => simp
  | cons m ms ih =>
    rw [List.flatMap_cons, List.length_append, ih, netBytes_length, List.length_cons,
      Nat.succ_mul, Nat.add_comm]

end CSimples.NetUtils
