import CSimples.Shared.NetUtils

/-!
# What arrives of a message

`receive_message` undoes the conversions of `send_message` on a host of the same
byte order. The client id is converted twice on either side, so it crosses the
wire in the sender's own order; `recv_header` converts nothing at all. The two
readers agree with the sender only where these differences do not show.
-/

namespace CSimples.MessageTransfer
open ByteStream Protocol NetUtils

theorem messageOfBytes_netBytes (sender receiver : Endian) (m : Message) :
    messageOfBytes receiver (netBytes sender m) =
      ⟨⟨htonl receiver m.header.messageType, wordOf receiver (bytesOf sender m.header.clientId)⟩,
        m.body⟩ := by
  have hlen : (bytesBE m.header.messageType ++ bytesOf sender m.header.clientId).length =
      headerSize := by
    rw [List.length_append, bytesOf_length]
    rfl
  have htype : (bytesBE m.header.messageType ++ bytesOf sender m.header.clientId).take 4 =
      bytesBE m.header.messageType := List.take_left' rfl
  have hclient : (bytesBE m.header.messageType ++ bytesOf sender m.header.clientId).drop 4 =
      bytesOf sender m.header.clientId := List.drop_left' rfl
  rw [messageOfBytes_append hlen m.body (netBytes_eq sender m), headerOf, htype, hclient,
    wordOf_bytesBE]

theorem receiveMessage_netBytes (sender receiver : Endian) (m : Message) {s : Source UInt8}
    {tail : List UInt8} (h : s.rest = netBytes sender m ++ tail) :
    (receiveMessage receiver s).1 = some
      ⟨⟨m.header.messageType, wordOf receiver (bytesOf sender m.header.clientId)⟩, m.body⟩ ∧
      (receiveMessage receiver s).2.rest = tail := by
  have hlen := netBytes_length sender m
  have henough : messageSize ≤ s.rest.length := by
    rw [h, List.length_append]
    omega
  have htake : s.rest.take messageSize = netBytes sender m := by rw [h, List.take_left' hlen]
  obtain ⟨hmsg, hrest⟩ := receiveMessage_enough receiver henough
  rw [htake, messageOfBytes_netBytes] at hmsg
  refine ⟨?_, by rw [hrest, h, List.drop_left' hlen]⟩
  rw [hmsg, ntohl_htonl, ntohl_ntohl]

theorem recvHeader_netBytes (sender receiver : Endian) (m : Message) {s : Source UInt8}
    {tail : List UInt8} (h : s.rest = netBytes sender m ++ tail) :
    (recvHeader receiver s).1 = some
      ⟨htonl receiver m.header.messageType, wordOf receiver (bytesOf sender m.header.clientId)⟩ := by
  have hlen := netBytes_length sender m
  have henough : headerSize ≤ s.rest.length := by
    rw [h, List.length_append, hlen, messageSize]
    omega
  have htake : s.rest.take headerSize = (netBytes sender m).take headerSize := by
    rw [h, List.take_append_of_le_length (by rw [hlen, messageSize]; omega)]
  have hheader := congrArg Message.header (messageOfBytes_netBytes sender receiver m)
  rw [(recvHeader_enough receiver henough).1, htake]
  exact congrArg some hheader

/-! ### Receiving what was sent -/

/-- Successive calls of `receive_message`, until one fails. -/
def receiveAll (host : Endian) : ℕ → Source UInt8 → Option (List Message) × Source UInt8
  | 0, s => (some [], s)
  | k + 1, s => match receiveMessage host s with
    | (none, s') => (none, s')
    | (some m, s') =>
      let r := receiveAll host k s'
      (r.1.map (m :: ·), r.2)

theorem receiveAll_sent (host : Endian) (ms : List Message) {s : Source UInt8} {tail : List UInt8}
    (h : s.rest = ms.flatMap (netBytes host) ++ tail) :
    (receiveAll host ms.length s).1 = some ms ∧
      (receiveAll host ms.length s).2.rest = tail := by
  induction ms generalizing s with
  | nil => exact ⟨rfl, h⟩
  | cons m ms ih =>
    rw [List.flatMap_cons, List.append_assoc] at h
    obtain ⟨hmsg, hrest⟩ := receiveMessage_netBytes host host m h
    rw [wordOf_bytesOf] at hmsg
    cases hr : receiveMessage host s with
    | mk r s' =>
      rw [hr] at hmsg hrest
      cases hmsg
      obtain ⟨hall, htail⟩ := ih hrest
      simp only [List.length_cons, receiveAll, hr, hall, Option.map_some]
      exact ⟨trivial, htail⟩

/-- Messages cut after `n` bytes: the whole ones, and less than a message. -/
theorem flatMap_netBytes_take (host : Endian) (ms : List Message) (n : ℕ)
    (hn : n < ms.length * messageSize) :
    ∃ tail, (ms.flatMap (netBytes host)).take n =
      (ms.take (n / messageSize)).flatMap (netBytes host) ++ tail ∧ tail.length < messageSize := by
  have hq : n / messageSize ≤ ms.length := by
    have := Nat.div_lt_of_lt_mul (Nat.mul_comm ms.length messageSize ▸ hn)
    omega
  have hsplit : ms.flatMap (netBytes host) = (ms.take (n / messageSize)).flatMap (netBytes host) ++
      (ms.drop (n / messageSize)).flatMap (netBytes host) := by
    rw [← List.flatMap_append, List.take_append_drop]
  have hlen : ((ms.take (n / messageSize)).flatMap (netBytes host)).length =
      n / messageSize * messageSize := by
    rw [flatMap_netBytes_length, List.length_take, Nat.min_eq_left hq]
  have hdiv := Nat.div_add_mod' n messageSize
  have hmod : n % messageSize < messageSize := Nat.mod_lt _ (by decide)
  refine ⟨((ms.drop (n / messageSize)).flatMap (netBytes host)).take (n % messageSize), ?_, ?_⟩
  · rw [hsplit, List.take_append, hlen, List.take_of_length_le (by omega)]
    congr 2
    omega
  · rw [List.length_take]
    omega

/-- On hosts of one byte order `k` calls of `receive_message` deliver the `k`
messages that were sent and leave what follows them, however the bytes are split
into writes and reads; a stream that ends earlier delivers the messages that
arrived whole, and the next call answers -1. -/
theorem messages_received {host : Endian} {ms : List Message} {sink : Sink UInt8}
    (hempty : sink.written = []) (hsent : (sendAll host ms sink).1 = 0) :
    (∀ (s : Source UInt8) (tail : List UInt8),
      s.rest = (sendAll host ms sink).2.written ++ tail →
        (receiveAll host ms.length s).1 = some ms ∧
        (receiveAll host ms.length s).2.rest = tail ∧
        s.rest.length = ms.length * messageSize +
          (receiveAll host ms.length s).2.rest.length) ∧
    ∀ (s : Source UInt8) (n : ℕ), n < ms.length * messageSize →
      s.rest = (sendAll host ms sink).2.written.take n →
        (receiveAll host (n / messageSize) s).1 = some (ms.take (n / messageSize)) ∧
        (receiveMessage host (receiveAll host (n / messageSize) s).2).1 = none := by
  rw [sendAll_written hsent, hempty, List.nil_append]
  refine ⟨fun s tail h => ?_, fun s n hn h => ?_⟩
  · obtain ⟨hall, hrest⟩ := receiveAll_sent host ms h
    refine ⟨hall, hrest, ?_⟩
    rw [hrest, h, List.length_append, flatMap_netBytes_length]
  · obtain ⟨tail, htake, hshort⟩ := flatMap_netBytes_take host ms n hn
    rw [htake] at h
    have hq : (ms.take (n / messageSize)).length = n / messageSize := by
      have := Nat.div_lt_of_lt_mul (Nat.mul_comm ms.length messageSize ▸ hn)
      rw [List.length_take]
      omega
    obtain ⟨hall, hrest⟩ := receiveAll_sent host _ h
    rw [hq] at hall hrest
    refine ⟨hall, receiveMessage_short host ?_⟩
    rw [hrest]
    exact hshort

/-- REGISTER from client 5, as `register_with_server` builds it, on a connection
that takes everything at once. -/
def registerMessage : Message :=
  ⟨⟨MessageType.register.code, 5⟩, ⟨List.replicate bodySize 0, List.length_replicate⟩⟩

def openSink : Sink UInt8 := ⟨[], fun _ => some 2000, 0⟩

theorem sendMessage_openSink (host : Endian) (m : Message) :
    (sendMessage host m openSink).1 = 0 := by
  have hlen := netBytes_length host m
  have hwhole : (writeExact (netBytes host m) openSink).1 = true :=
    writeExact_whole (n := 2000) rfl (Nat.le_trans (Nat.le_of_eq hlen) (by decide))
  simp only [sendMessage, hwhole, if_true]

theorem messages_received_registerMessage :
    (∀ (s : Source UInt8) (tail : List UInt8),
      s.rest = (sendAll .little [registerMessage] openSink).2.written ++ tail →
        (receiveAll .little 1 s).1 = some [registerMessage] ∧
        (receiveAll .little 1 s).2.rest = tail ∧
        s.rest.length = 1 * messageSize + (receiveAll .little 1 s).2.rest.length) ∧
    ∀ (s : Source UInt8) (n : ℕ), n < 1 * messageSize →
      s.rest = (sendAll .little [registerMessage] openSink).2.written.take n →
        (receiveAll .little (n / messageSize) s).1 =
          some ([registerMessage].take (n / messageSize)) ∧
        (receiveMessage .little (receiveAll .little (n / messageSize) s).2).1 = none := by
  refine @messages_received .little [registerMessage] openSink rfl ?_
  simp [sendAll, sendMessage_openSink]

/-! ### The header on other hosts -/

/-- Both readers give the header that was passed to `send_message`. -/
def HeaderAgrees (receiver : Endian) (m : Message) (s : Source UInt8) : Prop :=
  (recvHeader receiver s).1 = some m.header ∧
    (receiveMessage receiver s).1.map Message.header = some m.header

/-- The header arrives exactly when `recv_header` had nothing to convert in the
type, and the client id reads the same in both hosts' byte orders. -/
theorem header_agrees_iff {sender receiver : Endian} {m : Message} {sink : Sink UInt8}
    {s : Source UInt8} (hempty : sink.written = []) (hsent : (sendMessage sender m sink).1 = 0)
    (hconn : s.rest = (sendMessage sender m sink).2.written) :
    HeaderAgrees receiver m s ↔
      (receiver = .big ∨ swap32 m.header.messageType = m.header.messageType) ∧
        (sender = receiver ∨ swap32 m.header.clientId = m.header.clientId) := by
  have hrest : s.rest = netBytes sender m ++ [] := by
    rw [hconn, sendMessage_written hsent, hempty, List.nil_append, List.append_nil]
  have htype : htonl receiver m.header.messageType = m.header.messageType ↔
      receiver = .big ∨ swap32 m.header.messageType = m.header.messageType := by
    cases receiver with
    | big => simp [htonl_big]
    | little => simp [htonl_little]
  have hclient := wordOf_bytesOf_eq_iff sender receiver m.header.clientId
  have hheader : m.header = ⟨m.header.messageType, m.header.clientId⟩ := rfl
  rw [HeaderAgrees, recvHeader_netBytes sender receiver m hrest,
    (receiveMessage_netBytes sender receiver m hrest).1, ← htype, ← hclient, hheader]
  simp only [Option.map_some, Option.some.injEq, MessageHeader.mk.injEq, true_and]
  constructor
  · rintro ⟨h, _⟩
    exact h
  · rintro h
    exact ⟨h, h.2⟩

def registerStream : Source UInt8 := ⟨netBytes .little registerMessage, fun _ => 2000, 0⟩

theorem registerStream_rest :
    registerStream.rest = (sendMessage .little registerMessage openSink).2.written := by
  rw [sendMessage_written (sendMessage_openSink .little registerMessage)]
  simp [registerStream, openSink]

theorem header_agrees_iff_registerMessage :
    HeaderAgrees .little registerMessage registerStream ↔
      ((.little : Endian) = .big ∨ swap32 registerMessage.header.messageType =
        registerMessage.header.messageType) ∧
      ((.little : Endian) = .little ∨ swap32 registerMessage.header.clientId =
        registerMessage.header.clientId) :=
  header_agrees_iff rfl (sendMessage_openSink .little registerMessage) registerStream_rest

/-- Between two little-endian hosts `recv_header` reads the type 70 as
70 * 2^24, with the bytes in reverse order. -/
theorem header_disagrees :
    (sendMessage .little registerMessage openSink).1 = 0 ∧
      (recvHeader .little registerStream).1 = some ⟨1174405120, 5⟩ ∧
      ¬ HeaderAgrees .little registerMessage registerStream := by
  have hrest : registerStream.rest = netBytes .little registerMessage ++ [] :=
    (List.append_nil _).symm
  have hheader : (recvHeader .little registerStream).1 = some ⟨1174405120, 5⟩ := by
    rw [recvHeader_netBytes .little .little registerMessage hrest]
    decide
  refine ⟨sendMessage_openSink .little registerMessage, hheader, ?_⟩
  rintro ⟨h, _⟩
  rw [hheader] at h
  exact absurd h (by decide)

end CSimples.MessageTransfer
