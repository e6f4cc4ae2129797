import Mathlib.Data.List.Basic
import Mathlib.Tactic.NormNum

/-!
# The shared message format (lib/include/protocol.h)

`MessageHeader`, `MessageBody`, `Message` and `task_result_t` with the sizes
the compiler gives them (every member is a 4-byte word or a byte array, so
there is no padding), and the 32-bit words as bytes in either byte order. The
body is kept as the raw bytes of the union.
-/

namespace CSimples.Protocol

inductive MessageType where
  | heartbeat
  | clientConnect
  | clientConnectAck
  | clientDisconnect
  | submitJob
  | jobSubmitted
  | getJobStatus
  | jobStatus
  | getJobResult
  | jobResult
  | getServerStats
  | serverStats
  | error
  | register
  | registerResponse
  | heartbeatResponse
  | task
  | taskResult
  | resultAck
  | shutdown
  deriving Repr, DecidableEq

/-- The value of an enumerator. The field itself may hold any 32-bit value. -/
def MessageType.code : MessageType → UInt32
  | .heartbeat => 0
  | .clientConnect => 1
  | .clientConnectAck => 2
  | .clientDisconnect => 3
  | .submitJob => 10
  | .jobSubmitted => 11
  | .getJobStatus => 12
  | .jobStatus => 13
  | .getJobResult => 14
  | .jobResult => 15
  | .getServerStats => 20
  | .serverStats => 21
  | .error => 30
  | .register => 70
  | .registerResponse => 71
  | .heartbeatResponse => 72
  | .task => 80
  | .taskResult => 81
  | .resultAck => 82
  | .shutdown => 90

structure MessageHeader where
  messageType : UInt32
  clientId : UInt32
  deriving Repr, DecidableEq

def headerSize : ℕ := 8

/-- `sizeof(MessageBody)`: the largest members are `submit_job` and `job_result`,
a 1024-byte array between two words. -/
def bodySize : ℕ := 1032

def messageSize : ℕ := headerSize + bodySize

def taskResultSize : ℕ := 12

def maxDataSize : ℕ := 1024

abbrev MessageBody := {bs : List UInt8 // bs.length = bodySize}

structure Message where
  header : MessageHeader
  body : MessageBody
  deriving DecidableEq

def statusSuccess : ℕ := 0

structure TaskResult where
  taskId : UInt32
  status : UInt32
  execTimeMs : UInt32
  deriving Repr, DecidableEq

/-! ### Words as bytes -/

inductive Endian where
  | little
  | big
  deriving Repr, DecidableEq

def bytesBE (x : UInt32) : List UInt8 :=
  [.ofNat (x.toNat / 2^24), .ofNat (x.toNat / 2^16), .ofNat (x.toNat / 2^8), .ofNat x.toNat]

def wordBE : List UInt8 → UInt32
  | [a, b, c, d] =>
    .ofNat (a.toNat * 2^24 + b.toNat * 2^16 + c.toNat * 2^8 + d.toNat)
  | _ => 0

def bytesOf (host : Endian) (x : UInt32) : List UInt8 :=
  match host with
  | .big => bytesBE x
  | .little => (bytesBE x).reverse

def wordOf (host : Endian) (bs : List UInt8) : UInt32 :=
  match host with
  | .big => wordBE bs
  | .little => wordBE bs.reverse

theorem bytesOf_length (host : Endian) (x : UInt32) : (bytesOf host x).length = 4 := by
  cases host with
  | big => rfl
  | little => rfl

theorem wordBE_bytesBE (x : UInt32) : wordBE (bytesBE x) = x := by
  have hx : x.toNat < 2^32 := x.toNat_lt
  have he : x.toNat / 2^24 % 2^8 * 2^24 + x.toNat / 2^16 % 2^8 * 2^16 +
      x.toNat / 2^8 % 2^8 * 2^8 + x.toNat % 2^8 = x.toNat := by omega
  simp only [bytesBE, wordBE, UInt8.toNat_ofNat', he, UInt32.ofNat_toNat]

theorem wordOf_bytesOf (host : Endian) (x : UInt32) : wordOf host (bytesOf host x) = x := by
  cases host with
  | big => exact wordBE_bytesBE x
  | little =>
    simp only [wordOf, bytesOf, List.reverse_reverse]
    exact wordBE_bytesBE x

/-- `htonl`: the word whose bytes in this host's memory are those of `x` in
network order. -/
def htonl (host : Endian) (x : UInt32) : UInt32 := wordOf host (bytesBE x)

theorem htonl_big (x : UInt32) : htonl .big x = x := wordBE_bytesBE x

/-- `ntohl`: the word whose network bytes lie in this host's memory as `x`. -/
def ntohl (host : Endian) (x : UInt32) : UInt32 := wordBE (bytesOf host x)

/-- The word with the bytes in the other order. -/
def swap32 (x : UInt32) : UInt32 := wordBE (bytesBE x).reverse

theorem bytesBE_wordBE (a b c d : UInt8) : bytesBE (wordBE [a, b, c, d]) = [a, b, c, d] := by
  have ha := a.toNat_lt
  have hb := b.toNat_lt
  have hc := c.toNat_lt
  have hd := d.toNat_lt
  have hlt : a.toNat * 2^24 + b.toNat * 2^16 + c.toNat * 2^8 + d.toNat < 2^32 := by omega
  simp only [bytesBE, wordBE, UInt32.toNat_ofNat_of_lt' hlt, List.cons.injEq, and_true]
  refine ⟨?_, ?_, ?_, ?_⟩
  all_goals
    apply UInt8.toNat_inj.mp
    rw [UInt8.toNat_ofNat']
    omega

theorem bytesBE_swap32 (x : UInt32) : bytesBE (swap32 x) = (bytesBE x).reverse :=
  bytesBE_wordBE ..

theorem swap32_swap32 (x : UInt32) : swap32 (swap32 x) = x := by
  rw [swap32, bytesBE_swap32, List.reverse_reverse, wordBE_bytesBE]

theorem htonl_little (x : UInt32) : htonl .little x = swap32 x := rfl

theorem ntohl_little (x : UInt32) : ntohl .little x = swap32 x := rfl

theorem ntohl_big (x : UInt32) : ntohl .big x = x := wordBE_bytesBE x

theorem htonl_htonl (host : Endian) (x : UInt32) : htonl host (htonl host x) = x := by
  cases host with
  | big => rw [htonl_big, htonl_big]
  | little => rw [htonl_little, htonl_little, swap32_swap32]

theorem ntohl_ntohl (host : Endian) (x : UInt32) : ntohl host (ntohl host x) = x := by
  cases host with
  | big => rw [ntohl_big, ntohl_big]
  | little => rw [ntohl_little, ntohl_little, swap32_swap32]

theorem ntohl_htonl (host : Endian) (x : UInt32) : ntohl host (htonl host x) = x := by
  cases host with
  | big => rw [ntohl_big, htonl_big]
  | little => rw [ntohl_little, htonl_little, swap32_swap32]

theorem bytesOf_htonl (host : Endian) (x : UInt32) : bytesOf host (htonl host x) = bytesBE x := by
  cases host with
  | big => rw [htonl_big, bytesOf]
  | little => rw [htonl_little, bytesOf, bytesBE_swap32, List.reverse_reverse]

theorem wordOf_bytesBE (host : Endian) (x : UInt32) : wordOf host (bytesBE x) = htonl host x := rfl

theorem wordOf_bytesOf_eq_iff (sender receiver : Endian) (x : UInt32) :
    wordOf receiver (bytesOf sender x) = x ↔ sender = receiver ∨ swap32 x = x := by
  cases sender <;> cases receiver <;> simp only [bytesOf, wordOf, List.reverse_reverse,
    wordBE_bytesBE, swap32, true_or, reduceCtorEq, false_or]

/-! ### Structures as bytes -/

def headerBytes (host : Endian) (h : MessageHeader) : List UInt8 :=
  bytesOf host h.messageType ++ bytesOf host h.clientId

def headerOf (host : Endian) (bs : List UInt8) : MessageHeader :=
  ⟨wordOf host (bs.take 4), wordOf host (bs.drop 4)⟩

/-- A `Message` read into the memory of a host, from `sizeof(Message)` bytes. -/
def messageOfBytes (host : Endian) (bs : List UInt8) : Message :=
  ⟨headerOf host (bs.take headerSize),
    ⟨(bs.drop headerSize ++ List.replicate bodySize 0).take bodySize, by simp⟩⟩

def taskResultBytes (host : Endian) (r : TaskResult) : List UInt8 :=
  bytesOf host r.taskId ++ bytesOf host r.status ++ bytesOf host r.execTimeMs

def taskResultOf (host : Endian) (bs : List UInt8) : TaskResult :=
  ⟨wordOf host (bs.take 4), wordOf host ((bs.drop 4).take 4), wordOf host (bs.drop 8)⟩

theorem headerBytes_length (host : Endian) (h : MessageHeader) :
    (headerBytes host h).length = headerSize := by
  simp [headerBytes, headerSize, bytesOf_length]

theorem messageOfBytes_append {host : Endian} {header bs : List UInt8} (hh : header.length = headerSize)
    (body : MessageBody) (hb : bs = header ++ body.val) :
    messageOfBytes host bs = ⟨headerOf host header, body⟩ := by
  have htake : bs.take headerSize = header := by rw [hb, List.take_left' hh]
  have hdrop : bs.drop headerSize = body.val := by rw [hb, List.drop_left' hh]
  have hbody : (body.val ++ List.replicate bodySize 0).take bodySize = body.val :=
    List.take_left' body.property
  simp only [messageOfBytes, htake, hdrop, hbody]

theorem taskResultBytes_length (host : Endian) (r : TaskResult) :
    (taskResultBytes host r).length = taskResultSize := by
  simp [taskResultBytes, taskResultSize, bytesOf_length]

end CSimples.Protocol
