import CSimples.Shared.MessageTransfer
import Mathlib.Data.List.TakeWhile

/-!
# Fetching a result (client/client.c:280-349)

`client_get_job_result` asks the server for the result of a job and copies as
many bytes of the answer as the `result_size` in it says. The field it copies
from has 1024 bytes and nothing compares the two. An ERROR answer is printed
with `%s`, up to a terminator that the message need not hold.
-/

namespace CSimples.JobResult
open ByteStream Protocol NetUtils
open MessageTransfer (openSink sendMessage_openSink)

structure Client where
  clientId : Int32
  isConnected : Bool
  deriving Repr, DecidableEq

/-- `*result_data` and `*result_size`. A byte of the copy that was read outside
of the message is `none`. -/
structure Output where
  resultData : Option (List (Option UInt8))
  resultSize : ℕ
  deriving Repr, DecidableEq

/-- What a call leaves behind: its value, what the two pointers point to (`none`
when one of them is NULL), and the offsets in `msg` read by `memcpy` and by `%s`. -/
structure Called where
  ret : ℤ
  output : Option Output
  copied : List ℕ
  printed : List ℕ
  deriving Repr, DecidableEq

/-- The failures after the two results are initialized. -/
def failed (printed : List ℕ) : Called := ⟨-1, some ⟨none, 0⟩, [], printed⟩

/-- The byte arrays of `job_result` and `error` lie behind one word of the body. -/
def fieldOffset : ℕ := headerSize + 4

def sizeOffset : ℕ := fieldOffset + maxDataSize

def memory (host : Endian) (m : Message) : List UInt8 :=
  headerBytes host m.header ++ m.body.val

def resultSize (host : Endian) (m : Message) : ℕ :=
  (wordOf host (((memory host m).drop sizeOffset).take 4)).toNat

/-- What `%s` reads from `start` on: everything up to the terminator. Without
one in the object it goes on behind its end. -/
def stringReads (mem : List UInt8) (start : ℕ) : List ℕ :=
  List.range' start (((mem.drop start).takeWhile (· ≠ 0)).length + 1)

/-- The request: all zero but for the type, the client and the job. -/
def request (host : Endian) (c : Client) (jobId : Int32) : Message where
  header := ⟨MessageType.getJobResult.code, c.clientId.toUInt32⟩
  body := ⟨bytesOf host jobId.toUInt32 ++ List.replicate (bodySize - 4) 0, by
    rw [List.length_append, bytesOf_length, List.length_replicate]
    rfl⟩

/-- The handling of a received message (client.c:317-348). `logs` says whether
the logger prints errors, `malloc` which allocations succeed. -/
def readResult (host : Endian) (logs : Bool) (malloc : ℕ → Bool) (msg : Message) : Called :=
  if msg.header.messageType = MessageType.error.code then
    failed (if logs then stringReads (memory host msg) fieldOffset else [])
  else if msg.header.messageType ≠ MessageType.jobResult.code then failed []
  else
    let dataSize := resultSize host msg
    if 0 < dataSize then
      if malloc dataSize then
        let reads := List.range' fieldOffset dataSize
        ⟨0, some ⟨some (reads.map fun o => (memory host msg)[o]?), dataSize⟩, reads, []⟩
      else failed []
    else ⟨0, some ⟨none, 0⟩, [], []⟩

/-- The call with the connection to the server; `args` is what the two pointers
point to before it. -/
def clientGetJobResult (host : Endian) (logs : Bool) (malloc : ℕ → Bool) (c : Client)
    (jobId : Int32) (args : Option Output) (toServer : Sink UInt8) (fromServer : Source UInt8) :
    Called × Sink UInt8 × Source UInt8 :=
  match args with
  | none => (⟨-1, none, [], []⟩, toServer, fromServer)
  | some _ =>
    if c.isConnected then
      let sent := sendMessage host (request host c jobId) toServer
      if sent.1 < 0 then (failed [], sent.2, fromServer)
      else
        match receiveMessage host fromServer with
        | (none, s) => (failed [], sent.2, s)
        | (some msg, s) => (readResult host logs malloc msg, sent.2, s)
    else (failed [], toServer, fromServer)

/-- A failure leaves NULL and 0, a success has copied bytes of `result_data`. -/
def Safe (r : Called) : Prop :=
  r.ret = -1 ∧ r.output = some ⟨none, 0⟩ ∨
    r.ret = 0 ∧ ∀ o ∈ r.copied, fieldOffset ≤ o ∧ o < fieldOffset + maxDataSize

/-- Nothing behind the end of the message is read. -/
def Inside (r : Called) : Prop := ∀ o ∈ r.copied ++ r.printed, o < messageSize

/-- The reply is a result that says more than `bound` bytes, and there is memory
for a copy of them. -/
def Oversized (host : Endian) (malloc : ℕ → Bool) (bound : ℕ) (reply : List UInt8) : Prop :=
  let size := (wordOf host ((reply.drop sizeOffset).take 4)).toNat
  wordBE (reply.take 4) = MessageType.jobResult.code ∧ bound < size ∧ malloc size = true

/-- The reply is an error whose text has no end in the message. -/
def Unterminated (reply : List UInt8) : Prop :=
  wordBE (reply.take 4) = MessageType.error.code ∧ 0 ∉ reply.drop fieldOffset

/-! ### The received message -/

section
variable {reply rest : List UInt8} {s : Source UInt8}

theorem memory_length (host : Endian) (m : Message) : (memory host m).length = messageSize := by
  rw [memory, List.length_append, headerBytes_length, m.body.property, messageSize]

/-- Behind the header the message lies in memory as it was received. -/
theorem receiveMessage_reply (host : Endian) (hr : s.rest = reply ++ rest)
    (hlen : reply.length = messageSize) :
    ∃ msg, receiveMessage host s = (some msg, (receiveMessage host s).2) ∧
      msg.header.messageType = wordBE (reply.take 4) ∧
      ∀ n, headerSize ≤ n → (memory host msg).drop n = reply.drop n := by
  have hle : messageSize ≤ s.rest.length := by
    rw [hr, List.length_append, hlen]
    omega
  have htake : s.rest.take messageSize = reply := by rw [hr, List.take_left' hlen]
  have hrecv := (receiveMessage_enough host hle).1
  rw [htake] at hrecv
  have hsize : headerSize ≤ reply.length := by rw [hlen, messageSize]; omega
  have hhead : (reply.take headerSize).length = headerSize := by
    rw [List.length_take, Nat.min_eq_left hsize]
  have hbody : (reply.drop headerSize).length = bodySize := by
    rw [List.length_drop, hlen, messageSize, Nat.add_sub_cancel_left]
  have hmsg : messageOfBytes host reply = _ := messageOfBytes_append hhead
    ⟨reply.drop headerSize, hbody⟩ (List.take_append_drop headerSize reply).symm
  rw [hmsg] at hrecv
  refine ⟨_, Prod.ext hrecv rfl, ?_, ?_⟩
  · have h4 : (reply.take headerSize).take 4 = reply.take 4 := by
      rw [List.take_take]
      rfl
    show wordBE (bytesOf host (wordOf host ((reply.take headerSize).take 4))) = _
    rw [h4]
    have hlen4 : (reply.take 4).length = 4 := by
      rw [List.length_take, hlen]
      rfl
    obtain ⟨a, b, c, d, he⟩ := List.length_eq_four.mp hlen4
    rw [he]
    cases host with
    | big => exact congrArg wordBE (bytesBE_wordBE a b c d)
    | little =>
      show wordBE (bytesBE (wordBE [d, c, b, a])).reverse = _
      rw [bytesBE_wordBE]
      rfl
  · intro n hn
    obtain ⟨k, rfl⟩ : ∃ k, n = headerSize + k := ⟨n - headerSize, by omega⟩
    rw [memory, List.drop_append, headerBytes_length, Nat.add_sub_cancel_left,
      List.drop_eq_nil_of_le (by rw [headerBytes_length]; omega), List.nil_append, List.drop_drop]

end

/-! ### What is read -/

theorem stringReads_inside (mem : List UInt8) (start : ℕ) (h : start ≤ mem.length) :
    (∀ o ∈ stringReads mem start, o < mem.length) ↔ 0 ∈ mem.drop start := by
  have hdrop : (mem.drop start).length = mem.length - start := List.length_drop
  have hle := (List.takeWhile_prefix (l := mem.drop start) (· ≠ (0 : UInt8))).length_le
  have hall : ((mem.drop start).takeWhile (· ≠ 0)).length = (mem.drop start).length ↔
      0 ∉ mem.drop start := by
    constructor
    · intro he hz
      have hself := (List.takeWhile_prefix (l := mem.drop start) (· ≠ (0 : UInt8))).eq_of_length he
      have hne := List.takeWhile_eq_self_iff.mp hself 0 hz
      simp at hne
    · intro hz
      rw [List.takeWhile_eq_self_iff.mpr fun b hb => decide_eq_true (ne_of_mem_of_not_mem hb hz)]
  constructor
  · intro hin
    by_contra hz
    have hlast := hin mem.length (List.mem_range'_1.mpr (by rw [hall.mpr hz]; omega))
    omega
  · intro hz o ho
    have hlt := mt hall.mp (not_not.mpr hz)
    have hmem := List.mem_range'_1.mp ho
    omega

/-- `n` bytes from the start of the field stay in the field, or in the message,
when they are few enough. -/
theorem copied_below (bound : ℕ) {n : ℕ} (hn : 0 < n) :
    (∀ o ∈ List.range' fieldOffset n, o < fieldOffset + bound) ↔ n ≤ bound := by
  constructor
  · intro h
    have hlast := h (fieldOffset + n - 1) (List.mem_range'_1.mpr (by omega))
    omega
  · intro h o ho
    have hmem := List.mem_range'_1.mp ho
    omega

/-- What the handling of a message can do: print an error, end with nothing
read, or copy as many bytes as the message says. -/
theorem readResult_cases (host : Endian) (logs : Bool) (malloc : ℕ → Bool) (msg : Message) :
    (msg.header.messageType = MessageType.error.code ∧
      readResult host logs malloc msg =
        failed (if logs then stringReads (memory host msg) fieldOffset else [])) ∨
    (msg.header.messageType ≠ MessageType.error.code ∧
      ¬ (msg.header.messageType = MessageType.jobResult.code ∧
        0 < resultSize host msg ∧ malloc (resultSize host msg) = true) ∧
      (readResult host logs malloc msg = failed [] ∨
        readResult host logs malloc msg = ⟨0, some ⟨none, 0⟩, [], []⟩)) ∨
    (msg.header.messageType = MessageType.jobResult.code ∧
      (0 < resultSize host msg ∧ malloc (resultSize host msg) = true) ∧
      readResult host logs malloc msg =
        ⟨0, some ⟨some ((List.range' fieldOffset (resultSize host msg)).map fun o =>
          (memory host msg)[o]?), resultSize host msg⟩,
          List.range' fieldOffset (resultSize host msg), []⟩) := by
  by_cases herr : msg.header.messageType = MessageType.error.code
  · exact Or.inl ⟨herr, if_pos herr⟩
  · right
    by_cases hres : msg.header.messageType = MessageType.jobResult.code
    · have hkind : ¬ MessageType.jobResult.code = MessageType.error.code := by decide
      by_cases hpos : 0 < resultSize host msg
      · cases hm : malloc (resultSize host msg) with
        | false =>
          refine Or.inl ⟨herr, fun h => Bool.false_ne_true h.2.2, Or.inl ?_⟩
          simp only [readResult, hkind, hres, hpos, hm, ne_eq, not_true_eq_false, if_true, if_false,
            Bool.false_eq_true]
        | true =>
          refine Or.inr ⟨hres, ⟨hpos, rfl⟩, ?_⟩
          simp only [readResult, hkind, hres, hpos, hm, ne_eq, not_true_eq_false, if_true, if_false]
      · refine Or.inl ⟨herr, fun h => hpos h.2.1, Or.inr ?_⟩
        simp only [readResult, hkind, hres, hpos, ne_eq, not_true_eq_false, if_false]
    · refine Or.inl ⟨herr, fun h => hres h.1, Or.inl ?_⟩
      simp only [readResult, herr, ne_eq, hres, not_false_eq_true, if_true, if_false]

theorem readResult_safe (host : Endian) (logs : Bool) (malloc : ℕ → Bool) (msg : Message) :
    Safe (readResult host logs malloc msg) ↔
      ¬ (msg.header.messageType = MessageType.jobResult.code ∧
        maxDataSize < resultSize host msg ∧ malloc (resultSize host msg) = true) := by
  obtain ⟨herr, he⟩ | ⟨_, hno, he⟩ | ⟨hres, ⟨hpos, hm⟩, he⟩ :=
    readResult_cases host logs malloc msg
  · rw [he, herr]
    exact iff_of_true (Or.inl ⟨rfl, rfl⟩) fun h => absurd h.1 (by decide)
  · refine iff_of_true ?_ fun h => hno ⟨h.1, Nat.zero_lt_of_lt h.2.1, h.2.2⟩
    rcases he with he | he
    · rw [he]
      exact Or.inl ⟨rfl, rfl⟩
    · rw [he]
      exact Or.inr ⟨rfl, fun o ho => absurd ho List.not_mem_nil⟩
  · rw [he, hres, hm]
    simp only [true_and, and_true, Nat.not_lt]
    rw [← copied_below maxDataSize hpos]
    constructor
    · intro h o ho
      rcases h with h | h
      · cases h.1
      · exact (h.2 o ho).2
    · intro h
      exact Or.inr ⟨rfl, fun o ho => ⟨(List.mem_range'_1.mp ho).1, h o ho⟩⟩

theorem readResult_inside (host : Endian) (logs : Bool) (malloc : ℕ → Bool) (msg : Message) :
    Inside (readResult host logs malloc msg) ↔
      ¬ (msg.header.messageType = MessageType.jobResult.code ∧
        maxDataSize + 4 < resultSize host msg ∧ malloc (resultSize host msg) = true) ∧
      ¬ (msg.header.messageType = MessageType.error.code ∧
        0 ∉ (memory host msg).drop fieldOffset ∧ logs = true) := by
  obtain ⟨herr, he⟩ | ⟨hne, hno, he⟩ | ⟨hres, ⟨hpos, hm⟩, he⟩ :=
    readResult_cases host logs malloc msg
  · have hkind : ¬ MessageType.error.code = MessageType.jobResult.code := by decide
    rw [he, herr]
    simp only [hkind, false_and, not_false_eq_true, true_and]
    cases logs with
    | false =>
      exact iff_of_true (fun o ho => absurd ho List.not_mem_nil) fun h => Bool.false_ne_true h.2
    | true =>
      have hstr := stringReads_inside (memory host msg) fieldOffset
        (by rw [memory_length]; decide)
      rw [memory_length] at hstr
      simp only [Inside, failed, if_true, List.nil_append, hstr, and_true, not_not]
  · refine iff_of_true (fun o ho => ?_)
      ⟨fun h => hno ⟨h.1, Nat.zero_lt_of_lt h.2.1, h.2.2⟩, fun h => hne h.1⟩
    rcases he with he | he
    · rw [he] at ho
      exact absurd ho List.not_mem_nil
    · rw [he] at ho
      exact absurd ho List.not_mem_nil
  · have hkind : ¬ MessageType.jobResult.code = MessageType.error.code := by decide
    rw [he, hres, hm]
    simp only [hkind, false_and, not_false_eq_true, true_and, and_true, Nat.not_lt, Inside,
      List.append_nil]
    exact copied_below (maxDataSize + 4) hpos

/-! ### The call -/

section
variable {host : Endian} {c : Client} {jobId : Int32} {out : Output} {toServer : Sink UInt8}
  {fromServer : Source UInt8} {reply rest : List UInt8}

theorem getJobResult_answered (out : Output) (logs : Bool) (malloc : ℕ → Bool)
    (hc : c.isConnected = true)
    (hs : (sendMessage host (request host c jobId) toServer).1 = 0)
    (hr : fromServer.rest = reply ++ rest) (hlen : reply.length = messageSize) :
    ∃ msg, (clientGetJobResult host logs malloc c jobId (some out) toServer fromServer).1 =
        readResult host logs malloc msg ∧
      msg.header.messageType = wordBE (reply.take 4) ∧
      resultSize host msg = (wordOf host ((reply.drop sizeOffset).take 4)).toNat ∧
      (memory host msg).drop fieldOffset = reply.drop fieldOffset := by
  obtain ⟨msg, hmsg, htype, hdrop⟩ := receiveMessage_reply host hr hlen
  refine ⟨msg, ?_, htype, ?_, hdrop fieldOffset (by decide)⟩
  · simp only [clientGetJobResult, hc, if_true, hs, Int.lt_irrefl, if_false]
    rw [hmsg]
  · rw [resultSize, hdrop sizeOffset (by decide)]

/-- An answered request keeps to the result field exactly when no result is
longer than it, and to the message exactly when moreover every printed error has
an end. -/
theorem getJobResult_safe_iff (logs : Bool) (malloc : ℕ → Bool) (hc : c.isConnected = true)
    (hs : (sendMessage host (request host c jobId) toServer).1 = 0)
    (hr : fromServer.rest = reply ++ rest) (hlen : reply.length = messageSize) :
    (Safe (clientGetJobResult host logs malloc c jobId (some out) toServer fromServer).1 ↔
      ¬ Oversized host malloc maxDataSize reply) ∧
    (Inside (clientGetJobResult host logs malloc c jobId (some out) toServer fromServer).1 ↔
      ¬ Oversized host malloc (maxDataSize + 4) reply ∧ ¬ (Unterminated reply ∧ logs = true)) := by
  obtain ⟨msg, he, htype, hsize, hdrop⟩ := getJobResult_answered out logs malloc hc hs hr hlen
  rw [he, readResult_safe, readResult_inside, htype, hsize, hdrop]
  exact ⟨Iff.rfl, by rw [Unterminated, and_assoc]; rfl⟩

/-- What is copied from a result that fits its field are its first bytes. -/
theorem getJobResult_copies (logs : Bool) (malloc : ℕ → Bool) (hc : c.isConnected = true)
    (hs : (sendMessage host (request host c jobId) toServer).1 = 0)
    (hr : fromServer.rest = reply ++ rest) (hlen : reply.length = messageSize)
    {data : List (Option UInt8)} {size : ℕ}
    (hout : (clientGetJobResult host logs malloc c jobId (some out) toServer fromServer).1.output =
      some ⟨some data, size⟩) (hsize : size ≤ maxDataSize) :
    data = ((reply.drop fieldOffset).take size).map some := by
  obtain ⟨msg, he, _, _, hdrop⟩ := getJobResult_answered out logs malloc hc hs hr hlen
  rw [he] at hout
  obtain ⟨_, h⟩ | ⟨_, _, h | h⟩ | ⟨_, _, h⟩ := readResult_cases host logs malloc msg
  · rw [h] at hout
    cases hout
  · rw [h] at hout
    cases hout
  · rw [h] at hout
    cases hout
  · rw [h] at hout
    cases hout
    rw [← hdrop]
    have hmem := memory_length host msg
    have hfield : fieldOffset + maxDataSize ≤ messageSize := by decide
    apply List.ext_getElem?
    intro i
    rw [List.getElem?_map, List.getElem?_map, List.getElem?_take]
    by_cases hi : i < resultSize host msg
    · rw [List.getElem?_range' hi, if_pos hi, List.getElem?_drop, Option.map_some, Nat.one_mul,
        List.getElem?_eq_getElem (by omega), Option.map_some]
    · rw [List.getElem?_eq_none (by rw [List.length_range']; omega), if_neg hi]
      rfl

end

/-! ### A result that is one byte too long -/

/-- A result as a little-endian server sends it, with a given size word. -/
def resultReply (size : UInt32) : List UInt8 :=
  bytesBE MessageType.jobResult.code ++
    (List.replicate (sizeOffset - 4) 0 ++ bytesOf .little size)

def fromServer (size : UInt32) : Source UInt8 := ⟨resultReply size, fun _ => 2000, 0⟩

theorem resultReply_length (size : UInt32) : (resultReply size).length = messageSize := by
  simp only [resultReply, List.length_append, List.length_replicate, bytesOf_length]
  rfl

theorem resultReply_size (size : UInt32) :
    wordOf .little (((resultReply size).drop sizeOffset).take 4) = size := by
  have hfront : (bytesBE MessageType.jobResult.code ++
      List.replicate (sizeOffset - 4) (0 : UInt8)).length = sizeOffset := by
    rw [List.length_append, List.length_replicate]
    rfl
  rw [resultReply, ← List.append_assoc, List.drop_left' hfront,
    List.take_of_length_le (Nat.le_of_eq (bytesOf_length .little size)), wordOf_bytesOf]

theorem fromServer_rest (size : UInt32) : (fromServer size).rest = resultReply size ++ [] :=
  (List.append_nil _).symm

theorem getJobResult_unsafe :
    ¬ Safe (clientGetJobResult .little true (fun _ => true) ⟨1, true⟩ 1 (some ⟨none, 0⟩) openSink
      (fromServer 1025)).1 := by
  have hlen := resultReply_length 1025
  have hsent := sendMessage_openSink .little (request .little ⟨1, true⟩ 1)
  obtain ⟨msg, he, htype, hsize, _⟩ := getJobResult_answered (c := ⟨1, true⟩) ⟨none, 0⟩ true
    (fun _ => true) rfl hsent (fromServer_rest 1025) hlen
  rw [he, readResult_safe, not_not, htype, hsize, resultReply_size]
  exact ⟨rfl, by decide, rfl⟩

theorem getJobResult_safe_five :
    Safe (clientGetJobResult .little true (fun _ => true) ⟨1, true⟩ 1 (some ⟨none, 0⟩) openSink
      (fromServer 5)).1 := by
  refine (getJobResult_safe_iff true (fun _ => true) rfl (sendMessage_openSink .little _)
    (fromServer_rest 5) (resultReply_length 5)).1.mpr fun h => ?_
  have hsize := h.2.1
  rw [resultReply_size] at hsize
  exact absurd hsize (by decide)

end CSimples.JobResult
