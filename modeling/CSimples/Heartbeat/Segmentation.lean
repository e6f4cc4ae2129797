import CSimples.Heartbeat.Responses

/-!
# Requests in several pieces (heartbeat_server.c:226-239)

`handle_client` takes what one `read` returns for the whole request. How the
bytes of a request are cut into the pieces that successive reads return is up to
the network.
-/

namespace CSimples.HeartbeatServer
open CString

variable {D J : Type}

/-- A way of splitting the bytes into pieces, none of them empty. -/
structure Splitting (data : List UInt8) (chunks : List (List UInt8)) : Prop where
  nonempty : ∀ chunk ∈ chunks, chunk ≠ []
  joined : chunks.flatten = data

section Connection
variable (c : Checks D) (json : JsonC D J) (alloc : Bool) (now : ℤ) (h : History D)

/-- The one `read` is for at most `BUFFER_SIZE - 1` bytes; at the end of the stream it
returns none. -/
def handleConnection (chunks : List (List UInt8)) : Handled D :=
  handleClient c json alloc now h ((chunks.headD []).take (bufferSize - 1))

/-- Response, record and history are the same for every two ways of splitting. -/
def SplitFree (data : List UInt8) : Prop :=
  ∀ chunks chunks', Splitting data chunks → Splitting data chunks' →
    handleConnection c json alloc now h chunks = handleConnection c json alloc now h chunks'

/-- No start of the request is a valid raw heartbeat, and the request is for neither route. -/
def NeverServed (data : List UInt8) : Prop :=
  if data.head? = some 123 then
    ∀ front, front <+: data → front ≠ [] → processJsonData c json (cstr front) = none
  else strstr getHistory (cstr data) = none ∧ strstr postHeartbeat (cstr data) = none

variable {c json alloc now h} {data : List UInt8}

/-- Every start of the request may be all that the handler sees. -/
theorem splitFree_iff_front (hlen : data.length < bufferSize) :
    SplitFree c json alloc now h data ↔
      ∀ front, front <+: data → front ≠ [] →
        handleClient c json alloc now h front = handleClient c json alloc now h data := by
  have htake : ∀ front : List UInt8, front <+: data → front.take (bufferSize - 1) = front := by
    intro front hfront
    have hle := hfront.length_le
    exact List.take_of_length_le (by omega)
  have hwhole : data ≠ [] → Splitting data [data] := by
    intro hdata
    exact ⟨by simpa using hdata, List.flatten_singleton⟩
  constructor
  · intro hfree front hfront hne
    obtain ⟨rest, hrest⟩ := hfront
    have hdata : data ≠ [] := by
      rintro rfl
      exact hne (List.append_eq_nil_iff.mp hrest).1
    have hsplit : Splitting data (front :: [rest].filter fun r => decide (r ≠ [])) := by
      constructor
      · intro chunk hchunk
        rcases List.mem_cons.mp hchunk with rfl | hchunk
        · exact hne
        · exact of_decide_eq_true (List.mem_filter.mp hchunk).2
      · by_cases hnil : rest = []
        · simpa [hnil] using hrest
        · simpa [hnil] using hrest
    have hsame := hfree _ _ hsplit (hwhole hdata)
    simpa [handleConnection, htake front ⟨rest, hrest⟩, htake data (List.prefix_refl _)] using hsame
  · intro hfront
    have hchunks : ∀ chunks, Splitting data chunks →
        handleConnection c json alloc now h chunks = handleClient c json alloc now h data := by
      intro chunks hsplit
      cases chunks with
      | nil =>
        obtain rfl : [] = data := hsplit.joined
        rfl
      | cons chunk chunks =>
        have hpre : chunk <+: data := ⟨chunks.flatten, by
          rw [← hsplit.joined, List.flatten_cons]⟩
        have hne := hsplit.nonempty chunk (List.mem_cons_self ..)
        rw [handleConnection, List.headD_cons, htake chunk hpre, hfront chunk hpre hne]
    intro chunks chunks' hsplit hsplit'
    rw [hchunks chunks hsplit, hchunks chunks' hsplit']

/-! ### What the routes answer -/

theorem handleClient_json (hhead : (cstr data).head? = some 123) :
    handleClient c json alloc now h data =
      match processJsonData c json (cstr data) with
      | some d => accept alloc now h d (text "OK")
      | none => answer h (text "Invalid JSON data") := by
  have hne : data ≠ [] := by
    rintro rfl
    cases hhead
  exact (if_neg hne).trans (if_pos hhead)

theorem handleClient_notFound (hne : data ≠ []) (hhead : (cstr data).head? ≠ some 123)
    (hget : strstr getHistory (cstr data) = none)
    (hpost : strstr postHeartbeat (cstr data) = none) :
    handleClient c json alloc now h data = answer h notFoundResponse := by
  simp [handleClient, hne, hhead, hget, hpost]

theorem getHistory_long : 1 < getHistory.length := by
  rw [getHistory, text_ofList]
  decide

theorem postHeartbeat_long : 1 < postHeartbeat.length := by
  rw [postHeartbeat_eq]
  decide

theorem handleClient_byte {b : UInt8} (hhead : (cstr [b]).head? ≠ some 123) :
    handleClient c json alloc now h [b] = answer h notFoundResponse := by
  have hlen : (cstr [b]).length ≤ 1 := (List.takeWhile_prefix _).length_le
  exact handleClient_notFound (by simp) hhead (strstr_short (hlen.trans_lt getHistory_long))
    (strstr_short (hlen.trans_lt postHeartbeat_long))

theorem notFoundResponse_length : bodyLength notFoundResponse = some 9 :=
  (plainResponse_lengths "404 Not Found" (by rw [text_ofList]; decide) "Not Found" 9).2

theorem ne_notFound {m : List UInt8} {n : ℕ} (hm : bodyLength m = some n) (hn : n ≠ 9) :
    m ≠ notFoundResponse := by
  intro heq
  rw [heq, notFoundResponse_length] at hm
  exact hn (Option.some.inj hm).symm

theorem historyResponse_ne (t : List UInt8) : historyResponse t ≠ notFoundResponse := by
  have hstatus : notFoundResponse[9]? = some 52 := by
    have htext : notFoundResponse = _ := plainResponse_eq "404 Not Found" "Not Found" 9
    rw [htext, text_ofList, text_ofList]
    rfl
  have hstart : historyStart[9]? = some 50 := by
    rw [historyStart, text_ofList]
    rfl
  have hlt : 9 < historyStart.length := (List.getElem?_eq_some_iff.mp hstart).1
  intro heq
  rw [← heq, historyResponse_eq, historyHead, List.getElem?_take_of_lt (by decide),
    List.append_assoc, List.append_assoc, List.append_assoc,
    List.getElem?_append_left hlt, hstart] at hstatus
  exact absurd hstatus (by decide)

theorem handlePost_ne (buffer : List UInt8) :
    ∀ m ∈ (handlePost c json alloc now h buffer).sent, m ≠ notFoundResponse := by
  have hok : bodyLength okResponse = some 2 :=
    (plainResponse_lengths "200 OK" (by rw [text_ofList]; decide) "OK" 2).2
  have hbad : bodyLength (text "HTTP/1.1 400 Bad Request\r\n\r\n") = some 0 := by
    rw [bodyLength, blankLine_eq, text_ofList]
    decide
  unfold handlePost
  intro m hm
  split at hm
  · dsimp only at hm
    split at hm
    · rw [List.mem_singleton.mp hm]
      exact ne_notFound hok (by decide)
    · rw [List.mem_singleton.mp hm]
      exact ne_notFound invalidDataResponse_lengths.2 (by decide)
  · rw [List.mem_singleton.mp hm]
    exact ne_notFound hbad (by decide)

theorem handleClient_found (hhead : (cstr data).head? ≠ some 123)
    (hroute : ¬ (strstr getHistory (cstr data) = none ∧ strstr postHeartbeat (cstr data) = none)) :
    handleClient c json alloc now h data ≠ answer h notFoundResponse := by
  have hne : data ≠ [] := by
    rintro rfl
    exact hroute ⟨strstr_short (Nat.zero_lt_of_lt getHistory_long),
      strstr_short (Nat.zero_lt_of_lt postHeartbeat_long)⟩
  intro heq
  have hsent : notFoundResponse ∈ (handleClient c json alloc now h data).sent := by
    rw [heq]
    exact List.mem_singleton_self _
  simp only [handleClient, hne, hhead, if_false] at hsent
  by_cases hget : (strstr getHistory (cstr data)).isSome = true
  · rw [if_pos hget] at hsent
    split at hsent
    · rename_i t _
      exact historyResponse_ne t (List.mem_singleton.mp hsent).symm
    · have hlength : bodyLength noHistoryResponse = some 21 := (plainResponse_lengths
        "500 Internal Server Error" (by rw [text_ofList]; decide) "Failed to get history" 21).2
      exact ne_notFound hlength (by decide) (List.mem_singleton.mp hsent).symm
  · have hpost : (strstr postHeartbeat (cstr data)).isSome = true := by
      rw [Option.isSome_iff_ne_none]
      intro hnone
      exact hroute ⟨Option.not_isSome_iff_eq_none.mp hget, hnone⟩
    rw [if_neg hget, if_pos hpost] at hsent
    exact handlePost_ne (cstr data) _ hsent rfl

theorem handleClient_invalid (hhead : (cstr data).head? = some 123)
    (hnone : processJsonData c json (cstr data) = none) :
    handleClient c json alloc now h data = answer h (text "Invalid JSON data") := by
  rw [handleClient_json hhead, hnone]

theorem handleClient_invalid_iff (hhead : (cstr data).head? = some 123) :
    handleClient c json alloc now h data = answer h (text "Invalid JSON data") ↔
      processJsonData c json (cstr data) = none := by
  constructor
  · intro heq
    rw [handleClient_json hhead] at heq
    cases hp : processJsonData c json (cstr data) with
    | none => rfl
    | some d =>
      rw [hp] at heq
      have hadded := congrArg Handled.added heq
      cases hadded
  · exact handleClient_invalid hhead

/-- A raw heartbeat: its first byte alone is refused. -/
theorem splitFree_raw (hbrace : json.tokenerParse (text "\x7b") = none)
    (hlen : data.length < bufferSize) (hhead : data.head? = some 123) :
    SplitFree c json alloc now h data ↔
      ∀ front, front <+: data → front ≠ [] → processJsonData c json (cstr front) = none := by
  obtain ⟨rest, rfl⟩ : ∃ rest, data = 123 :: rest := by
    cases data with
    | nil => cases hhead
    | cons b rest => exact ⟨rest, by rw [Option.some.inj hhead]⟩
  have hfronts : ∀ front, front <+: 123 :: rest → front ≠ [] →
      (cstr front).head? = some 123 := by
    intro front hfront hne
    cases front with
    | nil => exact absurd rfl hne
    | cons b front =>
      obtain ⟨rfl, _⟩ := List.cons_prefix_cons.mp hfront
      rfl
  have hone : ([123] : List UInt8) <+: 123 :: rest := ⟨rest, rfl⟩
  have hfirst : processJsonData c json (cstr [123]) = none := by
    have hbyte : cstr [123] = text "\x7b" := by
      rw [text_ofList]
      rfl
    rw [processJsonData, hbyte, hbrace]
    rfl
  rw [splitFree_iff_front hlen]
  constructor
  · intro hsame front hfront hne
    have hwhole := hsame [123] hone (by simp)
    rw [handleClient_invalid rfl hfirst] at hwhole
    have hinvalid : handleClient c json alloc now h front =
        answer h (text "Invalid JSON data") := by
      rw [hsame front hfront hne, hwhole]
    exact (handleClient_invalid_iff (hfronts front hfront hne)).mp hinvalid
  · intro hnone front hfront hne
    have hwhole := List.prefix_refl (123 :: rest)
    rw [handleClient_invalid (hfronts front hfront hne) (hnone front hfront hne),
      handleClient_invalid (hfronts _ hwhole (by simp)) (hnone _ hwhole (by simp))]

/-- Any other request: its first byte alone is answered by 404. -/
theorem splitFree_http (hlen : data.length < bufferSize) (hhead : data.head? ≠ some 123) :
    SplitFree c json alloc now h data ↔
      strstr getHistory (cstr data) = none ∧ strstr postHeartbeat (cstr data) = none := by
  have hcstr : ∀ front, front <+: data → (cstr front).head? ≠ some 123 := by
    intro front hfront heq
    have hin : cstr front <+: data := (List.takeWhile_prefix _).trans hfront
    obtain ⟨rest, hrest⟩ : ∃ rest, cstr front = 123 :: rest := by
      cases hc : cstr front with
      | nil => rw [hc] at heq; cases heq
      | cons b rest => rw [hc] at heq; exact ⟨rest, by rw [Option.some.inj heq]⟩
    obtain ⟨more, hmore⟩ := hin
    rw [hrest] at hmore
    exact hhead (by rw [← hmore]; rfl)
  have hquiet : strstr getHistory (cstr data) = none ∧ strstr postHeartbeat (cstr data) = none →
      ∀ front, front <+: data → front ≠ [] →
        handleClient c json alloc now h front = answer h notFoundResponse := by
    rintro ⟨hget, hpost⟩ front hfront hne
    exact handleClient_notFound hne (hcstr front hfront)
      (strstr_none_shorten hget (prefix_cstr hfront))
      (strstr_none_shorten hpost (prefix_cstr hfront))
  rw [splitFree_iff_front hlen]
  constructor
  · intro hsame
    by_contra hroute
    have hfound : handleClient c json alloc now h data ≠ answer h notFoundResponse :=
      handleClient_found (hcstr data (List.prefix_refl _)) hroute
    cases data with
    | nil => exact hroute ⟨strstr_short (Nat.zero_lt_of_lt getHistory_long),
      strstr_short (Nat.zero_lt_of_lt postHeartbeat_long)⟩
    | cons b rest =>
      have hone : [b] <+: b :: rest := ⟨rest, rfl⟩
      apply hfound
      rw [← hsame [b] hone (by simp)]
      exact handleClient_byte (hcstr [b] hone)
  · intro hroute front hfront hne
    have hdata : data ≠ [] := by
      rintro rfl
      exact hne (List.prefix_nil.mp hfront)
    rw [hquiet hroute front hfront hne, hquiet hroute data (List.prefix_refl _) hdata]

/-- How a request is split does not matter exactly when it is never served. -/
theorem split_free_iff (hbrace : json.tokenerParse (text "\x7b") = none)
    (hlen : data.length < bufferSize) :
    SplitFree c json alloc now h data ↔ NeverServed c json data := by
  unfold NeverServed
  split
  · rename_i hhead
    exact splitFree_raw hbrace hlen hhead
  · rename_i hhead
    exact splitFree_http hlen hhead

end Connection

theorem split_free_iff_sevenTimes :
    SplitFree oneAddress noJson true 50 noRecords (request sevenTimes) ↔
      NeverServed oneAddress noJson (request sevenTimes) :=
  split_free_iff rfl (by rw [request_eq, postHeartbeat_eq, blankLine_eq, sevenTimes_eq]; decide)

/-- One form heartbeat, whole and with its first byte in a piece of its own. -/
theorem split_heartbeat_lost :
    Splitting (request sevenTimes) [request sevenTimes] ∧
      Splitting (request sevenTimes) [[80], (request sevenTimes).tail] ∧
      (handleConnection oneAddress noJson true 50 noRecords [request sevenTimes]).sent =
        [okResponse] ∧
      (handleConnection oneAddress noJson true 50 noRecords
        [[80], (request sevenTimes).tail]).sent = [notFoundResponse] := by
  have hbytes : request sevenTimes = 80 :: (request sevenTimes).tail := by
    rw [request_eq, postHeartbeat_eq]
    rfl
  have htail : (request sevenTimes).tail ≠ [] := by
    rw [request_eq, postHeartbeat_eq]
    exact List.cons_ne_nil _ _
  have hlen : (request sevenTimes).length ≤ bufferSize - 1 := by
    rw [request_eq, postHeartbeat_eq, blankLine_eq, sevenTimes_eq]
    decide
  refine ⟨⟨?_, List.append_nil _⟩, ⟨?_, ?_⟩, ?_, ?_⟩
  · rw [hbytes]
    simp
  · simp [htail]
  · rw [List.flatten_cons, List.flatten_cons, List.flatten_nil, List.append_nil]
    exact hbytes.symm
  · rw [handleConnection, List.headD_cons, List.take_of_length_le hlen,
      handleClient_form noJson 50 noRecords sevenTimes_post sevenTimes_get, sevenTimes_entries]
    rfl
  · have hfirst : ([80] : List UInt8).take (bufferSize - 1) = [80] := rfl
    rw [handleConnection, List.headD_cons, hfirst, handleClient_byte (by decide)]
    rfl

end CSimples.HeartbeatServer
