import CSimples.Heartbeat.FormFields
import CSimples.Lib.Decimal

/-!
# Framing of the responses (heartbeat_server.c:266-403)

A client reads the length that a response declares, and as many bytes behind the
blank line. The lengths of the plain responses are written out by hand in the
source, and the history is printed into a buffer of fixed size.
-/

namespace CSimples.HeartbeatServer
open CString Decimal

/-! ### What a client reads -/

/-- What stands in front of the blank line. -/
def responseHead (m : List UInt8) : List UInt8 :=
  m.take (m.length - ((strstr blankLine m).getD []).length)

def lengthField : List UInt8 := text "\r\nContent-Length: "

def declaredLength (m : List UInt8) : Option ℕ :=
  (strstr lengthField (responseHead m)).map fun rest => number (rest.drop lengthField.length)

def bodyLength (m : List UInt8) : Option ℕ :=
  (strstr blankLine m).map fun rest => rest.length - blankLine.length

theorem lengthField_eq : lengthField =
    [13, 10, 67, 111, 110, 116, 101, 110, 116, 45, 76, 101, 110, 103, 116, 104, 58, 32] :=
  text_ofList _

def WellFramed (m : List UInt8) : Prop := ∀ n, declaredLength m = some n → bodyLength m = some n

theorem wellFramed_of_declared {m : List UInt8} {n : ℕ} (h : declaredLength m = some n) :
    WellFramed m ↔ bodyLength m = some n := by
  constructor
  · intro hm
    exact hm n h
  · intro hb k hk
    rw [h] at hk
    exact Option.some.inj hk ▸ hb

theorem wellFramed_undeclared {m : List UInt8} (h : declaredLength m = none) : WellFramed m := by
  intro n hn
  rw [h] at hn
  cases hn

variable {start body : List UInt8}

theorem lengths_read (hstart : Clear lengthField start) (hblank : Clear blankLine (start ++ lengthField))
    (n : ℕ) (body : List UInt8) :
    declaredLength (start ++ lengthField ++ decimal n ++ (blankLine ++ body)) = some n ∧
      bodyLength (start ++ lengthField ++ decimal n ++ (blankLine ++ body)) = some body.length := by
  have hdigits : Clear blankLine (decimal n) := by
    apply clear_of_head
    intro h
    exact absurd (decimal_isDigit h) (by decide)
  have hfound : strstr blankLine (start ++ lengthField ++ decimal n ++ (blankLine ++ body)) =
      some (blankLine ++ body) := strstr_found (hblank.append hdigits) body
  have hhead : responseHead (start ++ lengthField ++ decimal n ++ (blankLine ++ body)) =
      start ++ (lengthField ++ decimal n) := by
    rw [responseHead, hfound, Option.getD_some, List.length_append, Nat.add_sub_cancel,
      List.take_left, List.append_assoc]
  constructor
  · rw [declaredLength, hhead, strstr_found hstart, Option.map_some, List.drop_left,
      number_decimal]
  · rw [bodyLength, hfound, Option.map_some, List.length_append, Nat.add_sub_cancel_left]

/-! ### The history -/

def historyStart : List UInt8 :=
  text "HTTP/1.1 200 OK\r\nContent-Type: application/json\r\nConnection: close"

def historyHead (n : ℕ) : List UInt8 := historyStart ++ lengthField ++ decimal n ++ blankLine

theorem historyResponse_eq (historyJson : List UInt8) :
    historyResponse historyJson =
      (historyHead historyJson.length ++ historyJson).take (bufferSize - 1) := by
  have hhead : text ("HTTP/1.1 200 OK\r\nContent-Type: application/json\r\nConnection: close\r\n" ++
      "Content-Length: " ++ toString historyJson.length ++ "\r\n\r\n") =
        historyHead historyJson.length := by
    have hopen : text ("HTTP/1.1 200 OK\r\nContent-Type: application/json\r\nConnection: close\r\n" ++
        "Content-Length: ") = historyStart ++ lengthField := by
      rw [text_append, historyStart, lengthField, text_ofList, text_ofList, text_ofList, text_ofList]
      rfl
    rw [text_append, text_append, hopen]
    rfl
  rw [historyResponse, hhead]

theorem historyStart_clear : Clear lengthField historyStart := by
  rw [lengthField_eq, historyStart, text_ofList]
  exact clear_of_clash (by decide)

theorem historyStart_noBlank : Clear blankLine (historyStart ++ lengthField) := by
  rw [blankLine_eq, lengthField_eq, historyStart, text_ofList]
  exact clear_of_clash (by decide)

theorem historyResponse_whole {t : List UInt8}
    (h : (historyHead t.length).length + t.length < bufferSize) :
    WellFramed (historyResponse t) := by
  have hall : historyResponse t =
      historyStart ++ lengthField ++ decimal t.length ++ (blankLine ++ t) := by
    rw [historyResponse_eq, List.take_of_length_le, historyHead, List.append_assoc]
    rw [List.length_append]
    omega
  obtain ⟨hdeclared, hbody⟩ := lengths_read historyStart_clear historyStart_noBlank t.length t
  rw [hall]
  exact (wellFramed_of_declared hdeclared).mpr hbody

theorem historyResponse_cut {t : List UInt8} (hhead : (historyHead t.length).length < bufferSize)
    (h : bufferSize ≤ (historyHead t.length).length + t.length) :
    ¬ WellFramed (historyResponse t) := by
  have hcut : historyResponse t = historyStart ++ lengthField ++ decimal t.length ++
      (blankLine ++ t.take (bufferSize - 1 - (historyHead t.length).length)) := by
    rw [historyResponse_eq, List.take_append, List.take_of_length_le (by omega)]
    rw [historyHead, List.append_assoc]
  obtain ⟨hdeclared, hbody⟩ := lengths_read historyStart_clear historyStart_noBlank t.length
    (t.take (bufferSize - 1 - (historyHead t.length).length))
  rw [hcut, wellFramed_of_declared hdeclared, hbody, List.length_take, Option.some.injEq]
  omega

theorem historyResponse_headless {t : List UInt8}
    (hhead : bufferSize ≤ (historyHead t.length).length) : ¬ WellFramed (historyResponse t) := by
  have hstart : (historyStart ++ lengthField).length < bufferSize - 1 := by
    rw [lengthField_eq, historyStart, text_ofList]
    decide
  have hdigits : Clear blankLine (decimal t.length) := by
    apply clear_of_head
    intro h
    exact absurd (decimal_isDigit h) (by decide)
  have hresponse : historyResponse t =
      ((historyStart ++ lengthField ++ decimal t.length) ++ (blankLine ++ t)).take
        (bufferSize - 1) := by
    rw [historyResponse_eq, historyHead, List.append_assoc]
  have hnone : strstr blankLine (historyResponse t) = none := by
    rw [hresponse]
    apply strstr_take (historyStart_noBlank.append hdigits)
    rw [historyHead, List.length_append] at hhead
    have hpos : 0 < bufferSize := by decide
    omega
  have hfront : historyResponse t = historyStart ++ (lengthField ++
      (decimal t.length ++ (blankLine ++ t)).take
        (bufferSize - 1 - (historyStart ++ lengthField).length)) := by
    rw [hresponse, List.append_assoc, List.take_append, List.take_of_length_le (by omega),
      List.append_assoc]
  have hwhole : responseHead (historyResponse t) = historyResponse t := by
    rw [responseHead, hnone, Option.getD_none, List.length_nil, Nat.sub_zero, List.take_length]
  have hdeclared : declaredLength (historyResponse t) = some (number
      ((decimal t.length ++ (blankLine ++ t)).take
        (bufferSize - 1 - (historyStart ++ lengthField).length))) := by
    rw [declaredLength, hwhole, hfront, strstr_found historyStart_clear, Option.map_some,
      List.drop_left]
  rw [wellFramed_of_declared hdeclared, bodyLength, hnone]
  exact Option.some_ne_none _ ∘ Eq.symm

/-- The history is well framed exactly when the buffer holds all of the response. -/
theorem historyResponse_wellFramed (t : List UInt8) :
    WellFramed (historyResponse t) ↔ (historyHead t.length).length + t.length < bufferSize := by
  constructor
  · intro hframed
    by_contra hlong
    by_cases hhead : (historyHead t.length).length < bufferSize
    · exact historyResponse_cut hhead (by omega) hframed
    · exact historyResponse_headless (by omega) hframed
  · exact historyResponse_whole

/-! ### Plain responses -/

def plainFields : List UInt8 := text "\r\nContent-Type: text/plain\r\nConnection: close"

theorem plainFields_clear : Clear lengthField plainFields := by
  rw [lengthField_eq, plainFields, text_ofList]
  exact clear_of_clash (by decide)

theorem plainFields_noBlank : Clear blankLine (plainFields ++ lengthField) := by
  rw [blankLine_eq, lengthField_eq, plainFields, text_ofList]
  exact clear_of_clash (by decide)

theorem plainResponse_eq (status body : String) (n : ℕ) :
    plainResponse status (toString n) body = (text "HTTP/1.1 " ++ text status ++ plainFields) ++
      lengthField ++ decimal n ++ (blankLine ++ text body) := by
  have hfields : text "\r\nContent-Type: text/plain\r\nConnection: close\r\n" ++
      text "Content-Length: " = plainFields ++ lengthField := by
    rw [plainFields, lengthField, text_ofList, text_ofList, text_ofList, text_ofList]
    rfl
  simp only [plainResponse, text_append, List.append_assoc]
  rw [← List.append_assoc (text "\r\nContent-Type: text/plain\r\nConnection: close\r\n"), hfields,
    List.append_assoc]
  rfl

theorem plainResponse_lengths (status : String) (h : (13 : UInt8) ∉ text status) (body : String)
    (n : ℕ) :
    declaredLength (plainResponse status (toString n) body) = some n ∧
      bodyLength (plainResponse status (toString n) body) = some (text body).length := by
  have hline : (13 : UInt8) ∉ text "HTTP/1.1 " ++ text status := by
    rw [List.mem_append]
    rintro (hin | hin)
    · rw [text_ofList] at hin
      exact absurd hin (by decide)
    · exact h hin
  have hlength : lengthField = 13 :: lengthField.tail := by
    rw [lengthField_eq]
    rfl
  have hblank : blankLine = 13 :: blankLine.tail := by
    rw [blankLine_eq]
    rfl
  have hclear : Clear lengthField (text "HTTP/1.1 " ++ text status) := by
    rw [hlength]
    exact clear_of_head hline
  have hnoBlank : Clear blankLine (text "HTTP/1.1 " ++ text status) := by
    rw [hblank]
    exact clear_of_head hline
  rw [plainResponse_eq]
  refine lengths_read (hclear.append plainFields_clear) ?_ n (text body)
  rw [List.append_assoc]
  exact hnoBlank.append plainFields_noBlank

theorem okResponse_wellFramed : WellFramed okResponse := by
  obtain ⟨hdeclared, hbody⟩ :=
    plainResponse_lengths "200 OK" (by rw [text_ofList]; decide) "OK" 2
  exact (wellFramed_of_declared hdeclared).mpr hbody

theorem notFoundResponse_wellFramed : WellFramed notFoundResponse := by
  obtain ⟨hdeclared, hbody⟩ :=
    plainResponse_lengths "404 Not Found" (by rw [text_ofList]; decide) "Not Found" 9
  exact (wellFramed_of_declared hdeclared).mpr hbody

theorem noHistoryResponse_wellFramed : WellFramed noHistoryResponse := by
  obtain ⟨hdeclared, hbody⟩ := plainResponse_lengths "500 Internal Server Error"
    (by rw [text_ofList]; decide) "Failed to get history" 21
  exact (wellFramed_of_declared hdeclared).mpr hbody

theorem invalidDataResponse_lengths :
    declaredLength invalidDataResponse = some 16 ∧ bodyLength invalidDataResponse = some 17 :=
  plainResponse_lengths "400 Bad Request" (by rw [text_ofList]; decide) "Invalid data sent" 16

theorem invalidDataResponse_misframed : ¬ WellFramed invalidDataResponse := by
  obtain ⟨hdeclared, hbody⟩ := invalidDataResponse_lengths
  rw [wellFramed_of_declared hdeclared, hbody]
  decide

/-! ### All requests -/

section Request
variable {D J : Type} (c : Checks D) (json : JsonC D J) (alloc : Bool) (now : ℤ) (h : History D)

/-- A body that is a JSON heartbeat, or a form with seven valid pairs of known keys. -/
def ValidBody (body : List UInt8) : Prop :=
  if body.head? = some 123 then (processJsonData c json body).isSome = true
  else (entries c (strtok 38 body)).length = 7

/-- The request is answered by one of the responses that are well framed. -/
def Framable (data : List UInt8) : Prop :=
  let buffer := cstr data
  data = [] ∨ buffer.head? = some 123 ∨
    if (strstr getHistory buffer).isSome = true then
      ∀ t, json.historyText h.nodes = some t → (historyHead t.length).length + t.length < bufferSize
    else (strstr postHeartbeat buffer).isSome = true →
      ∀ rest, strstr blankLine buffer = some rest → ValidBody c json (rest.drop 4)

variable {c json}

theorem formData_isSome (body : List UInt8) :
    (formData c body).isSome = true ↔ (entries c (strtok 38 body)).length = 7 := by
  rw [formData, formFields_eq]
  simp

theorem handlePost_framed (buffer : List UInt8) :
    (∀ m ∈ (handlePost c json alloc now h buffer).sent, WellFramed m) ↔
      ∀ rest, strstr blankLine buffer = some rest → ValidBody c json (rest.drop 4) := by
  cases hblank : strstr blankLine buffer with
  | none =>
    have hbad : WellFramed (text "HTTP/1.1 400 Bad Request\r\n\r\n") := by
      apply wellFramed_undeclared
      rw [declaredLength, responseHead, lengthField_eq, blankLine_eq, text_ofList]
      decide
    simp only [handlePost, hblank, answer, List.mem_singleton, forall_eq, hbad, true_iff]
    intro rest hrest
    cases hrest
  | some rest =>
    have hvalid : ValidBody c json (rest.drop 4) ↔ (if (rest.drop 4).head? = some 123 then
        processJsonData c json (rest.drop 4) else formData c (rest.drop 4)).isSome = true := by
      unfold ValidBody
      split
      · exact Iff.rfl
      · exact (formData_isSome _).symm
    simp only [Option.some.injEq, forall_eq', hvalid, handlePost, hblank]
    split
    · rename_i d hd
      rw [hd]
      simp [accept, okResponse_wellFramed]
    · rename_i hd
      rw [hd]
      simp [answer, invalidDataResponse_misframed]

/-- Every response to the request is well framed exactly when the request is framable. -/
theorem responses_framed_iff (data : List UInt8) :
    (∀ m ∈ (handleClient c json alloc now h data).sent, WellFramed m) ↔
      Framable c json h data := by
  unfold Framable
  by_cases hdata : data = []
  · simp [handleClient, hdata]
  by_cases hjson : (cstr data).head? = some 123
  · have hok : WellFramed (text "OK") := by
      apply wellFramed_undeclared
      rw [declaredLength, responseHead, lengthField_eq, blankLine_eq, text_ofList]
      decide
    have hinvalid : WellFramed (text "Invalid JSON data") := by
      apply wellFramed_undeclared
      rw [declaredLength, responseHead, lengthField_eq, blankLine_eq, text_ofList]
      decide
    simp only [handleClient, hdata, hjson, if_false, if_true, or_true, true_or, iff_true]
    split <;> simp [accept, answer, hok, hinvalid]
  by_cases hget : (strstr getHistory (cstr data)).isSome = true
  · simp only [handleClient, hdata, hjson, hget, if_false, if_true, false_or]
    cases json.historyText h.nodes with
    | none => simp [answer, noHistoryResponse_wellFramed]
    | some t => simp [answer, historyResponse_wellFramed]
  simp only [handleClient, hdata, hjson, hget, if_false, false_or]
  by_cases hpost : (strstr postHeartbeat (cstr data)).isSome = true
  · simp only [hpost, if_true, true_imp_iff]
    exact handlePost_framed alloc now h (cstr data)
  · simp [hpost, answer, notFoundResponse_wellFramed]

end Request

/-- json-c with a history text of its own. -/
def longHistory : JsonC ℤ Unit := { noJson with historyText := fun _ => some (List.replicate 4096 97) }

/-- A rejected form, and a history that the buffer does not hold. -/
theorem responses_misframed :
    (∃ m ∈ (handleClient oneAddress noJson true 50 noRecords (request [120])).sent,
      declaredLength m = some 16 ∧ bodyLength m = some 17) ∧
    ∃ m ∈ (handleClient oneAddress longHistory true 50 noRecords getHistory).sent,
      ¬ WellFramed m := by
  have hget : strstr getHistory (cstr (request [120])) = none := by
    rw [cstr_request (by decide), request_eq, postHeartbeat_eq, blankLine_eq, getHistory, text_ofList]
    decide
  have hinvalid : (handleClient oneAddress noJson true 50 noRecords (request [120])).sent =
      [invalidDataResponse] := by
    rw [handleClient_form noJson 50 noRecords (request_post (by decide) (by decide)) hget,
      if_neg (by decide)]
    rfl
  constructor
  · rw [hinvalid]
    exact ⟨_, List.mem_singleton_self _, invalidDataResponse_lengths⟩
  · refine ⟨historyResponse (List.replicate 4096 97), List.mem_singleton_self _, ?_⟩
    rw [historyResponse_wellFramed, List.length_replicate]
    unfold bufferSize
    omega

end CSimples.HeartbeatServer
