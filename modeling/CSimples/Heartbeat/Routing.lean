import CSimples.Heartbeat.Segmentation
import Mathlib.Tactic.Tauto

/-!
# Routes of a request (heartbeat_server.c:225-299, 395-403)

A route is found by searching the buffer, not the request line. A request here is a line,
the end of the line, and whatever follows; the buffer has as much of it as one `read`
returns. Neither text that is searched for lies across the end of the line.
-/

namespace CSimples.HeartbeatServer
open CString

inductive Route where
  | raw
  | history
  | submission
  | notFound
  deriving Repr, DecidableEq

def route (buffer : List UInt8) : Route :=
  if buffer.head? = some 123 then .raw
  else if (strstr getHistory buffer).isSome = true then .history
  else if (strstr postHeartbeat buffer).isSome = true then .submission
  else .notFound

section Client
variable {D J : Type} (c : Checks D) (json : JsonC D J) (alloc : Bool) (now : ℤ) (h : History D)

def serve (buffer : List UInt8) : Route → Handled D
  | .raw =>
    match processJsonData c json buffer with
    | some d => accept alloc now h d (text "OK")
    | none => answer h (text "Invalid JSON data")
  | .history =>
    match json.historyText h.nodes with
    | some historyJson => answer h (historyResponse historyJson)
    | none => answer h noHistoryResponse
  | .submission => handlePost c json alloc now h buffer
  | .notFound => answer h notFoundResponse

theorem handleClient_route {data : List UInt8} (hne : data ≠ []) :
    handleClient c json alloc now h data =
      serve c json alloc now h (cstr data) (route (cstr data)) := by
  unfold handleClient route
  rw [if_neg hne]
  split_ifs <;> rfl

end Client

/-! ### The request line and the rest -/

structure RequestLine (line : List UInt8) : Prop where
  cr : 13 ∉ line
  nul : 0 ∉ line
  unbraced : line.head? ≠ some 123

/-- The string in the buffer after the `read`. -/
def received (line rest : List UInt8) : List UInt8 :=
  cstr ((line ++ 13 :: 10 :: rest).take (bufferSize - 1))

def lineSeen (line : List UInt8) : List UInt8 := line.take (bufferSize - 1)

/-- What the buffer has of the headers and the body. -/
def restSeen (line rest : List UInt8) : List UInt8 :=
  cstr ((13 :: 10 :: rest).take (bufferSize - 1 - line.length))

variable {line rest rest' : List UInt8}

theorem received_eq (hline : RequestLine line) (rest : List UInt8) :
    received line rest = lineSeen line ++ restSeen line rest := by
  have hnul : (0 : UInt8) ∉ lineSeen line := fun h => hline.nul (List.mem_of_mem_take h)
  rw [received, List.take_append]
  exact cstr_append hnul _

theorem restSeen_cases (line rest : List UInt8) :
    restSeen line rest = [] ∨ ∃ more, restSeen line rest = 13 :: more := by
  unfold restSeen
  cases bufferSize - 1 - line.length with
  | zero => exact .inl rfl
  | succ n => exact .inr ⟨_, rfl⟩

theorem received_head (hline : RequestLine line) (rest : List UInt8) :
    (received line rest).head? ≠ some 123 := by
  rw [received_eq hline]
  cases line with
  | nil =>
    rw [lineSeen, List.take_nil, List.nil_append]
    rcases restSeen_cases [] rest with hnil | ⟨more, hmore⟩
    · rw [hnil]
      nofun
    · rw [hmore]
      show some (13 : UInt8) ≠ some 123
      decide
  | cons b line => exact hline.unbraced

theorem received_found {needle : List UInt8} (hcr : 13 ∉ needle) (hlen : 1 < needle.length)
    (hline : RequestLine line) (rest : List UInt8) :
    (strstr needle (received line rest)).isSome = true ↔
      (strstr needle (lineSeen line)).isSome = true ∨
        (strstr needle (restSeen line rest)).isSome = true := by
  have hnil : ¬ needle <:+: [] := by
    intro hin
    rw [List.infix_nil.mp hin] at hlen
    cases hlen
  rw [received_eq hline, strstr_isSome, strstr_isSome, strstr_isSome]
  rcases restSeen_cases line rest with hrest | ⟨more, hmore⟩
  · rw [hrest, List.append_nil]
    tauto
  · have hself := infix_across hcr [] more
    rw [List.nil_append] at hself
    rw [hmore, infix_across hcr, hself]
    tauto

theorem getHistory_cr : 13 ∉ getHistory := by
  rw [getHistory, text_ofList]
  decide

theorem postHeartbeat_cr : 13 ∉ postHeartbeat := by
  rw [postHeartbeat_eq]
  decide

/-! ### Two requests with one line -/

def Gets (bs : List UInt8) : Prop := (strstr getHistory bs).isSome = true
def Posts (bs : List UInt8) : Prop := (strstr postHeartbeat bs).isSome = true

/-- The line asks for the history, or the rests agree on whether they do and, if neither
does, on whether they submit anything that the line does not. -/
def SameRoute (line rest rest' : List UInt8) : Prop :=
  Gets (lineSeen line) ∨
    (Gets (restSeen line rest) ↔ Gets (restSeen line rest')) ∧
      (Posts (lineSeen line) ∨ Gets (restSeen line rest) ∨
        (Posts (restSeen line rest) ↔ Posts (restSeen line rest')))

theorem route_history (hline : RequestLine line) (rest : List UInt8) :
    route (received line rest) = .history ↔
      Gets (lineSeen line) ∨ Gets (restSeen line rest) := by
  have hget := received_found getHistory_cr getHistory_long hline rest
  rw [Gets, Gets, ← hget, route, if_neg (received_head hline rest)]
  split_ifs <;> simp_all

theorem route_submission (hline : RequestLine line) (rest : List UInt8) :
    route (received line rest) = .submission ↔
      ¬ (Gets (lineSeen line) ∨ Gets (restSeen line rest)) ∧
        (Posts (lineSeen line) ∨ Posts (restSeen line rest)) := by
  have hget := received_found getHistory_cr getHistory_long hline rest
  have hpost := received_found postHeartbeat_cr postHeartbeat_long hline rest
  rw [Gets, Gets, Posts, Posts, ← hget, ← hpost, route, if_neg (received_head hline rest)]
  split_ifs <;> simp_all

theorem route_not_raw (hline : RequestLine line) (rest : List UInt8) :
    route (received line rest) ≠ .raw := by
  rw [route, if_neg (received_head hline rest)]
  split_ifs <;> nofun

theorem route_eq_iff (hline : RequestLine line) (rest rest' : List UInt8) :
    route (received line rest) = route (received line rest') ↔
      (route (received line rest) = .history ↔ route (received line rest') = .history) ∧
        (route (received line rest) = .submission ↔
          route (received line rest') = .submission) := by
  have hraw := route_not_raw hline rest
  have hraw' := route_not_raw hline rest'
  revert hraw hraw'
  generalize route (received line rest) = r
  generalize route (received line rest') = r'
  cases r <;> cases r' <;> simp

theorem route_by_line_iff (hline : RequestLine line) (rest rest' : List UInt8) :
    (route (received line rest) = route (received line rest') ↔ SameRoute line rest rest') ∧
      (postHeartbeat <+: line → strstr getHistory line = none →
        (route (received line rest) = .submission ↔ ¬ Gets (restSeen line rest))) := by
  constructor
  · rw [route_eq_iff hline, route_history hline, route_history hline, route_submission hline,
      route_submission hline, SameRoute]
    grind
  · intro hpost hget
    have hposts : Posts (lineSeen line) := by
      have hlen : postHeartbeat.length ≤ bufferSize - 1 := by
        rw [postHeartbeat_eq]
        decide
      rw [Posts, strstr_isSome]
      exact (List.prefix_take_iff.mpr ⟨hpost, hlen⟩).isInfix
    have hgets : ¬ Gets (lineSeen line) := by
      rw [Gets, lineSeen, strstr_none_shorten hget (List.take_prefix _ _)]
      exact Bool.false_ne_true
    rw [route_submission hline, or_iff_right hgets, and_iff_left (.inl hposts)]

def postLine : List UInt8 := text "POST /api/heartbeat HTTP/1.1"
def referer : List UInt8 := text "Referer: GET /api/heartbeat/history\r\n\r\n"

theorem postLine_eq : postLine = postHeartbeat ++ text " HTTP/1.1" := by
  rw [postHeartbeat_eq, text_ofList, postLine, text_ofList]
  rfl

theorem requestLine_post : RequestLine postLine := by
  rw [postLine_eq, postHeartbeat_eq, text_ofList]
  exact ⟨by decide, by decide, by decide⟩

/-- Another header than the one that names the history. -/
theorem route_by_line_iff_post :
    (route (received postLine []) = route (received postLine (text "Accept: */*\r\n\r\n")) ↔
        SameRoute postLine [] (text "Accept: */*\r\n\r\n")) ∧
      (route (received postLine []) = .submission ↔ ¬ Gets (restSeen postLine [])) := by
  have hboth := route_by_line_iff requestLine_post [] (text "Accept: */*\r\n\r\n")
  refine ⟨hboth.1, hboth.2 ?_ ?_⟩
  · rw [postLine_eq]
    exact List.prefix_append _ _
  · rw [postLine_eq, postHeartbeat_eq, text_ofList, getHistory, text_ofList]
    decide

/-- A heartbeat with a header that names the history is answered with the history. -/
theorem submission_misrouted :
    route (received postLine [13, 10]) = .submission ∧
      route (received postLine referer) = .history := by
  rw [postLine_eq, postHeartbeat_eq, referer, text_ofList, text_ofList]
  unfold route getHistory
  rw [postHeartbeat_eq, text_ofList]
  constructor <;> decide

end CSimples.HeartbeatServer
