import CSimples.Lib.CString
import Mathlib.Data.Int.Notation

/-!
# The heartbeat server (heartbeat_server.c, heartbeat_server.h)

`handle_client` answers one request and may add a record to the history. What
comes from outside the repository is a parameter: `inet_pton` and `atof` with the
validity tests that use them, and json-c. Doubles are of an arbitrary type.
-/

namespace CSimples.HeartbeatServer
open CString

def bufferSize : ℕ := 4096
def maxKeyLen : ℕ := 64
def maxValueLen : ℕ := 128
def maxIpLen : ℕ := 16
def maxHeartbeats : ℕ := 100

/-! ### Records (heartbeat_server.h:17-32) -/

structure HeartbeatData (D : Type) where
  localIp : List UInt8
  publicIp : List UInt8
  cpuUsage : D
  memoryUsage : D
  diskUsage : D
  availability : D
  latency : D
  deriving Repr, DecidableEq

structure HeartbeatNode (D : Type) where
  data : HeartbeatData D
  timestamp : ℤ
  deriving Repr, DecidableEq

/-- The list behind `history_mutex`, newest first, and `heartbeat_count`. -/
structure History (D : Type) where
  nodes : List (HeartbeatNode D)
  heartbeatCount : ℤ
  deriving Repr, DecidableEq

/-- `validate_ip`, `validate_percentage` and `validate_latency`, and of the doubles 0.0
and `atof`. -/
structure Checks (D : Type) where
  validateIp : List UInt8 → Bool
  validatePercentage : D → Bool
  validateLatency : D → Bool
  zero : D
  atof : List UInt8 → D

/-- `historyText` is the text that `get_history_json` has json-c print, or NULL. -/
structure JsonC (D J : Type) where
  tokenerParse : List UInt8 → Option J
  objectGet : J → List UInt8 → Option J
  getString : J → Option (List UInt8)
  getDouble : J → D
  historyText : List (HeartbeatNode D) → Option (List UInt8)

variable {D J : Type}

def noData (c : Checks D) : HeartbeatData D :=
  ⟨List.replicate maxIpLen 0, List.replicate maxIpLen 0, c.zero, c.zero, c.zero, c.zero, c.zero⟩

def HeartbeatData.withLocalIp (d : HeartbeatData D) (ip : List UInt8) : HeartbeatData D :=
  { d with localIp := strncpy d.localIp ip (maxIpLen - 1) }

def HeartbeatData.withPublicIp (d : HeartbeatData D) (ip : List UInt8) : HeartbeatData D :=
  { d with publicIp := strncpy d.publicIp ip (maxIpLen - 1) }

/-! ### Form pairs (heartbeat_server.c:50-89) -/

/-- In the C locale; a byte above 127 is no digit. -/
def isxdigit (b : UInt8) : Bool :=
  decide (48 ≤ b ∧ b ≤ 57 ∨ 65 ≤ b ∧ b ≤ 70 ∨ 97 ≤ b ∧ b ≤ 102)

def hexDigit (b : UInt8) : UInt8 :=
  if b ≤ 57 then b - 48 else if b ≤ 70 then b - 55 else b - 87

/-- `%` and two digits, and what follows them. -/
def escape : List UInt8 → Option (UInt8 × List UInt8)
  | b :: h :: l :: rest =>
    if b = 37 ∧ isxdigit h = true ∧ isxdigit l = true then
      some (hexDigit h * 16 + hexDigit l, rest)
    else none
  | _ => none

/-- The bytes in front of the NUL that `url_decode` ends with, `room` being
`dst_size - 1`; an escape may be a NUL itself. -/
def urlDecode : ℕ → List UInt8 → List UInt8
  | 0, _ => []
  | _ + 1, [] => []
  | room + 1, b :: rest =>
    match escape (b :: rest) with
    | some (code, rest') => code :: urlDecode room rest'
    | none => (if b = 43 then 32 else b) :: urlDecode room rest

/-- The key and the value, both as strings, if `parse_key_value` returns true. -/
def parseKeyValue (pair : List UInt8) (keyLen valueLen : ℕ) : Option (List UInt8 × List UInt8) :=
  match pair.idxOf? 61 with
  | none => none
  | some eq =>
    if keyLen ≤ eq then none
    else
      let value := pair.drop (eq + 1)
      if valueLen ≤ value.length then none
      else some (pair.take eq, cstr (urlDecode (valueLen - 1) value))

/-! ### JSON data (heartbeat_server.c:92-145) -/

def processJsonData (c : Checks D) (json : JsonC D J) (jsonStr : List UInt8) :
    Option (HeartbeatData D) := do
  let parsedJson ← json.tokenerParse jsonStr
  let localIp ← json.objectGet parsedJson (text "local_ip")
  let publicIp ← json.objectGet parsedJson (text "public_ip")
  let cpuUsage ← json.objectGet parsedJson (text "cpu_usage")
  let memoryUsage ← json.objectGet parsedJson (text "memory_usage")
  let diskUsage ← json.objectGet parsedJson (text "disk_usage")
  let availability ← json.objectGet parsedJson (text "availability")
  let latency ← json.objectGet parsedJson (text "latency")
  let localIpStr ← (json.getString localIp).filter c.validateIp
  let publicIpStr ← (json.getString publicIp).filter c.validateIp
  let ips : HeartbeatData D := ((noData c).withLocalIp localIpStr).withPublicIp publicIpStr
  let d : HeartbeatData D := { ips with
    cpuUsage := json.getDouble cpuUsage
    memoryUsage := json.getDouble memoryUsage
    diskUsage := json.getDouble diskUsage
    availability := json.getDouble availability
    latency := json.getDouble latency }
  if c.validatePercentage d.cpuUsage && c.validatePercentage d.memoryUsage &&
    c.validatePercentage d.diskUsage && c.validatePercentage d.availability &&
    c.validateLatency d.latency then some d
  else none

/-! ### The history (heartbeat_server.c:148-181) -/

/-- The oldest record goes when there are too many, unless it is the only one. -/
def addToHistory (h : History D) (data : HeartbeatData D) (alloc : Bool) (now : ℤ) : History D :=
  if alloc = false then h
  else
    let nodes := ⟨data, now⟩ :: h.nodes
    if h.heartbeatCount + 1 > maxHeartbeats ∧ nodes.length > 1 then
      ⟨nodes.dropLast, h.heartbeatCount⟩
    else ⟨nodes, h.heartbeatCount + 1⟩

/-! ### Form data (heartbeat_server.c:310-373) -/

section Form
variable (c : Checks D)

/-- One accepted pair: `hb_data` and `fields_set` after it. -/
def setField (s : HeartbeatData D × ℕ) (key value : List UInt8) : HeartbeatData D × ℕ :=
  if key = text "local_ip" ∧ c.validateIp value = true then (s.1.withLocalIp value, s.2 + 1)
  else if key = text "public_ip" ∧ c.validateIp value = true then
    (s.1.withPublicIp value, s.2 + 1)
  else if key = text "cpu_usage" then
    if c.validatePercentage (c.atof value) = true then
      ({ s.1 with cpuUsage := c.atof value }, s.2 + 1)
    else s
  else if key = text "memory_usage" then
    if c.validatePercentage (c.atof value) = true then
      ({ s.1 with memoryUsage := c.atof value }, s.2 + 1)
    else s
  else if key = text "disk_usage" then
    if c.validatePercentage (c.atof value) = true then
      ({ s.1 with diskUsage := c.atof value }, s.2 + 1)
    else s
  else if key = text "availability" then
    if c.validatePercentage (c.atof value) = true then
      ({ s.1 with availability := c.atof value }, s.2 + 1)
    else s
  else if key = text "latency" then
    if c.validateLatency (c.atof value) = true then
      ({ s.1 with latency := c.atof value }, s.2 + 1)
    else s
  else s

def formFields (s : HeartbeatData D × ℕ) : List (List UInt8) → HeartbeatData D × ℕ
  | [] => s
  | pair :: pairs =>
    match parseKeyValue pair maxKeyLen maxValueLen with
    | some (key, value) => formFields (setField c s key value) pairs
    | none => formFields s pairs

def formData (body : List UInt8) : Option (HeartbeatData D) :=
  let s := formFields c (noData c, 0) (strtok 38 body)
  if s.2 = 7 then some s.1 else none

end Form

/-! ### Responses (heartbeat_server.c:241-403) -/

def plainResponse (status contentLength body : String) : List UInt8 :=
  text ("HTTP/1.1 " ++ status ++ "\r\nContent-Type: text/plain\r\nConnection: close\r\n" ++
    "Content-Length: " ++ contentLength ++ "\r\n\r\n" ++ body)

def okResponse : List UInt8 := plainResponse "200 OK" "2" "OK"
def invalidDataResponse : List UInt8 := plainResponse "400 Bad Request" "16" "Invalid data sent"
def notFoundResponse : List UInt8 := plainResponse "404 Not Found" "9" "Not Found"

def noHistoryResponse : List UInt8 :=
  plainResponse "500 Internal Server Error" "21" "Failed to get history"

/-- `snprintf` cuts the response to the buffer. -/
def historyResponse (historyJson : List UInt8) : List UInt8 :=
  (text ("HTTP/1.1 200 OK\r\nContent-Type: application/json\r\nConnection: close\r\n" ++
    "Content-Length: " ++ toString historyJson.length ++ "\r\n\r\n") ++ historyJson).take
    (bufferSize - 1)

/-! ### One client (heartbeat_server.c:225-407) -/

/-- What is sent, the record given to `add_to_history`, and the history. -/
structure Handled (D : Type) where
  sent : List (List UInt8)
  added : Option (HeartbeatData D)
  history : History D

def getHistory : List UInt8 := text "GET /api/heartbeat/history"
def postHeartbeat : List UInt8 := text "POST /api/heartbeat"
def blankLine : List UInt8 := text "\r\n\r\n"

section Client
variable (c : Checks D) (json : JsonC D J) (alloc : Bool) (now : ℤ) (h : History D)

def answer (m : List UInt8) : Handled D := ⟨[m], none, h⟩

def accept (d : HeartbeatData D) (m : List UInt8) : Handled D :=
  ⟨[m], some d, addToHistory h d alloc now⟩

/-- 123 is the opening brace. -/
def handlePost (buffer : List UInt8) : Handled D :=
  match strstr blankLine buffer with
  | some rest =>
    let body := rest.drop 4
    let validData := if body.head? = some 123 then processJsonData c json body else formData c body
    match validData with
    | some d => accept alloc now h d okResponse
    | none => answer h invalidDataResponse
  | none => answer h (text "HTTP/1.1 400 Bad Request\r\n\r\n")

/-- `data` is what `read` returned, nothing if it failed. -/
def handleClient (data : List UInt8) : Handled D :=
  let buffer := cstr data
  if data = [] then ⟨[], none, h⟩
  else if buffer.head? = some 123 then
    match processJsonData c json buffer with
    | some d => accept alloc now h d (text "OK")
    | none => answer h (text "Invalid JSON data")
  else if (strstr getHistory buffer).isSome = true then
    match json.historyText h.nodes with
    | some historyJson => answer h (historyResponse historyJson)
    | none => answer h noHistoryResponse
  else if (strstr postHeartbeat buffer).isSome = true then handlePost c json alloc now h buffer
  else answer h notFoundResponse

end Client

end CSimples.HeartbeatServer
