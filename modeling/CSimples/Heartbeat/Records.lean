import CSimples.Heartbeat.FormFields
import CSimples.Heartbeat.History

/-!
# What the heartbeat server keeps and serves (heartbeat_server.c:73-223, 226-548)

Any number of `handle_client` threads answer requests of any bytes. A thread whose
request is accepted fills a node first and links it in a later step; the history is
read in one step, under its mutex.
-/

namespace CSimples.HeartbeatRecords
open CString HeartbeatServer HeartbeatHistory LinkedList Run

variable {τ D J : Type} (c : Checks D)

/-! ### Acceptable records -/

/-- Nothing, as where a form repeats another field instead, or an address that `validate_ip` has
accepted, cut to its field. -/
def EmptyOrValid (ip : List UInt8) : Prop :=
  ip = [] ∨ ∃ given, c.validateIp given = true ∧ ip = (cstr given).take (maxIpLen - 1)

structure Acceptable (d : HeartbeatData D) : Prop where
  padded : Padded d
  localIp : EmptyOrValid c (cstr d.localIp)
  publicIp : EmptyOrValid c (cstr d.publicIp)
  cpuUsage : c.validatePercentage d.cpuUsage = true
  memoryUsage : c.validatePercentage d.memoryUsage = true
  diskUsage : c.validatePercentage d.diskUsage = true
  availability : c.validatePercentage d.availability = true
  latency : c.validateLatency d.latency = true

/-- `validate_percentage` and `validate_latency` accept 0.0. -/
structure ZeroValid : Prop where
  percentage : c.validatePercentage c.zero = true
  latency : c.validateLatency c.zero = true

variable {c}

theorem noData_acceptable (hz : ZeroValid c) : Acceptable c (noData c) := by
  have hempty : cstr (List.replicate maxIpLen 0) = [] := by decide
  exact ⟨noData_padded, .inl hempty, .inl hempty, hz.percentage, hz.percentage, hz.percentage,
    hz.percentage, hz.latency⟩

theorem address_stored {ip : List UInt8} (h : c.validateIp ip = true) {field : List UInt8}
    (hfield : field[maxIpLen - 1]? = some 0) :
    EmptyOrValid c (cstr (strncpy field ip (maxIpLen - 1))) :=
  .inr ⟨ip, h, cstr_strncpy ip hfield⟩

theorem store_acceptable {d : HeartbeatData D} (hd : Acceptable c d) {f : Field}
    {value : List UInt8} (hvalid : f.valid c value = true) : Acceptable c (f.store c value d) := by
  have hpadded := store_padded (c := c) hd.padded f value
  obtain ⟨hpad, hlocal, hpublic, hcpu, hmemory, hdisk, havailability, hlatency⟩ := hd
  cases f with
  | localIp =>
    exact ⟨hpadded, address_stored hvalid hpad.1, hpublic, hcpu, hmemory, hdisk, havailability,
      hlatency⟩
  | publicIp =>
    exact ⟨hpadded, hlocal, address_stored hvalid hpad.2, hcpu, hmemory, hdisk, havailability,
      hlatency⟩
  | cpuUsage => exact ⟨hpadded, hlocal, hpublic, hvalid, hmemory, hdisk, havailability, hlatency⟩
  | memoryUsage => exact ⟨hpadded, hlocal, hpublic, hcpu, hvalid, hdisk, havailability, hlatency⟩
  | diskUsage => exact ⟨hpadded, hlocal, hpublic, hcpu, hmemory, hvalid, havailability, hlatency⟩
  | availability => exact ⟨hpadded, hlocal, hpublic, hcpu, hmemory, hdisk, hvalid, hlatency⟩
  | latency => exact ⟨hpadded, hlocal, hpublic, hcpu, hmemory, hdisk, havailability, hvalid⟩

theorem storeAll_acceptable {l : List (Field × List UInt8)}
    (hl : ∀ e ∈ l, e.1.valid c e.2 = true) {d : HeartbeatData D} (hd : Acceptable c d) :
    Acceptable c (storeAll c l d) := by
  induction l generalizing d with
  | nil => exact hd
  | cons e l ih =>
    exact ih (fun e he => hl e (List.mem_cons_of_mem _ he))
      (store_acceptable hd (hl e List.mem_cons_self))

/-- Seven accepted pairs need not be of seven fields: what they leave out is 0.0 or an
empty address. -/
theorem formData_acceptable (hz : ZeroValid c) {body : List UInt8} {d : HeartbeatData D}
    (h : formData c body = some d) : Acceptable c d := by
  simp only [formData, formFields_eq] at h
  split at h
  · cases h
    refine storeAll_acceptable (fun e he => ?_) (noData_acceptable hz)
    exact (mem_entries.mp he).2
  · cases h

theorem processJsonData_acceptable {json : JsonC D J} {jsonStr : List UInt8}
    {d : HeartbeatData D} (h : processJsonData c json jsonStr = some d) : Acceptable c d := by
  simp only [processJsonData, Option.bind_eq_bind, Option.bind_eq_some_iff] at h
  obtain ⟨_, _, localIp, _, publicIp, _, cpuUsage, _, memoryUsage, _, diskUsage, _, availability,
    _, latency, _, localIpStr, hlocal, publicIpStr, hpublic, h⟩ := h
  split at h
  · rename_i hvalid
    cases h
    simp only [Bool.and_eq_true] at hvalid
    obtain ⟨⟨⟨⟨hcpu, hmemory⟩, hdisk⟩, havailability⟩, hlatency⟩ := hvalid
    obtain ⟨_, hlocal⟩ := Option.filter_eq_some_iff.mp hlocal
    obtain ⟨_, hpublic⟩ := Option.filter_eq_some_iff.mp hpublic
    have hpad := noData_padded (c := c)
    have hpadded := store_padded (c := c) (store_padded (c := c) hpad .localIp localIpStr) .publicIp
      publicIpStr
    exact ⟨hpadded, address_stored hlocal hpad.1, address_stored hpublic hpad.2, hcpu, hmemory,
      hdisk, havailability, hlatency⟩
  · cases h

/-! ### What is answered -/

def plainAnswers : List (List UInt8) :=
  [text "OK", text "Invalid JSON data", okResponse, invalidDataResponse, notFoundResponse,
    noHistoryResponse, text "HTTP/1.1 400 Bad Request\r\n\r\n"]

/-- One of the fixed answers, or the history of some acceptable records, no more than
the list may have. -/
def Served (c : Checks D) (json : JsonC D J) (m : List UInt8) : Prop :=
  m ∈ plainAnswers ∨ ∃ nodes historyJson, json.historyText nodes = some historyJson ∧
    m = historyResponse historyJson ∧ nodes.length ≤ maxHeartbeats ∧
    ∀ n ∈ nodes, Acceptable c n.data

variable (json : JsonC D J) (now : ℤ) (h : History D)

theorem handlePost_added (hz : ZeroValid c) (buffer : List UInt8) :
    (∀ d, (handlePost c json true now h buffer).added = some d → Acceptable c d) ∧
      ∀ m ∈ (handlePost c json true now h buffer).sent, m ∈ plainAnswers := by
  simp only [handlePost]
  split
  · split
    · rename_i d hd
      refine ⟨?_, by simp [accept, plainAnswers]⟩
      rintro _ ⟨⟩
      split at hd
      · exact processJsonData_acceptable hd
      · exact formData_acceptable hz hd
    · exact ⟨by simp [answer], by simp [answer, plainAnswers]⟩
  · exact ⟨by simp [answer], by simp [answer, plainAnswers]⟩

theorem handleClient_added (hz : ZeroValid c) (data : List UInt8) :
    (∀ d, (handleClient c json true now h data).added = some d → Acceptable c d) ∧
      ∀ m ∈ (handleClient c json true now h data).sent, m ∈ plainAnswers ∨
        ∃ historyJson, json.historyText h.nodes = some historyJson ∧
          m = historyResponse historyJson := by
  simp only [handleClient]
  split
  · exact ⟨by simp, by simp⟩
  · split
    · split
      · rename_i d hd
        refine ⟨?_, by simp [accept, plainAnswers]⟩
        rintro _ ⟨⟩
        exact processJsonData_acceptable hd
      · exact ⟨by simp [answer], by simp [answer, plainAnswers]⟩
    · split
      · split
        · rename_i historyJson htext
          refine ⟨by simp [answer], fun m hm => .inr ⟨historyJson, htext, ?_⟩⟩
          exact List.mem_singleton.mp hm
        · exact ⟨by simp [answer], by simp [answer, plainAnswers]⟩
      · split
        · obtain ⟨hadded, hsent⟩ := handlePost_added json now h hz (cstr data)
          exact ⟨hadded, fun m hm => .inl (hsent m hm)⟩
        · exact ⟨by simp [answer], by simp [answer, plainAnswers]⟩

/-! ### All interleavings -/

/-- `owed` is what a thread sends once its node is linked. -/
structure Server (τ D : Type) where
  system : System τ D
  owed : τ → List (List UInt8)
  sent : List (List UInt8)

/-- In `request`, `data` is what `read` returned and `node` what `malloc` returns if the
request is accepted. -/
inductive Event (τ D : Type) where
  | request (thread : τ) (data : List UInt8) (node : Option ℕ) (now : ℤ) (junk : Option ℕ)
  | link (thread : τ)
  | clear (thread : τ)

def idle : Server τ D := ⟨HeartbeatHistory.start, fun _ => [], []⟩

/-- The nodes that are filled and those that were linked hold acceptable records. -/
structure Good (c : Checks D) (s : System τ D) : Prop where
  pending : ∀ t p, s.pending t = some p →
    ∀ cell, read s.memory.heap p = some cell → Acceptable c cell.value.data
  added : ∀ n ∈ s.added, Acceptable c n.data

structure Inv (c : Checks D) (json : JsonC D J) (s : Server τ D) : Prop where
  system : HeartbeatHistory.Inv maxHeartbeats s.system
  good : Good c s.system
  owed : ∀ thread, ∀ m ∈ s.owed thread, Served c json m
  sent : ∀ m ∈ s.sent, Served c json m

variable {json}

theorem inv_idle : Inv c json (idle : Server τ D) := by
  refine ⟨inv_start _, ⟨?_, fun _ hn => absurd hn List.not_mem_nil⟩, ?_, ?_⟩
  · intro _ _ h
    cases h
  · exact fun _ _ hm => absurd hm List.not_mem_nil
  · exact fun _ hm => absurd hm List.not_mem_nil

/-- The list is read as it is in memory, and its records are acceptable. -/
theorem Inv.nodes {t : Server τ D} (hs : Inv c json t) :
    ∃ nodes, t.system.memory.nodes = some nodes ∧ nodes.length ≤ maxHeartbeats ∧
      ∀ n ∈ nodes, Acceptable c n.data := by
  obtain ⟨cells, hheld, _⟩ := hs.system.held
  refine ⟨_, hheld.nodes_eq, ?_, fun n hn => hs.good.added n (List.mem_of_mem_take hn)⟩
  exact List.length_take_le maxHeartbeats t.system.added

theorem served_append {ms ms' : List (List UInt8)} (h : ∀ m ∈ ms, Served c json m)
    (h' : ∀ m ∈ ms', Served c json m) : ∀ m ∈ ms ++ ms', Served c json m := by
  intro m hm
  rcases List.mem_append.mp hm with hm | hm
  · exact h m hm
  · exact h' m hm

variable [DecidableEq τ]

def receive (c : Checks D) (json : JsonC D J) (s : Server τ D) (thread : τ) (data : List UInt8)
    (node : Option ℕ) (now : ℤ) (junk : Option ℕ) : Option (Server τ D) := do
  let nodes ← s.system.memory.nodes
  let r := handleClient c json true now ⟨nodes, s.system.memory.heartbeatCount⟩ data
  match r.added with
  | none =>
    if s.system.pending thread = none then some { s with sent := s.sent ++ r.sent } else none
  | some d => do
    let system ← HeartbeatHistory.step maxHeartbeats s.system (.fill thread node d now junk)
    if node = none then some { s with system, sent := s.sent ++ r.sent }
    else some { s with system, owed := Function.update s.owed thread r.sent }

def step (c : Checks D) (json : JsonC D J) (s : Server τ D) : Event τ D → Option (Server τ D)
  | .request thread data node now junk => receive c json s thread data node now junk
  | .link thread => do
    let system ← HeartbeatHistory.step maxHeartbeats s.system (.link thread)
    some { s with system, sent := s.sent ++ s.owed thread }
  | .clear thread => do
    let system ← HeartbeatHistory.step maxHeartbeats s.system (.clear thread)
    some { s with system }

variable {s s' : System τ D} {t t' : Server τ D}

theorem good_fill (hg : Good c s) {thread : τ} {node : Option ℕ} {d : HeartbeatData D}
    (hd : Acceptable c d) {now : ℤ} {junk : Option ℕ}
    (h : HeartbeatHistory.step maxHeartbeats s (.fill thread node d now junk) = some s') :
    Good c s' := by
  simp only [HeartbeatHistory.step] at h
  split at h
  · cases h
  · cases h
    exact hg
  · rename_i p _
    split at h
    · cases h
    · rename_i hfree
      cases h
      have hp : read s.memory.heap p = none := by simpa using hfree
      refine ⟨?_, hg.added⟩
      intro u q hq cell hcell
      by_cases hqp : p = q
      · subst hqp
        rw [fillNode, read_cons, if_pos rfl] at hcell
        cases hcell
        exact hd
      · rw [fillNode, read_cons, if_neg hqp] at hcell
        by_cases hu : u = thread
        · subst hu
          exact absurd (by simpa using hq) hqp
        · exact hg.pending u q (by simpa [hu] using hq) cell hcell

theorem good_link (hs : HeartbeatHistory.Inv maxHeartbeats s) (hg : Good c s) {thread : τ}
    (h : HeartbeatHistory.step maxHeartbeats s (.link thread) = some s') : Good c s' := by
  obtain ⟨p, hp, h⟩ := Option.bind_eq_some_iff.mp h
  obtain ⟨cell, hcell⟩ := hs.filled thread p hp
  obtain ⟨cells, hheld, hout⟩ := hs.held
  obtain ⟨memory, _, hrun, _, _, hsame⟩ :=
    addToHistory_holds maxHeartbeats hheld hcell (hout thread p hp)
  simp only [hcell, hrun, Option.bind_eq_bind, Option.bind_some, Option.some.injEq] at h
  subst h
  constructor
  · intro u q hq d hd
    by_cases hu : u = thread
    · simp [hu] at hq
    · have hq' : s.pending u = some q := by simpa [hu] using hq
      have hne : q ≠ p := by
        rintro rfl
        exact hu (hs.apart u thread q hq' hp)
      rw [hsame q hne (hout u q hq')] at hd
      exact hg.pending u q hq' d hd
  · intro n hn
    rcases List.mem_cons.mp hn with rfl | hn
    · exact hg.pending thread p hp cell hcell
    · exact hg.added n hn

theorem good_clear (hs : HeartbeatHistory.Inv maxHeartbeats s) (hg : Good c s) {thread : τ}
    (h : HeartbeatHistory.step maxHeartbeats s (.clear thread) = some s') : Good c s' := by
  obtain ⟨cells, hheld, hout⟩ := hs.held
  obtain ⟨memory, hrun, _, hsame⟩ := clear_holds hheld
  simp only [HeartbeatHistory.step] at h
  split at h
  · cases h
  · simp only [hrun, Option.map_some, Option.some.injEq] at h
    subst h
    refine ⟨?_, fun _ hn => absurd hn List.not_mem_nil⟩
    intro u q hq d hd
    rw [hsame q (hout u q hq)] at hd
    exact hg.pending u q hq d hd

theorem inv_request (hz : ZeroValid c) (hs : Inv c json t) {thread : τ} {data : List UInt8}
    {node : Option ℕ} {now : ℤ} {junk : Option ℕ}
    (h : receive c json t thread data node now junk = some t') : Inv c json t' := by
  obtain ⟨nodes, hnodes, hlen, hgood⟩ := hs.nodes
  obtain ⟨hadded, hanswers⟩ := handleClient_added json now
    ⟨nodes, t.system.memory.heartbeatCount⟩ hz data
  simp only [receive, hnodes, Option.bind_eq_bind, Option.bind_some] at h
  generalize handleClient c json true now ⟨nodes, t.system.memory.heartbeatCount⟩ data = r
    at hadded hanswers h
  have hserved : ∀ m ∈ r.sent, Served c json m := by
    intro m hm
    rcases hanswers m hm with hplain | ⟨historyJson, htext, hm⟩
    · exact .inl hplain
    · exact .inr ⟨nodes, historyJson, htext, hm, hlen, hgood⟩
  cases hr : r.added with
  | none =>
    simp only [hr] at h
    split at h
    · cases h
      exact ⟨hs.system, hs.good, hs.owed, served_append hs.sent hserved⟩
    · cases h
  | some d =>
    simp only [hr] at h
    obtain ⟨system, hstep, h⟩ := Option.bind_eq_some_iff.mp h
    have hsystem := inv_fill hs.system thread node d now junk hstep
    have hkept := good_fill hs.good (hadded d hr) hstep
    split at h
    · cases h
      exact ⟨hsystem, hkept, hs.owed, served_append hs.sent hserved⟩
    · cases h
      refine ⟨hsystem, hkept, ?_, hs.sent⟩
      intro u m hm
      by_cases hu : u = thread
      · subst hu
        exact hserved m (by simpa using hm)
      · exact hs.owed u m (by simpa [hu] using hm)

theorem inv_step (hz : ZeroValid c) (hs : Inv c json t) (e : Event τ D)
    (h : step c json t e = some t') : Inv c json t' := by
  cases e with
  | request thread data node now junk => exact inv_request hz hs h
  | link thread =>
    obtain ⟨system, hstep, h⟩ := Option.bind_eq_some_iff.mp h
    cases h
    exact ⟨inv_link (by decide) hs.system thread hstep, good_link hs.system hs.good hstep, hs.owed,
      served_append hs.sent (hs.owed thread)⟩
  | clear thread =>
    obtain ⟨system, hstep, h⟩ := Option.bind_eq_some_iff.mp h
    cases h
    exact ⟨inv_clear hs.system thread hstep, good_clear hs.system hs.good hstep, hs.owed, hs.sent⟩

/-- No idle thread is stuck on a request, whatever its bytes are. -/
theorem request_handled (hs : Inv c json t) {thread : τ} (hidle : t.system.pending thread = none)
    (data : List UInt8) {node : Option ℕ}
    (hfresh : ∀ p, node = some p → read t.system.memory.heap p = none) (now : ℤ)
    (junk : Option ℕ) : (step c json t (.request thread data node now junk)).isSome = true := by
  obtain ⟨nodes, hnodes, _⟩ := hs.nodes
  simp only [step, receive, hnodes, Option.bind_eq_bind, Option.bind_some]
  generalize handleClient c json true now ⟨nodes, t.system.memory.heartbeatCount⟩ data = r
  cases r.added with
  | none => simp [hidle]
  | some d =>
    cases node with
    | none => simp [HeartbeatHistory.step, hidle]
    | some p => simp [HeartbeatHistory.step, hidle, hfresh p rfl]

/-- Whatever bytes the peers send and however the threads interleave, the list is of at
most a hundred records, all acceptable, every answer is fixed or the history of such
records, and every idle thread can answer the next request. -/
theorem serves_acceptable (hz : ZeroValid c)
    (h : Reach (step c json) (fun _ _ => True) (idle : Server τ D) t) :
    (∃ nodes, t.system.memory.nodes = some nodes ∧ nodes.length ≤ maxHeartbeats ∧
      ∀ n ∈ nodes, Acceptable c n.data) ∧
    (∀ m ∈ t.sent, Served c json m) ∧
    ∀ thread, t.system.pending thread = none → ∀ (data : List UInt8) (node : Option ℕ) (now : ℤ)
      (junk : Option ℕ), (∀ p, node = some p → read t.system.memory.heap p = none) →
      (step c json t (.request thread data node now junk)).isSome = true := by
  have hs : Inv c json t := h.invariant inv_idle fun s e s' hs _ hstep => inv_step hz hs e hstep
  exact ⟨hs.nodes, hs.sent, fun thread hidle data node now junk hfresh =>
    request_handled hs hidle data hfresh now junk⟩

def oneHistory : JsonC ℤ Unit := { noJson with historyText := fun _ => some (text "[]") }

/-- A form with seven times the same address is stored, and then the history is asked for. -/
theorem serves_acceptable_sevenTimes :
    ∃ t : Server Bool ℤ, t.sent = [okResponse, historyResponse (text "[]")] ∧
      ∀ m ∈ t.sent, Served oneAddress oneHistory m := by
  have hreach : Reach (step oneAddress oneHistory) (fun _ _ => True) (idle : Server Bool ℤ) _ :=
    .next (.request false (text "GET /api/heartbeat/history") none 30 none)
      (.next (.link true) (.next (.request true (request sevenTimes) (some 4) 20 none) .start
        trivial rfl) trivial rfl) trivial rfl
  exact ⟨_, rfl, (serves_acceptable ⟨rfl, rfl⟩ hreach).2.1⟩

end CSimples.HeartbeatRecords
