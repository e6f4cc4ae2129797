import CSimples.Heartbeat.Records
import CSimples.Lib.CTokens

/-!
# The heartbeat client and the server (heartbeat_client.c, heartbeat_server.c)

Every ten seconds the client sends one JSON object on a connection that it keeps, and
it reads no answer. The server reads once from each connection. What the client
measures is given as the texts that it prints.
-/

namespace CSimples.HeartbeatClient
open CString CTokens Decimal HeartbeatServer HeartbeatRecords Run
open HeartbeatHistory (System)

/-! ### The client (heartbeat_client.c:206-308) -/

/-- The strings of `uname`, the two address buffers, and the numbers as `%.2f` prints them. -/
structure Report where
  time : ℤ
  nodename : List UInt8
  sysname : List UInt8
  release : List UInt8
  version : List UInt8
  machine : List UInt8
  localIp : List UInt8
  publicIp : List UInt8
  cpuUsage : List UInt8
  memoryUsage : List UInt8
  diskUsage : List UInt8

/-- `"\"key\":\"%s\","` -/
def stringMember (key : String) (value : List UInt8) : List UInt8 :=
  text "\"" ++ text key ++ text "\":\"" ++ value ++ text "\","

/-- `"\"key\":%.2f"` -/
def numberMember (key : String) (value : List UInt8) : List UInt8 :=
  text "\"" ++ text key ++ text "\":" ++ value

/-- `snprintf` cuts it to the 1024 bytes of `heartbeat_data`. -/
def heartbeatData (r : Report) : List UInt8 :=
  (text "\x7b" ++ stringMember "timestamp" (signedPadded 1 r.time) ++
    stringMember "hostname" r.nodename ++
    stringMember "os" (r.sysname ++ text " " ++ r.release) ++
    stringMember "kernel" r.version ++
    stringMember "arch" r.machine ++
    stringMember "local_ip" r.localIp ++
    stringMember "public_ip" r.publicIp ++
    numberMember "cpu_usage" r.cpuUsage ++ text "," ++
    numberMember "memory_usage" r.memoryUsage ++ text "," ++
    numberMember "disk_usage" r.diskUsage ++ text "\x7d").take 1023

/-- All that one client sends. -/
def heartbeats (reports : List Report) : List UInt8 := reports.flatMap heartbeatData

/-- Not the end of a string, a quote of either kind or a backslash. -/
def isPlain (b : UInt8) : Bool := decide (b ≠ 0 ∧ b ≠ 34 ∧ b ≠ 39 ∧ b ≠ 92)

def Report.texts (r : Report) : List (List UInt8) :=
  [r.nodename, r.sysname, r.release, r.version, r.machine, r.localIp, r.publicIp, r.cpuUsage,
    r.memoryUsage, r.diskUsage]

/-- Host names and addresses without quotes and backslashes; numbers have none. -/
def Plain (r : Report) : Prop := ∀ bs ∈ r.texts, ∀ b ∈ bs, isPlain b = true

/-- What the one `read` on a connection of a client can return. -/
def FromClient (data : List UInt8) : Prop :=
  ∃ reports, (∀ r ∈ reports, Plain r) ∧ data <+: heartbeats reports

variable {D J : Type}

/-- In a text without backslashes json-c finds a member only where its name stands between
quotes, and neither a comma nor an opening brace comes right after it. -/
def NamesMembers (json : JsonC D J) : Prop :=
  ∀ jsonStr key parsed v, (92 : UInt8) ∉ jsonStr → json.tokenerParse jsonStr = some parsed →
    json.objectGet parsed key = some v →
    ∃ q b : UInt8, (q = 34 ∨ q = 39) ∧ b ≠ 44 ∧ b ≠ 123 ∧ q :: (key ++ [q, b]) <:+: jsonStr

/-! ### No message names a latency -/

/-- The members whose values are strings. -/
def Report.strings (r : Report) : List (String × List UInt8) :=
  [("timestamp", signedPadded 1 r.time), ("hostname", r.nodename),
    ("os", r.sysname ++ text " " ++ r.release), ("kernel", r.version), ("arch", r.machine),
    ("local_ip", r.localIp), ("public_ip", r.publicIp)]

def stringPieces (ms : List (String × List UInt8)) : List (List UInt8) :=
  ms.flatMap fun m => [text m.1, text ":", m.2, text ","]

def numberPieces (r : Report) : List (List UInt8) :=
  [text "cpu_usage", text ":" ++ r.cpuUsage ++ text ",",
    text "memory_usage", text ":" ++ r.memoryUsage ++ text ",",
    text "disk_usage", text ":" ++ r.diskUsage ++ text "\x7d"]

/-- What stands between the quotes of a message, before it is cut. -/
def pieces (r : Report) : List (List UInt8) :=
  text "\x7b" :: (stringPieces r.strings ++ numberPieces r)

theorem heartbeatData_eq (r : Report) :
    heartbeatData r = ([34].intercalate (pieces r)).take 1023 := by
  have hquote : text "\"" = [34] := by decide
  have hstring : text "\":\"" = 34 :: (text ":" ++ [34]) := by decide
  have hnumber : text "\":" = 34 :: text ":" := by decide
  have hend : text "\"," = 34 :: text "," := by decide
  simp only [heartbeatData, stringMember, numberMember, pieces, stringPieces, numberPieces,
    Report.strings, List.flatMap_cons, List.flatMap_nil, List.intercalate_cons_cons,
    List.intercalate_singleton, hquote, hstring, hnumber, hend, List.append_assoc,
    List.cons_append, List.nil_append]

def AllPlain (bs : List UInt8) : Prop := ∀ b ∈ bs, isPlain b = true

instance (bs : List UInt8) : Decidable (AllPlain bs) :=
  List.decidableBAll (fun b => isPlain b = true) bs

theorem AllPlain.append {as bs : List UInt8} (ha : AllPlain as) (hb : AllPlain bs) :
    AllPlain (as ++ bs) := List.forall_mem_append.mpr ⟨ha, hb⟩

theorem isPlain_of_isDigit {b : UInt8} (h : isDigit b = true) : isPlain b = true := by
  simp only [isDigit, isPlain, decide_eq_true_eq, ne_eq, UInt8.le_iff_toNat_le,
    ← UInt8.toNat_inj, UInt8.reduceToNat] at h ⊢
  omega

theorem signedPadded_plain (n : ℤ) : AllPlain (signedPadded 1 n) := by
  unfold signedPadded
  split
  · exact List.forall_mem_cons.mpr ⟨rfl, fun b hb => isPlain_of_isDigit (zeroPadded_isDigit hb)⟩
  · exact fun b hb => isPlain_of_isDigit (zeroPadded_isDigit hb)

theorem stringPieces_plain {ms : List (String × List UInt8)}
    (h : ∀ m ∈ ms, AllPlain (text m.1) ∧ AllPlain m.2) : ∀ p ∈ stringPieces ms, AllPlain p := by
  intro p hp
  obtain ⟨m, hm, hp⟩ := List.mem_flatMap.mp hp
  obtain ⟨hkey, hvalue⟩ := h m hm
  simp only [List.mem_cons, List.not_mem_nil, or_false] at hp
  rcases hp with rfl | rfl | rfl | rfl
  · exact hkey
  · decide
  · exact hvalue
  · decide

theorem pieces_plain {r : Report} (h : Plain r) : ∀ p ∈ pieces r, AllPlain p := by
  simp only [Plain, Report.texts, List.forall_mem_cons] at h
  obtain ⟨hname, hsys, hrel, hver, harch, hlocal, hpublic, hcpu, hmem, hdisk, _⟩ := h
  have hstrings : ∀ m ∈ r.strings, AllPlain (text m.1) ∧ AllPlain m.2 := by
    simp only [Report.strings, List.forall_mem_cons]
    have hos : AllPlain (r.sysname ++ text " " ++ r.release) :=
      .append (.append hsys (by decide)) hrel
    exact ⟨⟨by decide, signedPadded_plain _⟩, ⟨by decide, hname⟩, ⟨by decide, hos⟩,
      ⟨by decide, hver⟩, ⟨by decide, harch⟩, ⟨by decide, hlocal⟩, ⟨by decide, hpublic⟩,
      fun m hm => absurd hm List.not_mem_nil⟩
  have hnumbers : ∀ p ∈ numberPieces r, AllPlain p := by
    simp only [numberPieces, List.forall_mem_cons]
    exact ⟨by decide, .append (.append (by decide) hcpu) (by decide), by decide,
      .append (.append (by decide) hmem) (by decide), by decide,
      .append (.append (by decide) hdisk) (by decide), fun p hp => absurd hp List.not_mem_nil⟩
  exact List.forall_mem_cons.mpr
    ⟨by decide, List.forall_mem_append.mpr ⟨stringPieces_plain hstrings, hnumbers⟩⟩

/-- A byte of a message: a double quote, or one that `isPlain` allows. -/
theorem mem_heartbeatData {r : Report} (h : Plain r) {b : UInt8} (hb : b ∈ heartbeatData r) :
    b = 34 ∨ isPlain b = true := by
  rw [heartbeatData_eq] at hb
  obtain heq | ⟨p, hp, hb⟩ := mem_intercalate (List.mem_of_mem_take hb)
  · exact .inl heq
  · exact .inr (pieces_plain h p hp b hb)

def latency : List UInt8 := text "latency"

/-- Where `latency` stands between quotes, a comma follows. -/
def Unnamed (pieces : List (List UInt8)) : Prop :=
  pieces.IsChain fun piece next => piece = latency → next.head? = some 44

theorem Unnamed.cons {p : List UInt8} {rest : List (List UInt8)} (h : Unnamed rest)
    (hne : p ≠ latency) : Unnamed (p :: rest) := by
  cases rest with
  | nil => exact .singleton p
  | cons next rest => exact .cons_cons (fun heq => absurd heq hne) h

theorem Unnamed.strings {rest : List (List UInt8)} (h : Unnamed rest)
    {ms : List (String × List UInt8)} (hms : ∀ m ∈ ms, text m.1 ≠ latency) :
    Unnamed (stringPieces ms ++ rest) := by
  induction ms with
  | nil => exact h
  | cons m ms ih =>
    obtain ⟨hkey, hms⟩ := List.forall_mem_cons.mp hms
    have htail : Unnamed (text "," :: (stringPieces ms ++ rest)) := (ih hms).cons (by decide)
    have hvalue : Unnamed (m.2 :: text "," :: (stringPieces ms ++ rest)) :=
      .cons_cons (fun _ => rfl) htail
    have hcolon : Unnamed (text ":" :: m.2 :: text "," :: (stringPieces ms ++ rest)) :=
      hvalue.cons (by decide)
    exact hcolon.cons hkey

theorem head_ne {bs : List UInt8} (h : bs.head? = some 58) : bs ≠ latency := by
  rintro rfl
  exact absurd h (by decide)

theorem pieces_unnamed (r : Report) : Unnamed (pieces r) := by
  have hnumbers : Unnamed (numberPieces r) := by
    have hlast : Unnamed [text ":" ++ r.diskUsage ++ text "\x7d"] := .singleton _
    have hdisk := hlast.cons (p := text "disk_usage") (by decide)
    have hmemory := (hdisk.cons (p := text ":" ++ r.memoryUsage ++ text ",") (head_ne rfl)).cons
      (p := text "memory_usage") (by decide)
    exact (hmemory.cons (p := text ":" ++ r.cpuUsage ++ text ",") (head_ne rfl)).cons (by decide)
  have hkeys : ∀ m ∈ r.strings, text m.1 ≠ latency := by
    simp only [Report.strings, List.forall_mem_cons]
    exact ⟨by decide, by decide, by decide, by decide, by decide, by decide, by decide,
      fun m hm => absurd hm List.not_mem_nil⟩
  exact (hnumbers.strings hkeys).cons (by decide)

/-- No member of the text is named `latency`. -/
def Nameless (bs : List UInt8) : Prop :=
  ∀ b, 34 :: (latency ++ [34, b]) <:+: bs → b = 44 ∨ b = 123

theorem Nameless.part {as bs : List UInt8} (h : Nameless bs) (hwithin : as <:+: bs) : Nameless as :=
  fun b hb => h b (hb.trans hwithin)

theorem nameless_message {r : Report} (h : Plain r) : Nameless (heartbeatData r) := by
  rw [heartbeatData_eq]
  refine Nameless.part ?_ (List.take_prefix _ _).isInfix
  rintro b ⟨pre, post, heq⟩
  have hpieces : ∀ p ∈ pieces r, (34 : UInt8) ∉ p := fun p hp hin =>
    absurd (pieces_plain h p hp 34 hin) (by decide)
  have hsplit : [34].intercalate (pieces r) = pre ++ 34 :: (latency ++ 34 :: (b :: post)) := by
    rw [← heq]
    simp
  have hnext := byte_after_quoted hpieces (by decide) (pieces_unnamed r) hsplit
  exact .inl (Option.some.inj hnext)

/-- A name does not go over into the next message, which begins with a brace. -/
theorem Nameless.append {as bs : List UInt8} (ha : Nameless as) (hb : Nameless bs)
    (hbrace : bs.head? = some 123) : Nameless (as ++ bs) := by
  intro b hwithin
  by_cases hb123 : b = 123
  · exact .inr hb123
  obtain ⟨rest, rfl⟩ := List.head?_eq_some_iff.mp hbrace
  have hout : (123 : UInt8) ∉ (34 : UInt8) :: (latency ++ [34, b]) := by
    have hlatency : (123 : UInt8) ∉ latency := by decide
    simp only [List.mem_cons, List.mem_append, List.not_mem_nil, or_false]
    rintro (h | h | h | rfl)
    · exact absurd h (by decide)
    · exact hlatency h
    · exact absurd h (by decide)
    · exact hb123 rfl
  rcases (infix_across hout as rest).mp hwithin with hin | hin
  · exact ha b hin
  · exact hb b (List.infix_cons hin)

theorem heartbeatData_brace (r : Report) : (heartbeatData r).head? = some 123 := by
  rw [heartbeatData_eq]
  rfl

theorem heartbeats_cons (r : Report) (reports : List Report) :
    heartbeats (r :: reports) = heartbeatData r ++ heartbeats reports := List.flatMap_cons

theorem heartbeats_brace (r : Report) (reports : List Report) :
    (heartbeats (r :: reports)).head? = some 123 := by
  rw [heartbeats_cons, List.head?_append, heartbeatData_brace]
  rfl

theorem heartbeats_nameless {reports : List Report} (h : ∀ r ∈ reports, Plain r) :
    Nameless (heartbeats reports) := by
  induction reports with
  | nil =>
    intro b hb
    exact absurd (List.infix_nil.mp hb) (by simp)
  | cons r reports ih =>
    obtain ⟨hr, hreports⟩ := List.forall_mem_cons.mp h
    rw [heartbeats_cons]
    cases reports with
    | nil => exact (List.append_nil _).symm ▸ nameless_message hr
    | cons next reports => exact (nameless_message hr).append (ih hreports) (heartbeats_brace _ _)

/-! ### The server -/

theorem processJsonData_latency {c : Checks D} {json : JsonC D J} {jsonStr : List UInt8}
    {d : HeartbeatData D} (h : processJsonData c json jsonStr = some d) :
    ∃ parsed v, json.tokenerParse jsonStr = some parsed ∧
      json.objectGet parsed latency = some v := by
  obtain ⟨parsed, hparsed, h⟩ := Option.bind_eq_some_iff.mp h
  obtain ⟨_, _, h⟩ := Option.bind_eq_some_iff.mp h
  obtain ⟨_, _, h⟩ := Option.bind_eq_some_iff.mp h
  obtain ⟨_, _, h⟩ := Option.bind_eq_some_iff.mp h
  obtain ⟨_, _, h⟩ := Option.bind_eq_some_iff.mp h
  obtain ⟨_, _, h⟩ := Option.bind_eq_some_iff.mp h
  obtain ⟨_, _, h⟩ := Option.bind_eq_some_iff.mp h
  obtain ⟨v, hv, _⟩ := Option.bind_eq_some_iff.mp h
  exact ⟨parsed, v, hparsed, hv⟩

variable {c : Checks D} {json : JsonC D J}

theorem fromClient_invalid (hjson : NamesMembers json) {data : List UInt8} (h : FromClient data) :
    processJsonData c json data = none := by
  obtain ⟨reports, hplain, hfront⟩ := h
  by_contra hsome
  obtain ⟨d, hd⟩ := Option.ne_none_iff_exists'.mp hsome
  obtain ⟨parsed, v, hparsed, hv⟩ := processJsonData_latency hd
  have hbytes : ∀ b ∈ data, b = 34 ∨ isPlain b = true := by
    intro b hb
    obtain ⟨r, hr, hb⟩ := List.mem_flatMap.mp (hfront.subset hb)
    exact mem_heartbeatData (hplain r hr) hb
  have hout {b : UInt8} (hb : b ≠ 34) (hnot : isPlain b = false) : b ∉ data := by
    intro hin
    rcases hbytes b hin with heq | hplain
    · exact hb heq
    · rw [hnot] at hplain
      cases hplain
  obtain ⟨q, b, hq, hcomma, hbrace, hwithin⟩ :=
    hjson data latency parsed v (hout (by decide) rfl) hparsed hv
  rcases hq with rfl | rfl
  · rcases (heartbeats_nameless hplain).part hfront.isInfix b hwithin with h | h
    · exact hcomma h
    · exact hbrace h
  · exact hout (by decide) rfl (hwithin.subset List.mem_cons_self)

def invalidJson : List UInt8 := text "Invalid JSON data"

/-- A connection of a client is told that its data is invalid, or closed when it sent none. -/
theorem handleClient_fromClient (hjson : NamesMembers json) {data : List UInt8}
    (h : FromClient data) (alloc : Bool) (now : ℤ) (history : History D) :
    handleClient c json alloc now history data =
      ⟨if data = [] then [] else [invalidJson], none, history⟩ := by
  have hinvalid := @fromClient_invalid D J c json hjson data h
  obtain ⟨reports, hplain, hfront⟩ := h
  by_cases hempty : data = []
  · simp [handleClient, hempty]
  have hzero : (0 : UInt8) ∉ data := by
    intro hin
    obtain ⟨r, hr, hb⟩ := List.mem_flatMap.mp (hfront.subset hin)
    rcases mem_heartbeatData (hplain r hr) hb with heq | hplain
    · cases heq
    · cases hplain
  have hhead : data.head? = some 123 := by
    obtain ⟨b, rest, rfl⟩ := List.exists_cons_of_ne_nil hempty
    cases reports with
    | nil => exact absurd (List.prefix_nil.mp hfront) hempty
    | cons r reports =>
      obtain ⟨tail, htail⟩ := hfront
      have hbrace := heartbeats_brace r reports
      rw [← htail] at hbrace
      exact hbrace
  simp only [handleClient, cstr_eq_self hzero, hempty, if_false, hhead, if_true, hinvalid, answer]
  rfl

/-! ### All interleavings -/

/-- Two servers that differ at most in what they have sent, one of them nothing but refusals
more than the other. -/
structure Refuses {τ : Type} (s t : Server τ D) : Prop where
  system : s.system = t.system
  owed : s.owed = t.owed
  sent : s.sent.Sublist t.sent
  others : ∀ m, m ≠ invalidJson → s.sent.count m = t.sent.count m

variable {τ : Type} {s t t' : Server τ D}

theorem Refuses.send (h : Refuses s t) (system : System τ D) (owed : τ → List (List UInt8))
    (ms : List (List UInt8)) :
    Refuses ⟨system, owed, s.sent ++ ms⟩ (⟨system, owed, t.sent ++ ms⟩ : Server τ D) := by
  refine ⟨rfl, rfl, h.sent.append_right ms, fun m hm => ?_⟩
  rw [List.count_append, List.count_append, h.others m hm]

theorem Refuses.keep (h : Refuses s t) (system : System τ D) (owed : τ → List (List UInt8)) :
    Refuses ⟨system, owed, s.sent⟩ (⟨system, owed, t.sent⟩ : Server τ D) :=
  ⟨rfl, rfl, h.sent, h.others⟩

variable [DecidableEq τ]

/-- Every step that one of them can take, the other can take too. -/
theorem step_refuses (h : Refuses s t) (e : Event τ D) (hstep : step c json t e = some t') :
    ∃ s', step c json s e = some s' ∧ Refuses s' t' := by
  obtain ⟨system, owed, sent⟩ := s
  obtain ⟨_, _, sent'⟩ := t
  obtain rfl : system = _ := h.system
  obtain rfl : owed = _ := h.owed
  cases e with
  | request thread data node now junk =>
    simp only [step, receive] at hstep ⊢
    obtain ⟨nodes, hnodes, hstep⟩ := Option.bind_eq_some_iff.mp hstep
    rw [hnodes, Option.bind_eq_bind, Option.bind_some]
    generalize handleClient c json true now ⟨nodes, system.memory.heartbeatCount⟩ data = r
      at hstep ⊢
    cases hadded : r.added with
    | none =>
      simp only [hadded] at hstep ⊢
      split at hstep
      · rename_i hidle
        cases hstep
        exact ⟨_, if_pos hidle, h.send system owed r.sent⟩
      · cases hstep
    | some d =>
      simp only [hadded] at hstep ⊢
      obtain ⟨system', hsystem, hstep⟩ := Option.bind_eq_some_iff.mp hstep
      rw [hsystem, Option.bind_eq_bind, Option.bind_some]
      split at hstep
      · rename_i hnode
        cases hstep
        exact ⟨_, if_pos hnode, h.send system' owed r.sent⟩
      · rename_i hnode
        cases hstep
        exact ⟨_, if_neg hnode, h.keep system' _⟩
  | link thread =>
    obtain ⟨system', hsystem, hstep⟩ := Option.bind_eq_some_iff.mp hstep
    cases hstep
    exact ⟨_, Option.bind_eq_some_iff.mpr ⟨system', hsystem, rfl⟩,
      h.send system' owed (owed thread)⟩
  | clear thread =>
    obtain ⟨system', hsystem, hstep⟩ := Option.bind_eq_some_iff.mp hstep
    cases hstep
    exact ⟨_, Option.bind_eq_some_iff.mpr ⟨system', hsystem, rfl⟩, h.keep system' owed⟩

/-- What a server does with a connection of a client. -/
def FromClientEvent : Event τ D → Prop
  | .request _ data _ _ _ => FromClient data
  | _ => False

theorem client_refuses (hjson : NamesMembers json) (h : Refuses s t) {e : Event τ D}
    (he : FromClientEvent e) (hstep : step c json t e = some t') : Refuses s t' := by
  cases e with
  | request thread data node now junk =>
    simp only [step, receive] at hstep
    obtain ⟨nodes, _, hstep⟩ := Option.bind_eq_some_iff.mp hstep
    simp only [handleClient_fromClient hjson he] at hstep
    split at hstep
    · cases hstep
      have hsent : t.sent.Sublist (t.sent ++ if data = [] then [] else [invalidJson]) :=
        List.sublist_append_left _ _
      refine ⟨h.system, h.owed, h.sent.trans hsent, fun m hm => ?_⟩
      have hnone : (if data = [] then [] else [invalidJson]).count m = 0 := by
        apply List.count_eq_zero.mpr
        intro hin
        split at hin
        · exact absurd hin List.not_mem_nil
        · exact hm (List.mem_singleton.mp hin)
      rw [h.others m hm, List.count_append, hnone, Nat.add_zero]
    · cases hstep
  | link thread => exact he.elim
  | clear thread => exact he.elim

theorem run_refuses (hjson : NamesMembers json) {as : List (Bool × Event τ D)}
    (has : ∀ a ∈ as, a.1 = true → FromClientEvent a.2) (h : Refuses s t)
    (hrun : (as.map Prod.snd).foldlM (step c json) t = some t') :
    ∃ s', ((as.filter fun a => !a.1).map Prod.snd).foldlM (step c json) s = some s' ∧
      Refuses s' t' := by
  induction as generalizing s t with
  | nil =>
    cases hrun
    exact ⟨s, rfl, h⟩
  | cons a as ih =>
    obtain ⟨ha, has⟩ := List.forall_mem_cons.mp has
    rw [List.map_cons, List.foldlM_cons] at hrun
    obtain ⟨mid, hmid, hrun⟩ := Option.bind_eq_some_iff.mp hrun
    cases hclient : a.1 with
    | true =>
      rw [List.filter_cons_of_neg (by simp [hclient])]
      exact ih has (client_refuses hjson h (ha hclient) hmid) hrun
    | false =>
      obtain ⟨mid', hmid', hmids⟩ := step_refuses h a.2 hmid
      obtain ⟨s', hs', hrefuses⟩ := ih has hmids hrun
      refine ⟨s', ?_, hrefuses⟩
      rw [List.filter_cons_of_pos (by simp [hclient]), List.map_cons, List.foldlM_cons, hmid']
      exact hs'

/-- Whatever the other peers do and however the threads interleave, the heartbeats that clients
send leave no trace but refusals: without them the server has the same history, and sends the
same in the same order. -/
theorem heartbeats_leave_no_trace (hjson : NamesMembers json) (as : List (Bool × Event τ D))
    (has : ∀ a ∈ as, a.1 = true → FromClientEvent a.2)
    (h : (as.map Prod.snd).foldlM (step c json) idle = some t) :
    ∃ s, ((as.filter fun a => !a.1).map Prod.snd).foldlM (step c json) idle = some s ∧
      Refuses s t :=
  run_refuses hjson has ⟨rfl, rfl, List.Sublist.refl _, fun _ _ => rfl⟩ h

def oneReport : Report :=
  ⟨1700000000, text "node1", text "Linux", text "6.1.0", text "#1 SMP", text "x86_64",
    text "192.168.1.5", text "203.0.113.7", text "12.50", text "48.21", text "63.02"⟩

def oneReportMembers : List (List UInt8 × List UInt8) :=
  (oneReport.strings.map fun m => (text m.1, m.2)) ++
    [(text "cpu_usage", oneReport.cpuUsage), (text "memory_usage", oneReport.memoryUsage),
      (text "disk_usage", oneReport.diskUsage)]

/-- What json-c reads in that message; a value is given as its text, without a name. -/
def oneReportJson : JsonC ℤ (List (List UInt8 × List UInt8)) where
  tokenerParse := fun jsonStr =>
    if jsonStr = heartbeatData oneReport then some oneReportMembers else none
  objectGet := fun members key =>
    (members.find? fun m => decide (m.1 = key)).map fun m => [([], m.2)]
  getString := fun members => members.head?.map Prod.snd
  getDouble := fun _ => 0
  historyText := fun _ => some (text "[]")

theorem oneReport_plain : Plain oneReport := by
  show ∀ bs ∈ oneReport.texts, AllPlain bs
  decide

theorem oneReport_fromClient : FromClient (heartbeatData oneReport) := by
  refine ⟨[oneReport], fun r hr => ?_, ?_⟩
  · obtain rfl := List.mem_singleton.mp hr
    exact oneReport_plain
  · rw [heartbeats_cons]
    exact List.prefix_append _ _

theorem oneReport_names : NamesMembers oneReportJson := by
  intro jsonStr key parsed v _ hparse hget
  simp only [oneReportJson] at hparse hget
  split at hparse
  · rename_i hsame
    cases hparse
    obtain ⟨m, hm, _⟩ := Option.map_eq_some_iff.mp hget
    have hname : decide (m.1 = key) = true :=
      List.find?_some (p := fun m : List UInt8 × List UInt8 => decide (m.1 = key)) hm
    obtain rfl : m.1 = key := of_decide_eq_true hname
    have hall : ∀ m ∈ oneReportMembers,
        (strstr (34 :: (m.1 ++ [34, 58])) (heartbeatData oneReport)).isSome = true := by
      decide +kernel
    refine ⟨34, 58, .inl rfl, by decide, by decide, ?_⟩
    rw [hsame]
    exact strstr_isSome.mp (hall m (List.mem_of_find?_eq_some hm))
  · cases hparse

/-- A form of seven times the same address is stored while a client sends a heartbeat. -/
def twoPeers : List (Bool × Event Bool ℤ) :=
  [(false, .request true (request HeartbeatServer.sevenTimes) (some 4) 20 none),
    (true, .request false (heartbeatData oneReport) (some 5) 21 none), (false, .link true)]

theorem heartbeats_leave_no_trace_twoPeers :
    ∃ t s, (twoPeers.map Prod.snd).foldlM (step oneAddress oneReportJson) idle = some t ∧
      t.sent = [invalidJson, okResponse] ∧
      ((twoPeers.filter fun a => !a.1).map Prod.snd).foldlM (step oneAddress oneReportJson) idle =
        some s ∧ Refuses s t := by
  have hrun : ((twoPeers.map Prod.snd).foldlM (step oneAddress oneReportJson) idle).map
      Server.sent = some [invalidJson, okResponse] := by decide +kernel
  obtain ⟨t, ht, hsent⟩ := Option.map_eq_some_iff.mp hrun
  have hclient : ∀ a ∈ twoPeers, a.1 = true → FromClientEvent a.2 :=
    List.forall_mem_cons.mpr ⟨fun hfalse => (by cases hfalse), List.forall_mem_cons.mpr
      ⟨fun _ => oneReport_fromClient, List.forall_mem_cons.mpr
        ⟨fun hfalse => (by cases hfalse), fun a ha => absurd ha List.not_mem_nil⟩⟩⟩
  obtain ⟨s, hs, hrefuses⟩ := heartbeats_leave_no_trace oneReport_names twoPeers hclient ht
  exact ⟨t, s, ht, hsent, hs, hrefuses⟩

end CSimples.HeartbeatClient
