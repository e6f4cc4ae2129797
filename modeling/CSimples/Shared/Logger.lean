import CSimples.Lib.Decimal
import CSimples.Lib.Run
import CSimples.Lib.TextFile
import Mathlib.Logic.Function.Basic

/-!
# The logger (lib/src/logger.c)

Any number of threads call the logger, which is shared by all the programs. Its mutex
is a default one. `logger_close` logs a message before it lets the mutex go, so a
close of a logger that shows INFO messages waits for itself, and everybody for it.
-/

namespace CSimples.Logger
open CString Decimal Run TextFile

inductive Level where
  | debug
  | info
  | warning
  | error
  | fatal
  deriving DecidableEq

def Level.code : Level → ℕ
  | .debug => 0
  | .info => 1
  | .warning => 2
  | .error => 3
  | .fatal => 4

/-- `level_names` (logger.c:25-31). -/
def Level.name : Level → List UInt8
  | .debug => text "DEBUG"
  | .info => text "INFO"
  | .warning => text "WARNING"
  | .error => text "ERROR"
  | .fatal => text "FATAL"

/-- What a call passes besides the level; `time` is what `get_time_str` makes of the
clock and `message` what the format and its arguments give. -/
structure Site where
  time : List UInt8
  file : List UInt8
  line : ℕ
  func : List UInt8
  message : List UInt8

/-- `snprintf` into a buffer of `MAX_LOG_MSG_LEN` bytes. -/
def room : ℕ := 1023

/-- `full_message` (logger.c:164-174). -/
def fullMessage (level : Level) (site : Site) : List UInt8 :=
  (text "[" ++ site.time ++ text "] [" ++ level.name ++ text "] [" ++ site.file ++ text ":" ++
    decimal site.line ++ text "] [" ++ site.func ++ text "] " ++ site.message.take room ++
    text "\n").take room

/-- The statics; a log file is known by its name. -/
structure Statics where
  logFile : Option (List UInt8)
  appName : Option (List UInt8)
  level : Level
  initialized : Bool

/-- Where a thread is: behind a successful initialization, before the lock of
`logger_log`, or there with the mutex already held by `logger_close`. -/
inductive Pc where
  | outside
  | announcing
  | logging (record : List UInt8)
  | closing (record : List UInt8)

/-- A record on the console, and the log file at that moment. -/
structure Shown (τ : Type) where
  thread : τ
  logFile : Option (List UInt8)
  record : List UInt8

/-- `copies` counts the names that `strdup` gave and nobody freed, `handles` are the
files that are open, and `files` is what each file holds. `due` has the records of the calls
of a thread whose level was high enough, and `console` those that were shown, in order. -/
structure State (τ : Type) where
  logger : Statics
  mutex : Option τ
  pc : τ → Pc
  copies : ℕ
  handles : List (List UInt8)
  due : τ → List (List UInt8)
  console : List (Shown τ)
  files : List UInt8 → List UInt8

variable {τ : Type}

/-- `disk` is what the files hold when the program starts. -/
def start (τ : Type) (disk : List UInt8 → List UInt8) : State τ :=
  ⟨⟨none, none, .info, false⟩, none, fun _ => .outside, 0, [], fun _ => [], [], disk⟩

inductive Action (τ : Type) where
  | init (thread : τ) (appName : Option (List UInt8)) (copied : Bool)
      (logFile : Option (List UInt8)) (opened : Bool) (level : Level)
  | announce (thread : τ) (site : Site)
  | log (thread : τ) (level : Level) (site : Site)
  | write (thread : τ)
  | close (thread : τ) (site : Site)
  | setLevel (thread : τ) (level : Level)

def State.emit (s : State τ) (thread : τ) (record : List UInt8) : State τ :=
  { s with
    console := s.console ++ [⟨thread, s.logger.logFile, record⟩]
    files := match s.logger.logFile with
      | none => s.files
      | some name => Function.update s.files name (s.files name ++ record) }

/-- The end of `logger_close` (logger.c:107-121). -/
def State.shut (s : State τ) : State τ :=
  { s with
    logger := ⟨none, none, s.logger.level, false⟩
    handles := match s.logger.logFile with
      | none => s.handles
      | some name => s.handles.erase name
    copies := s.copies - s.logger.appName.toList.length
    mutex := none }

section Steps
variable [DecidableEq τ]

def State.jump (s : State τ) (thread : τ) (pc : Pc) : State τ :=
  { s with pc := Function.update s.pc thread pc }

/-- The thread has a record to write, where `pc` has it. -/
def State.write (s : State τ) (thread : τ) (record : List UInt8) (pc : Pc) : State τ :=
  { s.jump thread pc with due := Function.update s.due thread (s.due thread ++ [record]) }

/-- `logger_init` (logger.c:48-85) up to its message. `copied` says that `strdup`
succeeds, and `opened` that `fopen` does, which leaves in the file what it holds. -/
def loggerInit (s : State τ) (thread : τ) (appName : Option (List UInt8)) (copied : Bool)
    (logFile : Option (List UInt8)) (opened : Bool) (level : Level) : State τ :=
  if s.logger.initialized then s
  else if appName.isSome ∧ copied = false then s
  else
    let name := if copied then some (appName.getD (text "App")) else none
    match logFile with
    | some file =>
      if opened then
        { s.jump thread .announcing with
          logger := ⟨some file, name, level, true⟩
          copies := s.copies + name.toList.length
          handles := file :: s.handles }
      else s
    | none =>
      { s.jump thread .announcing with
        logger := ⟨s.logger.logFile, name, level, true⟩
        copies := s.copies + name.toList.length }

/-- `logger_log` up to its lock; the level is read without it. -/
def loggerLog (s : State τ) (thread : τ) (level : Level) (site : Site) : State τ :=
  if level.code < s.logger.level.code then s.jump thread .outside
  else s.write thread (fullMessage level site) (.logging (fullMessage level site))

/-- `logger_close` up to the lock of its message. -/
def loggerClose (s : State τ) (thread : τ) (site : Site) : State τ :=
  if s.logger.initialized = false then s
  else if Level.info.code < s.logger.level.code then s.shut
  else
    { s.write thread (fullMessage .info site) (.closing (fullMessage .info site)) with
      mutex := some thread }

/-- A step that locks the mutex waits until it is free. -/
def step (s : State τ) : Action τ → Option (State τ)
  | .init thread appName copied logFile opened level => match s.pc thread, s.mutex with
    | .outside, none => some (loggerInit s thread appName copied logFile opened level)
    | _, _ => none
  | .announce thread site => match s.pc thread with
    | .announcing => some (loggerLog s thread .info site)
    | _ => none
  | .log thread level site => match s.pc thread with
    | .outside => some (loggerLog s thread level site)
    | _ => none
  | .write thread => match s.pc thread, s.mutex with
    | .logging record, none => some ((s.emit thread record).jump thread .outside)
    | .closing record, none => some ((s.emit thread record).jump thread .outside).shut
    | _, _ => none
  | .close thread site => match s.pc thread, s.mutex with
    | .outside, none => some (loggerClose s thread site)
    | _, _ => none
  | .setLevel thread level => match s.pc thread, s.mutex with
    | .outside, none => some { s with logger := { s.logger with level := level } }
    | _, _ => none

/-- The steps that are enabled, one constructor for each way through the functions. -/
inductive Fires (s : State τ) : Action τ → State τ → Prop
  | init {thread appName copied logFile opened level} (hpc : s.pc thread = .outside)
      (hm : s.mutex = none) : Fires s (.init thread appName copied logFile opened level)
        (loggerInit s thread appName copied logFile opened level)
  | announce {thread site} (hpc : s.pc thread = .announcing) :
      Fires s (.announce thread site) (loggerLog s thread .info site)
  | log {thread level site} (hpc : s.pc thread = .outside) :
      Fires s (.log thread level site) (loggerLog s thread level site)
  | write {thread record} (hpc : s.pc thread = .logging record) (hm : s.mutex = none) :
      Fires s (.write thread) ((s.emit thread record).jump thread .outside)
  | finish {thread record} (hpc : s.pc thread = .closing record) (hm : s.mutex = none) :
      Fires s (.write thread) ((s.emit thread record).jump thread .outside).shut
  | close {thread site} (hpc : s.pc thread = .outside) (hm : s.mutex = none) :
      Fires s (.close thread site) (loggerClose s thread site)
  | setLevel {thread level} (hpc : s.pc thread = .outside) (hm : s.mutex = none) :
      Fires s (.setLevel thread level) { s with logger := { s.logger with level := level } }

theorem fires {s s' : State τ} {a : Action τ} (h : step s a = some s') : Fires s a s' := by
  cases a with
  | init thread appName copied logFile opened level =>
    simp only [step] at h
    split at h
    · rename_i hpc hm
      cases h
      exact .init hpc hm
    · cases h
  | announce thread site =>
    simp only [step] at h
    split at h
    · rename_i hpc
      cases h
      exact .announce hpc
    · cases h
  | log thread level site =>
    simp only [step] at h
    split at h
    · rename_i hpc
      cases h
      exact .log hpc
    · cases h
  | write thread =>
    simp only [step] at h
    split at h
    · rename_i record hpc hm
      cases h
      exact .write hpc hm
    · rename_i record hpc hm
      cases h
      exact .finish hpc hm
    · cases h
  | close thread site =>
    simp only [step] at h
    split at h
    · rename_i hpc hm
      cases h
      exact .close hpc hm
    · cases h
  | setLevel thread level =>
    simp only [step] at h
    split at h
    · rename_i hpc hm
      cases h
      exact .setLevel hpc hm
    · cases h

end Steps

/-! ### What one step keeps -/

/-- What the thread has yet to show. -/
def Pc.pending : Pc → List (List UInt8)
  | .outside | .announcing => []
  | .logging record | .closing record => [record]

def shownBy [DecidableEq τ] (thread : τ) (console : List (Shown τ)) : List (List UInt8) :=
  (console.filter fun r => decide (r.thread = thread)).map Shown.record

/-- The records that were shown while the file was the log file. -/
def loggedIn (file : List UInt8) (console : List (Shown τ)) : List (List UInt8) :=
  (console.filter fun r => decide (r.logFile = some file)).map Shown.record

theorem shownBy_append [DecidableEq τ] (thread : τ) (console : List (Shown τ)) (r : Shown τ) :
    shownBy thread (console ++ [r]) =
      shownBy thread console ++ if r.thread = thread then [r.record] else [] := by
  rw [shownBy, List.filter_append, List.filter_singleton, List.map_append]
  by_cases h : r.thread = thread <;> simp [shownBy, h]

theorem loggedIn_append (file : List UInt8) (console : List (Shown τ)) (r : Shown τ) :
    loggedIn file (console ++ [r]) =
      loggedIn file console ++ if r.logFile = some file then [r.record] else [] := by
  rw [loggedIn, List.filter_append, List.filter_singleton, List.map_append]
  by_cases h : r.logFile = some file <;> simp [loggedIn, h]

/-- Names and handles are those the statics know, the mutex is only ever left locked by a
close, and a file holds, behind what it held, what was shown while it was the log file. -/
structure Inv (disk : List UInt8 → List UInt8) (s : State τ) : Prop where
  copies : s.copies = s.logger.appName.toList.length
  handles : s.handles = s.logger.logFile.toList
  reset : s.logger.initialized = false → s.logger.logFile = none ∧ s.logger.appName = none
  closing : ∀ thread record, s.pc thread = .closing record → s.mutex = some thread
  written : ∀ file, s.files file = disk file ++ (loggedIn file s.console).flatten

theorem inv_start (τ : Type) (disk : List UInt8 → List UInt8) : Inv disk (start τ disk) :=
  ⟨rfl, rfl, fun _ => ⟨rfl, rfl⟩, nofun, fun _ => (List.append_nil _).symm⟩

variable {s s' : State τ} {thread : τ} {disk : List UInt8 → List UInt8}

theorem emit_files (s : State τ) (thread : τ) (record file : List UInt8) :
    (s.emit thread record).files file =
      s.files file ++ if s.logger.logFile = some file then record else [] := by
  unfold State.emit
  cases s.logger.logFile with
  | none => simp
  | some name =>
    by_cases h : name = file
    · simp [h]
    · simp [h, Function.update_of_ne (Ne.symm h)]

theorem Inv.emit (h : Inv disk s) (thread : τ) (record : List UInt8) :
    Inv disk (s.emit thread record) := by
  refine ⟨h.copies, h.handles, h.reset, h.closing, fun file => ?_⟩
  rw [emit_files, h.written file]
  show _ = _ ++ (loggedIn file (s.console ++ [_])).flatten
  rw [loggedIn_append, List.flatten_append, List.append_assoc]
  split <;> simp

theorem Inv.shut (h : Inv disk s) (hout : ∀ thread record, s.pc thread ≠ .closing record) :
    Inv disk s.shut := by
  refine ⟨?_, ?_, fun _ => ⟨rfl, rfl⟩, fun t r hr => absurd hr (hout t r), h.written⟩
  · show s.copies - s.logger.appName.toList.length = 0
    rw [h.copies, Nat.sub_self]
  · have hhandles := h.handles
    cases hfile : s.logger.logFile with
    | none =>
      rw [hfile] at hhandles
      simpa [State.shut, hfile] using hhandles
    | some name =>
      rw [hfile] at hhandles
      simp [State.shut, hfile, hhandles]

variable [DecidableEq τ]

theorem Inv.jump (h : Inv disk s) (thread : τ) (pc : Pc) (hpc : ∀ record, pc ≠ .closing record) :
    Inv disk (s.jump thread pc) := by
  refine ⟨h.copies, h.handles, h.reset, ?_, h.written⟩
  intro other record hother
  by_cases ho : other = thread
  · subst other
    exact absurd ((Function.update_self _ _ _).symm.trans hother) (hpc record)
  · exact h.closing other record ((Function.update_of_ne ho _ _).symm.trans hother)

omit [DecidableEq τ] in
theorem Inv.unlocked (h : Inv disk s) (hm : s.mutex = none) (thread : τ) (record : List UInt8) :
    s.pc thread ≠ .closing record := by
  intro hpc
  rw [h.closing thread record hpc] at hm
  cases hm

theorem Inv.loggerInit (h : Inv disk s) (thread : τ) (appName : Option (List UInt8)) (copied : Bool)
    (logFile : Option (List UInt8)) (opened : Bool) (level : Level) :
    Inv disk (loggerInit s thread appName copied logFile opened level) := by
  unfold Logger.loggerInit
  split
  · exact h
  · rename_i hinit
    obtain ⟨hfile, hname⟩ := h.reset (by simpa using hinit)
    have hcopies := h.copies
    have hhandles := h.handles
    rw [hname] at hcopies
    rw [hfile] at hhandles
    split
    · exact h
    · have hannounced := h.jump thread .announcing nofun
      dsimp only
      split
      · split
        · refine ⟨?_, ?_, nofun, hannounced.closing, h.written⟩
          · rw [hcopies]
            exact Nat.zero_add _
          · rw [hhandles]
            rfl
        · exact h
      · refine ⟨?_, h.handles, nofun, hannounced.closing, h.written⟩
        rw [hcopies]
        exact Nat.zero_add _

theorem Inv.loggerLog (h : Inv disk s) (thread : τ) (level : Level) (site : Site) :
    Inv disk (loggerLog s thread level site) := by
  unfold Logger.loggerLog
  split
  · exact h.jump thread .outside nofun
  · have hjump := h.jump thread (.logging (fullMessage level site)) nofun
    exact ⟨h.copies, h.handles, h.reset, hjump.closing, h.written⟩

theorem Inv.loggerClose (h : Inv disk s) (hm : s.mutex = none) (thread : τ) (site : Site) :
    Inv disk (loggerClose s thread site) := by
  unfold Logger.loggerClose
  split
  · exact h
  · split
    · exact h.shut (h.unlocked hm)
    · refine ⟨h.copies, h.handles, h.reset, ?_, h.written⟩
      intro other record hother
      by_cases ho : other = thread
      · rw [ho]
      · exact absurd ((Function.update_of_ne ho _ _).symm.trans hother)
          (h.unlocked hm other record)

theorem inv_step (h : Inv disk s) {a : Action τ} (hstep : step s a = some s') : Inv disk s' := by
  cases fires hstep with
  | init hpc hm => exact h.loggerInit _ _ _ _ _ _
  | announce hpc => exact h.loggerLog _ _ _
  | log hpc => exact h.loggerLog _ _ _
  | write hpc hm => exact (h.emit _ _).jump _ _ nofun
  | finish hpc hm => exact absurd hpc (h.unlocked hm _ _)
  | close hpc hm => exact h.loggerClose hm _ _
  | setLevel hpc hm => exact ⟨h.copies, h.handles, h.reset, h.closing, h.written⟩

/-! ### What is due is shown -/

/-- In the order of its calls, all that a thread has to show was shown, but for what it is about
to. -/
def AllShown (s : State τ) : Prop :=
  ∀ thread, s.due thread = shownBy thread s.console ++ (s.pc thread).pending

theorem AllShown.jump (h : AllShown s) (thread : τ) {pc : Pc}
    (hpc : pc.pending = (s.pc thread).pending) : AllShown (s.jump thread pc) := by
  intro other
  refine (h other).trans (congrArg (shownBy other s.console ++ ·) ?_)
  show _ = (Function.update s.pc thread pc other).pending
  by_cases ho : other = thread
  · rw [ho, Function.update_self, hpc]
  · rw [Function.update_of_ne ho]

theorem AllShown.write (h : AllShown s) (hidle : (s.pc thread).pending = []) {record : List UInt8}
    {pc : Pc} (hpc : pc.pending = [record]) : AllShown (s.write thread record pc) := by
  intro other
  by_cases ho : other = thread
  · subst other
    have hold := h thread
    rw [hidle, List.append_nil] at hold
    show Function.update s.due thread _ thread = _ ++ (Function.update s.pc thread pc thread).pending
    rw [Function.update_self, Function.update_self, hpc, hold]
    rfl
  · show Function.update s.due thread _ other = _ ++ (Function.update s.pc thread pc other).pending
    rw [Function.update_of_ne ho, Function.update_of_ne ho]
    exact h other

theorem AllShown.emit (h : AllShown s) {record : List UInt8}
    (hpc : (s.pc thread).pending = [record]) :
    AllShown ((s.emit thread record).jump thread .outside) := by
  intro other
  have hold := h other
  show s.due other = shownBy other (s.console ++ [_]) ++ (Function.update s.pc thread _ other).pending
  rw [shownBy_append]
  by_cases ho : other = thread
  · subst other
    rw [hpc] at hold
    rw [Function.update_self, if_pos rfl, hold]
    exact (List.append_nil _).symm
  · rw [Function.update_of_ne ho, if_neg (Ne.symm ho), List.append_nil]
    exact hold

theorem AllShown.loggerLog (h : AllShown s) (hidle : (s.pc thread).pending = []) (level : Level)
    (site : Site) : AllShown (loggerLog s thread level site) := by
  unfold Logger.loggerLog
  split
  · exact h.jump thread hidle.symm
  · exact h.write hidle rfl

theorem allShown_step (h : AllShown s) {a : Action τ} (hstep : step s a = some s') :
    AllShown s' := by
  cases fires hstep with
  | @init thread _ _ _ _ _ hpc hm =>
    have hannounced : AllShown (s.jump thread .announcing) := h.jump thread (by rw [hpc]; rfl)
    unfold loggerInit
    split
    · exact h
    · split
      · exact h
      · dsimp only
        split
        · split
          · exact hannounced
          · exact h
        · exact hannounced
  | announce hpc => exact h.loggerLog (by rw [hpc]; rfl) _ _
  | log hpc => exact h.loggerLog (by rw [hpc]; rfl) _ _
  | write hpc hm => exact h.emit (by rw [hpc]; rfl)
  | finish hpc hm => exact h.emit (by rw [hpc]; rfl)
  | close hpc hm =>
    unfold loggerClose
    split
    · exact h
    · split
      · exact h
      · exact h.write (by rw [hpc]; rfl) rfl
  | setLevel hpc hm => exact h

/-! ### Reading a log file back -/

/-- No part of the message has a newline of its own. -/
def OneLine (site : Site) : Prop :=
  (10 : UInt8) ∉ site.time ++ site.file ++ site.func ++ site.message

def Plain (_ : State τ) : Action τ → Prop
  | .announce _ site | .log _ _ site | .close _ site => OneLine site
  | _ => True

/-- A record ends with its newline, or with the last byte that the buffer has room for. -/
theorem fullMessage_isRead {site : Site} (h : OneLine site) (level : Level) :
    IsRead room (fullMessage level site) := by
  have htext : (10 : UInt8) ∉ text "[" ++ site.time ++ text "] [" ++ level.name ++ text "] [" ++
      site.file ++ text ":" ++ decimal site.line ++ text "] [" ++ site.func ++ text "] " ++
      site.message.take room := by
    have hname : (10 : UInt8) ∉ level.name := by cases level <;> decide
    have hline : (10 : UInt8) ∉ decimal site.line := fun hm =>
      absurd (decimal_isDigit hm) (by decide)
    have hmessage : (10 : UInt8) ∉ site.message.take room := fun hm =>
      h (List.mem_append_right _ (List.mem_of_mem_take hm))
    simp only [OneLine, List.mem_append, not_or] at h
    obtain ⟨⟨⟨htime, hfile⟩, hfunc⟩, _⟩ := h
    simp only [List.mem_append, not_or]
    exact ⟨⟨⟨⟨⟨⟨⟨⟨⟨⟨⟨by decide, htime⟩, by decide⟩, hname⟩, by decide⟩, hfile⟩, by decide⟩,
      hline⟩, by decide⟩, hfunc⟩, by decide⟩, hmessage⟩
  unfold fullMessage
  generalize hbody : text "[" ++ site.time ++ text "] [" ++ level.name ++ text "] [" ++
    site.file ++ text ":" ++ decimal site.line ++ text "] [" ++ site.func ++ text "] " ++
    site.message.take room = body at htext ⊢
  by_cases hfits : body.length < room
  · have hwhole : (body ++ text "\n").take room = body ++ [10] :=
      List.take_of_length_le (by rw [List.length_append]; exact hfits)
    rw [hwhole]
    refine ⟨by rwa [List.dropLast_concat], ?_⟩
    have hlen : (body ++ [(10 : UInt8)]).length = body.length + 1 := by simp
    rcases Nat.eq_or_lt_of_le hfits with hfull | hroom
    · exact .inl (hlen.trans hfull)
    · exact .inr ⟨by omega, List.getLast?_concat⟩
  · have hcut : (body ++ text "\n").take room = body.take room :=
      List.take_append_of_le_length (by omega)
    rw [hcut]
    refine ⟨fun hm => htext (List.mem_of_mem_take ((List.dropLast_sublist _).subset hm)), .inl ?_⟩
    rw [List.length_take]
    omega

/-- The records shown and those that threads are about to show. -/
structure Lines (s : State τ) : Prop where
  shown : ∀ r ∈ s.console, IsRead room r.record
  pending : ∀ thread, ∀ record ∈ (s.pc thread).pending, IsRead room record

theorem lines_start (τ : Type) (disk : List UInt8 → List UInt8) : Lines (start τ disk) :=
  ⟨fun _ hr => absurd hr List.not_mem_nil, fun _ _ hr => absurd hr List.not_mem_nil⟩

omit [DecidableEq τ] in
theorem Lines.emit (h : Lines s) {record : List UInt8} (hr : IsRead room record) (thread : τ) :
    Lines (s.emit thread record) := by
  refine ⟨fun r hshown => ?_, h.pending⟩
  rcases List.mem_append.mp hshown with hold | hnew
  · exact h.shown r hold
  · rw [List.mem_singleton.mp hnew]
    exact hr

theorem Lines.jump (h : Lines s) (thread : τ) {pc : Pc}
    (hpc : ∀ record ∈ pc.pending, IsRead room record) : Lines (s.jump thread pc) := by
  refine ⟨h.shown, fun other record hother => ?_⟩
  by_cases ho : other = thread
  · subst other
    have hself : (s.jump thread pc).pc thread = pc := Function.update_self _ _ _
    rw [hself] at hother
    exact hpc record hother
  · have hsame : (s.jump thread pc).pc other = s.pc other := Function.update_of_ne ho _ _
    rw [hsame] at hother
    exact h.pending other record hother

theorem Lines.written (h : Lines s) {record : List UInt8}
    (hr : record ∈ (s.pc thread).pending) :
    Lines ((s.emit thread record).jump thread .outside) :=
  (h.emit (h.pending thread record hr) thread).jump thread
    fun _ hnone => absurd hnone List.not_mem_nil

theorem Lines.write (h : Lines s) (thread : τ) {record : List UInt8} {pc : Pc}
    (hpc : pc.pending = [record]) (hr : IsRead room record) : Lines (s.write thread record pc) := by
  have hjump : Lines (s.jump thread pc) := h.jump thread fun r hm => by
    rw [hpc] at hm
    rwa [List.mem_singleton.mp hm]
  exact ⟨hjump.shown, hjump.pending⟩

theorem Lines.loggerLog (h : Lines s) (thread : τ) (level : Level) {site : Site}
    (hsite : OneLine site) : Lines (loggerLog s thread level site) := by
  unfold Logger.loggerLog
  split
  · exact h.jump thread fun _ hr => absurd hr List.not_mem_nil
  · exact h.write thread rfl (fullMessage_isRead hsite level)

theorem Lines.loggerInit (h : Lines s) (thread : τ) (appName : Option (List UInt8))
    (copied : Bool) (logFile : Option (List UInt8)) (opened : Bool) (level : Level) :
    Lines (loggerInit s thread appName copied logFile opened level) := by
  have hannounced : Lines (s.jump thread .announcing) :=
    h.jump thread fun _ hr => absurd hr List.not_mem_nil
  unfold Logger.loggerInit
  split
  · exact h
  · split
    · exact h
    · dsimp only
      split
      · split
        · exact ⟨h.shown, hannounced.pending⟩
        · exact h
      · exact ⟨h.shown, hannounced.pending⟩

theorem Lines.loggerClose (h : Lines s) (thread : τ) {site : Site} (hsite : OneLine site) :
    Lines (loggerClose s thread site) := by
  unfold Logger.loggerClose
  split
  · exact h
  · split
    · exact ⟨h.shown, h.pending⟩
    · have hwrite : Lines (s.write thread (fullMessage .info site)
          (.closing (fullMessage .info site))) :=
        h.write thread rfl (fullMessage_isRead hsite .info)
      exact ⟨hwrite.shown, hwrite.pending⟩

theorem lines_step (h : Lines s) {a : Action τ} (ha : Plain s a) (hstep : step s a = some s') :
    Lines s' := by
  cases fires hstep with
  | init hpc hm => exact h.loggerInit _ _ _ _ _ _
  | announce hpc => exact h.loggerLog _ _ ha
  | log hpc => exact h.loggerLog _ _ ha
  | write hpc hm => exact h.written (by rw [hpc]; exact List.mem_cons_self)
  | @finish thread record hpc hm =>
    have hwritten : Lines ((s.emit thread record).jump thread .outside) :=
      h.written (by rw [hpc]; exact List.mem_cons_self)
    exact ⟨hwritten.shown, hwritten.pending⟩
  | close hpc hm => exact h.loggerClose _ ha
  | setLevel hpc hm => exact ⟨h.shown, h.pending⟩

/-- Whatever the threads do, the console shows what each of them logs, in its order, and a file
holds, behind what was in it, what was shown while it was the log file. With a buffer of
`MAX_LOG_MSG_LEN` bytes `fgets` reads that back record by record, cut ones included, if the
messages have one line each and the file did not end within a piece of its own. -/
theorem log_reads_back (h : Reach step Plain (start τ disk) s) :
    (∀ thread, s.due thread = shownBy thread s.console ++ (s.pc thread).pending) ∧
      ∀ file, s.files file = disk file ++ (loggedIn file s.console).flatten ∧
        ((∀ piece ∈ reads room (disk file), IsRead room piece) →
          reads room (s.files file) = reads room (disk file) ++ loggedIn file s.console) := by
  have hall : AllShown s ∧ Inv disk s ∧ Lines s :=
    h.invariant (I := fun s => AllShown s ∧ Inv disk s ∧ Lines s)
      ⟨fun _ => rfl, inv_start τ disk, lines_start τ disk⟩ fun _ _ _ hi ha hstep =>
        ⟨allShown_step hi.1 hstep, inv_step hi.2.1 hstep, lines_step hi.2.2 ha hstep⟩
  obtain ⟨hshown, hinv, hlines⟩ := hall
  refine ⟨hshown, fun file => ⟨hinv.written file, fun hdisk => ?_⟩⟩
  rw [hinv.written file]
  refine reads_append_flatten (by decide) hdisk fun record hrecord => ?_
  obtain ⟨r, hr, rfl⟩ := List.mem_map.mp hrecord
  exact hlines.shown r (List.mem_of_mem_filter hr)

def upMessage : Site := ⟨text "2024-01-01 00:00:00", text "main.c", 7, text "main", text "up"⟩

theorem upMessage_oneLine : OneLine upMessage := by
  show (10 : UInt8) ∉ _
  decide

/-- Every file holds one line. -/
def oldLog : List UInt8 → List UInt8 := fun _ => text "old\n"

theorem log_reads_back_up :
    ∃ s : State ℕ, Reach step Plain (start ℕ oldLog) s ∧
      s.due 2 = [fullMessage .error upMessage] ∧ s.pc 2 = .outside ∧
      reads room (s.files (text "app.log")) = [text "old\n", fullMessage .info upMessage,
        fullMessage .error upMessage] := by
  have hstart : Reach (@step ℕ _) Plain (start ℕ oldLog) (start ℕ oldLog) := .start
  have hinit := hstart.next (Action.init 1 none true (some (text "app.log")) true .info) trivial rfl
  have hannounced := hinit.next (Action.announce 1 upMessage) upMessage_oneLine rfl
  have hfirst := hannounced.next (Action.write 1) trivial rfl
  have hlogged := hfirst.next (Action.log 2 .error upMessage) upMessage_oneLine rfl
  have hsecond := hlogged.next (Action.write 2) trivial rfl
  have hold : ∀ piece ∈ reads room (oldLog (text "app.log")), IsRead room piece := by
    intro piece hpiece
    obtain rfl := List.mem_singleton.mp hpiece
    exact ⟨by decide, .inr ⟨by decide, rfl⟩⟩
  exact ⟨_, hsecond, rfl, rfl, ((log_reads_back hsecond).2 (text "app.log")).2 hold⟩

/-! ### When a close returns -/

/-- A close has its message to log: the logger is initialized and shows INFO. -/
def Shows (s : State τ) : Prop :=
  s.logger.initialized = true ∧ s.logger.level.code ≤ Level.info.code

structure Blocked (thread : τ) (s s' : State τ) : Prop where
  mutex : s'.mutex = some thread
  closing : ∃ record, s'.pc thread = .closing record
  logger : s'.logger = s.logger
  console : s'.console = s.console
  files : s'.files = s.files

theorem Blocked.jump {u : State τ} (h : Blocked thread s u) {other : τ} (ho : thread ≠ other)
    (pc : Pc) : Blocked thread s (u.jump other pc) := by
  obtain ⟨record, hclosing⟩ := h.closing
  exact ⟨h.mutex, ⟨record, (Function.update_of_ne ho _ _).trans hclosing⟩, h.logger, h.console,
    h.files⟩

theorem loggerLog_statics (s : State τ) (thread : τ) (level : Level) (site : Site) :
    (loggerLog s thread level site).logger = s.logger := by
  unfold loggerLog
  split <;> rfl

theorem Blocked.loggerLog {u : State τ} (h : Blocked thread s u) {other : τ} (ho : thread ≠ other)
    (level : Level) (site : Site) : Blocked thread s (loggerLog u other level site) := by
  unfold Logger.loggerLog
  split
  · exact h.jump ho .outside
  · have hjump := h.jump ho (.logging (fullMessage level site))
    exact ⟨hjump.mutex, hjump.closing, hjump.logger, hjump.console, hjump.files⟩

/-- With the mutex taken for good, threads get as far as their next lock. -/
theorem blocked_step {u u' : State τ} (h : Blocked thread s u) {a : Action τ}
    (hstep : step u a = some u') : Blocked thread s u' := by
  obtain ⟨record, hclosing⟩ := h.closing
  have hlocked : u.mutex ≠ none := by
    rw [h.mutex]
    exact nofun
  have helse : ∀ other, (∀ r, u.pc other ≠ .closing r) → thread ≠ other := by
    rintro other hother rfl
    exact hother record hclosing
  cases fires hstep with
  | init hpc hm => exact absurd hm hlocked
  | announce hpc =>
    refine h.loggerLog (helse _ fun r hr => ?_) _ _
    rw [hpc] at hr
    cases hr
  | log hpc =>
    refine h.loggerLog (helse _ fun r hr => ?_) _ _
    rw [hpc] at hr
    cases hr
  | write hpc hm => exact absurd hm hlocked
  | finish hpc hm => exact absurd hm hlocked
  | close hpc hm => exact absurd hm hlocked
  | setLevel hpc hm => exact absurd hm hlocked

theorem blocked_close (hshows : Shows s) {site : Site}
    (hstep : step s (.close thread site) = some s') : Blocked thread s s' := by
  simp only [step] at hstep
  split at hstep
  · cases hstep
    have hinit : ¬ s.logger.initialized = false := by simp [hshows.1]
    unfold loggerClose
    rw [if_neg hinit, if_neg (Nat.not_lt.mpr hshows.2)]
    exact ⟨rfl, ⟨_, Function.update_self _ _ _⟩, rfl, rfl, rfl⟩
  · cases hstep

theorem closed_close (hquiet : ¬ Shows s) {site : Site}
    (hstep : step s (.close thread site) = some s') :
    s'.pc thread = .outside ∧ s'.mutex = none ∧ s'.logger.initialized = false := by
  simp only [step] at hstep
  split at hstep
  · rename_i hpc hmutex
    cases hstep
    unfold loggerClose
    split
    · rename_i hinit
      exact ⟨hpc, hmutex, hinit⟩
    · rename_i hinit
      have hlevel : Level.info.code < s.logger.level.code := by
        by_contra hle
        exact hquiet ⟨by simpa using hinit, Nat.not_lt.mp hle⟩
      rw [if_pos hlevel]
      exact ⟨hpc, rfl, rfl⟩
  · cases hstep

/-- A call of `logger_close` returns, with nothing left open or allocated, exactly when
the logger does not show INFO messages. Otherwise no step of any thread ever lets it
return, frees the mutex, or gets another record written. -/
theorem close_returns_iff (h : Reach step (fun _ _ => True) (start τ disk) s) {site : Site}
    (hclose : step s (.close thread site) = some s') :
    (¬ Shows s → s'.pc thread = .outside ∧ s'.mutex = none ∧ s'.handles = [] ∧ s'.copies = 0) ∧
      (Shows s → ∀ u, Reach step (fun _ _ => True) s' u → u.pc thread ≠ .outside ∧
        u.mutex = some thread ∧ u.console = s.console ∧ u.files = s.files) := by
  have hinv : Inv disk s :=
    h.invariant (inv_start τ disk) fun _ _ _ hi _ hstep => inv_step hi hstep
  constructor
  · intro hquiet
    obtain ⟨hpc, hmutex, hreset⟩ := closed_close hquiet hclose
    have hinv' := inv_step hinv hclose
    obtain ⟨hfile, hname⟩ := hinv'.reset hreset
    refine ⟨hpc, hmutex, ?_, ?_⟩
    · rw [hinv'.handles, hfile]
      rfl
    · rw [hinv'.copies, hname]
      rfl
  · intro hshows u hu
    have hblocked := hu.invariant (blocked_close hshows hclose)
      fun _ _ _ hb _ hstep => blocked_step hb hstep
    obtain ⟨record, hclosing⟩ := hblocked.closing
    refine ⟨?_, hblocked.mutex, hblocked.console, hblocked.files⟩
    rw [hclosing]
    exact nofun

theorem close_returns_closed :
    ∃ s s' : State ℕ, Reach step (fun _ _ => True) (start ℕ fun _ => []) s ∧
      step s (.close 1 ⟨[], [], 0, [], []⟩) = some s' ∧ s'.handles = [] ∧ s'.copies = 0 := by
  have hstart : Reach (@step ℕ _) (fun _ _ => True) (start ℕ fun _ => []) (start ℕ fun _ => []) := .start
  have hinit := hstart.next (Action.init 1 (some [65]) true (some [97]) true .error) trivial rfl
  have hquiet := hinit.next (Action.announce 1 ⟨[], [], 0, [], []⟩) trivial rfl
  have hreturns := @close_returns_iff ℕ _ _ 1 _ _ hquiet ⟨[], [], 0, [], []⟩ rfl
  exact ⟨_, _, hquiet, rfl, (hreturns.1 fun h => absurd h.2 (by decide)).2.2⟩

/-- `central_server` and `worker_server` initialize at INFO and keep the level. -/
def ServerUse (_ : State τ) : Action τ → Prop
  | .init _ _ _ _ _ level => level = .info
  | .setLevel _ _ => False
  | _ => True

theorem level_step {a : Action τ} (ha : ServerUse s a) (hlevel : s.logger.level = .info)
    (hstep : step s a = some s') : s'.logger.level = .info := by
  cases fires hstep with
  | init hpc hm =>
    unfold loggerInit
    split
    · exact hlevel
    · split
      · exact hlevel
      · dsimp only
        split
        · split
          · exact ha
          · exact hlevel
        · exact ha
  | announce hpc => rwa [loggerLog_statics]
  | log hpc => rwa [loggerLog_statics]
  | write hpc hm => exact hlevel
  | finish hpc hm => exact hlevel
  | close hpc hm =>
    unfold loggerClose
    split
    · exact hlevel
    · split <;> exact hlevel
  | setLevel hpc hm => exact ha.elim

/-- So the last statement of `cleanup_server` and of `main` in worker_server.c, a close of
a logger that was initialized, never returns. -/
theorem server_close_blocks (h : Reach step ServerUse (start τ disk) s)
    (hinit : s.logger.initialized = true) {site : Site}
    (hclose : step s (.close thread site) = some s') {u : State τ}
    (hu : Reach step (fun _ _ => True) s' u) : u.pc thread ≠ .outside := by
  have hlevel : s.logger.level = .info :=
    h.invariant (I := fun s => s.logger.level = .info) rfl
      fun _ _ _ hl ha hstep => level_step ha hl hstep
  have hshows : Shows s := ⟨hinit, by rw [hlevel]⟩
  have hblocked := hu.invariant (blocked_close hshows hclose)
    fun _ _ _ hb _ hstep => blocked_step hb hstep
  obtain ⟨record, hclosing⟩ := hblocked.closing
  rw [hclosing]
  exact nofun

end CSimples.Logger
