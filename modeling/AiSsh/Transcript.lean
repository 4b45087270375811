import AiSsh.OutputReads

/-!
The transcript of the desktop's observer. Pages of session events are written to a
read-only terminal: a header when the output of another command begins, the payload, and
an exit label when the transcript is done with a command. The terminal is kept as the list
of the writes to it, each with what it is about.
-/

namespace AiSsh

open Library

/-- A text as the page's scripting language has it. -/
abbrev Utf16 := List UInt16

namespace Utf16

def ofChar (c : Char) : Utf16 :=
  if c.toNat < 0x10000 then [UInt16.ofNat c.toNat]
  else [UInt16.ofNat (0xd800 + (c.toNat - 0x10000) / 0x400),
    UInt16.ofNat (0xdc00 + (c.toNat - 0x10000) % 0x400)]

def ofText (text : String) : Utf16 := text.toList.flatMap ofChar

def isControl (u : UInt16) : Bool := u ≤ 0x1f || 0x7f ≤ u && u ≤ 0x9f

/-- The units that `\s` matches and `trim` removes. -/
def isSpace (u : UInt16) : Bool :=
  0x09 ≤ u && u ≤ 0x0d || u == 0x20 || u == 0xa0 || u == 0x1680 || 0x2000 ≤ u && u ≤ 0x200a ||
    u == 0x2028 || u == 0x2029 || u == 0x202f || u == 0x205f || u == 0x3000 || u == 0xfeff

/-- Every run of matching units becomes one space; `within` says that a run has begun. -/
def squeeze (matching : UInt16 → Bool) : Bool → Utf16 → Utf16
  | _, [] => []
  | within, u :: rest =>
      if matching u then
        if within then squeeze matching true rest else 0x20 :: squeeze matching true rest
      else u :: squeeze matching false rest

def trim (text : Utf16) : Utf16 :=
  ((text.dropWhile isSpace).reverse.dropWhile isSpace).reverse

end Utf16

def compactCommand (value : String) : Utf16 :=
  let clean := Utf16.squeeze Utf16.isSpace false
    (Utf16.squeeze Utf16.isControl false (Utf16.ofText value))
  let clean := Utf16.trim clean
  if clean.length ≤ 240 then clean else clean.take 237 ++ Utf16.ofText "..."

/-- A write to the terminal, with what it is about. -/
inductive TerminalWrite
  | lineBreak
  | header (id : String) (text : Utf16)
  | label (id : String) (text : Utf16)
  | payload (event : TerminalEvent) (bytes : Bytes)
  deriving DecidableEq, Repr

/-- A line feed gets a carriage return in front of it unless it has one. -/
def execPayloadWithTerminalEol : Bytes → Bool → Bytes
  | [], _ => []
  | byte :: rest, wasCr =>
      (if byte = 0x0a ∧ wasCr = false then [0x0d, byte] else [byte]) ++
        execPayloadWithTerminalEol rest (byte == 0x0d)

def endsWith (payload : Bytes) (byte : UInt8) : Bool := payload.getLast? == some byte

/-- The state the transcript keeps, and the terminal it writes to. -/
structure Transcript where
  commands : String → Option CommandInfo
  activeCommandId : Option String
  finishedCommandIds : List String
  previousExecByteWasCr : Bool
  atLineStart : Bool
  wroteOutput : Bool
  written : List TerminalWrite

/-- An id the page takes for one: the empty text counts as none. -/
def truthy (id : Option String) : Option String := id.filter fun id => id != ""

def exitLabel (command : CommandInfo) : String :=
  if command.status = .completed then s!"exit {command.exitCode.getD 0}"
  else
    match command.exitCode with
    | none => command.status.name.replace "_" " "
    | some code => s!"exit {code}"

namespace Transcript

def empty : Transcript where
  commands _ := none
  activeCommandId := none
  finishedCommandIds := []
  previousExecByteWasCr := false
  atLineStart := true
  wroteOutput := false
  written := []

def write (t : Transcript) (w : TerminalWrite) : Transcript :=
  { t with written := t.written ++ [w] }

def breakLine (t : Transcript) : Transcript := if t.atLineStart then t else t.write .lineBreak

def finish (t : Transcript) (id : String) : Transcript :=
  { t with
    finishedCommandIds := id :: t.finishedCommandIds
    activeCommandId := none
    previousExecByteWasCr := false
    atLineStart := true
    wroteOutput := true }

/-- What the page knows of a command that is over. -/
def knownEnded (t : Transcript) (id : String) : Option CommandInfo :=
  (t.commands id).filter fun command => command.status != .running

def labelText (command : CommandInfo) : Utf16 :=
  Utf16.ofText ((if command.status = .completed then "\x1b[90m" else "\x1b[31m") ++
    "[" ++ exitLabel command ++ "]\x1b[0m\r\n")

def finishTranscriptCommand (t : Transcript) (force : Bool) : Transcript :=
  match truthy t.activeCommandId with
  | none => t
  | some id =>
      if id ∈ t.finishedCommandIds then t
      else
        match t.knownEnded id with
        | none => if force then t.breakLine.finish id else t
        | some command => (t.breakLine.write (.label id (labelText command))).finish id

def headerText (t : Transcript) (command : CommandInfo) : Utf16 :=
  Utf16.ofText (if t.wroteOutput then if t.atLineStart then "\r\n" else "\r\n\r\n" else "") ++
    Utf16.ofText "\x1b[1;32m$\x1b[0m " ++ compactCommand command.command ++ Utf16.ofText "\r\n"

/-- What `begin` and the events of no command do with the active command. -/
def leaveActive (t : Transcript) : Transcript :=
  if (truthy t.activeCommandId).isSome then t.finishTranscriptCommand true else t

def beginTranscriptCommand (t : Transcript) (command : CommandInfo) : Transcript :=
  if t.activeCommandId = some command.id ∨ command.id ∈ t.finishedCommandIds then t
  else
    let t := t.leaveActive
    { t.write (.header command.id (t.headerText command)) with
      activeCommandId := some command.id
      previousExecByteWasCr := false
      atLineStart := true
      wroteOutput := true }

def learn (t : Transcript) (command : CommandInfo) : Transcript :=
  { t with commands := Function.update t.commands command.id (some command) }

/-- The body of the loop over the events. -/
def appendEvent (t : Transcript) (event : TerminalEvent) : Transcript :=
  match truthy event.commandId with
  | some id =>
      let t := match t.commands id with
        | some command => t.beginTranscriptCommand command
        | none => t
      let bytes := execPayloadWithTerminalEol event.payload t.previousExecByteWasCr
      { t.write (.payload event bytes) with
        previousExecByteWasCr :=
          if event.payload = [] then t.previousExecByteWasCr else endsWith event.payload 0x0d
        atLineStart := endsWith event.payload 0x0a
        wroteOutput := true }
  | none =>
      let t := t.leaveActive
      { t.write (.payload event event.payload) with
        previousExecByteWasCr := false
        atLineStart := endsWith event.payload 0x0a
        wroteOutput := true }

section Append

variable (rfc3339 : DateTime → String)

/-- The `reduce` over the commands of a page without events. -/
def latestStarted : List CommandInfo → Option CommandInfo
  | [] => none
  | command :: rest => some (rest.foldl
      (fun left right => if rfc3339 right.startedAt < rfc3339 left.startedAt then left else right)
      command)

/-- What follows the events: a page without any begins the latest command, and the last page
of a read finishes the active one. -/
def settle (t : Transcript) (commands : List CommandInfo) (noEvents hasMore : Bool) :
    Transcript :=
  let t := if noEvents then ((latestStarted rfc3339 commands).map t.beginTranscriptCommand).getD t
    else t
  if hasMore then t else t.finishTranscriptCommand false

def appendTranscript (t : Transcript) (commands : List CommandInfo)
    (events : List TerminalEvent) (hasMore : Bool) : Transcript :=
  (events.foldl appendEvent (commands.foldl learn t)).settle rfc3339 commands events.isEmpty
    hasMore

end Append

end Transcript

/-! What the transcript shows of the events. -/

def TerminalWrite.event : TerminalWrite → Option TerminalEvent
  | .payload event _ => some event
  | _ => none

namespace Transcript

/-- The events whose payload has been written, in order. -/
def shown (t : Transcript) : List TerminalEvent := t.written.filterMap TerminalWrite.event

variable {t : Transcript}

@[simp] theorem shown_write (w : TerminalWrite) :
    (t.write w).shown = t.shown ++ w.event.toList := by
  cases w <;> simp [shown, write, TerminalWrite.event]

@[simp] theorem shown_breakLine : t.breakLine.shown = t.shown := by
  rw [breakLine]
  split <;> simp [TerminalWrite.event]

@[simp] theorem shown_finish (id : String) : (t.finish id).shown = t.shown := rfl

@[simp] theorem shown_finishTranscriptCommand (force : Bool) :
    (t.finishTranscriptCommand force).shown = t.shown := by
  rw [finishTranscriptCommand]
  split
  · rfl
  · split
    · rfl
    · split
      · split <;> simp
      · simp [TerminalWrite.event]

@[simp] theorem shown_leaveActive : t.leaveActive.shown = t.shown := by
  rw [leaveActive]
  split <;> simp

@[simp] theorem shown_beginTranscriptCommand (command : CommandInfo) :
    (t.beginTranscriptCommand command).shown = t.shown := by
  rw [beginTranscriptCommand]
  split
  · rfl
  · exact (shown_write _).trans (by simp [TerminalWrite.event])

@[simp] theorem shown_appendEvent (event : TerminalEvent) :
    (t.appendEvent event).shown = t.shown ++ [event] := by
  rw [appendEvent]
  split
  · refine (shown_write _).trans ?_
    split <;> simp [TerminalWrite.event]
  · exact (shown_write _).trans (by simp [TerminalWrite.event])

theorem shown_appendEvents (events : List TerminalEvent) :
    (events.foldl appendEvent t).shown = t.shown ++ events := by
  induction events generalizing t with
  | nil => simp
  | cons event events ih => simp [ih]

theorem shown_learn (commands : List CommandInfo) :
    (commands.foldl learn t).shown = t.shown := by
  induction commands generalizing t with
  | nil => rfl
  | cons command commands ih => exact ih

theorem shown_settle (rfc3339 : DateTime → String) (commands : List CommandInfo)
    (noEvents hasMore : Bool) :
    (t.settle rfc3339 commands noEvents hasMore).shown = t.shown := by
  have hbegun : (if noEvents then
      ((latestStarted rfc3339 commands).map t.beginTranscriptCommand).getD t else t).shown =
      t.shown := by
    split
    · cases latestStarted rfc3339 commands <;> simp
    · rfl
  rw [settle]
  cases hasMore with
  | true => exact hbegun
  | false => exact (shown_finishTranscriptCommand false).trans hbegun

/-- A page is written event by event, and nothing else is taken for an event. -/
theorem shown_appendTranscript (rfc3339 : DateTime → String) (commands : List CommandInfo)
    (events : List TerminalEvent) (hasMore : Bool) :
    (t.appendTranscript rfc3339 commands events hasMore).shown = t.shown ++ events := by
  rw [appendTranscript, shown_settle, shown_appendEvents, shown_learn]

end Transcript
end AiSsh
