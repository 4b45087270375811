import AiSsh.DatabasePages
import AiSsh.PublicData
import AiSsh.RecordingLimit
import AiSsh.TimeParse

/-!
The tables as SQLite holds them. Statuses, streams and times are texts there: the statements
write, compare and order the texts, and a row that is read turns them back into values. A time
that is no RFC 3339 text ends the reader. An integer is below 2^63: a greater one cannot be bound,
and a sum that grows greater is no integer any more.
-/

namespace AiSsh

open Library Library.Json

section Names

/-- `trim_matches('"')`. -/
def trimQuotes (chars : List Char) : List Char :=
  ((chars.dropWhile (· == '"')).reverse.dropWhile (· == '"')).reverse

/-- `enum_text` of a value that serializes as its name. -/
def enumText (name : String) : String := .ofList (trimQuotes (quoted name).toList)

/-- `parse_enum`. The text is read as what stands in a JSON string. -/
def parseEnum {α : Type} (name : α → String) (values : List α) (fallback : α) (text : String) : α :=
  match readString (text.toList ++ ['"']) with
  | some (chars, []) => (values.find? fun value => name value == .ofList chars).getD fallback
  | _ => fallback

def SessionStatus.all : List SessionStatus :=
  [.connecting, .ready, .execRunning, .ptyOpen, .idle, .disconnected, .interrupted, .closed,
    .failed]

def CommandStatus.all : List CommandStatus :=
  [.running, .completed, .failed, .timedOut, .cancelled, .interrupted]

def StreamKind.all : List StreamKind := [.stdout, .stderr, .pty, .system]

def SessionStatus.text (status : SessionStatus) : String := enumText status.name

def CommandStatus.text (status : CommandStatus) : String := enumText status.name

def StreamKind.text (stream : StreamKind) : String := enumText stream.name

def parseSessionStatus : String → SessionStatus :=
  parseEnum SessionStatus.name SessionStatus.all .failed

def parseCommandStatus : String → CommandStatus :=
  parseEnum CommandStatus.name CommandStatus.all .failed

def parseStream : String → StreamKind := parseEnum StreamKind.name StreamKind.all .system

theorem parseSessionStatus_text (status : SessionStatus) :
    parseSessionStatus status.text = status := by
  cases status <;> decide

theorem parseCommandStatus_text (status : CommandStatus) :
    parseCommandStatus status.text = status := by
  cases status <;> decide

theorem parseStream_text (stream : StreamKind) : parseStream stream.text = stream := by
  cases stream <;> decide

/-- `status IN ('closed','failed','disconnected','interrupted')`. -/
def statusIsOver (text : String) : Bool :=
  ["closed", "failed", "disconnected", "interrupted"].contains text

theorem statusIsOver_text (status : SessionStatus) : statusIsOver status.text = status.isOver := by
  cases status <;> decide

theorem text_running (status : CommandStatus) :
    (status.text == "running") = (status == .running) := by
  cases status <;> decide

end Names

/-- A counter, or nothing where it has become a float. -/
abbrev SqlCounter := Option Nat

/-- `recorded_bytes+?2`. -/
def SqlCounter.add (counter : SqlCounter) (bytes : Nat) : SqlCounter :=
  counter.bind fun n => if n + bytes < 2 ^ 63 then some (n + bytes) else none

/-- A row of `sessions`. -/
structure SessionRecord where
  id : String
  targetId : String
  targetName : String
  purpose : String
  clientName : String
  status : String
  currentCommand : Option String
  hostFingerprint : Option String
  createdAt : String
  updatedAt : String
  closedAt : Option String
  lastExitCode : Option UInt32
  recordedBytes : SqlCounter
  recordingTruncated : Bool
  deriving DecidableEq, Repr

/-- A row of `commands`. -/
structure CommandRecord where
  id : String
  sessionId : String
  command : String
  status : String
  exitCode : Option UInt32
  startedAt : String
  finishedAt : Option String
  lastSequence : Nat
  recordingTruncated : Bool
  recordedBytes : SqlCounter
  deriving DecidableEq, Repr

/-- A row of `events`. -/
structure EventRecord where
  sessionId : String
  commandId : Option String
  sequence : Nat
  timestamp : String
  stream : String
  payload : Bytes
  deriving DecidableEq, Repr

structure Tables where
  sessions : List SessionRecord
  commands : List CommandRecord
  events : List EventRecord
  deriving DecidableEq, Repr

section Rows

/-- The row that an insertion makes. -/
def SessionInfo.record (session : SessionInfo) (recordedBytes : Nat) : SessionRecord where
  id := session.id
  targetId := session.targetId
  targetName := session.targetName
  purpose := session.purpose
  clientName := session.clientName
  status := session.status.text
  currentCommand := session.currentCommand
  hostFingerprint := session.hostFingerprint
  createdAt := toRfc3339 session.createdAt
  updatedAt := toRfc3339 session.updatedAt
  closedAt := session.closedAt.map toRfc3339
  lastExitCode := session.lastExitCode
  recordedBytes := some recordedBytes
  recordingTruncated := session.recordingTruncated

def CommandInfo.record (command : CommandInfo) : CommandRecord where
  id := command.id
  sessionId := command.sessionId
  command := command.command
  status := command.status.text
  exitCode := command.exitCode
  startedAt := toRfc3339 command.startedAt
  finishedAt := command.finishedAt.map toRfc3339
  lastSequence := command.lastSequence
  recordingTruncated := command.recordingTruncated
  recordedBytes := some command.outputBytes

def TerminalEvent.record (event : TerminalEvent) : EventRecord where
  sessionId := event.sessionId
  commandId := event.commandId
  sequence := event.sequence
  timestamp := toRfc3339 event.timestamp
  stream := event.stream.text
  payload := event.payload

/-- A time that may be missing. -/
def parseTimeOption : Option String → Option (Option DateTime)
  | none => some none
  | some text => (parseTime text).map some

/-- `session_from_row`. -/
def sessionFromRow (row : SessionRecord) : Option SessionInfo := do
  let createdAt ← parseTime row.createdAt
  let updatedAt ← parseTime row.updatedAt
  let closedAt ← parseTimeOption row.closedAt
  return {
    id := row.id
    targetId := row.targetId
    targetName := row.targetName
    purpose := row.purpose
    clientName := row.clientName
    status := parseSessionStatus row.status
    currentCommand := row.currentCommand
    lastExitCode := row.lastExitCode
    recordingTruncated := row.recordingTruncated
    hostFingerprint := row.hostFingerprint
    createdAt, updatedAt, closedAt }

/-- `command_from_row`. -/
def commandFromRow (row : CommandRecord) : Option CommandInfo := do
  let startedAt ← parseTime row.startedAt
  let finishedAt ← parseTimeOption row.finishedAt
  let outputBytes ← row.recordedBytes
  return {
    id := row.id
    sessionId := row.sessionId
    command := row.command
    status := parseCommandStatus row.status
    exitCode := row.exitCode
    startedAt, finishedAt
    lastSequence := row.lastSequence
    recordingTruncated := row.recordingTruncated
    outputBytes }

/-- The closure that `events` maps over its rows. -/
def eventFromRow (row : EventRecord) : Option TerminalEvent := do
  let timestamp ← parseTime row.timestamp
  return {
    sessionId := row.sessionId
    commandId := row.commandId
    sequence := row.sequence
    timestamp
    stream := parseStream row.stream
    payload := row.payload
    persisted := true }

/-- The times of a session can be written. -/
structure SessionInfo.InYears (session : SessionInfo) : Prop where
  createdAt : AiSsh.InYears session.createdAt
  updatedAt : AiSsh.InYears session.updatedAt
  closedAt : ∀ time ∈ session.closedAt, AiSsh.InYears time

structure CommandInfo.InYears (command : CommandInfo) : Prop where
  startedAt : AiSsh.InYears command.startedAt
  finishedAt : ∀ time ∈ command.finishedAt, AiSsh.InYears time

theorem parseTimeOption_map {time : Option DateTime} (h : ∀ t ∈ time, InYears t) :
    parseTimeOption (time.map toRfc3339) = some time := by
  cases time with
  | none => rfl
  | some t =>
      rw [Option.map_some, parseTimeOption, parseTime_toRfc3339 (h t rfl), Option.map_some]

theorem sessionFromRow_record {session : SessionInfo} (h : session.InYears)
    (recordedBytes : Nat) : sessionFromRow (session.record recordedBytes) = some session := by
  simp only [sessionFromRow, SessionInfo.record, parseTime_toRfc3339 h.createdAt,
    parseTime_toRfc3339 h.updatedAt, parseTimeOption_map h.closedAt, parseSessionStatus_text,
    Option.bind_eq_bind, Option.bind_some, Option.pure_def]

theorem commandFromRow_record {command : CommandInfo} (h : command.InYears) :
    commandFromRow command.record = some command := by
  simp only [commandFromRow, CommandInfo.record, parseTime_toRfc3339 h.startedAt,
    parseTimeOption_map h.finishedAt, parseCommandStatus_text, Option.bind_eq_bind,
    Option.bind_some, Option.pure_def]

theorem eventFromRow_record {event : TerminalEvent} (h : InYears event.timestamp)
    (hpersisted : event.persisted = true) : eventFromRow event.record = some event := by
  simp only [eventFromRow, TerminalEvent.record, parseTime_toRfc3339 h, parseStream_text,
    ← hpersisted, Option.bind_eq_bind, Option.bind_some, Option.pure_def]

end Rows

/-- The store with its tables as they are held. -/
structure TableStore where
  tables : Tables
  recordingLimitBytes : Nat

namespace SessionRecord

/-- `ON CONFLICT(id) DO UPDATE`. -/
def upsert (excluded row : SessionRecord) : SessionRecord :=
  { row with
    status := excluded.status
    currentCommand := excluded.currentCommand
    hostFingerprint := excluded.hostFingerprint
    updatedAt := excluded.updatedAt
    closedAt := excluded.closedAt
    lastExitCode := excluded.lastExitCode
    recordingTruncated := row.recordingTruncated || excluded.recordingTruncated }

def truncate (row : SessionRecord) : SessionRecord := { row with recordingTruncated := true }

def count (bytes : Nat) (row : SessionRecord) : SessionRecord :=
  { row with recordedBytes := row.recordedBytes.add bytes }

def interrupt (now : String) (row : SessionRecord) : SessionRecord :=
  { row with status := "interrupted", updatedAt := now, closedAt := some now }

/-- `created_at<?1 AND status IN (..)`. -/
def expired (before : String) (row : SessionRecord) : Bool :=
  decide (textBefore row.createdAt before) && statusIsOver row.status

end SessionRecord

namespace CommandRecord

def update (given row : CommandRecord) : CommandRecord :=
  { row with
    status := given.status
    exitCode := given.exitCode
    finishedAt := given.finishedAt
    lastSequence := given.lastSequence
    recordingTruncated := row.recordingTruncated || given.recordingTruncated }

def truncate (row : CommandRecord) : CommandRecord := { row with recordingTruncated := true }

def count (bytes sequence : Nat) (row : CommandRecord) : CommandRecord :=
  { row with recordedBytes := row.recordedBytes.add bytes, lastSequence := sequence }

end CommandRecord

namespace Tables

def session (t : Tables) (id : String) : Option SessionRecord :=
  t.sessions.find? fun row => row.id == id

def command (t : Tables) (id : String) : Option CommandRecord :=
  t.commands.find? fun row => row.id == id

def updateSession (t : Tables) (id : String) (set : SessionRecord → SessionRecord) : Tables :=
  { t with sessions := t.sessions.map fun row => if row.id = id then set row else row }

def updateCommand (t : Tables) (id : String) (set : CommandRecord → CommandRecord) : Tables :=
  { t with commands := t.commands.map fun row => if row.id = id then set row else row }

def insertEvent (t : Tables) (event : EventRecord) : Except StorageError Tables :=
  if (t.session event.sessionId).isNone ∨
      event.commandId.any (fun id => (t.command id).isNone) then
    .error (.database .foreignKeyViolation)
  else if t.events.any fun row =>
      row.sessionId == event.sessionId && row.sequence == event.sequence then
    .error (.database .uniqueViolation)
  else
    .ok { t with events := t.events ++ [event] }

def upsertSession (t : Tables) (session : SessionInfo) : Tables :=
  if (t.session session.id).isSome then
    t.updateSession session.id (SessionRecord.upsert (session.record 0))
  else { t with sessions := t.sessions ++ [session.record 0] }

/-- Its integers are bound before the statement runs. -/
def insertCommand (t : Tables) (command : CommandInfo) : Except StorageError Tables :=
  if ¬(command.lastSequence < 2 ^ 63 ∧ command.outputBytes < 2 ^ 63) then
    .error (.database .toSqlConversionFailure)
  else if (t.command command.id).isSome then .error (.database .uniqueViolation)
  else if (t.session command.sessionId).isNone then .error (.database .foreignKeyViolation)
  else .ok { t with commands := t.commands ++ [command.record] }

/-- The two updates where an event is not taken. -/
def rejectEvent (t : Tables) (event : TerminalEvent) : Tables :=
  let t := t.updateSession event.sessionId SessionRecord.truncate
  match event.commandId with
  | none => t
  | some id => t.updateCommand id CommandRecord.truncate

/-- The two updates where an event is taken. -/
def countEvent (t : Tables) (event : TerminalEvent) : Tables :=
  let t := match event.commandId with
    | none => t
    | some id => t.updateCommand id (CommandRecord.count event.payload.length event.sequence)
  t.updateSession event.sessionId (SessionRecord.count event.payload.length)

def appendEvent (t : Tables) (limit : Nat) (event : TerminalEvent) :
    Except StorageError Unit × Tables :=
  match (t.session event.sessionId).map SessionRecord.recordedBytes with
  | none => (.error (.database .queryReturnedNoRows), t)
  | some none => (.error (.database .invalidColumnType), t)
  | some (some recorded) =>
      if saturatingAdd recorded event.payload.length > limit then
        (.ok (), t.rejectEvent event)
      else if ¬event.sequence < 2 ^ 63 then
        (.error (.database .toSqlConversionFailure), t)
      else
        match t.insertEvent event.record with
        | .error error => (.error error, t)
        | .ok t => (.ok (), t.countEvent event)

/-- `status NOT IN (..)`. -/
def interruptUnfinished (t : Tables) (now : DateTime) : Tables :=
  { t with sessions := t.sessions.map fun row =>
      if statusIsOver row.status then row else row.interrupt (toRfc3339 now) }

def expires (t : Tables) (before id : String) : Bool :=
  t.sessions.any fun row => row.expired before && row.id == id

def expiresCommand (t : Tables) (before : String) (event : EventRecord) : Bool :=
  event.commandId.any fun id =>
    t.commands.any fun row => row.id == id && t.expires before row.sessionId

/-- `DELETE FROM sessions WHERE ..`, with the cascade over commands and events. -/
def deleteExpired (t : Tables) (before : String) : Tables where
  sessions := t.sessions.filter fun row => !row.expired before
  commands := t.commands.filter fun row => !t.expires before row.sessionId
  events := t.events.filter fun event =>
    !t.expires before event.sessionId && !t.expiresCommand before event

end Tables

/-- A call of the storage layer that writes. -/
inductive TableWrite
  | upsertSession (session : SessionInfo)
  | insertCommand (command : CommandInfo)
  | updateCommand (command : CommandInfo)
  | appendEvent (event : TerminalEvent)
  | interruptUnfinished (now : DateTime)
  | cleanup (retentionDays : Nat) (now : DateTime)

namespace TableStore

/-- `Storage::open` on a new file. -/
def openWith (recordingLimitMib : Nat) : TableStore :=
  ⟨⟨[], [], []⟩, recordingLimitMib * 1024 * 1024 % 2 ^ 64⟩

/-- What a call answers, and the store behind it. -/
def write (s : TableStore) : TableWrite → Except StorageError Unit × TableStore
  | .upsertSession session => (.ok (), { s with tables := s.tables.upsertSession session })
  | .insertCommand command =>
      match s.tables.insertCommand command with
      | .error error => (.error error, s)
      | .ok tables => (.ok (), { s with tables })
  | .updateCommand command =>
      if ¬command.lastSequence < 2 ^ 63 then (.error (.database .toSqlConversionFailure), s)
      else
        (.ok (), { s with
          tables := s.tables.updateCommand command.id (CommandRecord.update command.record) })
  | .appendEvent event =>
      let (result, tables) := s.tables.appendEvent s.recordingLimitBytes event
      (result, { s with tables })
  | .interruptUnfinished now =>
      (.ok (), { s with tables := s.tables.interruptUnfinished now })
  | .cleanup retentionDays now =>
      (.ok (), { s with
        tables := s.tables.deleteExpired (toRfc3339 (now - retentionDays * Storage.day)) })

end TableStore

/-- The same calls on the store of values. -/
def Storage.write (s : Storage) : TableWrite → Except StorageError Unit × Storage
  | .upsertSession session => (.ok (), s.upsertSession session)
  | .insertCommand command =>
      match s.insertCommand command with
      | .error error => (.error error, s)
      | .ok s => (.ok (), s)
  | .updateCommand command => (.ok (), s.updateCommand command)
  | .appendEvent event => ((s.appendEvent event).result, (s.appendEvent event).storage)
  | .interruptUnfinished now => (.ok (), s.interruptUnfinished now)
  | .cleanup retentionDays now => (.ok (), s.cleanup retentionDays now)

/-- One call after the other, with all their answers. -/
def writes {S : Type} (write : S → TableWrite → Except StorageError Unit × S) (s : S) :
    List TableWrite → List (Except StorageError Unit) × S
  | [] => ([], s)
  | call :: calls =>
      let (result, s) := write s call
      let (results, s) := writes write s calls
      (result :: results, s)

namespace TableWrite

/-- The times and the sequences of a call can be written. -/
def Writable : TableWrite → Prop
  | .upsertSession session => session.InYears
  | .insertCommand command | .updateCommand command =>
      command.InYears ∧ command.lastSequence < 2 ^ 63
  | .appendEvent event => InYears event.timestamp ∧ event.sequence < 2 ^ 63
  | .interruptUnfinished now => InYears now
  | .cleanup retentionDays now => InYears (now - retentionDays * Storage.day)

/-- The bytes that a call adds to the counters, at most. -/
def bytes : TableWrite → Nat
  | .insertCommand command => command.outputBytes
  | .appendEvent event => event.payload.length
  | _ => 0

end TableWrite

/-- What is stored can be read, and no counter is above this total. -/
structure Storage.Faithful (s : Storage) (total : Nat) : Prop where
  sessions : ∀ row ∈ s.db.sessions, row.info.InYears ∧ row.recordedBytes ≤ total
  commands : ∀ row ∈ s.db.commands, row.InYears ∧ row.outputBytes ≤ total
  events : ∀ event ∈ s.db.events, AiSsh.InYears event.timestamp ∧ event.persisted = true

def SessionRow.record (row : SessionRow) : SessionRecord := row.info.record row.recordedBytes

/-- The tables of a store of values. -/
def Database.tables (db : Database) : Tables where
  sessions := db.sessions.map SessionRow.record
  commands := db.commands.map CommandInfo.record
  events := db.events.map TerminalEvent.record

def Storage.tableStore (s : Storage) : TableStore := ⟨s.db.tables, s.recordingLimitBytes⟩

namespace Database

variable (db : Database)

theorem tables_session (id : String) :
    db.tables.session id = (db.session id).map SessionRow.record := List.find?_map ..

theorem tables_command (id : String) :
    db.tables.command id = (db.command id).map CommandInfo.record := List.find?_map ..

theorem tables_updateSession (id : String) (set : SessionRow → SessionRow)
    (setText : SessionRecord → SessionRecord)
    (h : ∀ row ∈ db.sessions, (set row).record = setText row.record) :
    (db.updateSession id set).tables = db.tables.updateSession id setText := by
  simp only [tables, updateSession, Tables.updateSession, List.map_map, Tables.mk.injEq,
    and_true]
  refine List.map_congr_left fun row hrow => ?_
  have hid : row.record.id = row.info.id := rfl
  simp only [Function.comp_apply, hid, ← h row hrow]
  split <;> rfl

theorem tables_updateCommand (id : String) (set : CommandInfo → CommandInfo)
    (setText : CommandRecord → CommandRecord)
    (h : ∀ row ∈ db.commands, (set row).record = setText row.record) :
    (db.updateCommand id set).tables = db.tables.updateCommand id setText := by
  simp only [tables, updateCommand, Tables.updateCommand, List.map_map, Tables.mk.injEq,
    and_true, true_and]
  refine List.map_congr_left fun row hrow => ?_
  have hid : row.record.id = row.id := rfl
  simp only [Function.comp_apply, hid, ← h row hrow]
  split <;> rfl

theorem tables_insertEvent (event : TerminalEvent) :
    db.tables.insertEvent event.record = (db.insertEvent event).map tables := by
  have hcommands : (fun id => (db.tables.command id).isNone) = fun id => (db.command id).isNone :=
    funext fun id => by rw [tables_command, Option.isNone_map]
  have hevents : (db.tables.events.any fun row =>
      row.sessionId == event.record.sessionId && row.sequence == event.record.sequence) =
      db.events.any fun row =>
        row.sessionId == event.sessionId && row.sequence == event.sequence := List.any_map ..
  have hsession : event.record.sessionId = event.sessionId := rfl
  have hcommand : event.record.commandId = event.commandId := rfl
  rw [Tables.insertEvent, insertEvent, hevents, hsession, hcommand, hcommands, tables_session,
    Option.isNone_map]
  split
  · rfl
  split
  · rfl
  · simp [Except.map, tables, TerminalEvent.record]

end Database

namespace Storage

variable (s : Storage)

theorem tables_upsertSession (session : SessionInfo) :
    (s.upsertSession session).db.tables = s.db.tables.upsertSession session := by
  rw [upsertSession, Tables.upsertSession, Database.tables_session, Option.isSome_map]
  split
  · exact s.db.tables_updateSession _ _ _ fun row _ => rfl
  · simp [Database.tables, SessionRow.record]

theorem tables_insertCommand {command : CommandInfo}
    (h : command.lastSequence < 2 ^ 63 ∧ command.outputBytes < 2 ^ 63) :
    s.db.tables.insertCommand command =
      (s.insertCommand command).map fun s => s.db.tables := by
  rw [insertCommand, Tables.insertCommand, if_neg (not_not_intro h), Database.tables_command,
    Option.isSome_map, Database.tables_session, Option.isNone_map]
  split
  · rfl
  split
  · rfl
  · simp [Except.map, Database.tables]

theorem tables_rejectEvent (event : TerminalEvent) :
    (s.rejectEvent event).db.tables = s.db.tables.rejectEvent event := by
  have hsession := s.db.tables_updateSession event.sessionId SessionRow.truncate
    SessionRecord.truncate fun row _ => rfl
  rw [rejectEvent, Tables.rejectEvent, ← hsession]
  cases event.commandId with
  | none => rfl
  | some id => exact Database.tables_updateCommand _ _ _ _ fun row _ => rfl

theorem add_some {n bytes : Nat} (h : n + bytes < 2 ^ 63) :
    SqlCounter.add (some n) bytes = some (n + bytes) := if_pos h

theorem tables_countEvent (db : Database) (event : TerminalEvent)
    (hcommands : ∀ row ∈ db.commands, row.outputBytes + event.payload.length < 2 ^ 63)
    (hsessions : ∀ row ∈ db.sessions, row.recordedBytes + event.payload.length < 2 ^ 63) :
    (countEvent db event).tables = db.tables.countEvent event := by
  have hcommand : (countCommand db event).tables = match event.commandId with
      | none => db.tables
      | some id =>
          db.tables.updateCommand id (CommandRecord.count event.payload.length event.sequence) := by
    rw [countCommand]
    cases event.commandId with
    | none => rfl
    | some id =>
        refine db.tables_updateCommand _ _ _ fun row hrow => ?_
        have hbytes : row.record.recordedBytes.add event.payload.length =
            some (row.outputBytes + event.payload.length) := add_some (hcommands row hrow)
        rw [CommandRecord.count, hbytes]
        rfl
  rw [countEvent, Tables.countEvent, ← hcommand]
  refine Database.tables_updateSession _ _ _ _ fun row hrow => ?_
  rw [countCommand_sessions] at hrow
  have hbytes : row.record.recordedBytes.add event.payload.length =
      some (row.recordedBytes + event.payload.length) := add_some (hsessions row hrow)
  rw [SessionRecord.count, hbytes]
  rfl

theorem tables_appendEvent {total : Nat} (h : s.Faithful total) {event : TerminalEvent}
    (hsequence : event.sequence < 2 ^ 63) (htotal : total + event.payload.length < 2 ^ 63) :
    s.db.tables.appendEvent s.recordingLimitBytes event =
      ((s.appendEvent event).result, (s.appendEvent event).storage.db.tables) := by
  rw [appendEvent, Tables.appendEvent, Database.tables_session]
  cases s.db.session event.sessionId with
  | none => rfl
  | some row =>
      have hbytes : row.record.recordedBytes = some row.recordedBytes := rfl
      simp only [Option.map_some, hbytes]
      split
      · simp only [tables_rejectEvent]
      · rw [Database.tables_insertEvent]
        cases hinsert : s.db.insertEvent event with
        | error error => rfl
        | ok db =>
            obtain ⟨-, -, -, hdb⟩ := Database.insertEvent_ok hinsert
            have hcommands : ∀ row ∈ db.commands,
                row.outputBytes + event.payload.length < 2 ^ 63 := fun row hrow => by
              have hrow := (h.commands row (by rwa [hdb] at hrow)).2
              omega
            have hsessions : ∀ row ∈ db.sessions,
                row.recordedBytes + event.payload.length < 2 ^ 63 := fun row hrow => by
              have hrow := (h.sessions row (by rwa [hdb] at hrow)).2
              omega
            simp only [Except.map, tables_countEvent db event hcommands hsessions]

theorem tables_interruptUnfinished (now : DateTime) :
    (s.interruptUnfinished now).db.tables = s.db.tables.interruptUnfinished now := by
  simp only [interruptUnfinished, Database.tables, Tables.interruptUnfinished, List.map_map,
    Tables.mk.injEq, and_true]
  refine List.map_congr_left fun row _ => ?_
  have hover : statusIsOver row.record.status = row.info.status.isOver := statusIsOver_text _
  have htext : SessionStatus.interrupted.text = "interrupted" := by decide
  simp only [Function.comp_apply, hover]
  split
  · rfl
  · simp only [SessionRow.record, SessionRow.interrupt, SessionInfo.record,
      SessionRecord.interrupt, htext, Option.map_some]

/-- The rows that a text of a time finds too old. -/
theorem expired_record {before : DateTime} (hbefore : AiSsh.InYears before) {row : SessionRow}
    (h : AiSsh.InYears row.info.createdAt) :
    row.record.expired (toRfc3339 before) = row.expired before := by
  have hover : statusIsOver row.record.status = row.info.status.isOver := statusIsOver_text _
  have htime : row.record.createdAt = toRfc3339 row.info.createdAt := rfl
  rw [SessionRecord.expired, SessionRow.expired, hover, htime,
    decide_eq_decide.mpr (textBefore_iff h hbefore)]

theorem tables_deleteExpired {total : Nat} (h : s.Faithful total) {before : DateTime}
    (hbefore : AiSsh.InYears before) :
    (s.deleteExpired before).db.tables = s.db.tables.deleteExpired (toRfc3339 before) := by
  have hexpired : ∀ row ∈ s.db.sessions,
      row.record.expired (toRfc3339 before) = row.expired before := fun row hrow =>
    expired_record hbefore (h.sessions row hrow).1.createdAt
  have hexpires : s.db.tables.expires (toRfc3339 before) = s.expires before := by
    funext id
    rw [Tables.expires, expires, Database.tables, List.any_map, Bool.eq_iff_iff]
    simp only [List.any_eq_true]
    refine exists_congr fun row => and_congr_right fun hrow => ?_
    have hid : row.record.id = row.info.id := rfl
    rw [Function.comp_apply, hexpired row hrow, hid]
  have hcommand (event : TerminalEvent) :
      s.db.tables.expiresCommand (toRfc3339 before) event.record =
        s.expiresCommand before event := by
    have hany (id : String) : (s.db.tables.commands.any fun row =>
        row.id == id && s.db.tables.expires (toRfc3339 before) row.sessionId) =
        s.db.commands.any fun row => row.id == id && s.expires before row.sessionId := by
      rw [hexpires]
      exact List.any_map ..
    have hid : event.record.commandId = event.commandId := rfl
    rw [Tables.expiresCommand, expiresCommand, hid, funext hany]
  rw [deleteExpired, Tables.deleteExpired, hexpires]
  simp only [Database.tables, List.filter_map, Tables.mk.injEq]
  refine ⟨congrArg _ (List.filter_congr fun row hrow => ?_), rfl,
    congrArg _ (List.filter_congr fun event _ => ?_)⟩
  · rw [Function.comp_apply, hexpired row hrow]
  · rw [Function.comp_apply]
    exact congrArg _ (congrArg _ (hcommand event).symm)

/-- A call on the tables is the call on the values. -/
theorem write_tableStore {total : Nat} (h : s.Faithful total) {call : TableWrite}
    (hcall : call.Writable) (htotal : total + call.bytes < 2 ^ 63) :
    s.tableStore.write call = ((s.write call).1, (s.write call).2.tableStore) := by
  cases call with
  | upsertSession session =>
      simp only [TableStore.write, write, tableStore, tables_upsertSession,
        recordingLimitBytes_upsertSession]
  | insertCommand command =>
      have hbytes : total + command.outputBytes < 2 ^ 63 := htotal
      have hinsert := s.tables_insertCommand ⟨hcall.2, by omega⟩
      simp only [TableStore.write, write, tableStore]
      rw [hinsert]
      cases hresult : s.insertCommand command with
      | error error => rfl
      | ok next =>
          have hlimit := recordingLimitBytes_insertCommand hresult
          simp only [Except.map, hlimit]
  | updateCommand command =>
      have hupdate := s.db.tables_updateCommand command.id command.update
        (CommandRecord.update command.record) fun row _ => rfl
      simp only [TableStore.write, write, tableStore, updateCommand, hupdate,
        if_neg (not_not_intro hcall.2)]
  | appendEvent event =>
      simp only [TableStore.write, write, tableStore, tables_appendEvent s h hcall.2 htotal,
        recordingLimitBytes_appendEvent]
  | interruptUnfinished now =>
      simp only [TableStore.write, write, tableStore, tables_interruptUnfinished]
      rfl
  | cleanup retentionDays now =>
      simp only [TableStore.write, write, tableStore, cleanup, tables_deleteExpired s h hcall]
      rfl

section Faithful

variable {s} {total : Nat} (h : s.Faithful total)
include h

theorem Faithful.mono {total' : Nat} (hle : total ≤ total') : s.Faithful total' where
  sessions row hrow := ⟨(h.sessions row hrow).1, (h.sessions row hrow).2.trans hle⟩
  commands row hrow := ⟨(h.commands row hrow).1, (h.commands row hrow).2.trans hle⟩
  events := h.events

theorem Faithful.updateSession {total' : Nat} (hle : total ≤ total') (id : String)
    (set : SessionRow → SessionRow)
    (hset : ∀ row, row.info.InYears ∧ row.recordedBytes ≤ total →
      (set row).info.InYears ∧ (set row).recordedBytes ≤ total') :
    ({ s with db := s.db.updateSession id set } : Storage).Faithful total' where
  sessions row hrow := by
    obtain ⟨old, hold, rfl⟩ := List.mem_map.mp hrow
    split
    · exact hset old (h.sessions old hold)
    · exact (h.mono hle).sessions old hold
  commands := (h.mono hle).commands
  events := h.events

theorem Faithful.updateCommand {total' : Nat} (hle : total ≤ total') (id : String)
    (set : CommandInfo → CommandInfo)
    (hset : ∀ row, row.InYears ∧ row.outputBytes ≤ total →
      (set row).InYears ∧ (set row).outputBytes ≤ total') :
    ({ s with db := s.db.updateCommand id set } : Storage).Faithful total' where
  sessions := (h.mono hle).sessions
  commands row hrow := by
    obtain ⟨old, hold, rfl⟩ := List.mem_map.mp hrow
    split
    · exact hset old (h.commands old hold)
    · exact (h.mono hle).commands old hold
  events := h.events

theorem Faithful.rejectEvent (event : TerminalEvent) : (s.rejectEvent event).Faithful total := by
  have hsession := h.updateSession (Nat.le_refl total) event.sessionId SessionRow.truncate
    fun row hrow => ⟨⟨hrow.1.createdAt, hrow.1.updatedAt, hrow.1.closedAt⟩, hrow.2⟩
  rw [Storage.rejectEvent]
  cases event.commandId with
  | none => exact hsession
  | some id =>
      exact hsession.updateCommand (Nat.le_refl total) id _
        fun row hrow => ⟨⟨hrow.1.startedAt, hrow.1.finishedAt⟩, hrow.2⟩

theorem Faithful.insertEvent {event : TerminalEvent} {db : Database}
    (hevent : AiSsh.InYears event.timestamp) (hinsert : s.db.insertEvent event = .ok db) :
    ({ s with db := db } : Storage).Faithful total := by
  obtain ⟨-, -, -, rfl⟩ := Database.insertEvent_ok hinsert
  refine ⟨h.sessions, h.commands, fun other hother => ?_⟩
  cases List.mem_append.mp hother with
  | inl hold => exact h.events other hold
  | inr hnew =>
      rw [List.mem_singleton.mp hnew]
      exact ⟨hevent, rfl⟩

/-- The session's row is the only one of its table that the payload is added to. -/
theorem Faithful.countEvent (event : TerminalEvent) :
    ({ s with db := Storage.countEvent s.db event } : Storage).Faithful
      (total + event.payload.length) := by
  have hle := Nat.le_add_right total event.payload.length
  have hcommands : ∀ row ∈ (countCommand s.db event).commands,
      row.InYears ∧ row.outputBytes ≤ total + event.payload.length := by
    rw [countCommand]
    cases event.commandId with
    | none => exact (h.mono hle).commands
    | some id =>
        exact (h.updateCommand hle id (CommandInfo.count event.payload.length event.sequence)
          fun row hrow => ⟨⟨hrow.1.startedAt, hrow.1.finishedAt⟩,
            Nat.add_le_add_right hrow.2 _⟩).commands
  have hsession := h.updateSession hle event.sessionId (SessionRow.count event.payload.length)
    fun row hrow => ⟨⟨hrow.1.createdAt, hrow.1.updatedAt, hrow.1.closedAt⟩,
      Nat.add_le_add_right hrow.2 _⟩
  refine ⟨fun row hrow => hsession.sessions row ?_, hcommands,
    countEvent_events s.db event ▸ h.events⟩
  rw [Storage.countEvent, Database.updateSession, countCommand_sessions] at hrow
  exact hrow

/-- A call that can be written leaves what can be read. -/
theorem Faithful.write {call : TableWrite} (hcall : call.Writable) :
    (s.write call).2.Faithful (total + call.bytes) := by
  have hle : total ≤ total + call.bytes := Nat.le_add_right ..
  cases call with
  | upsertSession session =>
      have hsession : session.InYears := hcall
      simp only [Storage.write, Storage.upsertSession]
      split
      · exact h.updateSession hle session.id _ fun row hrow =>
          ⟨⟨hrow.1.createdAt, hsession.updatedAt, hsession.closedAt⟩, hrow.2⟩
      · refine ⟨fun row hrow => ?_, h.commands, h.events⟩
        cases List.mem_append.mp hrow with
        | inl hold => exact h.sessions row hold
        | inr hnew =>
            rw [List.mem_singleton.mp hnew]
            exact ⟨hsession, Nat.zero_le _⟩
  | insertCommand command =>
      have hcommand : command.InYears := hcall.1
      simp only [Storage.write]
      cases hinsert : s.insertCommand command with
      | error error => exact h.mono hle
      | ok next =>
          obtain ⟨-, -, rfl⟩ := insertCommand_ok hinsert
          refine ⟨(h.mono hle).sessions, fun row hrow => ?_, h.events⟩
          cases List.mem_append.mp hrow with
          | inl hold => exact (h.mono hle).commands row hold
          | inr hnew =>
              rw [List.mem_singleton.mp hnew]
              exact ⟨hcommand, Nat.le_add_left ..⟩
  | updateCommand command =>
      have hcommand : command.InYears := hcall.1
      exact h.updateCommand hle command.id _ fun row hrow =>
        ⟨⟨hrow.1.startedAt, hcommand.finishedAt⟩, hrow.2⟩
  | appendEvent event =>
      simp only [Storage.write, Storage.appendEvent]
      split
      · exact h.mono hle
      split
      · exact (h.rejectEvent event).mono hle
      split
      · exact h.mono hle
      · rename_i hinsert
        exact (h.insertEvent hcall.1 hinsert).countEvent event
  | interruptUnfinished now =>
      refine ⟨fun row hrow => ?_, h.commands, h.events⟩
      obtain ⟨old, hold, rfl⟩ := List.mem_map.mp hrow
      obtain ⟨hyears, hbytes⟩ := h.sessions old hold
      split
      · exact ⟨hyears, hbytes⟩
      · refine ⟨⟨hyears.createdAt, hcall, fun time htime => ?_⟩, hbytes⟩
        rw [← Option.some.inj htime]
        exact hcall
  | cleanup retentionDays now =>
      exact ⟨fun row hrow => h.sessions row (List.mem_of_mem_filter hrow),
        fun row hrow => h.commands row (List.mem_of_mem_filter hrow),
        fun event hevent => h.events event (List.mem_of_mem_filter hevent)⟩

end Faithful

end Storage

/-- The projection of a command for a listing. The fields of a live command are empty. -/
def summarize (now : DateTime) (command : CommandInfo) : CommandSummary where
  id := command.id
  sessionId := command.sessionId
  commandPreview := commandPreview command.command
  status := command.status
  exitCode := command.exitCode
  startedAt := command.startedAt
  finishedAt := command.finishedAt
  lastSequence := command.lastSequence
  outputBytes := command.outputBytes
  recordingTruncated := command.recordingTruncated
  runningForSeconds :=
    if command.status = .running then some ((now - command.startedAt).tdiv 1000000000).toNat
    else none
  secondsSinceLastOutput := none

/-- `ORDER BY .. DESC` of a column of texts. -/
def latestText {α : Type} (column : α → String) (rows : List α) : List α :=
  rows.mergeSort fun a b => !decide (textBefore (column a) (column b))

namespace TableStore

variable (s : TableStore)

/-- The readers. One that meets a time or a counter that it cannot read has no answer. -/
def session (id : String) : Option (Option SessionInfo) :=
  match s.tables.session id with
  | none => some none
  | some row => (sessionFromRow row).map some

def sessions : Option (List SessionInfo) :=
  (latestText SessionRecord.createdAt s.tables.sessions).mapM sessionFromRow

def command (id : String) : Option (Option CommandInfo) :=
  match s.tables.command id with
  | none => some none
  | some row => (commandFromRow row).map some

def latestCommandForSession (sessionId : String) : Option (Option CommandInfo) :=
  match (latestText CommandRecord.startedAt
      (s.tables.commands.filter fun row => row.sessionId == sessionId)).head? with
  | none => some none
  | some row => (commandFromRow row).map some

/-- `LIMIT` of `limit as i64`: a negative one is no limit. -/
def takeLimit {α : Type} (limit : Nat) (rows : List α) : List α :=
  if limit < 2 ^ 63 then rows.take limit else rows

def commands (sessionId : Option String) (includeFinished : Bool) (limit : Nat) (now : DateTime) :
    Option (List CommandSummary) :=
  (takeLimit limit (latestText CommandRecord.startedAt (s.tables.commands.filter fun row =>
    (sessionId.all fun id => row.sessionId == id) &&
      (includeFinished || row.status == "running")))).mapM
    fun row => (commandFromRow row).map (summarize now)

def selects (column : EventColumn) (id : String) (row : EventRecord) : Bool :=
  match column with
  | .commandId => row.commandId == some id
  | .sessionId => row.sessionId == id

/-- The loop of `events`, which reads a row before it looks at the budget. -/
def eventsLoop (maxBytes : Nat) (result : List TerminalEvent) (size : Nat) :
    List EventRecord → Option (List TerminalEvent × Bool)
  | [] => some (result, false)
  | row :: rows => do
      let event ← eventFromRow row
      if result.length = Storage.pageEvents ∨
          (¬ result.isEmpty ∧ size + event.payload.length > maxBytes) then
        return (result, true)
      else
        eventsLoop maxBytes (result ++ [event]) (size + event.payload.length) rows

/-- The cursor is bound before a row is read. -/
def events (column : EventColumn) (id : String) (after maxBytes : Nat) :
    Option (Except StorageError (List TerminalEvent × Bool)) :=
  if after < 2 ^ 63 then
    (eventsLoop maxBytes [] 0 ((sortByKey EventRecord.sequence (s.tables.events.filter fun row =>
      selects column id row && decide (after < row.sequence))).take
        (Storage.pageEvents + 1))).map .ok
  else some (.error (.database .toSqlConversionFailure))

end TableStore

/-- Every reader gives what was written. -/
structure RowsReadBack (t : TableStore) (s : Storage) : Prop where
  session : ∀ id, t.session id = some (s.session id)
  sessions : t.sessions = some s.sessions
  command : ∀ id, t.command id = some (s.command id)
  latest : ∀ sessionId, t.latestCommandForSession sessionId = some (s.latestCommandText sessionId)
  commands : ∀ sessionId includeFinished limit now, limit < 2 ^ 63 →
    t.commands sessionId includeFinished limit now =
      some ((s.commands sessionId includeFinished limit).map (summarize now))
  events : ∀ column id after maxBytes,
    t.events column id after maxBytes = some (s.queryEvents column id after maxBytes)

theorem mapM_map_some {α β γ : Type} {f : α → β} {g : β → Option γ} {k : α → γ} {l : List α}
    (h : ∀ a ∈ l, g (f a) = some (k a)) : (l.map f).mapM g = some (l.map k) := by
  induction l with
  | nil => rfl
  | cons a l ih =>
      rw [List.map_cons, List.mapM_cons, h a List.mem_cons_self,
        ih fun b hb => h b (List.mem_cons_of_mem _ hb)]
      rfl

theorem map_newestFirst {α β : Type} (time : β → DateTime) (f : α → β) (rows : List α) :
    (newestFirst (fun a => time (f a)) rows).map f = newestFirst time (rows.map f) :=
  List.map_mergeSort fun _ _ _ _ => rfl

/-- The order of the texts is the order in which the values are listed. -/
theorem latestText_map {α β : Type} (time : α → DateTime) (column : β → String) (f : α → β)
    (h : ∀ a, column (f a) = toRfc3339 (time a)) (rows : List α) :
    latestText column (rows.map f) = (newestFirst time rows).map f :=
  (List.map_mergeSort fun a _ b _ => by rw [h, h]).symm

namespace Storage

variable {s : Storage} {total : Nat} (h : s.Faithful total)
include h

theorem Faithful.session (id : String) : s.tableStore.session id = some (s.session id) := by
  rw [TableStore.session, tableStore, Database.tables_session, Storage.session]
  cases hrow : s.db.session id with
  | none => rfl
  | some row =>
      have hyears := (h.sessions row (List.mem_of_find?_eq_some hrow)).1
      simp only [Option.map_some, SessionRow.record, sessionFromRow_record hyears]

theorem Faithful.sessions_eq : s.tableStore.sessions = some s.sessions := by
  have horder : latestText SessionRecord.createdAt s.tableStore.tables.sessions =
      (newestFirst (fun row => row.info.createdAt) s.db.sessions).map SessionRow.record :=
    latestText_map _ _ SessionRow.record (fun _ => rfl) s.db.sessions
  have hsessions : s.sessions =
      (newestFirst (fun row => row.info.createdAt) s.db.sessions).map SessionRow.info :=
    (map_newestFirst SessionInfo.createdAt SessionRow.info s.db.sessions).symm
  rw [TableStore.sessions, horder, hsessions]
  refine mapM_map_some fun row hrow => ?_
  have hyears := (h.sessions row ((List.mergeSort_perm _ _).mem_iff.mp hrow)).1
  exact sessionFromRow_record hyears row.recordedBytes

theorem Faithful.command (id : String) : s.tableStore.command id = some (s.command id) := by
  rw [TableStore.command, tableStore, Database.tables_command, Storage.command]
  cases hrow : s.db.command id with
  | none => rfl
  | some row =>
      have hyears := (h.commands row (List.mem_of_find?_eq_some hrow)).1
      simp only [Option.map_some, commandFromRow_record hyears]

omit h in
/-- The rows of some commands, in the order of a listing. -/
theorem latestText_commands (select : CommandRecord → Bool) :
    latestText CommandRecord.startedAt (s.tableStore.tables.commands.filter select) =
      (newestFirst CommandInfo.startedAt
        (s.db.commands.filter (select ∘ CommandInfo.record))).map CommandInfo.record := by
  rw [tableStore, Database.tables, List.filter_map]
  exact latestText_map _ _ CommandInfo.record (fun _ => rfl) _

theorem Faithful.latest (sessionId : String) :
    s.tableStore.latestCommandForSession sessionId = some (s.latestCommandText sessionId) := by
  have hselect : (fun row : CommandRecord => row.sessionId == sessionId) ∘ CommandInfo.record =
      fun row : CommandInfo => row.sessionId == sessionId := rfl
  rw [TableStore.latestCommandForSession, latestText_commands, hselect, List.head?_map,
    latestCommandText]
  cases hrow : (newestFirst CommandInfo.startedAt
      (s.db.commands.filter fun row => row.sessionId == sessionId)).head? with
  | none => rfl
  | some row =>
      have hmem := (List.mergeSort_perm _ _).mem_iff.mp (List.mem_of_mem_head? hrow)
      have hyears := (h.commands row (List.mem_of_mem_filter hmem)).1
      simp only [Option.map_some, commandFromRow_record hyears]

theorem Faithful.commands_eq (sessionId : Option String) (includeFinished : Bool) (limit : Nat)
    (now : DateTime) (hlimit : limit < 2 ^ 63) :
    s.tableStore.commands sessionId includeFinished limit now =
      some ((s.commands sessionId includeFinished limit).map (summarize now)) := by
  have hselect : (fun row : CommandRecord => (sessionId.all fun id => row.sessionId == id) &&
      (includeFinished || row.status == "running")) ∘ CommandInfo.record =
      fun row : CommandInfo => (sessionId.all fun id => row.sessionId == id) &&
        (includeFinished || row.status == .running) :=
    funext fun row => by
      have hstatus : (row.record.status == "running") = (row.status == .running) :=
        text_running row.status
      rw [Function.comp_apply, hstatus]
      rfl
  rw [TableStore.commands, latestText_commands, hselect, Storage.commands, TableStore.takeLimit,
    if_pos hlimit, ← List.map_take]
  refine mapM_map_some fun row hrow => ?_
  have hmem := (List.mergeSort_perm _ _).mem_iff.mp (List.mem_of_mem_take hrow)
  have hyears := (h.commands row (List.mem_of_mem_filter hmem)).1
  rw [commandFromRow_record hyears, Option.map_some]

omit h in
/-- The events that a page is made of, as rows. -/
theorem eventRows_record (column : EventColumn) (id : String) (after : Nat) :
    sortByKey EventRecord.sequence (s.tableStore.tables.events.filter fun row =>
      TableStore.selects column id row && decide (after < row.sequence)) =
      (s.eventRows column id after).map TerminalEvent.record := by
  have hselect : (fun row => TableStore.selects column id row && decide (after < row.sequence)) ∘
      TerminalEvent.record =
      fun event => column.selects id event && decide (after < event.sequence) :=
    funext fun event => by cases column <;> rfl
  rw [tableStore, Database.tables, List.filter_map, hselect]
  exact (List.map_insertionSort (fun a b => a.sequence ≤ b.sequence)
    (fun a b => a.sequence ≤ b.sequence) TerminalEvent.record _ fun _ _ _ _ => Iff.rfl).symm

omit h in
theorem eventsLoop_record (maxBytes : Nat) {rows : List TerminalEvent}
    (hrows : ∀ event ∈ rows, AiSsh.InYears event.timestamp ∧ event.persisted = true) :
    ∀ result size, TableStore.eventsLoop maxBytes result size (rows.map TerminalEvent.record) =
      some (Storage.eventsLoop maxBytes result size rows) := by
  induction rows with
  | nil => exact fun _ _ => rfl
  | cons event rows ih =>
      intro result size
      obtain ⟨htime, hpersisted⟩ := hrows event List.mem_cons_self
      have hrest := ih fun other hother => hrows other (List.mem_cons_of_mem _ hother)
      rw [List.map_cons, TableStore.eventsLoop, eventFromRow_record htime hpersisted,
        Storage.eventsLoop]
      simp only [Option.bind_eq_bind, Option.bind_some, hrest]
      split <;> rfl

theorem Faithful.events_eq (column : EventColumn) (id : String) (after maxBytes : Nat) :
    s.tableStore.events column id after maxBytes =
      some (s.queryEvents column id after maxBytes) := by
  rw [TableStore.events, queryEvents]
  split
  · have hrows : ∀ event ∈ (s.eventRows column id after).take (pageEvents + 1),
        AiSsh.InYears event.timestamp ∧ event.persisted = true := fun event hevent => by
      have hmem := (mem_sortByKey _).mp (List.mem_of_mem_take hevent)
      exact h.events event (List.mem_of_mem_filter hmem)
    rw [eventRows_record, ← List.map_take, eventsLoop_record maxBytes hrows, Storage.events,
      Option.map_some]
  · rfl

theorem Faithful.readsBack : RowsReadBack s.tableStore s where
  session := h.session
  sessions := h.sessions_eq
  command := h.command
  latest := h.latest
  commands := h.commands_eq
  events := h.events_eq

/-- A run of calls on the tables is the run on the values. -/
theorem Faithful.writes {calls : List TableWrite} (hcalls : ∀ call ∈ calls, call.Writable)
    (htotal : total + (calls.map TableWrite.bytes).sum < 2 ^ 63) :
    AiSsh.writes TableStore.write s.tableStore calls =
      ((AiSsh.writes Storage.write s calls).1,
        (AiSsh.writes Storage.write s calls).2.tableStore) ∧
    (AiSsh.writes Storage.write s calls).2.Faithful
      (total + (calls.map TableWrite.bytes).sum) := by
  induction calls generalizing s total with
  | nil => exact ⟨rfl, h⟩
  | cons call calls ih =>
      rw [List.map_cons, List.sum_cons, ← Nat.add_assoc] at htotal ⊢
      have hcall := hcalls call List.mem_cons_self
      obtain ⟨hrun, hfaithful⟩ := ih (h.write hcall)
        (fun other hother => hcalls other (List.mem_cons_of_mem _ hother)) htotal
      refine ⟨?_, hfaithful⟩
      simp only [AiSsh.writes, s.write_tableStore h hcall (by omega), hrun]

end Storage

theorem Storage.faithful_openWith (recordingLimitMib : Nat) :
    (Storage.openWith .empty recordingLimitMib).Faithful 0 :=
  ⟨fun _ h => absurd h List.not_mem_nil, fun _ h => absurd h List.not_mem_nil,
    fun _ h => absurd h List.not_mem_nil⟩

/-- Whatever is written into a new store, the tables answer each call as the store of values
does, and every reader gives back the values from their texts. The counters stay integers while
what is recorded is below 2^63 bytes. -/
theorem stored_rows_faithful (recordingLimitMib : Nat) (calls : List TableWrite)
    (hcalls : ∀ call ∈ calls, call.Writable)
    (htotal : (calls.map TableWrite.bytes).sum < 2 ^ 63) :
    let values := writes Storage.write (.openWith .empty recordingLimitMib) calls
    let tables := writes TableStore.write (.openWith recordingLimitMib) calls
    tables.1 = values.1 ∧ RowsReadBack tables.2 values.2 := by
  intro values tables
  have hempty := Storage.faithful_openWith recordingLimitMib
  obtain ⟨hrun, hfaithful⟩ := hempty.writes hcalls (by omega)
  have htables : tables = (values.1, values.2.tableStore) := hrun
  rw [htables]
  exact ⟨rfl, hfaithful.readsBack⟩

/-- A session that runs a command, and a start of the daemon that finds it unfinished. -/
def oneCommand : List TableWrite :=
  let info := (Storage.datedSession "a" .ready 5).info
  let command : CommandInfo := ⟨"c", "a", "ls", .running, none, 7, none, 0, false, 0⟩
  [.upsertSession info, .insertCommand command, .insertCommand command,
    .appendEvent ⟨"a", some "c", 1, 8, .stdout, [104], true⟩,
    .updateCommand { command with status := .completed, finishedAt := some 9, lastSequence := 1 },
    .interruptUnfinished 10, .cleanup 30 (31 * Storage.day)]

theorem oneCommand_writable : ∀ call ∈ oneCommand, call.Writable := by
  have h : ∀ time ∈ [0, 5, 7, 8, 9, 10, Storage.day], InYears time := by decide
  have htime {time : DateTime} (hmem : time ∈ [0, 5, 7, 8, 9, 10, Storage.day]) :
      InYears time := h time hmem
  simp only [oneCommand, List.forall_mem_cons]
  refine ⟨⟨htime (by decide), htime (by decide), by simp [Storage.datedSession]⟩,
    ⟨⟨htime (by decide), by simp⟩, by decide⟩, ⟨⟨htime (by decide), by simp⟩, by decide⟩,
    ⟨htime (by decide), by decide⟩, ⟨⟨htime (by decide), ?_⟩, by decide⟩, htime (by decide),
    htime (by decide), by simp⟩
  rintro time ⟨⟩
  exact htime (by decide)

theorem stored_rows_faithful_oneCommand :
    let values := writes Storage.write (.openWith .empty 1) oneCommand
    let tables := writes TableStore.write (.openWith 1) oneCommand
    tables.1 = values.1 ∧ RowsReadBack tables.2 values.2 :=
  stored_rows_faithful 1 oneCommand oneCommand_writable (by decide)

end AiSsh
