import AiSsh.Library.Cursor
import AiSsh.Library.Paging
import AiSsh.Protocol

/-!
The recording store: its three tables and the statements of the storage layer.
Every operation holds the connection lock, so it is one step for its callers.
The `persisted` flag is not a column; a row that is read back carries it as set.
-/

namespace AiSsh

open Library

structure SessionRow where
  info : SessionInfo
  recordedBytes : Nat
  deriving DecidableEq, Repr

/-- A command row keeps `recorded_bytes` in `outputBytes`. -/
structure Database where
  sessions : List SessionRow
  commands : List CommandInfo
  events : List TerminalEvent
  deriving DecidableEq, Repr

inductive SqlError
  | queryReturnedNoRows
  | uniqueViolation
  | foreignKeyViolation
  | sqliteFailure (code : Nat)
  | toSqlConversionFailure
  | invalidColumnType
  deriving DecidableEq, Repr

inductive StorageError
  | database (error : SqlError)
  | lock
  deriving DecidableEq, Repr

namespace Database

def empty : Database := ⟨[], [], []⟩

def session (db : Database) (id : String) : Option SessionRow :=
  db.sessions.find? fun row => row.info.id == id

def command (db : Database) (id : String) : Option CommandInfo :=
  db.commands.find? fun row => row.id == id

/-- `UPDATE sessions SET .. WHERE id=?1`. -/
def updateSession (db : Database) (id : String) (set : SessionRow → SessionRow) : Database :=
  { db with sessions := db.sessions.map fun row => if row.info.id = id then set row else row }

/-- `UPDATE commands SET .. WHERE id=?1`. -/
def updateCommand (db : Database) (id : String) (set : CommandInfo → CommandInfo) : Database :=
  { db with commands := db.commands.map fun row => if row.id = id then set row else row }

/-- `INSERT INTO events`, with the foreign keys and the unique pair of the schema. -/
def insertEvent (db : Database) (event : TerminalEvent) : Except StorageError Database :=
  if (db.session event.sessionId).isNone ∨
      event.commandId.any (fun id => (db.command id).isNone) then
    .error (.database .foreignKeyViolation)
  else if db.events.any fun row =>
      row.sessionId == event.sessionId && row.sequence == event.sequence then
    .error (.database .uniqueViolation)
  else
    .ok { db with events := db.events ++ [{ event with persisted := true }] }

end Database

/-- `ON CONFLICT(id) DO UPDATE`: a truncation mark is kept once it is set. -/
def SessionRow.upsert (session : SessionInfo) (row : SessionRow) : SessionRow :=
  { row with info :=
    { row.info with
      status := session.status
      currentCommand := session.currentCommand
      hostFingerprint := session.hostFingerprint
      updatedAt := session.updatedAt
      closedAt := session.closedAt
      lastExitCode := session.lastExitCode
      recordingTruncated := row.info.recordingTruncated || session.recordingTruncated } }

def SessionRow.truncate (row : SessionRow) : SessionRow :=
  { row with info := { row.info with recordingTruncated := true } }

def SessionRow.count (bytes : Nat) (row : SessionRow) : SessionRow :=
  { row with recordedBytes := row.recordedBytes + bytes }

namespace CommandInfo

/-- The columns `update_command` sets. -/
def update (command row : CommandInfo) : CommandInfo :=
  { row with
    status := command.status
    exitCode := command.exitCode
    finishedAt := command.finishedAt
    lastSequence := command.lastSequence
    recordingTruncated := row.recordingTruncated || command.recordingTruncated }

def truncate (row : CommandInfo) : CommandInfo := { row with recordingTruncated := true }

def count (bytes sequence : Nat) (row : CommandInfo) : CommandInfo :=
  { row with outputBytes := row.outputBytes + bytes, lastSequence := sequence }

end CommandInfo

structure Storage where
  db : Database
  recordingLimitBytes : Nat
  deriving DecidableEq, Repr

/-- `u64::saturating_add`. -/
def saturatingAdd (a b : Nat) : Nat := min (a + b) (2 ^ 64 - 1)

/-- The column a page of events is selected by. -/
inductive EventColumn
  | commandId
  | sessionId
  deriving DecidableEq, Repr

def EventColumn.selects (column : EventColumn) (id : String) (event : TerminalEvent) : Bool :=
  match column with
  | .commandId => event.commandId == some id
  | .sessionId => event.sessionId == id

/-- What `append_event` leaves behind: its result, the event with its `persisted`
flag, and the store. -/
structure AppendEvent where
  result : Except StorageError Unit
  event : TerminalEvent
  storage : Storage

namespace Storage

/-- `Storage::open`: the limit is computed in 64-bit arithmetic. -/
def openWith (db : Database) (recordingLimitMib : Nat) : Storage :=
  ⟨db, recordingLimitMib * 1024 * 1024 % 2 ^ 64⟩

def upsertSession (s : Storage) (session : SessionInfo) : Storage :=
  if (s.db.session session.id).isSome then
    { s with db := s.db.updateSession session.id (SessionRow.upsert session) }
  else
    { s with db := { s.db with sessions := s.db.sessions ++ [⟨session, 0⟩] } }

def insertCommand (s : Storage) (command : CommandInfo) : Except StorageError Storage :=
  if (s.db.command command.id).isSome then
    .error (.database .uniqueViolation)
  else if (s.db.session command.sessionId).isNone then
    .error (.database .foreignKeyViolation)
  else
    .ok { s with db := { s.db with commands := s.db.commands ++ [command] } }

def updateCommand (s : Storage) (command : CommandInfo) : Storage :=
  { s with db := s.db.updateCommand command.id command.update }

def session (s : Storage) (id : String) : Option SessionInfo :=
  (s.db.session id).map SessionRow.info

def command (s : Storage) (id : String) : Option CommandInfo := s.db.command id

/-- `ORDER BY started_at DESC LIMIT 1`. -/
def latestCommandForSession (s : Storage) (sessionId : String) : Option CommandInfo :=
  (s.db.commands.filter fun row => row.sessionId == sessionId).foldl
    (fun latest row =>
      match latest with
      | none => some row
      | some best => some (if best.startedAt < row.startedAt then row else best)) none

/-- The rejecting branch of `append_event`: both rows are marked as truncated. -/
def rejectEvent (s : Storage) (event : TerminalEvent) : Storage :=
  let db := s.db.updateSession event.sessionId SessionRow.truncate
  match event.commandId with
  | none => { s with db := db }
  | some id => { s with db := db.updateCommand id CommandInfo.truncate }

/-- `UPDATE commands SET recorded_bytes=recorded_bytes+?2,last_sequence=?3`. -/
def countCommand (db : Database) (event : TerminalEvent) : Database :=
  match event.commandId with
  | none => db
  | some id => db.updateCommand id (CommandInfo.count event.payload.length event.sequence)

/-- The counters `append_event` advances once the event row is in. -/
def countEvent (db : Database) (event : TerminalEvent) : Database :=
  (countCommand db event).updateSession event.sessionId (SessionRow.count event.payload.length)

def appendEvent (s : Storage) (event : TerminalEvent) : AppendEvent :=
  match s.db.session event.sessionId with
  | none => ⟨.error (.database .queryReturnedNoRows), event, s⟩
  | some row =>
      if saturatingAdd row.recordedBytes event.payload.length > s.recordingLimitBytes then
        ⟨.ok (), { event with persisted := false }, s.rejectEvent event⟩
      else
        match s.db.insertEvent event with
        | .error error => ⟨.error error, { event with persisted := true }, s⟩
        | .ok db => ⟨.ok (), { event with persisted := true },
            { s with db := countEvent db event }⟩

end Storage

/-- `status IN ('closed','failed','disconnected','interrupted')`. -/
def SessionStatus.isOver : SessionStatus → Bool
  | .closed | .failed | .disconnected | .interrupted => true
  | _ => false

/-- The rows `cleanup` deletes. -/
def SessionRow.expired (before : DateTime) (row : SessionRow) : Bool :=
  decide (row.info.createdAt < before) && row.info.status.isOver

/-- A row that recovery finds unfinished. -/
def SessionRow.interrupt (now : DateTime) (row : SessionRow) : SessionRow :=
  { row with info :=
    { row.info with status := .interrupted, updatedAt := now, closedAt := some now } }

namespace Storage

/-- The sessions whose end the last daemon did not see. -/
def interruptUnfinished (s : Storage) (now : DateTime) : Storage :=
  { s with db :=
    { s.db with sessions := s.db.sessions.map fun row =>
        if row.info.status.isOver then row else row.interrupt now } }

/-- Whether `cleanup` deletes the session of this id. -/
def expires (s : Storage) (before : DateTime) (id : String) : Bool :=
  s.db.sessions.any fun row => row.expired before && row.info.id == id

/-- Whether an event belongs to a command of a session that `cleanup` deletes. -/
def expiresCommand (s : Storage) (before : DateTime) (event : TerminalEvent) : Bool :=
  event.commandId.any fun id =>
    s.db.commands.any fun row => row.id == id && s.expires before row.sessionId

/-- `DELETE FROM sessions WHERE created_at<?1 AND ..`, with the cascade over commands and
events. -/
def deleteExpired (s : Storage) (before : DateTime) : Storage :=
  { s with db :=
    { sessions := s.db.sessions.filter fun row => !row.expired before
      commands := s.db.commands.filter fun row => !s.expires before row.sessionId
      events := s.db.events.filter fun event =>
        !s.expires before event.sessionId && !s.expiresCommand before event } }

/-- Nanoseconds of a day. -/
def day : Int := 86400 * 1000000000

def cleanup (s : Storage) (retentionDays : Nat) (now : DateTime) : Storage :=
  s.deleteExpired (now - retentionDays * day)

/-- Rows of one page, at most. -/
def pageEvents : Nat := 2048

def eventsLoop (maxBytes : Nat) (result : List TerminalEvent) (size : Nat) :
    List TerminalEvent → List TerminalEvent × Bool
  | [] => (result, false)
  | event :: rows =>
      if result.length = pageEvents ∨
          (¬ result.isEmpty ∧ size + event.payload.length > maxBytes) then
        (result, true)
      else
        eventsLoop maxBytes (result ++ [event]) (size + event.payload.length) rows

/-- The rows `events` selects, in sequence order and without the row limit. -/
def eventRows (s : Storage) (column : EventColumn) (id : String) (after : Nat) :
    List TerminalEvent :=
  sortByKey TerminalEvent.sequence
    (s.db.events.filter fun event => column.selects id event && decide (after < event.sequence))

/-- One row beyond the event-count cap is fetched, so that the flag stays
truthful when many small events fit below `maxBytes`. -/
def events (s : Storage) (column : EventColumn) (id : String) (after maxBytes : Nat) :
    List TerminalEvent × Bool :=
  eventsLoop maxBytes [] 0 ((s.eventRows column id after).take (pageEvents + 1))

def eventsForCommand (s : Storage) (id : String) (after maxBytes : Nat) :
    List TerminalEvent × Bool :=
  s.events .commandId id after maxBytes

def eventsForSession (s : Storage) (id : String) (after maxBytes : Nat) :
    List TerminalEvent × Bool :=
  s.events .sessionId id after maxBytes

end Storage

def payloadLength (event : TerminalEvent) : Nat := event.payload.length

def payloadBytes (events : List TerminalEvent) : Nat := total payloadLength events

namespace Storage

/-! Pages of the store. -/

/-- When a row still goes on a database page. -/
def rowFits (maxBytes : Nat) (page : List TerminalEvent) (event : TerminalEvent) : Bool :=
  page.length != pageEvents &&
    withinBudget payloadLength maxBytes page event

theorem eventsLoop_eq_fill (maxBytes : Nat) (result rows : List TerminalEvent) :
    eventsLoop maxBytes result (payloadBytes result) rows =
      fill (rowFits maxBytes) result rows := by
  induction rows generalizing result with
  | nil => rfl
  | cons event rows ih =>
      have hsize : payloadBytes result + event.payload.length =
          payloadBytes (result ++ [event]) := by simp [payloadBytes, payloadLength]
      rw [eventsLoop, fill, hsize, ih]
      have hcond : (result.length = pageEvents ∨
          (¬ result.isEmpty ∧ payloadBytes (result ++ [event]) > maxBytes)) ↔
          rowFits maxBytes result event = false := by
        by_cases hnil : result = []
        · simp [rowFits, withinBudget, hnil, pageEvents]
        · simp [rowFits, withinBudget, hnil, payloadBytes, imp_iff_not_or]
      by_cases h : rowFits maxBytes result event = false
      · rw [if_pos (hcond.mpr h), h]
        rfl
      · rw [if_neg (fun hc => h (hcond.mp hc))]
        simp [Bool.eq_true_of_not_eq_false h]

theorem rowFits_nil (maxBytes : Nat) (event : TerminalEvent) :
    rowFits maxBytes [] event = true := rfl

theorem fill_rowFits_length (maxBytes : Nat) (page rows : List TerminalEvent)
    (h : page.length ≤ pageEvents) :
    (fill (rowFits maxBytes) page rows).1.length ≤ pageEvents := by
  induction rows generalizing page with
  | nil => exact h
  | cons event rows ih =>
      cases hf : rowFits maxBytes page event with
      | false => simpa [fill, hf] using h
      | true =>
          have hne : page.length ≠ pageEvents := by
            simp only [rowFits, Bool.and_eq_true, bne_iff_ne] at hf
            exact hf.1
          simp only [fill, hf, if_true]
          apply ih
          simp only [List.length_append, List.length_singleton]
          omega

theorem events_eq_fill (s : Storage) (column : EventColumn) (id : String)
    (after maxBytes : Nat) :
    s.events column id after maxBytes =
      fill (rowFits maxBytes) [] ((s.eventRows column id after).take (pageEvents + 1)) :=
  eventsLoop_eq_fill maxBytes [] _

theorem events_length (s : Storage) (column : EventColumn) (id : String)
    (after maxBytes : Nat) :
    (s.events column id after maxBytes).1.length ≤ pageEvents := by
  rw [events_eq_fill]
  exact fill_rowFits_length maxBytes [] _ (Nat.zero_le _)

/-- A page is the front of the selected rows, and the flag tells whether a row
is left. -/
theorem events_split (s : Storage) (column : EventColumn) (id : String)
    (after maxBytes : Nat) :
    ∃ rest, s.eventRows column id after = (s.events column id after maxBytes).1 ++ rest ∧
      ((s.events column id after maxBytes).2 = false ↔ rest = []) := by
  have hlen := events_length s column id after maxBytes
  rw [events_eq_fill] at hlen ⊢
  obtain ⟨taken, rest, hrows, hpage, hall, hcut⟩ :=
    fill_split (rowFits maxBytes) [] ((s.eventRows column id after).take (pageEvents + 1))
  rw [List.nil_append] at hpage
  rw [hpage] at hlen ⊢
  refine ⟨rest ++ (s.eventRows column id after).drop (pageEvents + 1), ?_, ?_⟩
  · rw [← List.append_assoc, ← hrows, List.take_append_drop]
  · cases hmore : (fill (rowFits maxBytes) []
        ((s.eventRows column id after).take (pageEvents + 1))).2 with
    | true =>
        obtain ⟨x, xs, hrest, -⟩ := hcut hmore
        simp [hrest]
    | false =>
        have hrest := hall hmore
        have hshort : ((s.eventRows column id after).take (pageEvents + 1)).length ≤
            pageEvents := by rw [hrows, hrest, List.append_nil]; exact hlen
        have hdrop : (s.eventRows column id after).drop (pageEvents + 1) = [] := by
          rw [List.length_take] at hshort
          exact List.drop_eq_nil_of_le (by omega)
        simp [hrest, hdrop]

theorem events_all {s : Storage} {column : EventColumn} {id : String} {after maxBytes : Nat}
    (h : (s.events column id after maxBytes).2 = false) :
    (s.events column id after maxBytes).1 = s.eventRows column id after := by
  obtain ⟨rest, hrows, hflag⟩ := s.events_split column id after maxBytes
  rw [hrows, hflag.mp h, List.append_nil]

theorem events_prefix (s : Storage) (column : EventColumn) (id : String)
    (after maxBytes : Nat) :
    (s.events column id after maxBytes).1 <+: s.eventRows column id after := by
  obtain ⟨rest, hrows, -⟩ := s.events_split column id after maxBytes
  exact ⟨rest, hrows.symm⟩

/-- A page with rows left to show is not empty. -/
theorem events_ne_nil {s : Storage} {column : EventColumn} {id : String}
    {after maxBytes : Nat} (h : s.eventRows column id after ≠ []) :
    (s.events column id after maxBytes).1 ≠ [] := by
  rw [events_eq_fill]
  apply fill_ne_nil (rowFits_nil maxBytes)
  right
  simpa using h

theorem events_more_ne_nil {s : Storage} {column : EventColumn} {id : String}
    {after maxBytes : Nat} (h : (s.events column id after maxBytes).2 = true) :
    (s.events column id after maxBytes).1 ≠ [] := by
  apply events_ne_nil
  intro hnil
  simp [events, hnil, eventsLoop] at h

theorem mem_eventRows {s : Storage} {column : EventColumn} {id : String} {after : Nat}
    {event : TerminalEvent} :
    event ∈ s.eventRows column id after ↔
      event ∈ s.db.events ∧ column.selects id event = true ∧ after < event.sequence := by
  simp [eventRows, mem_sortByKey]

end Storage

/-! Well-formed tables. -/

namespace Database

/-- `UNIQUE(session_id,sequence)`. -/
def UniqueSequences (db : Database) : Prop :=
  db.events.Pairwise fun a b => ¬ (a.sessionId = b.sessionId ∧ a.sequence = b.sequence)

theorem insertEvent_ok {db db' : Database} {event : TerminalEvent}
    (h : db.insertEvent event = .ok db') :
    (db.session event.sessionId).isSome ∧
      (∀ id, event.commandId = some id → (db.command id).isSome) ∧
      (∀ row ∈ db.events, ¬ (row.sessionId = event.sessionId ∧ row.sequence = event.sequence)) ∧
      db' = { db with events := db.events ++ [{ event with persisted := true }] } := by
  rw [insertEvent] at h
  split at h
  · cases h
  · rename_i hkeys
    split at h
    · cases h
    · rename_i hunique
      cases h
      rw [not_or] at hkeys
      refine ⟨?_, ?_, ?_, rfl⟩
      · simpa [Option.isSome_iff_ne_none] using hkeys.1
      · intro id hid
        have := hkeys.2
        simp only [hid, Option.any_some, Option.isNone_iff_eq_none] at this
        exact Option.isSome_iff_ne_none.mpr this
      · simpa using hunique

theorem UniqueSequences.insertEvent {db db' : Database} {event : TerminalEvent}
    (h : db.UniqueSequences) (hins : db.insertEvent event = .ok db') : db'.UniqueSequences := by
  obtain ⟨-, -, hnew, rfl⟩ := insertEvent_ok hins
  refine List.pairwise_append.mpr ⟨h, List.pairwise_singleton _ _, ?_⟩
  intro row hrow x hx
  rw [List.mem_singleton.mp hx]
  exact hnew row hrow

@[simp] theorem updateSession_events (db : Database) (id : String) (set : SessionRow → SessionRow) :
    (db.updateSession id set).events = db.events := rfl

@[simp] theorem updateSession_commands (db : Database) (id : String)
    (set : SessionRow → SessionRow) : (db.updateSession id set).commands = db.commands := rfl

@[simp] theorem updateCommand_events (db : Database) (id : String)
    (set : CommandInfo → CommandInfo) : (db.updateCommand id set).events = db.events := rfl

@[simp] theorem updateCommand_sessions (db : Database) (id : String)
    (set : CommandInfo → CommandInfo) : (db.updateCommand id set).sessions = db.sessions := rfl

private theorem find_map_id {α : Type} (key : α → String) (set : α → α)
    (hkey : ∀ row, key (set row) = key row) (rows : List α) (id other : String) :
    (rows.map fun row => if key row = id then set row else row).find?
        (fun row => key row == other) =
      (rows.find? fun row => key row == other).map fun row =>
        if key row = id then set row else row := by
  induction rows with
  | nil => rfl
  | cons row rows ih =>
      have hrow : key (if key row = id then set row else row) = key row := by
        split
        · exact hkey row
        · rfl
      simp only [List.map_cons, List.find?_cons, hrow]
      cases key row == other with
      | true => rfl
      | false => exact ih

/-- An update of one row shows in that row only. -/
theorem updateSession_session (db : Database) (id : String) (set : SessionRow → SessionRow)
    (hset : ∀ row, (set row).info.id = row.info.id) (other : String) :
    (db.updateSession id set).session other =
      (db.session other).map fun row => if row.info.id = id then set row else row :=
  find_map_id (fun row : SessionRow => row.info.id) set hset db.sessions id other

theorem updateCommand_command (db : Database) (id : String) (set : CommandInfo → CommandInfo)
    (hset : ∀ row, (set row).id = row.id) (other : String) :
    (db.updateCommand id set).command other =
      (db.command other).map fun row => if row.id = id then set row else row :=
  find_map_id CommandInfo.id set hset db.commands id other

theorem session_id {db : Database} {id : String} {row : SessionRow}
    (h : db.session id = some row) : row.info.id = id := by
  simpa using List.find?_some h

theorem command_id {db : Database} {id : String} {row : CommandInfo}
    (h : db.command id = some row) : row.id = id := by
  simpa using List.find?_some h

theorem command_mem {db : Database} {id : String} {row : CommandInfo}
    (h : db.command id = some row) : row ∈ db.commands := List.mem_of_find?_eq_some h

/-- The keys the schema declares. -/
structure Schema (db : Database) : Prop where
  uniqueSequences : db.UniqueSequences
  eventSession : ∀ event ∈ db.events, (db.session event.sessionId).isSome
  eventCommand : ∀ event ∈ db.events, ∀ id, event.commandId = some id → (db.command id).isSome
  commandSession : ∀ row ∈ db.commands, (db.session row.sessionId).isSome

theorem schema_empty : empty.Schema := ⟨List.Pairwise.nil, by simp [empty], by simp [empty],
  by simp [empty]⟩

/-- Tables with the same events and the same keys satisfy the schema alike. -/
theorem Schema.of_same_keys {db db' : Database} (h : db.Schema) (hevents : db'.events = db.events)
    (hsession : ∀ id, (db.session id).isSome → (db'.session id).isSome)
    (hcommand : ∀ id, (db.command id).isSome → (db'.command id).isSome)
    (hcommands : ∀ row ∈ db'.commands, (db'.session row.sessionId).isSome) : db'.Schema where
  uniqueSequences := by
    rw [UniqueSequences]
    rw [hevents]
    exact h.uniqueSequences
  eventSession event he := hsession _ (h.eventSession event (hevents ▸ he))
  eventCommand event he id hid := hcommand id (h.eventCommand event (hevents ▸ he) id hid)
  commandSession := hcommands

theorem Schema.updateSession {db : Database} (h : db.Schema) (id : String)
    (set : SessionRow → SessionRow) (hset : ∀ row, (set row).info.id = row.info.id) :
    (db.updateSession id set).Schema := by
  have hsession : ∀ other, (db.session other).isSome →
      ((db.updateSession id set).session other).isSome := by
    intro other hother
    rw [updateSession_session db id set hset, Option.isSome_map]
    exact hother
  exact h.of_same_keys rfl hsession (fun _ hc => hc)
    fun row hrow => hsession _ (h.commandSession row hrow)

theorem Schema.updateCommand {db : Database} (h : db.Schema) (id : String)
    (set : CommandInfo → CommandInfo) (hset : ∀ row, (set row).id = row.id)
    (hsession : ∀ row, (set row).sessionId = row.sessionId) :
    (db.updateCommand id set).Schema := by
  refine h.of_same_keys rfl (fun _ hs => hs) ?_ ?_
  · intro other hother
    rw [updateCommand_command db id set hset, Option.isSome_map]
    exact hother
  · intro row hrow
    obtain ⟨old, hold, rfl⟩ := List.mem_map.mp hrow
    have hkeep : (if old.id = id then set old else old).sessionId = old.sessionId := by
      split
      · exact hsession old
      · rfl
    rw [hkeep]
    exact h.commandSession old hold

theorem Schema.insertEvent {db db' : Database} {event : TerminalEvent} (h : db.Schema)
    (hins : db.insertEvent event = .ok db') : db'.Schema := by
  have hunique := h.uniqueSequences.insertEvent hins
  obtain ⟨hsession, hcommand, -, rfl⟩ := insertEvent_ok hins
  refine ⟨hunique, ?_, ?_, h.commandSession⟩
  · intro e he
    cases List.mem_append.mp he with
    | inl hold => exact h.eventSession e hold
    | inr hnew =>
        rw [List.mem_singleton.mp hnew]
        exact hsession
  · intro e he id hid
    cases List.mem_append.mp he with
    | inl hold => exact h.eventCommand e hold id hid
    | inr hnew =>
        rw [List.mem_singleton.mp hnew] at hid
        exact hcommand id hid

end Database

/-! What each storage operation leaves in the tables. -/

namespace Storage

theorem upsertSession_events (s : Storage) (info : SessionInfo) :
    (s.upsertSession info).db.events = s.db.events := by
  rw [upsertSession]
  split <;> rfl

theorem upsertSession_commands (s : Storage) (info : SessionInfo) :
    (s.upsertSession info).db.commands = s.db.commands := by
  rw [upsertSession]
  split <;> rfl

theorem upsertSession_command (s : Storage) (info : SessionInfo) (id : String) :
    (s.upsertSession info).db.command id = s.db.command id := by
  rw [upsertSession]
  split <;> rfl

/-- A row that is there keeps its byte count, and its truncation mark stays set. -/
theorem upsertSession_update {s : Storage} {info : SessionInfo} {row : SessionRow}
    (h : s.db.session info.id = some row) :
    ∃ row', (s.upsertSession info).db.session info.id = some row' ∧
      row'.recordedBytes = row.recordedBytes ∧
      row'.info.recordingTruncated =
        (row.info.recordingTruncated || info.recordingTruncated) := by
  have hid := Database.session_id h
  rw [upsertSession]
  rw [if_pos (by simp [h])]
  dsimp only
  rw [Database.updateSession_session _ _ (SessionRow.upsert info) (fun _ => rfl), h]
  simp [hid, SessionRow.upsert]

theorem upsertSession_insert {s : Storage} {info : SessionInfo}
    (h : s.db.session info.id = none) :
    (s.upsertSession info).db.session info.id = some ⟨info, 0⟩ := by
  rw [upsertSession]
  rw [if_neg (by simp [h])]
  rw [Database.session] at h ⊢
  simp [List.find?_append, h]

theorem upsertSession_isSome (s : Storage) (info : SessionInfo) (id : String)
    (h : (s.db.session id).isSome) : ((s.upsertSession info).db.session id).isSome := by
  rw [upsertSession]
  split
  · dsimp only
    rw [Database.updateSession_session _ _ (SessionRow.upsert info) (fun _ => rfl),
      Option.isSome_map]
    exact h
  · rw [Database.session] at h ⊢
    rw [List.find?_append, Option.isSome_or, h, Bool.true_or]

theorem upsertSession_schema {s : Storage} {info : SessionInfo} (h : s.db.Schema) :
    (s.upsertSession info).db.Schema := by
  refine h.of_same_keys (s.upsertSession_events info) (s.upsertSession_isSome info) ?_ ?_
  · intro id hid
    rw [upsertSession_command]
    exact hid
  · intro row hrow
    have hold : row ∈ s.db.commands := by
      rw [upsertSession] at hrow
      split at hrow <;> exact hrow
    exact s.upsertSession_isSome info _ (h.commandSession row hold)

theorem insertCommand_ok {s s' : Storage} {command : CommandInfo}
    (h : s.insertCommand command = .ok s') :
    s.db.command command.id = none ∧ (s.db.session command.sessionId).isSome ∧
      s' = { s with db := { s.db with commands := s.db.commands ++ [command] } } := by
  rw [insertCommand] at h
  split at h
  · cases h
  · rename_i hfresh
    split at h
    · cases h
    · rename_i hsession
      cases h
      exact ⟨by simpa using hfresh, by simpa [Option.isSome_iff_ne_none] using hsession, rfl⟩

theorem insertCommand_command {s s' : Storage} {command : CommandInfo}
    (h : s.insertCommand command = .ok s') (id : String) :
    s'.db.command id = if id = command.id then some command else s.db.command id := by
  obtain ⟨hfresh, -, rfl⟩ := insertCommand_ok h
  simp only [Database.command] at hfresh ⊢
  by_cases hid : id = command.id
  · subst hid
    simp [List.find?_append, hfresh]
  · have hne : (command.id == id) = false := by simp [Ne.symm hid]
    simp [List.find?_append, hid, hne]

theorem insertCommand_schema {s s' : Storage} {command : CommandInfo} (hs : s.db.Schema)
    (h : s.insertCommand command = .ok s') : s'.db.Schema := by
  obtain ⟨hfresh, hsession, rfl⟩ := insertCommand_ok h
  refine hs.of_same_keys rfl (fun _ h => h) ?_ ?_
  · intro id hid
    rw [Database.command] at hid ⊢
    rw [List.find?_append, Option.isSome_or, hid, Bool.true_or]
  · intro row hrow
    cases List.mem_append.mp hrow with
    | inl hold => exact hs.commandSession row hold
    | inr hnew =>
        rw [List.mem_singleton.mp hnew]
        exact hsession

theorem updateCommand_command (s : Storage) (command : CommandInfo) (id : String) :
    (s.updateCommand command).db.command id =
      (s.db.command id).map fun row => if row.id = command.id then command.update row else row :=
  Database.updateCommand_command s.db command.id command.update (fun _ => rfl) id

theorem updateCommand_schema {s : Storage} {command : CommandInfo} (h : s.db.Schema) :
    (s.updateCommand command).db.Schema :=
  h.updateCommand command.id command.update (fun _ => rfl) (fun _ => rfl)

theorem rejectEvent_events (s : Storage) (event : TerminalEvent) :
    (s.rejectEvent event).db.events = s.db.events := by
  cases h : event.commandId <;> simp [rejectEvent, h]

theorem rejectEvent_session (s : Storage) (event : TerminalEvent) (id : String) :
    (s.rejectEvent event).db.session id =
      (s.db.session id).map fun row =>
        if row.info.id = event.sessionId then row.truncate else row := by
  have hsession := Database.updateSession_session s.db event.sessionId SessionRow.truncate
    (fun _ => rfl) id
  cases h : event.commandId <;> simpa [rejectEvent, h, Database.session] using hsession

theorem rejectEvent_command (s : Storage) (event : TerminalEvent) (id : String) :
    (s.rejectEvent event).db.command id =
      (s.db.command id).map fun row =>
        if event.commandId = some row.id then row.truncate else row := by
  cases h : event.commandId with
  | none => simp [rejectEvent, h, Database.command]
  | some c =>
      have hcommand := Database.updateCommand_command
        (s.db.updateSession event.sessionId SessionRow.truncate) c CommandInfo.truncate
        (fun _ => rfl) id
      simpa [rejectEvent, h, Database.command, eq_comm] using hcommand

theorem rejectEvent_schema {s : Storage} {event : TerminalEvent} (h : s.db.Schema) :
    (s.rejectEvent event).db.Schema := by
  have hsession := h.updateSession event.sessionId SessionRow.truncate fun _ => rfl
  cases hc : event.commandId with
  | none => simpa [rejectEvent, hc] using hsession
  | some c =>
      simpa [rejectEvent, hc] using
        hsession.updateCommand c CommandInfo.truncate (fun _ => rfl) (fun _ => rfl)

theorem countCommand_events (db : Database) (event : TerminalEvent) :
    (countCommand db event).events = db.events := by
  cases h : event.commandId <;> simp [countCommand, h]

theorem countCommand_sessions (db : Database) (event : TerminalEvent) :
    (countCommand db event).sessions = db.sessions := by
  rw [countCommand]
  cases event.commandId with
  | none => rfl
  | some id => rfl

theorem countCommand_session (db : Database) (event : TerminalEvent) (id : String) :
    (countCommand db event).session id = db.session id := by
  rw [Database.session, countCommand_sessions, Database.session]

theorem countCommand_command (db : Database) (event : TerminalEvent) (id : String) :
    (countCommand db event).command id =
      (db.command id).map fun row => if event.commandId = some row.id then
        row.count event.payload.length event.sequence else row := by
  cases h : event.commandId with
  | none => simp [countCommand, h]
  | some c =>
      have hcommand := Database.updateCommand_command db c
        (CommandInfo.count event.payload.length event.sequence) (fun _ => rfl) id
      simpa [countCommand, h, eq_comm] using hcommand

theorem countCommand_schema {db : Database} {event : TerminalEvent} (h : db.Schema) :
    (countCommand db event).Schema := by
  cases hc : event.commandId with
  | none => simpa [countCommand, hc] using h
  | some c =>
      simpa [countCommand, hc] using h.updateCommand c
        (CommandInfo.count event.payload.length event.sequence) (fun _ => rfl) (fun _ => rfl)

theorem countEvent_events (db : Database) (event : TerminalEvent) :
    (countEvent db event).events = db.events := countCommand_events db event

theorem countEvent_session (db : Database) (event : TerminalEvent) (id : String) :
    (countEvent db event).session id =
      (db.session id).map fun row =>
        if row.info.id = event.sessionId then row.count event.payload.length else row := by
  rw [← countCommand_session db event id]
  exact Database.updateSession_session _ _ (SessionRow.count event.payload.length)
    (fun _ => rfl) id

theorem countEvent_command (db : Database) (event : TerminalEvent) (id : String) :
    (countEvent db event).command id =
      (db.command id).map fun row => if event.commandId = some row.id then
        row.count event.payload.length event.sequence else row :=
  countCommand_command db event id

theorem countEvent_schema {db : Database} {event : TerminalEvent} (h : db.Schema) :
    (countEvent db event).Schema :=
  (countCommand_schema h).updateSession event.sessionId
    (SessionRow.count event.payload.length) fun _ => rfl

/-! An accepted event: the row is in and its bytes are counted. -/

theorem acceptEvent_events {db db' : Database} {event : TerminalEvent}
    (h : db.insertEvent event = .ok db') :
    (countEvent db' event).events = db.events ++ [{ event with persisted := true }] := by
  obtain ⟨-, -, -, rfl⟩ := Database.insertEvent_ok h
  exact countEvent_events _ event

theorem acceptEvent_session {db db' : Database} {event : TerminalEvent}
    (h : db.insertEvent event = .ok db') (id : String) :
    (countEvent db' event).session id =
      (db.session id).map fun row =>
        if row.info.id = event.sessionId then row.count event.payload.length else row := by
  obtain ⟨-, -, -, rfl⟩ := Database.insertEvent_ok h
  exact countEvent_session _ event id

theorem acceptEvent_command {db db' : Database} {event : TerminalEvent}
    (h : db.insertEvent event = .ok db') (id : String) :
    (countEvent db' event).command id =
      (db.command id).map fun row => if event.commandId = some row.id then
        row.count event.payload.length event.sequence else row := by
  obtain ⟨-, -, -, rfl⟩ := Database.insertEvent_ok h
  exact countEvent_command _ event id

/-- A call that succeeds either rejects the event or inserts and counts it. -/
theorem appendEvent_ok {s : Storage} {event : TerminalEvent}
    (h : (s.appendEvent event).result = .ok ()) :
    (∃ row, s.db.session event.sessionId = some row) ∧
    (((s.appendEvent event).event = { event with persisted := false } ∧
        (s.appendEvent event).storage = s.rejectEvent event) ∨
      ∃ db, s.db.insertEvent event = .ok db ∧
        (s.appendEvent event).event = { event with persisted := true } ∧
        (s.appendEvent event).storage = { s with db := countEvent db event }) := by
  rw [appendEvent] at h ⊢
  cases hrow : s.db.session event.sessionId with
  | none => simp [hrow] at h
  | some row =>
      simp only [hrow] at h ⊢
      refine ⟨⟨row, rfl⟩, ?_⟩
      split
      · exact .inl ⟨rfl, rfl⟩
      · rename_i hfits
        rw [if_neg hfits] at h
        cases hins : s.db.insertEvent event with
        | error error => simp [hins] at h
        | ok db => exact .inr ⟨db, rfl, rfl, rfl⟩

end Storage
end AiSsh
