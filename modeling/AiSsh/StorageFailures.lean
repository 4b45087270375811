import AiSsh.Library.Script
import AiSsh.Recording

/-!
`append_event` at a database that may fail any of its statements, and what `record` makes of the
outcome. The statements are not one transaction: a failure after the row has gone in leaves the row
without its counters. `record` does not look at the result, only at the `persisted` flag, which is
set before the row is written.
-/

namespace AiSsh

open Library

/-- What `append_event` asks of the database, the connection lock first. -/
inductive AppendStatement
  | conn
  | selectRecorded
  | truncateSession
  | truncateCommand
  | insertEvent
  | countCommand
  | countSession
  deriving DecidableEq, Repr

/-- The statements the database cannot run during a call. -/
abbrev Failures : Type := AppendStatement → Option StorageError

abbrev AppendScript : Type := List (Statement AppendStatement Database StorageError)

def rejectUpdates (event : TerminalEvent) : List (AppendStatement × (Database → Database)) :=
  (.truncateSession, fun db => db.updateSession event.sessionId SessionRow.truncate) ::
    event.commandId.toList.map fun id =>
      (.truncateCommand, fun db => db.updateCommand id CommandInfo.truncate)

def countUpdates (event : TerminalEvent) : List (AppendStatement × (Database → Database)) :=
  (event.commandId.toList.map fun id =>
    (.countCommand, fun db =>
      db.updateCommand id (CommandInfo.count event.payload.length event.sequence))) ++
    [(.countSession, fun db =>
      db.updateSession event.sessionId (SessionRow.count event.payload.length))]

def rejectScript (event : TerminalEvent) : AppendScript :=
  (rejectUpdates event).map fun (name, set) => .update name set

def countScript (event : TerminalEvent) : AppendScript :=
  (countUpdates event).map fun (name, set) => .update name set

def insertStatement (event : TerminalEvent) : Statement AppendStatement Database StorageError :=
  ⟨.insertEvent, fun db => db.insertEvent event⟩

def acceptScript (event : TerminalEvent) : AppendScript :=
  insertStatement event :: countScript event

namespace Storage

/-- The session's counter, as the call reads it. -/
def selectRecorded (fails : Failures) (s : Storage) (sessionId : String) :
    Except StorageError Nat :=
  match fails .conn, fails .selectRecorded with
  | some error, _ => .error error
  | none, some error => .error error
  | none, none =>
      match s.db.session sessionId with
      | none => .error (.database .queryReturnedNoRows)
      | some row => .ok row.recordedBytes

/-- Whether the recording limit has no room for the event. -/
def overLimit (s : Storage) (recorded : Nat) (event : TerminalEvent) : Bool :=
  saturatingAdd recorded event.payload.length > s.recordingLimitBytes

/-- `append_event`, when the database may fail. -/
def appendEventOn (fails : Failures) (s : Storage) (event : TerminalEvent) : AppendEvent :=
  match s.selectRecorded fails event.sessionId with
  | .error error => ⟨.error error, event, s⟩
  | .ok recorded =>
      if s.overLimit recorded event then
        let (result, db) := runScript fails (rejectScript event) s.db
        ⟨result, { event with persisted := false }, { s with db := db }⟩
      else
        let (result, db) := runScript fails (acceptScript event) s.db
        ⟨result, { event with persisted := true }, { s with db := db }⟩

end Storage

/-- `record`, when the database may fail. -/
def recordOn (fails : Failures) (storage : Storage) (runtime : SessionRuntime)
    (commandId : Option String) (stream : StreamKind) (payload : Bytes) (now : Now) : Record :=
  let appended := storage.appendEventOn fails (runtime.nextEvent commandId stream payload now)
  let runtime := runtime.drawSequence now
  if appended.event.persisted then
    ⟨appended.result, appended.event, [], appended.storage, runtime.announce now⟩
  else
    ⟨appended.result, appended.event, (runtime.overflow appended.event).2, appended.storage,
      (runtime.keepLive appended.event).announce now⟩

namespace Storage

theorem rejectEvent_eq (s : Storage) (event : TerminalEvent) :
    (rejectUpdates event).foldl (fun db update => update.2 db) s.db = (s.rejectEvent event).db := by
  cases h : event.commandId <;> simp [rejectUpdates, rejectEvent, h]

theorem countEvent_eq (db : Database) (event : TerminalEvent) :
    (countUpdates event).foldl (fun db update => update.2 db) db = countEvent db event := by
  cases h : event.commandId <;> simp [countUpdates, countEvent, countCommand, h]

/-- At a database that fails nothing the two models of the call agree. -/
theorem appendEventOn_none (s : Storage) (event : TerminalEvent) :
    s.appendEventOn (fun _ => none) event = s.appendEvent event := by
  rw [appendEventOn, appendEvent]
  cases hrow : s.db.session event.sessionId with
  | none => simp [selectRecorded, hrow]
  | some row =>
      simp only [selectRecorded, hrow, overLimit, decide_eq_true_eq]
      split
      · simp only [rejectScript, runScript_updates, rejectEvent_eq]
        cases hid : event.commandId <;> simp [rejectEvent, hid]
      · cases hins : s.db.insertEvent event with
        | error error =>
            have hrun : (insertStatement event).runOn (fun _ => none) s.db = .error error := hins
            simp only [acceptScript, runScript_cons_error hrun]
        | ok db =>
            have hrun : (insertStatement event).runOn (fun _ => none) s.db = .ok db := hins
            simp only [acceptScript, runScript_cons_ok hrun, countScript, runScript_updates,
              countEvent_eq]

end Storage

theorem recordOn_none (storage : Storage) (runtime : SessionRuntime) (commandId : Option String)
    (stream : StreamKind) (payload : Bytes) (now : Now) :
    recordOn (fun _ => none) storage runtime commandId stream payload now =
      record storage runtime commandId stream payload now := by
  simp only [recordOn, record, Storage.appendEventOn_none]

/-- The rows of the events table and the `recorded_bytes` of both other tables. -/
def Database.books (db : Database) : List TerminalEvent × List Nat × List Nat :=
  (db.events, db.sessions.map SessionRow.recordedBytes, db.commands.map CommandInfo.outputBytes)

/-- What the keys of the schema ask of a row that is inserted. -/
structure Database.Takes (db : Database) (event : TerminalEvent) : Prop where
  session : (db.session event.sessionId).isSome
  command : ∀ id, event.commandId = some id → (db.command id).isSome
  fresh : ∀ row ∈ db.events,
    ¬(row.sessionId = event.sessionId ∧ row.sequence = event.sequence)

def Database.withEvent (db : Database) (event : TerminalEvent) : Database :=
  { db with events := db.events ++ [{ event with persisted := true }] }

namespace Storage

variable (fails : Failures) (s : Storage) (event : TerminalEvent)

/-- The call comes as far as the limit, and reads this row. -/
structure Reads (row : SessionRow) : Prop where
  conn : fails .conn = none
  select : fails .selectRecorded = none
  found : s.db.session event.sessionId = some row

def Rejects : Prop := ∃ row, s.Reads fails event row ∧ s.overLimit row.recordedBytes event = true

/-- The row of the event goes in. -/
structure Inserts : Prop where
  admitted : ∃ row, s.Reads fails event row ∧ s.overLimit row.recordedBytes event = false
  insert : fails .insertEvent = none
  takes : s.db.Takes event

end Storage

/-- A counter that the call would advance, and whose update the database cannot run. -/
def CountFails (fails : Failures) (event : TerminalEvent) : Prop :=
  (event.commandId.isSome ∧ (fails .countCommand).isSome) ∨ (fails .countSession).isSome

namespace Database

theorem insertEvent_of_takes {db : Database} {event : TerminalEvent} (h : db.Takes event) :
    db.insertEvent event = .ok (db.withEvent event) := by
  have hsession := h.session
  have hcommand : event.commandId.any (fun id => (db.command id).isNone) = false := by
    cases hid : event.commandId with
    | none => rfl
    | some id => simpa [Option.isSome_iff_ne_none] using h.command id hid
  have hfresh : db.events.any (fun row =>
      row.sessionId == event.sessionId && row.sequence == event.sequence) = false := by
    simpa using h.fresh
  rw [insertEvent, if_neg, hfresh]
  · rfl
  · rw [hcommand]
    simpa [Option.isSome_iff_ne_none] using hsession

theorem insertEvent_takes {db db' : Database} {event : TerminalEvent}
    (h : db.insertEvent event = .ok db') : db.Takes event ∧ db' = db.withEvent event := by
  obtain ⟨hsession, hcommand, hfresh, hdb⟩ := insertEvent_ok h
  exact ⟨⟨hsession, hcommand, hfresh⟩, hdb⟩

theorem books_updateSession (db : Database) (id : String) {set : SessionRow → SessionRow}
    (h : ∀ row, (set row).recordedBytes = row.recordedBytes) :
    (db.updateSession id set).books = db.books := by
  have hrow (row : SessionRow) :
      (if row.info.id = id then set row else row).recordedBytes = row.recordedBytes := by
    split
    · exact h row
    · rfl
  simp [books, updateSession, Function.comp_def, hrow]

theorem books_updateCommand (db : Database) (id : String) {set : CommandInfo → CommandInfo}
    (h : ∀ row, (set row).outputBytes = row.outputBytes) :
    (db.updateCommand id set).books = db.books := by
  have hrow (row : CommandInfo) :
      (if row.id = id then set row else row).outputBytes = row.outputBytes := by
    split
    · exact h row
    · rfl
  simp [books, updateCommand, Function.comp_def, hrow]

end Database

section Scripts

variable (fails : Failures) (db : Database) (event : TerminalEvent)

/-- A rejected event leaves the books alone, however far its marks come. -/
theorem rejectScript_books : (runScript fails (rejectScript event) db).2.books = db.books := by
  apply runScript_keeps
  intro statement hstatement
  obtain ⟨⟨name, set⟩, hmem, rfl⟩ := List.mem_map.mp hstatement
  apply Statement.update_keeps
  intro state
  cases List.mem_cons.mp hmem with
  | inl hsession =>
      cases hsession
      exact state.books_updateSession _ fun row => rfl
  | inr hcommand =>
      obtain ⟨id, -, hid⟩ := List.mem_map.mp hcommand
      cases hid
      exact state.books_updateCommand _ fun row => rfl

theorem countScript_events : (runScript fails (countScript event) db).2.events = db.events := by
  apply runScript_keeps
  intro statement hstatement
  obtain ⟨⟨name, set⟩, hmem, rfl⟩ := List.mem_map.mp hstatement
  apply Statement.update_keeps
  intro state
  cases List.mem_append.mp hmem with
  | inl hcommand =>
      obtain ⟨id, -, hid⟩ := List.mem_map.mp hcommand
      cases hid
      rfl
  | inr hsession =>
      cases List.mem_singleton.mp hsession
      rfl

theorem countScript_error :
    (∃ error, (runScript fails (countScript event) db).1 = .error error) ↔
      CountFails fails event := by
  rw [countScript, runScript_updates_error]
  cases hid : event.commandId <;> simp [countUpdates, CountFails, hid]

end Scripts

namespace Storage

variable {fails : Failures} {s : Storage} {event : TerminalEvent}

theorem selectRecorded_ok {recorded : Nat}
    (h : s.selectRecorded fails event.sessionId = .ok recorded) :
    ∃ row, s.Reads fails event row ∧ row.recordedBytes = recorded := by
  rw [selectRecorded] at h
  split at h
  · cases h
  · cases h
  · rename_i hconn hselect
    split at h
    · cases h
    · rename_i row hrow
      cases h
      exact ⟨row, ⟨hconn, hselect, hrow⟩, rfl⟩

theorem Reads.selected {row : SessionRow} (h : s.Reads fails event row) :
    s.selectRecorded fails event.sessionId = .ok row.recordedBytes := by
  simp only [selectRecorded, h.conn, h.select, h.found]

theorem Rejects.not_inserts (h : s.Rejects fails event) : ¬s.Inserts fails event := by
  intro hinserts
  obtain ⟨row, hreads, hover⟩ := h
  obtain ⟨row', hreads', hfits⟩ := hinserts.admitted
  have hrow : row = row' := Option.some.inj (hreads.found.symm.trans hreads'.found)
  rw [hrow, hfits] at hover
  cases hover

theorem appendEventOn_unread {error : StorageError}
    (h : s.selectRecorded fails event.sessionId = .error error) :
    s.appendEventOn fails event = ⟨.error error, event, s⟩ := by
  simp only [appendEventOn, h]

theorem appendEventOn_over {row : SessionRow} (h : s.Reads fails event row)
    (hover : s.overLimit row.recordedBytes event = true) :
    s.appendEventOn fails event =
      ⟨(runScript fails (rejectScript event) s.db).1, { event with persisted := false },
        { s with db := (runScript fails (rejectScript event) s.db).2 }⟩ := by
  simp only [appendEventOn, h.selected, hover, if_true]

theorem appendEventOn_fits {row : SessionRow} (h : s.Reads fails event row)
    (hfits : s.overLimit row.recordedBytes event = false) :
    s.appendEventOn fails event =
      ⟨(runScript fails (acceptScript event) s.db).1, { event with persisted := true },
        { s with db := (runScript fails (acceptScript event) s.db).2 }⟩ := by
  simp only [appendEventOn, h.selected, hfits, Bool.false_eq_true, if_false]

/-- The row goes in, or nothing changes. -/
theorem acceptScript_cases (fails : Failures) (db : Database) (event : TerminalEvent) :
    (¬(fails .insertEvent = none ∧ db.Takes event) ∧
      ∃ error, runScript fails (acceptScript event) db = (.error error, db)) ∨
    ((fails .insertEvent = none ∧ db.Takes event) ∧
      runScript fails (acceptScript event) db =
        runScript fails (countScript event) (db.withEvent event)) := by
  cases hrun : (insertStatement event).runOn fails db with
  | error error =>
      refine .inl ⟨?_, error, runScript_cons_error hrun _⟩
      intro htakes
      simp only [Statement.runOn, insertStatement, htakes.1,
        Database.insertEvent_of_takes htakes.2] at hrun
      cases hrun
  | ok db' =>
      have hins : db.insertEvent event = .ok db' := Statement.runOn_ok hrun
      have hinsert : fails .insertEvent = none := by
        cases hfails : fails .insertEvent with
        | none => rfl
        | some error =>
            simp only [Statement.runOn, insertStatement, hfails] at hrun
            cases hrun
      obtain ⟨htakes, hdb⟩ := Database.insertEvent_takes hins
      refine .inr ⟨⟨hinsert, htakes⟩, ?_⟩
      rw [acceptScript, runScript_cons_ok hrun, hdb]

/-- What becomes of an event: it is refused before any change, or rejected for its size, or it goes
in and its counters follow. -/
theorem appendEventOn_cases (fails : Failures) (s : Storage) (event : TerminalEvent) :
    (¬s.Rejects fails event ∧ ¬s.Inserts fails event ∧
      ∃ error persisted, (event.persisted = true → persisted = true) ∧
        s.appendEventOn fails event = ⟨.error error, { event with persisted := persisted }, s⟩) ∨
    (s.Rejects fails event ∧
      (s.appendEventOn fails event).event = { event with persisted := false } ∧
      (s.appendEventOn fails event).storage.db.books = s.db.books) ∨
    (s.Inserts fails event ∧
      s.appendEventOn fails event =
        ⟨(runScript fails (countScript event) (s.db.withEvent event)).1,
          { event with persisted := true },
          { s with db := (runScript fails (countScript event) (s.db.withEvent event)).2 }⟩) := by
  cases hselect : s.selectRecorded fails event.sessionId with
  | error error =>
      have hreads (row : SessionRow) : ¬s.Reads fails event row := by
        intro hreads
        rw [hreads.selected] at hselect
        cases hselect
      refine .inl ⟨?_, ?_, error, event.persisted, id, appendEventOn_unread hselect⟩
      · intro hrejects
        obtain ⟨row, hrow, -⟩ := hrejects
        exact hreads row hrow
      · intro hinserts
        obtain ⟨row, hrow, -⟩ := hinserts.admitted
        exact hreads row hrow
  | ok recorded =>
      obtain ⟨row, hreads, -⟩ := selectRecorded_ok hselect
      cases hover : s.overLimit row.recordedBytes event with
      | true =>
          rw [appendEventOn_over hreads hover]
          exact .inr (.inl ⟨⟨row, hreads, hover⟩, rfl, rejectScript_books fails s.db event⟩)
      | false =>
          rw [appendEventOn_fits hreads hover]
          cases acceptScript_cases fails s.db event with
          | inl hrefused =>
              obtain ⟨hnot, error, hrun⟩ := hrefused
              rw [hrun]
              refine .inl ⟨?_, fun h => hnot ⟨h.insert, h.takes⟩, error, true, fun _ => rfl, rfl⟩
              intro hrejects
              obtain ⟨row', hreads', hover'⟩ := hrejects
              have hrow : row' = row :=
                Option.some.inj (hreads'.found.symm.trans hreads.found)
              rw [hrow, hover] at hover'
              cases hover'
          | inr hinserted =>
              obtain ⟨⟨hinsert, htakes⟩, hrun⟩ := hinserted
              rw [hrun]
              exact .inr (.inr ⟨⟨⟨row, hreads, hover⟩, hinsert, htakes⟩, rfl⟩)

/-- A call that fails leaves the books as they were. -/
def KeepsBooks (fails : Failures) (s : Storage) (event : TerminalEvent) : Prop :=
  ∀ error, (s.appendEventOn fails event).result = .error error →
    (s.appendEventOn fails event).storage.db.books = s.db.books

theorem withEvent_books_ne (db : Database) (event : TerminalEvent) :
    (db.withEvent event).events ≠ db.events := by
  simp [Database.withEvent]

theorem keepsBooks_iff (s : Storage) (fails : Failures) (event : TerminalEvent) :
    s.KeepsBooks fails event ↔ ¬(s.Inserts fails event ∧ CountFails fails event) := by
  cases s.appendEventOn_cases fails event with
  | inl hrefused =>
      obtain ⟨-, hnot, error, persisted, -, happend⟩ := hrefused
      refine ⟨fun _ h => hnot h.1, ?_⟩
      intro _ other _
      rw [happend]
  | inr hrest =>
      cases hrest with
      | inl hrejected =>
          exact ⟨fun _ h => hrejected.1.not_inserts h.1, fun _ _ _ => hrejected.2.2⟩
      | inr hinserted =>
          obtain ⟨hinserts, happend⟩ := hinserted
          rw [KeepsBooks, happend, ← countScript_error fails (s.db.withEvent event) event]
          constructor
          · intro hkeeps hboth
            obtain ⟨error, herror⟩ := hboth.2
            have hevents := congrArg Prod.fst (hkeeps error herror)
            exact withEvent_books_ne s.db event
              ((countScript_events fails (s.db.withEvent event) event).symm.trans hevents)
          · intro hnot error herror
            exact absurd ⟨hinserts, error, herror⟩ hnot

/-- An event that a reader of its session gets on some page. -/
def Readable (s : Storage) (event : TerminalEvent) : Prop :=
  ∃ after maxBytes, { event with persisted := true } ∈
    (s.eventsForSession event.sessionId after maxBytes).1

/-- A row whose number no other row of its session has heads the page after the number before. -/
theorem readable_of_mem {s : Storage} {event : TerminalEvent}
    (hmem : { event with persisted := true } ∈ s.db.events) (hpos : 0 < event.sequence)
    (hunique : ∀ row ∈ s.db.events, row.sessionId = event.sessionId →
      row.sequence = event.sequence → row = { event with persisted := true }) :
    s.Readable event := by
  refine ⟨event.sequence - 1, 0, ?_⟩
  have hrow : { event with persisted := true } ∈
      s.eventRows .sessionId event.sessionId (event.sequence - 1) := by
    refine mem_eventRows.mpr ⟨hmem, ?_, ?_⟩
    · simp [EventColumn.selects]
    · change event.sequence - 1 < event.sequence
      omega
  obtain ⟨rest, hpage, -⟩ := s.events_split .sessionId event.sessionId (event.sequence - 1) 0
  rw [eventsForSession]
  cases hfirst : (s.events .sessionId event.sessionId (event.sequence - 1) 0).1 with
  | nil => exact absurd hfirst (events_ne_nil (List.ne_nil_of_mem hrow))
  | cons first page =>
      rw [hfirst] at hpage
      have hsorted := sortByKey_pairwise TerminalEvent.sequence
        (s.db.events.filter fun row => EventColumn.sessionId.selects event.sessionId row &&
          decide (event.sequence - 1 < row.sequence))
      have hmine : first ∈ s.eventRows .sessionId event.sessionId (event.sequence - 1) := by
        rw [hpage]
        exact List.mem_cons_self
      obtain ⟨hold, hsession, hafter⟩ := mem_eventRows.mp hmine
      rw [← eventRows, hpage] at hsorted
      rw [hpage] at hrow
      have hle : first.sequence ≤ event.sequence := by
        cases List.mem_cons.mp hrow with
        | inl heq => rw [← heq]
        | inr htail =>
            have hhead := (List.pairwise_cons.mp hsorted).1
            exact hhead { event with persisted := true } htail
      have heq := hunique first hold (by simpa [EventColumn.selects] using hsession) (by omega)
      rw [heq]
      exact List.mem_cons_self

theorem readable_of_inserts {fails : Failures} {s : Storage} {event : TerminalEvent}
    (h : s.Inserts fails event) (hpos : 0 < event.sequence) :
    (s.appendEventOn fails event).storage.Readable event := by
  cases s.appendEventOn_cases fails event with
  | inl hrefused => exact absurd h hrefused.2.1
  | inr hrest =>
      cases hrest with
      | inl hrejected => exact absurd h hrejected.1.not_inserts
      | inr hinserted =>
          have hevents : (s.appendEventOn fails event).storage.db.events =
              s.db.events ++ [{ event with persisted := true }] := by
            rw [hinserted.2]
            exact countScript_events fails (s.db.withEvent event) event
          apply readable_of_mem
          · rw [hevents]
            simp
          · exact hpos
          · intro row hrow hsession hsequence
            rw [hevents] at hrow
            cases List.mem_append.mp hrow with
            | inl hold => exact absurd ⟨hsession, hsequence⟩ (h.takes.fresh row hold)
            | inr hnew => exact List.mem_singleton.mp hnew

end Storage

/-- The event of a `record` call is in the store, in the live tail, or known to be lost. -/
def Record.Accounted (recorded : Record) : Prop :=
  recorded.storage.Readable recorded.event ∨ recorded.event ∈ recorded.runtime.liveEvents ∨
    recorded.runtime.recordingTruncated = true ∨ recorded.runtime.liveTailDropped = true

/-- Before a call: the event of the call is there already, or an earlier loss is known. -/
def Foretold (s : Storage) (runtime : SessionRuntime) (event : TerminalEvent) : Prop :=
  s.Readable event ∨ event ∈ runtime.liveEvents ∨
    runtime.recordingTruncated = true ∨ runtime.liveTailDropped = true

section Record

variable (fails : Failures) (s : Storage) (runtime : SessionRuntime) (commandId : Option String)
  (stream : StreamKind) (payload : Bytes) (now : Now)

theorem recordOn_kept
    (h : (s.appendEventOn fails (runtime.nextEvent commandId stream payload now)).event.persisted =
      true) :
    recordOn fails s runtime commandId stream payload now =
      ⟨(s.appendEventOn fails (runtime.nextEvent commandId stream payload now)).result,
        (s.appendEventOn fails (runtime.nextEvent commandId stream payload now)).event, [],
        (s.appendEventOn fails (runtime.nextEvent commandId stream payload now)).storage,
        (runtime.drawSequence now).announce now⟩ := by
  simp only [recordOn, h, if_true]

/-- An event that is marked as not persisted sets the flag of the session. -/
theorem recordOn_live
    (h : (s.appendEventOn fails (runtime.nextEvent commandId stream payload now)).event.persisted =
      false) :
    (recordOn fails s runtime commandId stream payload now).runtime.recordingTruncated = true := by
  simp only [recordOn, h, Bool.false_eq_true, if_false]
  rfl

theorem recordOn_accounted_iff :
    (recordOn fails s runtime commandId stream payload now).Accounted ↔
      s.Rejects fails (runtime.nextEvent commandId stream payload now) ∨
        s.Inserts fails (runtime.nextEvent commandId stream payload now) ∨
        Foretold s runtime (runtime.nextEvent commandId stream payload now) := by
  cases s.appendEventOn_cases fails (runtime.nextEvent commandId stream payload now) with
  | inl hrefused =>
      obtain ⟨hrejects, hinserts, error, persisted, hflag, happend⟩ := hrefused
      have hpersisted : persisted = true := hflag rfl
      have hkept := recordOn_kept fails s runtime commandId stream payload now (by
        rw [happend]
        exact hpersisted)
      rw [happend, hpersisted] at hkept
      have hsame : (recordOn fails s runtime commandId stream payload now).Accounted ↔
          Foretold s runtime (runtime.nextEvent commandId stream payload now) := by
        rw [hkept]
        exact Iff.rfl
      rw [hsame]
      simp only [hrejects, hinserts, false_or]
  | inr hrest =>
      cases hrest with
      | inl hrejected =>
          have hlive := recordOn_live fails s runtime commandId stream payload now (by
            rw [hrejected.2.1])
          exact ⟨fun _ => .inl hrejected.1, fun _ => .inr (.inr (.inl hlive))⟩
      | inr hinserted =>
          have hreadable := Storage.readable_of_inserts hinserted.1 (Nat.succ_pos runtime.sequence)
          have hkept := recordOn_kept fails s runtime commandId stream payload now (by
            rw [hinserted.2])
          refine ⟨fun _ => .inr (.inl hinserted.1), fun _ => .inl ?_⟩
          rw [hkept, hinserted.2]
          rw [hinserted.2] at hreadable
          exact hreadable

end Record

/-- A failed `append_event` keeps the books unless the row has gone in and a counter update fails;
a recorded event is accounted for unless the call fails before its row is in, with no flag set. -/
theorem append_failures_accounted_iff (fails : Failures) (s : Storage) (event : TerminalEvent)
    (runtime : SessionRuntime) (commandId : Option String) (stream : StreamKind) (payload : Bytes)
    (now : Now) :
    (s.KeepsBooks fails event ↔ ¬(s.Inserts fails event ∧ CountFails fails event)) ∧
      ((recordOn fails s runtime commandId stream payload now).Accounted ↔
        s.Rejects fails (runtime.nextEvent commandId stream payload now) ∨
          s.Inserts fails (runtime.nextEvent commandId stream payload now) ∨
          Foretold s runtime (runtime.nextEvent commandId stream payload now)) :=
  ⟨s.keepsBooks_iff fails event,
    recordOn_accounted_iff fails s runtime commandId stream payload now⟩

/-- A database whose disk is full when it comes to the statement. -/
def fullAt (statement : AppendStatement) : Failures := fun other =>
  if other = statement then some (.database (.sqliteFailure 13)) else none

def shellInfo : SessionInfo := .created "s" "t" "t" "p" "c" ⟨0, 0⟩

/-- One session, and nothing recorded. -/
def shellStorage : Storage := (Storage.openWith .empty 1).upsertSession shellInfo

def shellRuntime : SessionRuntime := .new shellInfo ⟨0, 0⟩

/-- The row without its bytes counted, and an event that nobody hears of. -/
theorem full_disk_breaks_books_and_loses_output :
    ¬shellStorage.KeepsBooks (fullAt .countSession)
        (shellRuntime.nextEvent none .pty [104, 105] ⟨1, 1⟩) ∧
      ¬(recordOn (fullAt .insertEvent) shellStorage shellRuntime none .pty [104, 105]
        ⟨1, 1⟩).Accounted := by
  constructor
  · intro hkeeps
    have hbooks := hkeeps (.database (.sqliteFailure 13)) rfl
    exact absurd hbooks (by decide)
  · intro haccounted
    cases haccounted with
    | inl hreadable =>
        obtain ⟨after, maxBytes, hpage⟩ := hreadable
        have hrows := (Storage.events_prefix _ _ _ after maxBytes).subset hpage
        have hstored := (Storage.mem_eventRows.mp hrows).1
        cases hstored
    | inr hrest => exact absurd hrest (by decide)

end AiSsh
