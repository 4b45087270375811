import AiSsh.Recording

/-!
The books of a session's recorder. Whatever the sizes and the order of the calls,
an event is on exactly one of three shelves: the store, the live tail, or the pile
the tail gave up; and each flag that reports a loss says exactly what happened.
-/

namespace AiSsh

open Library

namespace Storage

/-- The command rows are the same ones, each in its session and with its status. -/
def KeepsCommands (s s' : Storage) : Prop :=
  ∃ set : CommandInfo → CommandInfo, (∀ id, s'.db.command id = (s.db.command id).map set) ∧
    ∀ row, (set row).sessionId = row.sessionId ∧ (set row).status = row.status

theorem KeepsCommands.command {s s' : Storage} (h : KeepsCommands s s') {id : String}
    {row : CommandInfo} (hrow : s.db.command id = some row) :
    ∃ row', s'.db.command id = some row' ∧ row'.sessionId = row.sessionId ∧
      row'.status = row.status := by
  obtain ⟨set, hcommand, hset⟩ := h
  exact ⟨set row, by rw [hcommand, hrow, Option.map_some], hset row⟩

/-- A command row stays, whatever was known of its session and its status. -/
theorem KeepsCommands.row {s s' : Storage} (h : KeepsCommands s s') {id : String}
    (known : String → CommandStatus → Prop)
    (hrow : ∃ row, s.db.command id = some row ∧ known row.sessionId row.status) :
    ∃ row, s'.db.command id = some row ∧ known row.sessionId row.status := by
  obtain ⟨row, hrow, hknown⟩ := hrow
  obtain ⟨row', hrow', hsession, hstatus⟩ := h.command hrow
  exact ⟨row', hrow', by rwa [hsession, hstatus]⟩

theorem KeepsCommands.back {s s' : Storage} (h : KeepsCommands s s') {id : String}
    {row : CommandInfo} (hrow : s'.db.command id = some row) :
    ∃ old, s.db.command id = some old ∧ old.sessionId = row.sessionId ∧
      old.status = row.status := by
  obtain ⟨set, hcommand, hset⟩ := h
  rw [hcommand] at hrow
  obtain ⟨old, hold, rfl⟩ := Option.map_eq_some_iff.mp hrow
  exact ⟨old, hold, (hset old).1.symm, (hset old).2.symm⟩

theorem rejectEvent_keeps (s : Storage) (event : TerminalEvent) :
    KeepsCommands s (s.rejectEvent event) :=
  ⟨_, s.rejectEvent_command event, fun row => by split <;> exact ⟨rfl, rfl⟩⟩

theorem acceptEvent_keeps {s : Storage} {db : Database} {event : TerminalEvent}
    (h : s.db.insertEvent event = .ok db) :
    KeepsCommands s { s with db := countEvent db event } :=
  ⟨_, acceptEvent_command h, fun row => by split <;> exact ⟨rfl, rfl⟩⟩

end Storage

namespace Session

/-- The ledger a session keeps, stated over its two histories. -/
structure Accounts (s : Session) : Prop where
  stored : s.stored = s.history.filter fun event => event.persisted
  rejected : (s.history.filter fun event => !event.persisted) =
    s.evicted ++ s.runtime.liveEvents
  bounded : payloadBytes s.runtime.liveEvents ≤ liveTailBytes
  dropped : s.runtime.liveTailDropped = true ↔ s.evicted ≠ []
  truncated : s.runtime.recordingTruncated = true ↔
    ∃ event ∈ s.history, event.persisted = false
  sessionRow : ∃ row, s.storage.db.session s.runtime.sessionId = some row ∧
    (row.info.recordingTruncated = true ↔ ∃ event ∈ s.history, event.persisted = false)
  commandRows : ∀ id row, s.storage.db.command id = some row →
    row.sessionId = s.runtime.sessionId →
    (row.recordingTruncated = true ↔
      ∃ event ∈ s.history, event.commandId = some id ∧ event.persisted = false)

/-- What keeps the ledger: the tables satisfy the schema, the numbers handed out
are `1, 2, ..`, and no caller passes a truncation mark of its own. -/
structure Books (s : Session) : Prop extends Accounts s where
  schema : s.storage.db.Schema
  numbers : s.history.map TerminalEvent.sequence = List.range' 1 s.runtime.sequence
  own : ∀ event ∈ s.history, event.sessionId = s.runtime.sessionId
  commands : ∀ event ∈ s.history, ∀ id, event.commandId = some id →
    ∃ row, s.storage.db.command id = some row ∧ row.sessionId = s.runtime.sessionId
  infoId : s.runtime.info.id = s.runtime.sessionId
  infoMark : s.runtime.info.recordingTruncated = false
  taskMark : ∀ task ∈ s.tasks, task.command.recordingTruncated = false
  taskRow : ∀ task ∈ s.tasks, ∃ row, s.storage.db.command task.command.id = some row ∧
    row.sessionId = s.runtime.sessionId ∧ row.status = .running
  eventOwner : ∀ event ∈ s.storage.db.events, ∀ id row, event.commandId = some id →
    s.storage.db.command id = some row → row.sessionId = s.runtime.sessionId →
    event.sessionId = s.runtime.sessionId

theorem books_created {db : Database} {limit : Nat}
    {id targetId targetName purpose clientName : String} {now : Now}
    (hschema : db.Schema) (hnew : db.session id = none) :
    Books (created ⟨db, limit⟩ (.created id targetId targetName purpose clientName now) now) := by
  have hnone : ∀ event ∈ db.events, event.sessionId ≠ id := by
    rintro event he rfl
    simpa [hnew] using hschema.eventSession event he
  have hrow : ((⟨db, limit⟩ : Storage).upsertSession
      (.created id targetId targetName purpose clientName now)).db.session id = _ :=
    Storage.upsertSession_insert hnew
  have hother : ∀ c row, (created ⟨db, limit⟩ (.created id targetId targetName purpose clientName
      now) now).storage.db.command c = some row → row.sessionId ≠ id := by
    rintro c row hrow rfl
    rw [created, Storage.upsertSession_command] at hrow
    have hsome := hschema.commandSession row (Database.command_mem hrow)
    simp [hnew] at hsome
  refine
    { stored := ?_
      rejected := rfl
      bounded := Nat.zero_le _
      dropped := by simp [created, SessionRuntime.new]
      truncated := by simp [created, SessionRuntime.new]
      sessionRow := ⟨_, hrow, by simp [created, SessionInfo.created]⟩
      commandRows := ?_
      schema := Storage.upsertSession_schema hschema
      numbers := rfl
      own := by simp [created]
      commands := by simp [created]
      infoId := rfl
      infoMark := rfl
      taskMark := by simp [created]
      taskRow := by simp [created]
      eventOwner := ?_ }
  · simp only [Session.stored, created, Storage.upsertSession_events, List.filter_nil]
    exact List.filter_eq_nil_iff.mpr fun event he => by
      simpa [SessionRuntime.new, SessionInfo.created] using hnone event he
  · intro c row hrow hsession
    exact absurd hsession (hother c row hrow)
  · intro event _ c row _ hrow hsession
    exact absurd hsession (hother c row hrow)

/-- An update of the session record that carries no truncation mark. -/
theorem Books.setInfo {s : Session} (h : Books s) {info : SessionInfo}
    (hid : info.id = s.runtime.info.id) (hmark : info.recordingTruncated = false) :
    Books (s.setInfo info) := by
  have hsid : info.id = s.runtime.sessionId := hid.trans h.infoId
  obtain ⟨row, hrow, htruncated⟩ := h.sessionRow
  rw [← hsid] at hrow
  obtain ⟨row', hrow', -, hmark'⟩ := Storage.upsertSession_update hrow
  have hcommand := s.storage.upsertSession_command info
  exact
    { h with
      stored := by
        simpa only [Session.stored, Session.setInfo, Storage.upsertSession_events] using h.stored
      sessionRow := ⟨row', hsid ▸ hrow', by rw [hmark', hmark, Bool.or_false]; exact htruncated⟩
      commandRows := fun id row hrow => h.commandRows id row (hcommand id ▸ hrow)
      schema := Storage.upsertSession_schema h.schema
      commands := fun event he id hid => by
        simpa only [Session.setInfo, hcommand] using h.commands event he id hid
      infoId := hsid
      infoMark := hmark
      taskRow := fun task ht => by
        simpa only [Session.setInfo, hcommand] using h.taskRow task ht
      eventOwner := fun event he id row hid hrow hown => by
        simp only [Session.setInfo, Storage.upsertSession_events] at he
        exact h.eventOwner event he id row hid (hcommand id ▸ hrow) hown }

/-- A store that changes command rows only, and keeps their sessions and marks. -/
theorem Books.updateCommands {s : Session} (h : Books s) {storage : Storage}
    (hevents : storage.db.events = s.storage.db.events)
    (hsession : ∀ id, storage.db.session id = s.storage.db.session id)
    (hschema : storage.db.Schema)
    (hkeeps : ∀ id row, s.storage.db.command id = some row →
      ∃ row', storage.db.command id = some row' ∧ row'.sessionId = row.sessionId)
    (hmark : ∀ id row, storage.db.command id = some row →
      row.sessionId = s.runtime.sessionId →
      (row.recordingTruncated = true ↔
        ∃ event ∈ s.history, event.commandId = some id ∧ event.persisted = false))
    {tasks : List ExecTask}
    (htasks : ∀ task ∈ tasks, task.command.recordingTruncated = false ∧
      ∃ row, storage.db.command task.command.id = some row ∧
        row.sessionId = s.runtime.sessionId ∧ row.status = .running) :
    Books { s with storage := storage, tasks := tasks } :=
  { h with
    stored := by simpa only [Session.stored, hevents] using h.stored
    sessionRow := by simpa only [hsession] using h.sessionRow
    commandRows := hmark
    schema := hschema
    commands := fun event he id hid => by
      obtain ⟨row, hrow, hown⟩ := h.commands event he id hid
      obtain ⟨row', hrow', hown'⟩ := hkeeps id row hrow
      exact ⟨row', hrow', hown'.trans hown⟩
    taskMark := fun task ht => (htasks task ht).1
    taskRow := fun task ht => (htasks task ht).2
    eventOwner := fun event he id row hid hrow hown => by
      rw [hevents] at he
      obtain ⟨old, hold⟩ := Option.isSome_iff_exists.mp (h.schema.eventCommand event he id hid)
      obtain ⟨row', hrow', hsame⟩ := hkeeps id old hold
      cases hrow.symm.trans hrow'
      exact h.eventOwner event he id old hid hold (hsame.symm.trans hown) }

theorem Books.startExec {s s' : Session} (h : Books s) {id command : String} {background : Bool}
    {now : Now} (hstep : s.stepStartExec id command background now = some s') : Books s' := by
  obtain ⟨storage, hinsert, rfl⟩ := stepStartExec_some hstep
  have hcommand := Storage.insertCommand_command hinsert
  obtain ⟨hfresh, -, hstorage⟩ := Storage.insertCommand_ok hinsert
  have hkeeps : ∀ c row, s.storage.db.command c = some row →
      storage.db.command c = some row := by
    intro c row hrow
    have hne : c ≠ id := by
      rintro rfl
      exact absurd (hfresh.symm.trans hrow) nofun
    exact (hcommand c).trans ((if_neg hne).trans hrow)
  have hstarted : Books { s with
      storage := storage
      tasks := s.tasks ++ [⟨.started id s.runtime.sessionId command now, background⟩] } := by
    refine h.updateCommands (by rw [hstorage]) (fun _ => by rw [hstorage]; rfl)
      (Storage.insertCommand_schema h.schema hinsert)
      (fun c row hrow => ⟨row, hkeeps c row hrow, rfl⟩)
      ?_ ?_
    · intro c row hrow hown
      rw [hcommand] at hrow
      split at hrow
      · rename_i hc
        -- no event of a command is recorded before its row is inserted
        have hnone : ¬ ∃ event ∈ s.history, event.commandId = some c ∧
            event.persisted = false := by
          rintro ⟨event, he, hid, -⟩
          obtain ⟨old, hold, -⟩ := h.commands event he c hid
          rw [hc, hfresh] at hold
          cases hold
        cases hrow
        simpa [CommandInfo.started] using hnone
      · exact h.commandRows c row hrow hown
    · intro task ht
      cases List.mem_append.mp ht with
      | inl hold =>
          obtain ⟨row, hrow, hown⟩ := h.taskRow task hold
          exact ⟨h.taskMark task hold, row, hkeeps _ row hrow, hown⟩
      | inr hnew =>
          rw [List.mem_singleton.mp hnew]
          exact ⟨rfl, .started id s.runtime.sessionId command now,
            by rw [hcommand, if_pos rfl], rfl, rfl⟩
  split
  · exact hstarted
  · exact hstarted.setInfo rfl h.infoMark

theorem Books.finishExec {s s' : Session} (h : Books s) {id : String} {status : CommandStatus}
    {exit : Option UInt32} {now : Now} (hstep : s.stepFinishExec id status exit now = some s') :
    Books s' := by
  obtain ⟨task, htask, -, outputBytes, rfl⟩ := stepFinishExec_some hstep
  have hmark := h.taskMark task (task_mem htask).1
  have hfinished : Books { s with
      storage := s.storage.updateCommand
        (task.command.finished status exit s.runtime.sequence outputBytes now)
      tasks := s.tasks.filter fun task => task.command.id != id } := by
    refine h.updateCommands ?_ ?_ ?_ ?_ ?_ ?_
    · rfl
    · exact fun _ => rfl
    · exact Storage.updateCommand_schema h.schema
    · intro c row hrow
      refine ⟨_, by rw [Storage.updateCommand_command, hrow, Option.map_some], ?_⟩
      split <;> rfl
    · intro c row hrow hown
      rw [Storage.updateCommand_command] at hrow
      obtain ⟨old, hold, rfl⟩ := Option.map_eq_some_iff.mp hrow
      by_cases hid : old.id = task.command.id
      · simp only [CommandInfo.finished, hid, if_true, CommandInfo.update] at hown ⊢
        simpa only [hmark, Bool.or_false] using h.commandRows c old hold hown
      · simp only [CommandInfo.finished, hid, if_false] at hown ⊢
        exact h.commandRows c old hold hown
    · intro other ht
      obtain ⟨hother, hne⟩ := List.mem_filter.mp ht
      obtain ⟨row, hrow, hown⟩ := h.taskRow other hother
      refine ⟨h.taskMark other hother, row, ?_, hown⟩
      have hid : row.id ≠ task.command.id := by
        rw [Database.command_id hrow, (task_mem htask).2]
        simpa using hne
      rw [Storage.updateCommand_command, hrow, Option.map_some]
      exact congrArg some (if_neg hid)
  split
  · exact hfinished
  · exact hfinished.setInfo rfl h.infoMark

section Concat

variable {s : Session} {event : TerminalEvent} {storage : Storage}

theorem Books.numbers_concat (h : Books s) (hsequence : event.sequence = s.runtime.sequence + 1) :
    (s.history ++ [event]).map TerminalEvent.sequence =
      List.range' 1 (s.runtime.sequence + 1) := by
  rw [List.map_append, h.numbers]
  simp [List.range'_concat, hsequence, Nat.add_comm]

theorem Books.own_concat (h : Books s) (hown : event.sessionId = s.runtime.sessionId) :
    ∀ e ∈ s.history ++ [event], e.sessionId = s.runtime.sessionId :=
  List.forall_mem_append.mpr ⟨h.own, List.forall_mem_singleton.mpr hown⟩

/-- The commands of the history keep their rows in a store that keeps its commands. -/
theorem Books.commands_concat (h : Books s) (hkeeps : Storage.KeepsCommands s.storage storage)
    (hcommand : ∀ id, event.commandId = some id →
      ∃ row, s.storage.db.command id = some row ∧ row.sessionId = s.runtime.sessionId) :
    ∀ e ∈ s.history ++ [event], ∀ id, e.commandId = some id →
      ∃ row, storage.db.command id = some row ∧ row.sessionId = s.runtime.sessionId := by
  have hrow : ∀ id, (∃ row, s.storage.db.command id = some row ∧
        row.sessionId = s.runtime.sessionId) →
      ∃ row, storage.db.command id = some row ∧ row.sessionId = s.runtime.sessionId :=
    fun id => hkeeps.row fun owner _ => owner = s.runtime.sessionId
  exact List.forall_mem_append.mpr
    ⟨fun e he id hid => hrow id (h.commands e he id hid),
      List.forall_mem_singleton.mpr fun id hid => hrow id (hcommand id hid)⟩

theorem Books.taskRow_of_keeps (h : Books s)
    (hkeeps : Storage.KeepsCommands s.storage storage) :
    ∀ task ∈ s.tasks, ∃ row, storage.db.command task.command.id = some row ∧
      row.sessionId = s.runtime.sessionId ∧ row.status = .running :=
  fun task ht => hkeeps.row
    (fun owner status => owner = s.runtime.sessionId ∧ status = .running) (h.taskRow task ht)

end Concat

/-- The event the store rejected is the last of the live tail's queue. -/
theorem Books.reject {s : Session} (h : Books s) (event : TerminalEvent) {now : Now}
    (hsequence : event.sequence = s.runtime.sequence + 1)
    (hown : event.sessionId = s.runtime.sessionId)
    (hcommand : ∀ id, event.commandId = some id →
      ∃ row, s.storage.db.command id = some row ∧ row.sessionId = s.runtime.sessionId)
    (hpersisted : event.persisted = false) :
    Books { s with
      storage := s.storage.rejectEvent event
      runtime := ((s.runtime.drawSequence now).keepLive event).announce now
      history := s.history ++ [event]
      evicted := s.evicted ++ (s.runtime.overflow event).2 } := by
  have hkeeps := s.storage.rejectEvent_keeps event
  obtain ⟨row, hsession, -⟩ := h.sessionRow
  have hid := Database.session_id hsession
  exact
    { stored := by
        simpa [Session.stored, Storage.rejectEvent_events, hpersisted,
          SessionRuntime.announce, SessionRuntime.keepLive, SessionRuntime.drawSequence]
          using h.stored
      rejected := by
        show _ = s.evicted ++ (s.runtime.overflow event).2 ++ (s.runtime.overflow event).1
        rw [List.append_assoc, s.runtime.overflow_append, ← List.append_assoc, ← h.rejected]
        simp [hpersisted]
      bounded := (s.runtime.drawSequence now).keepLive_bounded event
      dropped := by
        have hdropped := h.dropped
        cases hd : s.runtime.liveTailDropped <;>
          simp_all [SessionRuntime.announce, SessionRuntime.keepLive,
            SessionRuntime.drawSequence, SessionRuntime.overflow]
      truncated := by simp [SessionRuntime.announce, SessionRuntime.keepLive, hpersisted]
      sessionRow := by
        refine ⟨row.truncate, ?_, by simp [SessionRow.truncate, hpersisted]⟩
        show (s.storage.rejectEvent event).db.session s.runtime.sessionId = _
        rw [Storage.rejectEvent_session, hsession, Option.map_some, hid, hown, if_pos rfl]
      commandRows := by
        intro id row hrow hr
        rw [Storage.rejectEvent_command] at hrow
        obtain ⟨old, hold, rfl⟩ := Option.map_eq_some_iff.mp hrow
        have hold_id := Database.command_id hold
        by_cases hc : event.commandId = some old.id
        · simp [hc, hold_id, CommandInfo.truncate, hpersisted]
        · rw [if_neg hc] at hr ⊢
          have hc' : ¬ event.commandId = some id := hold_id ▸ hc
          simpa [hc'] using h.commandRows id old hold hr
      schema := Storage.rejectEvent_schema h.schema
      numbers := h.numbers_concat hsequence
      own := h.own_concat hown
      commands := h.commands_concat hkeeps hcommand
      infoId := h.infoId
      infoMark := h.infoMark
      taskMark := h.taskMark
      taskRow := h.taskRow_of_keeps hkeeps
      eventOwner := by
        intro e he id row hid hrow hr
        obtain ⟨old, hold, hr', -⟩ := hkeeps.back hrow
        exact h.eventOwner e (s.storage.rejectEvent_events event ▸ he) id old hid hold
          (hr'.trans hr) }

/-- The event the store accepted is its last row. -/
theorem Books.accept {s : Session} (h : Books s) (event : TerminalEvent) {db : Database}
    {now : Now} (hsequence : event.sequence = s.runtime.sequence + 1)
    (hown : event.sessionId = s.runtime.sessionId)
    (hcommand : ∀ id, event.commandId = some id →
      ∃ row, s.storage.db.command id = some row ∧ row.sessionId = s.runtime.sessionId)
    (hpersisted : event.persisted = true) (hinsert : s.storage.db.insertEvent event = .ok db) :
    Books { s with
      storage := { s.storage with db := Storage.countEvent db event }
      runtime := (s.runtime.drawSequence now).announce now
      history := s.history ++ [event] } := by
  have hevents := Storage.acceptEvent_events hinsert
  have hsessions := Storage.acceptEvent_session hinsert
  have hcommands := Storage.acceptEvent_command hinsert
  have hkeeps := Storage.acceptEvent_keeps hinsert
  obtain ⟨row, hsession, htruncated⟩ := h.sessionRow
  have hid := Database.session_id hsession
  exact
    { stored := by
        have hstored := h.stored
        simp only [Session.stored, SessionRuntime.announce, SessionRuntime.drawSequence]
          at hstored ⊢
        rw [hevents, List.filter_append, hstored, List.filter_append]
        cases event
        simp_all
      rejected := by
        simpa [hpersisted, SessionRuntime.announce, SessionRuntime.drawSequence] using h.rejected
      bounded := h.bounded
      dropped := h.dropped
      truncated := by
        simpa [hpersisted, SessionRuntime.announce, SessionRuntime.drawSequence] using h.truncated
      sessionRow := by
        refine ⟨row.count event.payload.length, ?_, by
          simpa [SessionRow.count, hpersisted] using htruncated⟩
        show (Storage.countEvent db event).session s.runtime.sessionId = _
        rw [hsessions, hsession, Option.map_some, hid, hown, if_pos rfl]
      commandRows := by
        intro id row hrow hr
        rw [hcommands] at hrow
        obtain ⟨old, hold, rfl⟩ := Option.map_eq_some_iff.mp hrow
        have hmark := h.commandRows id old hold
        by_cases hc : event.commandId = some old.id
        · rw [if_pos hc] at hr ⊢
          simpa [CommandInfo.count, hpersisted] using hmark hr
        · rw [if_neg hc] at hr ⊢
          simpa [hpersisted] using hmark hr
      schema := Storage.countEvent_schema (h.schema.insertEvent hinsert)
      numbers := h.numbers_concat hsequence
      own := h.own_concat hown
      commands := h.commands_concat hkeeps hcommand
      infoId := h.infoId
      infoMark := h.infoMark
      taskMark := h.taskMark
      taskRow := h.taskRow_of_keeps hkeeps
      eventOwner := by
        intro e he id row hid hrow hr
        simp only [hevents] at he
        cases List.mem_append.mp he with
        | inl hold =>
            obtain ⟨old, hold', hr', -⟩ := hkeeps.back hrow
            exact h.eventOwner e hold id old hid hold' (hr'.trans hr)
        | inr hnew =>
            rw [List.mem_singleton.mp hnew]
            exact hown }

theorem Books.record {s s' : Session} (h : Books s) {commandId : Option String}
    {stream : StreamKind} {payload : Bytes} {now : Now}
    (hstep : s.stepRecord commandId stream payload now = some s') : Books s' := by
  obtain ⟨hrunning, hresult, rfl⟩ := stepRecord_some hstep
  have hcommand : ∀ id, commandId = some id →
      ∃ row, s.storage.db.command id = some row ∧ row.sessionId = s.runtime.sessionId := by
    rintro id hid
    obtain ⟨task, htask⟩ := hrunning id hid
    obtain ⟨row, hrow, hown, -⟩ := h.taskRow task (task_mem htask).1
    rw [(task_mem htask).2] at hrow
    exact ⟨row, hrow, hown⟩
  rcases record_ok rfl hresult with hrejected | ⟨db, hinsert, haccepted⟩
  · rw [hrejected]
    exact h.reject { s.runtime.nextEvent commandId stream payload now with persisted := false }
      rfl rfl hcommand rfl
  · rw [haccepted, List.append_nil]
    exact h.accept (s.runtime.nextEvent commandId stream payload now) rfl rfl hcommand rfl hinsert

/-- Every call keeps the books. -/
theorem Books.step {s s' : Session} (h : Books s) {call : SessionCall}
    (hstep : s.step call = some s') : Books s' := by
  cases call with
  | record commandId stream payload now => exact h.record hstep
  | startExec id command background now => exact h.startExec hstep
  | finishExec id status exit now => exact h.finishExec hstep
  | close now =>
      cases hstep
      exact h.setInfo rfl h.infoMark

theorem books_run {db : Database} {limit : Nat}
    {id targetId targetName purpose clientName : String} {now : Now} {calls : List SessionCall}
    {s : Session} (hschema : db.Schema) (hnew : db.session id = none)
    (hrun : machine.run (created ⟨db, limit⟩
      (.created id targetId targetName purpose clientName now) now) calls = some s) : Books s :=
  machine.invariant (fun _ _ _ h hstep => h.step hstep) (books_created hschema hnew) hrun

theorem Books.nodup {s : Session} (h : Books s) : s.history.Nodup := by
  have hnumbers : (s.history.map TerminalEvent.sequence).Nodup := by
    rw [h.numbers]
    exact List.nodup_range'
  exact List.Nodup.of_map _ hnumbers

/-- The three places an event may be in, exclusively. -/
def OnOneShelf (s : Session) (event : TerminalEvent) : Prop :=
  (event ∈ s.stored ∧ event ∉ s.runtime.liveEvents ∧ event ∉ s.evicted) ∨
  (event ∉ s.stored ∧ event ∈ s.runtime.liveEvents ∧ event ∉ s.evicted) ∨
  (event ∉ s.stored ∧ event ∉ s.runtime.liveEvents ∧ event ∈ s.evicted)

theorem Books.onOneShelf {s : Session} (h : Books s) {event : TerminalEvent}
    (he : event ∈ s.history) : OnOneShelf s event := by
  have hstored : event ∈ s.stored ↔ event.persisted = true := by
    rw [h.stored, List.mem_filter]
    exact and_iff_right he
  have hrejected : event ∈ s.evicted ∨ event ∈ s.runtime.liveEvents ↔
      event.persisted = false := by
    rw [← List.mem_append, ← h.rejected, List.mem_filter]
    simp [he]
  have hapart : event ∈ s.evicted → event ∉ s.runtime.liveEvents := by
    have hnodup : (s.evicted ++ s.runtime.liveEvents).Nodup := by
      rw [← h.rejected]
      exact h.nodup.filter _
    exact fun hevicted hlive => List.disjoint_of_nodup_append hnodup hevicted hlive
  rw [OnOneShelf]
  cases hp : event.persisted <;> simp only [hp] at hstored hrejected <;> tauto

/-- Over any run of calls: no event is in two places or in none, the tail is the
bounded end of what the store rejected, and the flags tell every loss. -/
theorem output_loss_is_reported {db : Database} {limit : Nat}
    {id targetId targetName purpose clientName : String} {now : Now} {calls : List SessionCall}
    {s : Session} (hschema : db.Schema) (hnew : db.session id = none)
    (hrun : machine.run (created ⟨db, limit⟩
      (.created id targetId targetName purpose clientName now) now) calls = some s) :
    (∀ event ∈ s.history, OnOneShelf s event) ∧
    s.runtime.liveEvents <:+ s.history.filter (fun event => !event.persisted) ∧
    payloadBytes s.runtime.liveEvents ≤ liveTailBytes ∧
    (s.runtime.liveTailDropped = true ↔ ∃ event, event ∈ s.evicted) ∧
    (s.runtime.recordingTruncated = true ↔ ∃ event ∈ s.history, event.persisted = false) ∧
    (∃ row, s.storage.db.session s.runtime.sessionId = some row ∧
      (row.info.recordingTruncated = true ↔ ∃ event ∈ s.history, event.persisted = false)) ∧
    ∀ id row, s.storage.db.command id = some row → row.sessionId = s.runtime.sessionId →
      (row.recordingTruncated = true ↔
        ∃ event ∈ s.history, event.commandId = some id ∧ event.persisted = false) := by
  have h := books_run hschema hnew hrun
  refine ⟨fun event he => h.onOneShelf he, ⟨s.evicted, h.rejected.symm⟩, h.bounded, ?_,
    h.truncated, h.sessionRow, h.commandRows⟩
  rw [h.dropped]
  exact ⟨List.exists_mem_of_ne_nil _, fun ⟨_, he⟩ => List.ne_nil_of_mem he⟩

/-- A rejected event between two accepted ones. -/
def rejectedBetweenAccepted : List SessionCall :=
  let now : Now := ⟨0, 0⟩
  [.startExec "c" "ls" false now, .record (some "c") .stdout [1, 2, 3] now,
    .record (some "c") .stderr [4, 5] now, .record (some "c") .stdout [6] now,
    .finishExec "c" .completed (some 0) now, .close now]

theorem output_loss_is_reported_rejectedBetweenAccepted :
    ∃ s, machine.run (created ⟨.empty, 4⟩ (.created "s" "t" "t" "p" "m" ⟨0, 0⟩) ⟨0, 0⟩)
        rejectedBetweenAccepted = some s ∧ ∀ event ∈ s.history, OnOneShelf s event := by
  have hsome : (machine.run (created ⟨.empty, 4⟩ (.created "s" "t" "t" "p" "m" ⟨0, 0⟩) ⟨0, 0⟩)
      rejectedBetweenAccepted).isSome = true := by decide
  obtain ⟨s, hs⟩ := Option.isSome_iff_exists.mp hsome
  exact ⟨s, hs, (output_loss_is_reported Database.schema_empty rfl hs).1⟩

end Session
end AiSsh
