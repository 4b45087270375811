import AiSsh.Library.Ledger
import AiSsh.Recording

/-!
The counters of the recording store. The events table is a journal with two sets of
accounts, one for each session and one for each command. Accepted events are posted to
both; the upserts leave the balances alone; `cleanup` closes the accounts of whole
sessions, and the cascade takes their entries along.
-/

namespace AiSsh

open Library

namespace Database

def sessionAccounts (db : Database) : List (Account String) :=
  db.sessions.map fun row => ⟨row.info.id, row.recordedBytes⟩

def commandAccounts (db : Database) : List (Account String) :=
  db.commands.map fun row => ⟨row.id, row.outputBytes⟩

def sessionOwner (event : TerminalEvent) : Option String := some event.sessionId

/-- What the calls keep of the tables and their counters. -/
structure Ledger (db : Database) : Prop where
  schema : db.Schema
  sessionIds : (db.sessionAccounts.map Account.key).Nodup
  owners : ∀ event ∈ db.events, ∀ row ∈ db.commands, event.commandId = some row.id →
    row.sessionId = event.sessionId
  sessions : Account.Balanced sessionOwner payloadLength db.sessionAccounts db.events
  commands : Account.Balanced TerminalEvent.commandId payloadLength db.commandAccounts db.events

theorem ledger_empty : empty.Ledger where
  schema := schema_empty
  sessionIds := List.nodup_nil
  owners := by simp [empty]
  sessions := Account.balanced_nil
  commands := Account.balanced_nil

variable {db : Database}

theorem mem_session_isSome {row : SessionRow} (h : row ∈ db.sessions) :
    (db.session row.info.id).isSome = true := by
  rw [session, List.find?_isSome]
  exact ⟨row, h, by simp⟩

theorem mem_sessionIds {id : String} :
    id ∈ db.sessionAccounts.map Account.key ↔ ∃ row ∈ db.sessions, row.info.id = id := by
  simp [sessionAccounts]

theorem mem_command_isSome {row : CommandInfo} (h : row ∈ db.commands) :
    (db.command row.id).isSome = true := by
  rw [command, List.find?_isSome]
  exact ⟨row, h, by simp⟩

theorem sessionAccounts_updateSession {set : SessionRow → SessionRow}
    (hset : ∀ row, (set row).info.id = row.info.id ∧ (set row).recordedBytes = row.recordedBytes)
    (id : String) : (db.updateSession id set).sessionAccounts = db.sessionAccounts := by
  simp only [sessionAccounts, updateSession, List.map_map]
  refine List.map_congr_left fun row _ => ?_
  simp only [Function.comp_apply]
  split
  · rw [(hset row).1, (hset row).2]
  · rfl

theorem commandAccounts_updateCommand {set : CommandInfo → CommandInfo}
    (hset : ∀ row, (set row).id = row.id ∧ (set row).outputBytes = row.outputBytes)
    (id : String) : (db.updateCommand id set).commandAccounts = db.commandAccounts := by
  simp only [commandAccounts, updateCommand, List.map_map]
  refine List.map_congr_left fun row _ => ?_
  simp only [Function.comp_apply]
  split
  · rw [(hset row).1, (hset row).2]
  · rfl

/-- A command row that was there before the update, with its keys. -/
theorem mem_updateCommand (set : CommandInfo → CommandInfo)
    (hset : ∀ row, (set row).id = row.id ∧ (set row).sessionId = row.sessionId)
    {id : String} {row : CommandInfo} (h : row ∈ (db.updateCommand id set).commands) :
    ∃ old ∈ db.commands, old.id = row.id ∧ old.sessionId = row.sessionId := by
  obtain ⟨old, hold, rfl⟩ := List.mem_map.mp h
  refine ⟨old, hold, ?_⟩
  split
  · exact ⟨(hset old).1.symm, (hset old).2.symm⟩
  · exact ⟨rfl, rfl⟩

theorem Ledger.updateSession (h : db.Ledger) (set : SessionRow → SessionRow)
    (hset : ∀ row, (set row).info.id = row.info.id ∧ (set row).recordedBytes = row.recordedBytes)
    (id : String) : (db.updateSession id set).Ledger where
  schema := h.schema.updateSession id set fun row => (hset row).1
  sessionIds := by
    rw [sessionAccounts_updateSession hset]
    exact h.sessionIds
  owners := h.owners
  sessions := by
    rw [sessionAccounts_updateSession hset]
    exact h.sessions
  commands := h.commands

theorem Ledger.updateCommand (h : db.Ledger) (set : CommandInfo → CommandInfo)
    (hkeys : ∀ row, (set row).id = row.id ∧ (set row).sessionId = row.sessionId)
    (hbytes : ∀ row, (set row).outputBytes = row.outputBytes) (id : String) :
    (db.updateCommand id set).Ledger where
  schema := h.schema.updateCommand id set (fun row => (hkeys row).1) fun row => (hkeys row).2
  sessionIds := h.sessionIds
  owners := by
    intro event hevent row hrow hid
    obtain ⟨old, hold, holdId, hsession⟩ := mem_updateCommand set hkeys hrow
    rw [← hsession]
    exact h.owners event hevent old hold (holdId ▸ hid)
  sessions := h.sessions
  commands := by
    rw [commandAccounts_updateCommand fun row => ⟨(hkeys row).1, hbytes row⟩]
    exact h.commands

end Database

namespace Storage

open Database

variable {s : Storage}

theorem upsertSession_ledger (h : s.db.Ledger) (info : SessionInfo) :
    (s.upsertSession info).db.Ledger := by
  have hschema : (s.upsertSession info).db.Schema := upsertSession_schema h.schema
  rw [upsertSession] at hschema ⊢
  split
  · exact h.updateSession (SessionRow.upsert info) (fun _ => ⟨rfl, rfl⟩) info.id
  · rename_i hnew
    rw [if_neg hnew] at hschema
    have hevents : ∀ event ∈ s.db.events, sessionOwner event ≠ some info.id := by
      intro event hevent howner
      rw [← Option.some.inj howner] at hnew
      exact hnew (h.schema.eventSession event hevent)
    have haccounts : ({ s.db with sessions := s.db.sessions ++ [⟨info, 0⟩] } :
        Database).sessionAccounts = s.db.sessionAccounts ++ [⟨info.id, 0⟩] := by
      simp [sessionAccounts]
    refine ⟨hschema, ?_, h.owners, ?_, h.commands⟩
    · rw [haccounts, List.map_append, List.nodup_append]
      refine ⟨h.sessionIds, List.nodup_singleton _, ?_⟩
      intro id hid other hother heq
      obtain ⟨row, hrow, rfl⟩ := mem_sessionIds.mp hid
      rw [List.map_singleton, List.mem_singleton] at hother
      have hsame : row.info.id = info.id := heq.trans hother
      exact hnew (hsame ▸ mem_session_isSome hrow)
    · rw [haccounts]
      exact h.sessions.openAccount hevents

theorem insertCommand_ledger (h : s.db.Ledger) {s' : Storage} {command : CommandInfo}
    (hbytes : command.outputBytes = 0) (hinsert : s.insertCommand command = .ok s') :
    s'.db.Ledger := by
  have hschema := insertCommand_schema h.schema hinsert
  obtain ⟨hfresh, -, rfl⟩ := insertCommand_ok hinsert
  have hevents : ∀ event ∈ s.db.events, event.commandId ≠ some command.id := by
    intro event hevent howner
    have hsome := h.schema.eventCommand event hevent command.id howner
    rw [hfresh] at hsome
    cases hsome
  refine ⟨hschema, h.sessionIds, ?_, h.sessions, ?_⟩
  · intro event hevent row hrow hid
    cases List.mem_append.mp hrow with
    | inl hold => exact h.owners event hevent row hold hid
    | inr hlast =>
        rw [List.mem_singleton.mp hlast] at hid
        exact absurd hid (hevents event hevent)
  · have := h.commands.openAccount hevents
    simpa [commandAccounts, hbytes] using this

theorem updateCommand_ledger (h : s.db.Ledger) (command : CommandInfo) :
    (s.updateCommand command).db.Ledger :=
  h.updateCommand command.update (fun _ => ⟨rfl, rfl⟩) (fun _ => rfl) command.id

theorem rejectEvent_ledger (h : s.db.Ledger) (event : TerminalEvent) :
    (s.rejectEvent event).db.Ledger := by
  have hsession : (s.db.updateSession event.sessionId SessionRow.truncate).Ledger :=
    h.updateSession SessionRow.truncate (fun _ => ⟨rfl, rfl⟩) event.sessionId
  cases hcommand : event.commandId with
  | none => simpa [rejectEvent, hcommand] using hsession
  | some id =>
      simpa [rejectEvent, hcommand] using
        hsession.updateCommand CommandInfo.truncate (fun _ => ⟨rfl, rfl⟩) (fun _ => rfl) id

theorem countEvent_sessions (db : Database) (event : TerminalEvent) :
    (countEvent db event).sessions = db.sessions.map fun row =>
      if row.info.id = event.sessionId then row.count event.payload.length else row := by
  cases h : event.commandId with
  | none => simp [countEvent, countCommand, Database.updateSession, h]
  | some id => simp [countEvent, countCommand, Database.updateSession, h]

theorem countEvent_sessionAccounts (db : Database) (event : TerminalEvent) :
    (countEvent db event).sessionAccounts =
      Account.post sessionOwner payloadLength event db.sessionAccounts := by
  simp only [sessionAccounts, countEvent_sessions, Account.post, List.map_map]
  refine List.map_congr_left fun row _ => ?_
  by_cases hid : row.info.id = event.sessionId
  · simp [hid, sessionOwner, SessionRow.count, payloadLength]
  · simp [hid, sessionOwner, Ne.symm hid]

theorem countEvent_commandAccounts (db : Database) (event : TerminalEvent) :
    (countEvent db event).commandAccounts =
      Account.post TerminalEvent.commandId payloadLength event db.commandAccounts := by
  simp only [countEvent, commandAccounts, Database.updateSession_commands, Account.post,
    List.map_map]
  cases hcommand : event.commandId with
  | none => simp [countCommand, hcommand]
  | some id =>
      simp only [countCommand, hcommand, Database.updateCommand, List.map_map]
      refine List.map_congr_left fun row _ => ?_
      by_cases hid : row.id = id
      · simp [hid, CommandInfo.count, payloadLength]
      · simp [hid, Ne.symm hid]

/-- An accepted event is posted to its session and to its command. -/
theorem acceptEvent_ledger (h : s.db.Ledger) {db : Database} {event : TerminalEvent}
    (howner : ∀ row ∈ s.db.commands, event.commandId = some row.id →
      row.sessionId = event.sessionId)
    (hinsert : s.db.insertEvent event = .ok db) : (countEvent db event).Ledger := by
  have hschema : (countEvent db event).Schema := countEvent_schema (h.schema.insertEvent hinsert)
  have hevents := acceptEvent_events hinsert
  obtain ⟨-, -, -, rfl⟩ := insertEvent_ok hinsert
  have hcommands : ∀ row ∈ (countEvent { s.db with
      events := s.db.events ++ [{ event with persisted := true }] } event).commands,
      ∃ old ∈ s.db.commands, old.id = row.id ∧ old.sessionId = row.sessionId := by
    intro row hrow
    simp only [countEvent, Database.updateSession_commands] at hrow
    cases hcommand : event.commandId with
    | none =>
        simp only [countCommand, hcommand] at hrow
        exact ⟨row, hrow, rfl, rfl⟩
    | some id =>
        simp only [countCommand, hcommand] at hrow
        exact mem_updateCommand (CommandInfo.count event.payload.length event.sequence)
          (fun _ => ⟨rfl, rfl⟩) hrow
  refine ⟨hschema, ?_, ?_, ?_, ?_⟩
  · rw [countEvent_sessionAccounts, Account.post_keys]
    exact h.sessionIds
  · intro e he row hrow hid
    obtain ⟨old, hold, holdId, hsession⟩ := hcommands row hrow
    rw [← hsession]
    rw [hevents] at he
    cases List.mem_append.mp he with
    | inl hbefore => exact h.owners e hbefore old hold (holdId ▸ hid)
    | inr hlast =>
        rw [List.mem_singleton.mp hlast] at hid ⊢
        exact howner old hold (holdId ▸ hid)
  · rw [hevents, countEvent_sessionAccounts]
    exact h.sessions.post { event with persisted := true }
  · rw [hevents, countEvent_commandAccounts]
    exact h.commands.post { event with persisted := true }

theorem deleteExpired_session {before : DateTime} {id : String}
    (h : (s.db.session id).isSome = true) (hkept : s.expires before id = false) :
    ((s.deleteExpired before).db.session id).isSome = true := by
  obtain ⟨row, hrow⟩ := Option.isSome_iff_exists.mp h
  have hmem : row ∈ s.db.sessions := List.mem_of_find?_eq_some hrow
  have hid : row.info.id = id := session_id hrow
  have hnot : row.expired before = false := by
    have := List.any_eq_false.mp hkept row hmem
    simpa [hid] using this
  rw [← hid]
  exact mem_session_isSome (List.mem_filter.mpr ⟨hmem, by simp [hnot]⟩)

theorem deleteExpired_command {before : DateTime} {id : String}
    (h : (s.db.command id).isSome = true)
    (hkept : ∀ row ∈ s.db.commands, row.id = id → s.expires before row.sessionId = false) :
    ((s.deleteExpired before).db.command id).isSome = true := by
  obtain ⟨row, hrow⟩ := Option.isSome_iff_exists.mp h
  have hid : row.id = id := command_id hrow
  rw [← hid]
  exact mem_command_isSome (List.mem_filter.mpr
    ⟨command_mem hrow, by simp [hkept row (command_mem hrow) hid]⟩)

/-- An account that is kept loses no entry. -/
theorem kept_entry (h : s.db.Ledger) {before : DateTime} {event : TerminalEvent}
    (hevent : event ∈ s.db.events) (hsession : s.expires before event.sessionId = false) :
    (!s.expires before event.sessionId && !s.expiresCommand before event) = true := by
  have hcommand : s.expiresCommand before event = false := by
    cases hid : event.commandId with
    | none => simp [expiresCommand, hid]
    | some id =>
        simp only [expiresCommand, hid, Option.any_some, List.any_eq_false]
        intro row hrow hgone
        simp only [Bool.and_eq_true, beq_iff_eq] at hgone
        have howner := h.owners event hevent row hrow (hid.trans (congrArg some hgone.1.symm))
        rw [howner, hsession] at hgone
        cases hgone.2
  simp [hsession, hcommand]

theorem deleteExpired_schema (h : s.db.Ledger) (before : DateTime) :
    (s.deleteExpired before).db.Schema where
  uniqueSequences := List.Pairwise.filter _ h.schema.uniqueSequences
  eventSession := by
    intro event hevent
    obtain ⟨hold, hkept⟩ := List.mem_filter.mp hevent
    simp only [Bool.and_eq_true, Bool.not_eq_true'] at hkept
    exact deleteExpired_session (h.schema.eventSession event hold) hkept.1
  eventCommand := by
    intro event hevent id hid
    obtain ⟨hold, hkept⟩ := List.mem_filter.mp hevent
    simp only [Bool.and_eq_true, Bool.not_eq_true'] at hkept
    refine deleteExpired_command (h.schema.eventCommand event hold id hid) ?_
    intro row hrow hrowId
    rw [h.owners event hold row hrow (hid.trans (congrArg some hrowId.symm))]
    exact hkept.1
  commandSession := by
    intro row hrow
    obtain ⟨hold, hkept⟩ := List.mem_filter.mp hrow
    exact deleteExpired_session (h.schema.commandSession row hold) (by simpa using hkept)

theorem session_unique (h : s.db.Ledger) {row row' : SessionRow} (hrow : row ∈ s.db.sessions)
    (hrow' : row' ∈ s.db.sessions) (hid : row.info.id = row'.info.id) : row = row' := by
  have hids : (s.db.sessions.map fun row => row.info.id).Nodup := by
    simpa [sessionAccounts, Function.comp_def] using h.sessionIds
  exact List.inj_on_of_nodup_map hids hrow hrow' hid

/-- The session row of an account that is kept is the only one of its id. -/
theorem not_expires_of_kept (h : s.db.Ledger) {before : DateTime} {row : SessionRow}
    (hrow : row ∈ s.db.sessions) (hkept : row.expired before = false) :
    s.expires before row.info.id = false := by
  rw [expires, List.any_eq_false]
  intro other hother hgone
  simp only [Bool.and_eq_true, beq_iff_eq] at hgone
  rw [session_unique h hother hrow hgone.2, hkept] at hgone
  cases hgone.1

theorem deleteExpired_ledger (h : s.db.Ledger) (before : DateTime) :
    (s.deleteExpired before).db.Ledger where
  schema := deleteExpired_schema h before
  sessionIds := h.sessionIds.sublist ((List.filter_sublist.map _).map _)
  owners := by
    intro event hevent row hrow hid
    exact h.owners event (List.mem_of_mem_filter hevent) row (List.mem_of_mem_filter hrow) hid
  sessions := by
    refine h.sessions.close (fun account haccount => ?_)
      fun account haccount event hevent howner => ?_
    · exact (List.filter_sublist.map _).subset haccount
    · obtain ⟨row, hrow, rfl⟩ := List.mem_map.mp haccount
      obtain ⟨hold, hkept⟩ := List.mem_filter.mp hrow
      refine kept_entry h hevent ?_
      rw [Option.some.inj howner]
      exact not_expires_of_kept h hold (by simpa using hkept)
  commands := by
    refine h.commands.close (fun account haccount => ?_)
      fun account haccount event hevent howner => ?_
    · exact (List.filter_sublist.map _).subset haccount
    · obtain ⟨row, hrow, rfl⟩ := List.mem_map.mp haccount
      obtain ⟨hold, hkept⟩ := List.mem_filter.mp hrow
      refine kept_entry h hevent ?_
      rw [← h.owners event hevent row hold howner]
      simpa using hkept

/-- No session's counter is beyond the limit. -/
def WithinLimit (s : Storage) : Prop :=
  s.recordingLimitBytes + 1 < 2 ^ 64 ∧
    ∀ row ∈ s.db.sessions, row.recordedBytes ≤ s.recordingLimitBytes

theorem WithinLimit.updateSession (h : s.WithinLimit) (set : SessionRow → SessionRow)
    (hset : ∀ row, (set row).recordedBytes = row.recordedBytes) (id : String) :
    WithinLimit { s with db := s.db.updateSession id set } := by
  refine ⟨h.1, ?_⟩
  intro row hrow
  obtain ⟨old, hold, rfl⟩ := List.mem_map.mp hrow
  split
  · rw [hset]
    exact h.2 old hold
  · exact h.2 old hold

theorem upsertSession_within (h : s.WithinLimit) (info : SessionInfo) :
    (s.upsertSession info).WithinLimit := by
  rw [upsertSession]
  split
  · exact h.updateSession (SessionRow.upsert info) (fun _ => rfl) info.id
  · refine ⟨h.1, ?_⟩
    intro row hrow
    cases List.mem_append.mp hrow with
    | inl hold => exact h.2 row hold
    | inr hlast =>
        rw [List.mem_singleton.mp hlast]
        exact Nat.zero_le _

theorem rejectEvent_within (h : s.WithinLimit) (event : TerminalEvent) :
    (s.rejectEvent event).WithinLimit := by
  have hsession := h.updateSession SessionRow.truncate (fun _ => rfl) event.sessionId
  cases hcommand : event.commandId with
  | none => simpa [rejectEvent, hcommand] using hsession
  | some id =>
      simp only [rejectEvent, hcommand]
      exact hsession

end Storage

/-- The calls that write the store. -/
inductive StorageCall
  | upsertSession (session : SessionInfo)
  | insertCommand (command : CommandInfo)
  | updateCommand (command : CommandInfo)
  | appendEvent (event : TerminalEvent)
  | cleanup (retentionDays : Nat) (now : DateTime)
  deriving DecidableEq, Repr

namespace Storage

open Database

/-- A call that succeeds. -/
def step (s : Storage) : StorageCall → Option Storage
  | .upsertSession session => some (s.upsertSession session)
  | .insertCommand command => (s.insertCommand command).toOption
  | .updateCommand command => some (s.updateCommand command)
  | .appendEvent event => (s.appendEvent event).result.toOption.map fun _ =>
      (s.appendEvent event).storage
  | .cleanup retentionDays now => some (s.cleanup retentionDays now)

def machine : Machine Storage StorageCall := ⟨step⟩

/-- What the callers keep to: a command starts without bytes, and an event of a command
carries that command's session. -/
def Proper (s : Storage) : StorageCall → Prop
  | .insertCommand command => command.outputBytes = 0
  | .appendEvent event => ∀ row ∈ s.db.commands, event.commandId = some row.id →
      row.sessionId = event.sessionId
  | _ => True

instance (s : Storage) : DecidablePred s.Proper
  | .insertCommand command => inferInstanceAs (Decidable (command.outputBytes = 0))
  | .appendEvent event => inferInstanceAs (Decidable (∀ row ∈ s.db.commands,
      event.commandId = some row.id → row.sessionId = event.sessionId))
  | .upsertSession _ | .updateCommand _ | .cleanup _ _ => isTrue trivial

variable {s s' : Storage} {call : StorageCall}

theorem appendEvent_ledger (h : s.db.Ledger) {event : TerminalEvent}
    (hproper : s.Proper (.appendEvent event))
    (hresult : (s.appendEvent event).result = .ok ()) :
    (s.appendEvent event).storage.db.Ledger := by
  obtain ⟨-, ⟨-, hstorage⟩ | ⟨db, hinsert, -, hstorage⟩⟩ := appendEvent_ok hresult
  · rw [hstorage]
    exact rejectEvent_ledger h event
  · rw [hstorage]
    exact acceptEvent_ledger h hproper hinsert

/-- An event is accepted only where it fits below the limit. -/
theorem acceptEvent_within (hledger : s.db.Ledger) (h : s.WithinLimit) {event : TerminalEvent}
    {row : SessionRow} {db : Database} (hrow : s.db.session event.sessionId = some row)
    (hfits : ¬saturatingAdd row.recordedBytes event.payload.length > s.recordingLimitBytes)
    (hinsert : s.db.insertEvent event = .ok db) :
    WithinLimit { s with db := countEvent db event } := by
  obtain ⟨-, -, -, rfl⟩ := insertEvent_ok hinsert
  refine ⟨h.1, ?_⟩
  intro last hlast
  rw [countEvent_sessions] at hlast
  obtain ⟨old, hold, rfl⟩ := List.mem_map.mp hlast
  have hbytes := h.2 old hold
  split
  · rename_i hid
    have hfound : row = old := session_unique hledger (List.mem_of_find?_eq_some hrow) hold
      ((session_id hrow).trans hid.symm)
    have hlimit := h.1
    rw [hfound, saturatingAdd] at hfits
    simp only [SessionRow.count]
    omega
  · exact hbytes

theorem appendEvent_within (hledger : s.db.Ledger) (h : s.WithinLimit) (event : TerminalEvent) :
    (s.appendEvent event).storage.WithinLimit := by
  rw [appendEvent]
  cases hrow : s.db.session event.sessionId with
  | none => exact h
  | some row =>
      simp only
      split
      · exact rejectEvent_within h event
      · rename_i hfits
        cases hinsert : s.db.insertEvent event with
        | error error => exact h
        | ok db => exact acceptEvent_within hledger h hrow hfits hinsert

/-- What one call keeps. -/
theorem step_ledger (h : s.db.Ledger ∧ s.WithinLimit) (hproper : s.Proper call)
    (hstep : s.step call = some s') : s'.db.Ledger ∧ s'.WithinLimit := by
  obtain ⟨hledger, hwithin⟩ := h
  cases call with
  | upsertSession session =>
      cases hstep
      exact ⟨upsertSession_ledger hledger session, upsertSession_within hwithin session⟩
  | insertCommand command =>
      cases hinsert : s.insertCommand command with
      | error error =>
          simp only [step, hinsert] at hstep
          cases hstep
      | ok storage =>
          simp only [step, hinsert] at hstep
          cases hstep
          refine ⟨insertCommand_ledger hledger hproper hinsert, ?_⟩
          obtain ⟨-, -, rfl⟩ := insertCommand_ok hinsert
          exact hwithin
  | updateCommand command =>
      cases hstep
      exact ⟨updateCommand_ledger hledger command, hwithin⟩
  | appendEvent event =>
      cases hresult : (s.appendEvent event).result with
      | error error =>
          simp only [step, hresult] at hstep
          cases hstep
      | ok value =>
          simp only [step, hresult] at hstep
          cases hstep
          exact ⟨appendEvent_ledger hledger hproper hresult,
            appendEvent_within hledger hwithin event⟩
  | cleanup retentionDays now =>
      cases hstep
      refine ⟨deleteExpired_ledger hledger _, hwithin.1, ?_⟩
      intro row hrow
      exact hwithin.2 row (List.mem_of_mem_filter hrow)

/-- The counters of the store say what its events table holds. -/
structure Exact (s : Storage) : Prop where
  sessionBytes : ∀ row ∈ s.db.sessions, row.recordedBytes =
    payloadBytes (s.db.events.filter fun event => event.sessionId == row.info.id)
  withinLimit : ∀ row ∈ s.db.sessions, row.recordedBytes ≤ s.recordingLimitBytes
  commandBytes : ∀ row ∈ s.db.commands, row.outputBytes =
    payloadBytes (s.db.events.filter fun event => event.commandId == some row.id)
  uniqueSequences : s.db.UniqueSequences
  commandSession : ∀ row ∈ s.db.commands, (s.db.session row.sessionId).isSome
  eventSession : ∀ event ∈ s.db.events, (s.db.session event.sessionId).isSome

theorem exact_of_ledger (h : s.db.Ledger) (hwithin : s.WithinLimit) : s.Exact where
  sessionBytes := by
    intro row hrow
    have hbalance := h.sessions ⟨row.info.id, row.recordedBytes⟩ (List.mem_map_of_mem hrow)
    simpa [Account.entriesOf, sessionOwner, payloadBytes, beq_eq_decide] using hbalance
  withinLimit := hwithin.2
  commandBytes := by
    intro row hrow
    have hbalance := h.commands ⟨row.id, row.outputBytes⟩ (List.mem_map_of_mem hrow)
    simpa [Account.entriesOf, payloadBytes, beq_eq_decide] using hbalance
  uniqueSequences := h.schema.uniqueSequences
  commandSession := h.schema.commandSession
  eventSession := h.schema.eventSession

/-- After any sequence of successful calls on a new database the counters are exact and
bounded and every row belongs to a stored session. -/
theorem recording_accounts_exact {recordingLimitMib : Nat} {calls : List StorageCall}
    {t : Storage}
    (hproper : machine.Meets Proper (.openWith .empty recordingLimitMib) calls)
    (hrun : machine.run (.openWith .empty recordingLimitMib) calls = some t) : t.Exact := by
  have hlimit : (Storage.openWith .empty recordingLimitMib).WithinLimit := by
    refine ⟨?_, by simp [openWith, empty]⟩
    simp only [openWith]
    omega
  have hend : t.db.Ledger ∧ t.WithinLimit :=
    machine.invariant_under (I := fun s => s.db.Ledger ∧ s.WithinLimit)
      (fun _ _ _ h hproper hstep => step_ledger h hproper hstep) ⟨ledger_empty, hlimit⟩ hproper
      hrun
  exact exact_of_ledger hend.1 hend.2

/-- A session is recorded, closed, deleted and recorded again. -/
theorem recording_accounts_exact_again :
    ∃ calls t, machine.run (.openWith .empty 1) calls = some t ∧
      t.db.sessions.map SessionRow.recordedBytes = [3] ∧ t.Exact := by
  let info : SessionInfo := .created "s" "t" "t" "p" "m" ⟨0, 0⟩
  let command : CommandInfo := .started "c" "s" "ls" ⟨0, 0⟩
  let event : TerminalEvent := ⟨"s", some "c", 1, 0, .stdout, [1, 2], true⟩
  let calls : List StorageCall :=
    [.upsertSession info, .insertCommand command, .appendEvent event,
      .updateCommand (command.finished .completed (some 0) 1 2 ⟨1, 1⟩),
      .upsertSession (info.closed ⟨2, 2⟩), .cleanup 0 1, .upsertSession info,
      .appendEvent { event with commandId := none, payload := [1, 2, 3] }]
  have hall : ((machine.run (.openWith .empty 1) calls).any fun t =>
      decide (t.db.sessions.map SessionRow.recordedBytes = [3])) = true := by decide
  have hproper : machine.Meets Proper (.openWith .empty 1) calls := by decide
  obtain ⟨t, hrun, ht⟩ := (Option.any_eq_true _ _).mp hall
  exact ⟨calls, t, hrun, of_decide_eq_true ht, recording_accounts_exact hproper hrun⟩

end Storage
end AiSsh
