import AiSsh.CommandDrain

/-!
Whether a poll tells the truth about output. The warnings are worked out from the page at
hand and from the bytes the store has counted, so what they say of a command depends on
where its events went: the store may have rejected all of them, the live tail may have
given them up, and the tail goes with the runtime.
-/

namespace AiSsh

open Library

/-- `run_exec` records the two streams of its channel. -/
def SessionCall.FromChannel : SessionCall → Prop
  | .record (some _) stream _ _ => stream = .stdout ∨ stream = .stderr
  | .record none _ _ _ | .startExec _ _ _ _ | .finishExec _ _ _ _ | .close _ => True

theorem warnings_distinct :
    [recordingLimitWarning, liveTailWarning, interruptedWithOutputWarning, interruptedWarning,
      noOutputWarning].Nodup := by
  decide +kernel

section Warnings

variable {page : CommandPage} {after : Nat}

theorem mem_pollWarnings {warning : String} :
    warning ∈ pollWarnings page after ↔
      (page.command.recordingTruncated = true ∧ warning = recordingLimitWarning ∨
        page.runtime.any SessionRuntime.liveTailDropped = true ∧ warning = liveTailWarning) ∨
      page.command.status = .interrupted ∧
        (0 < page.command.outputBytes ∧ warning = interruptedWithOutputWarning ∨
          page.command.outputBytes = 0 ∧ warning = interruptedWarning) ∨
      (after = 0 ∧ page.events = [] ∧ page.command.status ≠ .running) ∧
        warning = noOutputWarning := by
  cases Nat.eq_zero_or_pos page.command.outputBytes with
  | inl hbytes => simp [pollWarnings, hbytes, or_assoc]
  | inr hbytes => simp [pollWarnings, hbytes, Nat.ne_of_gt hbytes, or_assoc]

theorem noOutputWarning_mem :
    noOutputWarning ∈ pollWarnings page after ↔
      after = 0 ∧ page.events = [] ∧ page.command.status ≠ .running := by
  have h := warnings_distinct
  simp only [List.nodup_cons, List.mem_cons, List.not_mem_nil, or_false, not_or] at h
  simp [mem_pollWarnings, Ne.symm h.1.2.2.2, Ne.symm h.2.1.2.2, Ne.symm h.2.2.1.2,
    Ne.symm h.2.2.2.1]

theorem interruptedWithOutputWarning_mem :
    interruptedWithOutputWarning ∈ pollWarnings page after ↔
      page.command.status = .interrupted ∧ 0 < page.command.outputBytes := by
  have h := warnings_distinct
  simp only [List.nodup_cons, List.mem_cons, List.not_mem_nil, or_false, not_or] at h
  simp [mem_pollWarnings, Ne.symm h.1.2.1, Ne.symm h.2.1.1, h.2.2.1.1, h.2.2.1.2]

theorem interruptedWarning_mem :
    interruptedWarning ∈ pollWarnings page after ↔
      page.command.status = .interrupted ∧ page.command.outputBytes = 0 := by
  have h := warnings_distinct
  simp only [List.nodup_cons, List.mem_cons, List.not_mem_nil, or_false, not_or] at h
  simp [mem_pollWarnings, Ne.symm h.1.2.2.1, Ne.symm h.2.1.2.1, Ne.symm h.2.2.1.1, h.2.2.2.1]

end Warnings

namespace Session

/-- What a command's row has counted: the bytes of its stored events. -/
structure Counted (s : Session) : Prop where
  books : Books s
  bytes : ∀ id row, s.storage.db.command id = some row →
    row.sessionId = s.runtime.sessionId →
    row.outputBytes = payloadBytes ((s.commandEvents id).filter fun event => event.persisted)
  streams : ∀ event ∈ s.history, ∀ id, event.commandId = some id →
    event.stream = .stdout ∨ event.stream = .stderr

theorem counted_created {db : Database} {limit : Nat}
    {id targetId targetName purpose clientName : String} {now : Now}
    (hschema : db.Schema) (hnew : db.session id = none) :
    Counted (created ⟨db, limit⟩ (.created id targetId targetName purpose clientName now) now)
    where
  books := books_created hschema hnew
  bytes := by
    intro c row hrow hown
    rw [created, Storage.upsertSession_command] at hrow
    have hsome := hschema.commandSession row (Database.command_mem hrow)
    rw [hown] at hsome
    simp [created, SessionRuntime.new, SessionInfo.created, hnew] at hsome
  streams := by simp [created]

/-- A command that has no row has no events. -/
theorem Books.commandEvents_of_fresh {s : Session} (h : Books s) {id : String}
    (hfresh : s.storage.db.command id = none) : s.commandEvents id = [] := by
  refine List.eq_nil_iff_forall_not_mem.mpr fun event he => ?_
  obtain ⟨hhistory, hcommand⟩ := mem_commandEvents.mp he
  obtain ⟨row, hrow, -⟩ := h.commands event hhistory id hcommand
  rw [hfresh] at hrow
  cases hrow

/-- The bytes the rows have counted after one more event. -/
theorem Counted.append {s s' : Session} (h : Counted s) {event : TerminalEvent}
    (hbooks : Books s') (hhistory : s'.history = s.history ++ [event])
    (hid : s'.runtime.sessionId = s.runtime.sessionId)
    (hstream : ∀ id, event.commandId = some id → event.stream = .stdout ∨ event.stream = .stderr)
    (hrows : ∀ id row', s'.storage.db.command id = some row' →
      ∃ row, s.storage.db.command id = some row ∧ row'.sessionId = row.sessionId ∧
        row'.outputBytes = row.outputBytes +
          if event.commandId = some id ∧ event.persisted then event.payload.length else 0) :
    Counted s' where
  books := hbooks
  bytes := by
    intro id row' hrow' hown
    obtain ⟨row, hrow, hsession, hbytes⟩ := hrows id row' hrow'
    rw [hbytes, h.bytes id row hrow (hsession ▸ hown ▸ hid), commandEvents, commandEvents, hhistory,
      List.filter_append, List.filter_append, payloadBytes, payloadBytes, total_append]
    by_cases hcommand : event.commandId = some id
    · by_cases hpersisted : event.persisted = true
      · simp [hcommand, hpersisted, payloadLength]
      · simp [hcommand, hpersisted]
    · simp [hcommand]
  streams := by
    rw [hhistory]
    exact List.forall_mem_append.mpr ⟨h.streams, List.forall_mem_singleton.mpr hstream⟩

/-- The bytes the rows have counted after a step that records nothing. -/
theorem Counted.keep {s s' : Session} (h : Counted s) (hbooks : Books s')
    (hhistory : s'.history = s.history) (hid : s'.runtime.sessionId = s.runtime.sessionId)
    (hrows : ∀ id row', s'.storage.db.command id = some row' →
      (s.storage.db.command id = none ∧ row'.outputBytes = 0) ∨
      ∃ row, s.storage.db.command id = some row ∧ row'.sessionId = row.sessionId ∧
        row'.outputBytes = row.outputBytes) :
    Counted s' where
  books := hbooks
  bytes := by
    intro id row' hrow' hown
    have hevents : s'.commandEvents id = s.commandEvents id := by
      rw [commandEvents, commandEvents, hhistory]
    rw [hevents]
    rcases hrows id row' hrow' with ⟨hfresh, hzero⟩ | ⟨row, hrow, hsession, hbytes⟩
    · rw [h.books.commandEvents_of_fresh hfresh, hzero]
      rfl
    · rw [hbytes]
      exact h.bytes id row hrow (hsession ▸ hown ▸ hid)
  streams := hhistory ▸ h.streams

theorem Counted.record {s s' : Session} (h : Counted s) {commandId : Option String}
    {stream : StreamKind} {payload : Bytes} {now : Now}
    (hchannel : (SessionCall.record commandId stream payload now).FromChannel)
    (hstep : s.stepRecord commandId stream payload now = some s') : Counted s' := by
  have hbooks := h.books.record hstep
  have hstream : ∀ id, commandId = some id → stream = .stdout ∨ stream = .stderr := by
    intro id hid
    subst hid
    exact hchannel
  obtain ⟨-, hresult, rfl⟩ := stepRecord_some hstep
  rcases record_ok rfl hresult with hrejected | ⟨db, hinsert, haccepted⟩
  · rw [hrejected] at hbooks ⊢
    refine h.append hbooks rfl rfl hstream fun id row' hrow' => ?_
    rw [Storage.rejectEvent_command] at hrow'
    obtain ⟨row, hrow, rfl⟩ := Option.map_eq_some_iff.mp hrow'
    refine ⟨row, hrow, ?_, ?_⟩
    · split <;> rfl
    · split <;> simp [CommandInfo.truncate]
  · rw [haccepted] at hbooks ⊢
    refine h.append hbooks rfl rfl hstream fun id row' hrow' => ?_
    rw [Storage.acceptEvent_command hinsert] at hrow'
    obtain ⟨row, hrow, rfl⟩ := Option.map_eq_some_iff.mp hrow'
    obtain rfl := Database.command_id hrow
    refine ⟨row, hrow, ?_, ?_⟩
    · split <;> rfl
    · split
      · rename_i hcommand
        simp [hcommand, CommandInfo.count]
      · rename_i hcommand
        simp [hcommand]

theorem Counted.startExec {s s' : Session} (h : Counted s) {id command : String}
    {background : Bool} {now : Now}
    (hstep : s.stepStartExec id command background now = some s') : Counted s' := by
  have hbooks := h.books.startExec hstep
  obtain ⟨storage, hinsert, hs'⟩ := stepStartExec_some hstep
  have hcommands : ∀ c, s'.storage.db.command c = storage.db.command c := by
    intro c
    rw [hs']
    split
    · rfl
    · exact Storage.upsertSession_command _ _ c
  refine h.keep hbooks ?_ ?_ fun c row' hrow' => ?_
  · rw [hs']
    split <;> rfl
  · rw [hs']
    split <;> rfl
  · rw [hcommands, Storage.insertCommand_command hinsert] at hrow'
    split at hrow'
    · rename_i hc
      obtain rfl := Option.some.inj hrow'
      exact .inl ⟨hc ▸ (Storage.insertCommand_ok hinsert).1, rfl⟩
    · exact .inr ⟨row', hrow', rfl, rfl⟩

theorem Counted.finishExec {s s' : Session} (h : Counted s) {id : String}
    {status : CommandStatus} {exit : Option UInt32} {now : Now}
    (hstep : s.stepFinishExec id status exit now = some s') : Counted s' := by
  have hbooks := h.books.finishExec hstep
  obtain ⟨task, -, -, outputBytes, hs'⟩ := stepFinishExec_some hstep
  have hcommands : ∀ c, s'.storage.db.command c = (s.storage.updateCommand
      (task.command.finished status exit s.runtime.sequence outputBytes now)).db.command c := by
    intro c
    rw [hs']
    split
    · rfl
    · exact Storage.upsertSession_command _ _ c
  refine h.keep hbooks ?_ ?_ fun c row' hrow' => ?_
  · rw [hs']
    split <;> rfl
  · rw [hs']
    split <;> rfl
  · rw [hcommands, Storage.updateCommand_command] at hrow'
    obtain ⟨row, hrow, rfl⟩ := Option.map_eq_some_iff.mp hrow'
    refine .inr ⟨row, hrow, ?_, ?_⟩
    · split <;> rfl
    · split <;> rfl

/-- Every call of the daemon keeps the counts. -/
theorem Counted.step {s s' : Session} (h : Counted s) {call : SessionCall}
    (hchannel : call.FromChannel) (hstep : s.step call = some s') : Counted s' := by
  cases call with
  | record commandId stream payload now => exact h.record hchannel hstep
  | startExec id command background now => exact h.startExec hstep
  | finishExec id status exit now => exact h.finishExec hstep
  | close now =>
      have hbooks := h.books.step hstep
      cases hstep
      refine h.keep hbooks rfl rfl fun c row' hrow' => .inr ⟨row', ?_, rfl, rfl⟩
      exact (Storage.upsertSession_command _ _ c).symm.trans hrow'

theorem counted_run {db : Database} {limit : Nat}
    {id targetId targetName purpose clientName : String} {now : Now} {calls : List SessionCall}
    {s : Session} (hschema : db.Schema) (hnew : db.session id = none)
    (hchannel : ∀ call ∈ calls, call.FromChannel)
    (hrun : machine.run (created ⟨db, limit⟩
      (.created id targetId targetName purpose clientName now) now) calls = some s) : Counted s :=
  machine.invariant_under (fun _ _ _ h hcall hstep => h.step hcall hstep)
    (counted_created hschema hnew) (machine.meets_of_forall_mem hchannel) hrun

/-- A non-empty event of the command's standard output or error was recorded. -/
def Produced (s : Session) (id : String) : Prop :=
  ∃ event ∈ s.commandEvents id,
    (event.stream = .stdout ∨ event.stream = .stderr) ∧ event.payload ≠ []

theorem Books.stored_iff {s : Session} (h : Books s) {id : String} {event : TerminalEvent}
    (he : event ∈ s.commandEvents id) : event ∈ s.stored ↔ event.persisted = true := by
  simp [h.stored, (mem_commandEvents.mp he).1]

theorem Counted.outputBytes_pos {s : Session} (h : Counted s) {id : String} {row : CommandInfo}
    (hrow : s.storage.db.command id = some row) (hown : row.sessionId = s.runtime.sessionId) :
    0 < row.outputBytes ↔
      ∃ event ∈ s.commandEvents id, event.persisted = true ∧ event.payload ≠ [] := by
  rw [h.bytes id row hrow hown, Nat.pos_iff_ne_zero, Ne, payloadBytes, total_eq_zero_iff]
  simp [payloadLength]

theorem Counted.produced_iff {s : Session} (h : Counted s) {id : String} :
    s.Produced id ↔ ∃ event ∈ s.commandEvents id, event.payload ≠ [] := by
  constructor
  · intro ⟨event, he, _, hpayload⟩
    exact ⟨event, he, hpayload⟩
  · intro ⟨event, he, hpayload⟩
    obtain ⟨hhistory, hcommand⟩ := mem_commandEvents.mp he
    exact ⟨event, he, h.streams event hhistory id hcommand, hpayload⟩

theorem step_sessionId {s s' : Session} {call : SessionCall} (hstep : s.step call = some s') :
    s'.runtime.sessionId = s.runtime.sessionId := by
  cases call with
  | record commandId stream payload now =>
      obtain ⟨-, hresult, rfl⟩ := stepRecord_some hstep
      rcases record_ok rfl hresult with hrejected | ⟨db, -, haccepted⟩
      · rw [hrejected]
        rfl
      · rw [haccepted]
        rfl
  | startExec id command background now =>
      obtain ⟨storage, -, rfl⟩ := stepStartExec_some hstep
      split <;> rfl
  | finishExec id status exit now =>
      obtain ⟨task, -, -, outputBytes, rfl⟩ := stepFinishExec_some hstep
      split <;> rfl
  | close now =>
      cases hstep
      rfl

/-- A finished command of a session, as `t` left it and as it still is in `s`. -/
structure Past (s t : Session) (id : String) : Prop where
  books : Books t
  finished : Finished t id
  events : t.commandEvents id = s.commandEvents id
  sessionId : t.runtime.sessionId = s.runtime.sessionId

theorem Past.run {s t u : Session} {id : String} (h : Past s t id) {calls : List SessionCall}
    (hrun : machine.run t calls = some u) : Past s u id := by
  refine machine.invariant (I := fun u => Past s u id) (fun _ _ _ h hstep => ?_) h hrun
  obtain ⟨hfinished, hevents⟩ := h.finished.step h.books hstep
  exact ⟨h.books.step hstep, hfinished, hevents.trans h.events,
    (step_sessionId hstep).trans h.sessionId⟩

/-- An event of the command that a poll can come across: it is stored, or in the live tail of
a runtime that is left. -/
def InSight (s : Session) (sessions : List SessionRuntime) (id : String) : Prop :=
  ∃ event ∈ s.commandEvents id,
    event ∈ s.stored ∨ ∃ runtime ∈ sessions, event ∈ runtime.liveEvents

/-- The database page of a finished command is empty when none of its events is stored. -/
theorem Past.stored_eq_nil_iff {s t : Session} {id : String} (h : Past s t id) (hs : Books s)
    (limit : Nat) :
    (t.storage.eventsForCommand id 0 limit).1 = [] ↔ ∀ event ∈ s.commandEvents id,
      event ∉ s.stored := by
  obtain ⟨row, hrow, hown, -⟩ := h.finished
  have hrows := h.books.eventRows hrow hown 0
  rw [h.events] at hrows
  have hpage : (t.storage.eventsForCommand id 0 limit).1 = [] ↔
      t.storage.eventRows .commandId id 0 = [] := by
    constructor
    · intro hnil
      by_contra hne
      exact Storage.events_ne_nil hne hnil
    · intro hnil
      exact List.prefix_nil.mp (hnil ▸ t.storage.events_prefix .commandId id 0 limit)
  rw [hpage, hrows, List.filter_eq_nil_iff]
  refine forall₂_congr fun event he => ?_
  rw [hs.stored_iff he]
  simp [hs.sequence_pos (mem_commandEvents.mp he).1]

theorem Books.liveBeyond_eq_nil_iff {s : Session} (h : Books s) {id : String} :
    s.liveBeyond id 0 = [] ↔ ∀ event ∈ s.commandEvents id, event ∉ s.runtime.liveEvents := by
  constructor
  · intro hnil event he hlive
    obtain ⟨hhistory, hcommand⟩ := mem_commandEvents.mp he
    have hmem : event ∈ s.liveBeyond id 0 :=
      mem_liveSelects.mpr ⟨hlive, h.sequence_pos hhistory, fun _ hid => hid ▸ hcommand⟩
    rw [hnil] at hmem
    contradiction
  · intro hnone
    refine List.eq_nil_iff_forall_not_mem.mpr fun event he => ?_
    exact hnone event (h.mem_liveBeyond he).1 (mem_liveSelects.mp he).1

theorem Past.events_eq_nil_iff {s t : Session} {id : String} (ht : Past s t id) (hs : Books s)
    {sessions : List SessionRuntime} (hsessions : sessions = [s.runtime] ∨ sessions = [])
    {command : CommandInfo} (hown : command.sessionId = s.runtime.sessionId) (limit : Nat) :
    (readLivePage sessions command (t.storage.eventsForCommand id 0 limit) id 0 limit).events =
      [] ↔ ¬ s.InSight sessions id := by
  have hstored := ht.stored_eq_nil_iff hs limit
  rw [InSight]
  rcases hsessions with rfl | rfl
  · rw [readLivePage_own hown]
    refine (appendLive_eq_nil_iff fun hmore => Storage.events_more_ne_nil hmore).trans ?_
    refine (and_congr hstored hs.liveBeyond_eq_nil_iff).trans ?_
    simp only [List.mem_singleton, exists_eq_left, not_exists, not_and, not_or]
    exact ⟨fun h event he => ⟨h.1 event he, h.2 event he⟩,
      fun h => ⟨fun event he => (h event he).1, fun event he => (h event he).2⟩⟩
  · show (t.storage.eventsForCommand id 0 limit).1 = [] ↔ _
    rw [hstored]
    simp

/-- The warnings of a poll tell the truth about the output of its command. -/
structure Truthful (s : Session) (command : CommandInfo) (warnings : List String) : Prop where
  noOutput : noOutputWarning ∈ warnings → s.commandEvents command.id = []
  interrupted : command.status = .interrupted →
    (interruptedWithOutputWarning ∈ warnings ↔ s.Produced command.id) ∧
      (interruptedWarning ∈ warnings ↔ ¬ s.Produced command.id)

/-- Where a finished command has recorded something, a first page comes across some of it;
where an interrupted one has produced output, the store has kept some of it. -/
structure Traceable (s : Session) (sessions : List SessionRuntime) (command : CommandInfo)
    (after : Nat) : Prop where
  recorded : after = 0 → command.status ≠ .running → s.commandEvents command.id ≠ [] →
    s.InSight sessions command.id
  produced : command.status = .interrupted → s.Produced command.id →
    ∃ event ∈ s.commandEvents command.id, event ∈ s.stored ∧ event.payload ≠ []

/-- The warnings of a page: those of a finished command are read off what is in sight and
what was stored, whatever else was recorded. -/
theorem Past.truthful_iff {s t : Session} {id : String} (ht : Past s t id) (hs : Counted s)
    {sessions : List SessionRuntime} (hsessions : sessions = [s.runtime] ∨ sessions = [])
    {command : CommandInfo} (hid : command.id = id)
    (hown : command.sessionId = s.runtime.sessionId) (hstatus : command.status ≠ .running)
    (hbytes : 0 < command.outputBytes ↔
      ∃ event ∈ s.commandEvents id, event.persisted = true ∧ event.payload ≠ [])
    (after limit : Nat) :
    Truthful s command (pollWarnings (readLivePage sessions command
        (t.storage.eventsForCommand id after limit) id after limit) after) ↔
      Traceable s sessions command after := by
  subst hid
  have hcommand : (readLivePage sessions command
      (t.storage.eventsForCommand command.id after limit) command.id after limit).command =
      command := readLivePage_command _ _ _ _ _ _
  have hkept : 0 < command.outputBytes ↔
      ∃ event ∈ s.commandEvents command.id, event ∈ s.stored ∧ event.payload ≠ [] := by
    refine hbytes.trans (exists_congr fun event => and_congr_right fun he => ?_)
    rw [hs.books.stored_iff he]
  have hstored : (∃ event ∈ s.commandEvents command.id, event ∈ s.stored ∧ event.payload ≠ []) →
      s.Produced command.id := by
    intro ⟨event, he, _, hpayload⟩
    exact hs.produced_iff.mpr ⟨event, he, hpayload⟩
  constructor
  · intro h
    refine ⟨fun hafter _ hne => ?_, fun hinterrupted hproduced => ?_⟩
    · subst hafter
      by_contra hsight
      refine hne (h.noOutput (noOutputWarning_mem.mpr ⟨rfl, ?_, ?_⟩))
      · exact (ht.events_eq_nil_iff hs.books hsessions hown limit).mpr hsight
      · rw [hcommand]
        exact hstatus
    · have hwarned := (h.interrupted hinterrupted).1.mpr hproduced
      rw [interruptedWithOutputWarning_mem, hcommand] at hwarned
      exact hkept.mp hwarned.2
  · intro h
    refine ⟨fun hwarned => ?_, fun hinterrupted => ?_⟩
    · obtain ⟨rfl, hempty, -⟩ := noOutputWarning_mem.mp hwarned
      by_contra hne
      exact (ht.events_eq_nil_iff hs.books hsessions hown limit).mp hempty
        (h.recorded rfl hstatus hne)
    · have hproduced : 0 < command.outputBytes ↔ s.Produced command.id :=
        hkept.trans ⟨hstored, h.produced hinterrupted⟩
      rw [interruptedWithOutputWarning_mem, interruptedWarning_mem, hcommand, ← hproduced]
      simp [hinterrupted]

/-- In every run: the row is read in `s`, the database page in `t`, the live tail in `u` or
not at all any more. The warnings are truthful exactly when what was recorded is traceable. -/
theorem poll_warnings_truthful_iff {db : Database} {limit : Nat}
    {id targetId targetName purpose clientName : String} {now : Now}
    {calls meanwhile later : List SessionCall} {s t u : Session}
    {sessions : List SessionRuntime} {commandId : String} {command : CommandInfo}
    {after maxBytes : Nat} {timedOut : Bool} {started answered : Now}
    (hschema : db.Schema) (hnew : db.session id = none)
    (hchannel : ∀ call ∈ calls ++ (meanwhile ++ later), call.FromChannel)
    (hrun : machine.run (created ⟨db, limit⟩
      (.created id targetId targetName purpose clientName now) now) calls = some s)
    (hload : loadCommand s.storage commandId = .ok command)
    (hown : command.sessionId = s.runtime.sessionId)
    (hevents : machine.run s meanwhile = some t) (hlive : machine.run t later = some u)
    (hsessions : sessions = [u.runtime] ∨ sessions = []) :
    Truthful u command (finishPoll (readLivePage sessions command
        (t.storage.eventsForCommand commandId after (readLimit maxBytes)) commandId after
        (readLimit maxBytes)) after timedOut started answered).warnings ↔
      Traceable u sessions command after := by
  have hs := counted_run hschema hnew
    (fun call hcall => hchannel call (List.mem_append_left _ hcall)) hrun
  have hall : machine.run (created ⟨db, limit⟩
      (.created id targetId targetName purpose clientName now) now)
      (calls ++ (meanwhile ++ later)) = some u :=
    machine.run_append_some.mpr ⟨s, hrun, machine.run_append_some.mpr ⟨t, hevents, hlive⟩⟩
  have hu := counted_run hschema hnew hchannel hall
  have hrow := loadCommand_ok.mp hload
  by_cases hstatus : command.status = .running
  · have hcommand := readLivePage_command sessions command
      (t.storage.eventsForCommand commandId after (readLimit maxBytes)) commandId after
      (readLimit maxBytes)
    constructor
    · intro _
      exact ⟨fun _ hne => absurd hstatus hne, by simp [hstatus]⟩
    · intro _
      refine ⟨fun hwarned => ?_, by simp [hstatus]⟩
      have hne := (noOutputWarning_mem.mp hwarned).2.2
      rw [hcommand] at hne
      exact absurd hstatus hne
  · have hat : Past s s commandId :=
      ⟨hs.books, ⟨command, hrow, hown, hstatus⟩, rfl, rfl⟩
    have ht := hat.run hevents
    have hlast := ht.run hlive
    refine Past.truthful_iff ?_ hu hsessions (Database.command_id hrow)
      (hown.trans hlast.sessionId.symm) hstatus ?_ after (readLimit maxBytes)
    · exact ⟨ht.books, ht.finished, ht.events.trans hlast.events.symm,
        ht.sessionId.trans hlast.sessionId.symm⟩
    · rw [hlast.events]
      exact hs.outputBytes_pos hrow hown

/-- Two lines of an interrupted command, which the store has room for. -/
def interruptedAfterOutput : List SessionCall :=
  [.startExec "c" "ls" false ⟨0, 0⟩, .record (some "c") .stdout [1, 2] ⟨0, 0⟩,
    .record (some "c") .stderr [3] ⟨0, 0⟩, .finishExec "c" .interrupted none ⟨0, 0⟩]

theorem poll_warnings_truthful_iff_interruptedAfterOutput :
    ∃ s command, machine.run (created ⟨.empty, 4⟩ (.created "s" "t" "t" "p" "m" ⟨0, 0⟩) ⟨0, 0⟩)
        interruptedAfterOutput = some s ∧ s.storage.db.command "c" = some command ∧
      (Truthful s command (finishPoll (readLivePage [s.runtime] command
          (s.storage.eventsForCommand "c" 0 (readLimit 100)) "c" 0 (readLimit 100)) 0 false
          ⟨0, 0⟩ ⟨0, 0⟩).warnings ↔ Traceable s [s.runtime] command 0) := by
  have hall : ((machine.run (created ⟨.empty, 4⟩ (.created "s" "t" "t" "p" "m" ⟨0, 0⟩) ⟨0, 0⟩)
      interruptedAfterOutput).any fun s => (s.storage.db.command "c").any fun command =>
        command.sessionId == s.runtime.sessionId) = true := by decide
  obtain ⟨s, hrun, hall⟩ := (Option.any_eq_true _ _).mp hall
  obtain ⟨command, hrow, hown⟩ := (Option.any_eq_true _ _).mp hall
  have hnothing : machine.run s [] = some s := rfl
  refine ⟨s, command, hrun, hrow, ?_⟩
  exact poll_warnings_truthful_iff Database.schema_empty rfl
    (by simp [interruptedAfterOutput, SessionCall.FromChannel]) hrun (loadCommand_ok.mpr hrow)
    (eq_of_beq hown) hnothing hnothing (.inl rfl)

/-- One command fills the recording limit; another has its only line rejected and loses its
transport. -/
def overfull (full : Bytes) : List SessionCall :=
  [.startExec "a" "dump" true ⟨0, 0⟩, .record (some "a") .stdout full ⟨0, 0⟩,
    .startExec "c" "ls" true ⟨0, 0⟩, .record (some "c") .stdout [1] ⟨0, 0⟩,
    .finishExec "c" .interrupted none ⟨0, 0⟩]

theorem overfull_interrupted {full : Bytes} (h : full.length = 1048576) :
    ((machine.run (created (.openWith .empty 1) (.created "s" "t" "t" "p" "m" ⟨0, 0⟩) ⟨0, 0⟩)
      (overfull full)).any fun s =>
        ((s.storage.db.command "c").any fun command =>
          command.status == .interrupted && command.outputBytes == 0) &&
        (s.commandEvents "c").any fun event => event.stream == .stdout && event.payload == [1]) =
      true := by
  simp [machine, Machine.run, step, stepStartExec, stepRecord, stepFinishExec, created, overfull,
    task, setInfo, commandEvents, AiSsh.record, Storage.openWith, Storage.insertCommand,
    Storage.upsertSession, Storage.appendEvent, Storage.rejectEvent, Storage.countEvent,
    Storage.countCommand, Storage.command, Storage.updateCommand, Database.empty,
    Database.command, Database.session, Database.updateSession, Database.insertEvent,
    Database.updateCommand, CommandInfo.started, CommandInfo.finished, CommandInfo.count,
    CommandInfo.truncate, CommandInfo.update, SessionInfo.created, SessionRow.upsert,
    SessionRow.count, SessionRow.truncate, SessionRuntime.new, SessionRuntime.nextEvent,
    SessionRuntime.announce, SessionRuntime.drawSequence, SessionRuntime.keepLive,
    SessionRuntime.overflow, saturatingAdd, payloadBytes, payloadLength, popOverflow,
    liveTailBytes, h]

theorem overfull_poll {full : Bytes} (h : full.length = 1048576) :
    ∃ s page, machine.run (created (.openWith .empty 1) (.created "s" "t" "t" "p" "m" ⟨0, 0⟩)
        ⟨0, 0⟩) (overfull full) = some s ∧
      readCommandPage s.storage [s.runtime] "c" 0 (readLimit maxReadBytes) = .ok page ∧
      page.command.status = .interrupted ∧ s.Produced "c" ∧
      interruptedWarning ∈ (finishPoll page 0 false ⟨0, 0⟩ ⟨0, 0⟩).warnings ∧
      interruptedWithOutputWarning ∉ (finishPoll page 0 false ⟨0, 0⟩ ⟨0, 0⟩).warnings := by
  have hall := overfull_interrupted h
  obtain ⟨s, hrun, hall⟩ := (Option.any_eq_true _ _).mp hall
  simp only [Bool.and_eq_true, List.any_eq_true, beq_iff_eq] at hall
  obtain ⟨hrow, event, he, hstream, hpayload⟩ := hall
  obtain ⟨command, hrow, hstatus⟩ := (Option.any_eq_true _ _).mp hrow
  simp only [Bool.and_eq_true, beq_iff_eq] at hstatus
  have hread : readCommandPage s.storage [s.runtime] "c" 0 (readLimit maxReadBytes) =
      .ok (readLivePage [s.runtime] command
        (s.storage.eventsForCommand "c" 0 (readLimit maxReadBytes)) "c" 0
        (readLimit maxReadBytes)) := by
    rw [readCommandPage, loadCommand_ok.mpr hrow]
    rfl
  have hcommand := readLivePage_command [s.runtime] command
    (s.storage.eventsForCommand "c" 0 (readLimit maxReadBytes)) "c" 0 (readLimit maxReadBytes)
  refine ⟨s, _, hrun, hread, ?_, ⟨event, he, .inl hstream, by simp [hpayload]⟩, ?_, ?_⟩
  · rw [hcommand]
    exact hstatus.1
  · refine interruptedWarning_mem.mpr ?_
    rw [hcommand]
    exact hstatus
  · refine fun hwarned => ?_
    have hpos := (interruptedWithOutputWarning_mem.mp hwarned).2
    rw [hcommand, hstatus.2] at hpos
    contradiction

/-- The line is in the live tail, and the poll that shows it says that none was received. -/
theorem rejected_output_passes_for_none :
    ∃ s page, machine.run (created (.openWith .empty 1) (.created "s" "t" "t" "p" "m" ⟨0, 0⟩)
        ⟨0, 0⟩) (overfull (List.replicate 1048576 0)) = some s ∧
      readCommandPage s.storage [s.runtime] "c" 0 (readLimit maxReadBytes) = .ok page ∧
      page.command.status = .interrupted ∧ s.Produced "c" ∧
      interruptedWarning ∈ (finishPoll page 0 false ⟨0, 0⟩ ⟨0, 0⟩).warnings ∧
      interruptedWithOutputWarning ∉ (finishPoll page 0 false ⟨0, 0⟩ ⟨0, 0⟩).warnings :=
  overfull_poll List.length_replicate

end Session

end AiSsh
