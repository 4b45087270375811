import AiSsh.RecordingAccounts
import AiSsh.Library.Pool

/-!
The recorders of one session, step by step. Each `run_exec` and each `run_pty` is
a task of its own; a `record` call is its four shared-memory steps: draw a number,
offer the event to the store, push a rejected event on the live tail, announce.
The end of a `run_exec` writes the command's row and announces once more. The
tasks interleave at these steps.
-/

namespace AiSsh

open Library

/-- Where a recorder stands. A drawn or rejected event is not readable yet; a
written event or row is readable and not announced yet. -/
inductive RecorderPhase
  | idle
  | drawn (event : TerminalEvent)
  | rejected (event : TerminalEvent)
  | written
  | updated
  | finished
  deriving DecidableEq, Repr

/-- An exec task carries its copy of the command, a PTY task carries none. -/
structure Recorder where
  command : Option CommandInfo
  phase : RecorderPhase
  deriving DecidableEq, Repr

namespace Recorder

def commandId (recorder : Recorder) : Option String := recorder.command.map CommandInfo.id

/-- The event the recorder has drawn a number for and that nobody can read. -/
def pending (recorder : Recorder) : Option TerminalEvent :=
  match recorder.phase with
  | .drawn event | .rejected event => some event
  | .idle | .written | .updated | .finished => none

/-- Between a write and its announcement. -/
def announcing (recorder : Recorder) : Bool :=
  match recorder.phase with
  | .written | .updated => true
  | .idle | .drawn _ | .rejected _ | .finished => false

/-- The task may still record. -/
def recording (recorder : Recorder) : Bool :=
  match recorder.phase with
  | .idle | .drawn _ | .rejected _ | .written => true
  | .updated | .finished => false

end Recorder

structure Recorders where
  storage : Storage
  runtime : SessionRuntime
  tasks : List Recorder
  deriving DecidableEq, Repr

/-- A task is named by its place in the list. -/
inductive RecorderStep
  | startExec (id command : String) (now : Now)
  | openPty
  | draw (task : Nat) (stream : StreamKind) (payload : Bytes) (now : Now)
  | append (task : Nat)
  | keep (task : Nat)
  | announce (task : Nat) (now : Now)
  | update (task : Nat) (status : CommandStatus) (exit : Option UInt32) (now : Now)
  | wake (task : Nat)
  deriving DecidableEq, Repr

namespace Recorders

def created (storage : Storage) (info : SessionInfo) (now : Now) : Recorders :=
  ⟨storage.upsertSession info, .new info now, []⟩

def setTask (s : Recorders) (task : Nat) (recorder : Recorder) : Recorders :=
  { s with tasks := s.tasks.set task recorder }

/-- The row is inserted before the task is spawned. -/
def startExec (s : Recorders) (id command : String) (now : Now) : Option Recorders :=
  let commandInfo := CommandInfo.started id s.runtime.sessionId command now
  match s.storage.insertCommand commandInfo with
  | .error _ => none
  | .ok storage => some { s with storage, tasks := s.tasks ++ [⟨some commandInfo, .idle⟩] }

def draw (s : Recorders) (task : Nat) (stream : StreamKind) (payload : Bytes) (now : Now) :
    Option Recorders := do
  let recorder ← s.tasks[task]?
  guard (recorder.phase = .idle)
  let event := s.runtime.nextEvent recorder.commandId stream payload now
  return { s.setTask task { recorder with phase := .drawn event } with
    runtime := s.runtime.drawSequence now }

def append (s : Recorders) (task : Nat) : Option Recorders := do
  let recorder ← s.tasks[task]?
  match recorder.phase with
  | .drawn event =>
      let appended := s.storage.appendEvent event
      match appended.result with
      | .error _ => none
      | .ok () =>
          let phase : RecorderPhase :=
            if appended.event.persisted then .written else .rejected appended.event
          some { s.setTask task { recorder with phase } with storage := appended.storage }
  | _ => none

def keep (s : Recorders) (task : Nat) : Option Recorders := do
  let recorder ← s.tasks[task]?
  match recorder.phase with
  | .rejected event =>
      some { s.setTask task { recorder with phase := .written } with
        runtime := s.runtime.keepLive event }
  | _ => none

def announce (s : Recorders) (task : Nat) (now : Now) : Option Recorders := do
  let recorder ← s.tasks[task]?
  guard (recorder.phase = .written)
  return { s.setTask task { recorder with phase := .idle } with
    runtime := s.runtime.announce now }

/-- The row write at the end of `run_exec`. -/
def update (s : Recorders) (task : Nat) (status : CommandStatus) (exit : Option UInt32)
    (now : Now) : Option Recorders := do
  let recorder ← s.tasks[task]?
  guard (recorder.phase = .idle ∧ status ≠ .running)
  let command ← recorder.command
  let outputBytes := ((s.storage.command command.id).map CommandInfo.outputBytes).getD 0
  return { s.setTask task { recorder with phase := .updated } with
    storage := s.storage.updateCommand
      (command.finished status exit s.runtime.sequence outputBytes now) }

/-- The last `send_modify` of a task. A PTY task has no row to write first. -/
def wake (s : Recorders) (task : Nat) : Option Recorders := do
  let recorder ← s.tasks[task]?
  guard (recorder.phase = .updated ∨ recorder.phase = .idle ∧ recorder.command = none)
  return { s.setTask task { recorder with phase := .finished } with
    runtime := { s.runtime with eventsTx := s.runtime.eventsTx + 1 } }

def step (s : Recorders) : RecorderStep → Option Recorders
  | .startExec id command now => s.startExec id command now
  | .openPty => some { s with tasks := s.tasks ++ [⟨none, .idle⟩] }
  | .draw task stream payload now => s.draw task stream payload now
  | .append task => s.append task
  | .keep task => s.keep task
  | .announce task now => s.announce task now
  | .update task status exit now => s.update task status exit now
  | .wake task => s.wake task

/-- The recorders of the session in any interleaving, storage calls succeeding. -/
def machine : Machine Recorders RecorderStep := ⟨step⟩

/-- What a step does, with the task it moves singled out. -/
inductive Steps (s : Recorders) : RecorderStep → Recorders → Prop
  | startExec {id command : String} {now : Now} {storage : Storage}
      (hinsert : s.storage.insertCommand (.started id s.runtime.sessionId command now) =
        .ok storage) :
      Steps s (.startExec id command now) { s with
        storage := storage
        tasks := s.tasks ++ [⟨some (.started id s.runtime.sessionId command now), .idle⟩] }
  | openPty : Steps s .openPty { s with tasks := s.tasks ++ [⟨none, .idle⟩] }
  | draw {task : Nat} {stream : StreamKind} {payload : Bytes} {now : Now}
      {command : Option CommandInfo} {pre post : List Recorder}
      (htasks : s.tasks = pre ++ ⟨command, .idle⟩ :: post) :
      Steps s (.draw task stream payload now) { s with
        runtime := s.runtime.drawSequence now
        tasks := pre ++ ⟨command, .drawn
          (s.runtime.nextEvent (command.map CommandInfo.id) stream payload now)⟩ :: post }
  | reject {task : Nat} {command : Option CommandInfo} {event : TerminalEvent}
      {pre post : List Recorder} (htasks : s.tasks = pre ++ ⟨command, .drawn event⟩ :: post) :
      Steps s (.append task) { s with
        storage := s.storage.rejectEvent event
        tasks := pre ++ ⟨command, .rejected { event with persisted := false }⟩ :: post }
  | accept {task : Nat} {command : Option CommandInfo} {event : TerminalEvent} {db : Database}
      {pre post : List Recorder} (htasks : s.tasks = pre ++ ⟨command, .drawn event⟩ :: post)
      (hinsert : s.storage.db.insertEvent event = .ok db) :
      Steps s (.append task) { s with
        storage := { s.storage with db := Storage.countEvent db event }
        tasks := pre ++ ⟨command, .written⟩ :: post }
  | keep {task : Nat} {command : Option CommandInfo} {event : TerminalEvent}
      {pre post : List Recorder} (htasks : s.tasks = pre ++ ⟨command, .rejected event⟩ :: post) :
      Steps s (.keep task) { s with
        runtime := s.runtime.keepLive event
        tasks := pre ++ ⟨command, .written⟩ :: post }
  | announce {task : Nat} {now : Now} {command : Option CommandInfo} {pre post : List Recorder}
      (htasks : s.tasks = pre ++ ⟨command, .written⟩ :: post) :
      Steps s (.announce task now) { s with
        runtime := s.runtime.announce now
        tasks := pre ++ ⟨command, .idle⟩ :: post }
  | update {task : Nat} {status : CommandStatus} {exit : Option UInt32} {now : Now}
      {command : CommandInfo} {outputBytes : Nat} {pre post : List Recorder}
      (htasks : s.tasks = pre ++ ⟨some command, .idle⟩ :: post) (hstatus : status ≠ .running) :
      Steps s (.update task status exit now) { s with
        storage := s.storage.updateCommand
          (command.finished status exit s.runtime.sequence outputBytes now)
        tasks := pre ++ ⟨some command, .updated⟩ :: post }
  | wake {task : Nat} {command : Option CommandInfo} {phase : RecorderPhase}
      {pre post : List Recorder} (htasks : s.tasks = pre ++ ⟨command, phase⟩ :: post)
      (hphase : phase = .updated ∨ phase = .idle) :
      Steps s (.wake task) { s with
        runtime := { s.runtime with eventsTx := s.runtime.eventsTx + 1 }
        tasks := pre ++ ⟨command, .finished⟩ :: post }

theorem guard_some {p : Prop} [Decidable p] {u : Unit} : (guard p : Option Unit) = some u ↔ p := by
  by_cases h : p <;> simp [guard, h, failure]

theorem task_split {tasks : List Recorder} {task : Nat} {recorder : Recorder}
    (h : tasks[task]? = some recorder) :
    ∃ pre post, tasks = pre ++ recorder :: post ∧
      ∀ other, tasks.set task other = pre ++ other :: post := by
  obtain ⟨hlt, rfl⟩ := List.getElem?_eq_some_iff.mp h
  refine ⟨tasks.take task, tasks.drop (task + 1), ?_, fun other => ?_⟩
  · rw [← List.drop_eq_getElem_cons hlt, List.take_append_drop]
  · exact List.set_eq_take_append_cons_drop.trans (if_pos hlt)

theorem steps_of_step {s s' : Recorders} {move : RecorderStep} (h : s.step move = some s') :
    Steps s move s' := by
  cases move with
  | startExec id command now =>
      simp only [step, startExec] at h
      split at h
      · cases h
      · rename_i storage hinsert
        cases h
        exact .startExec hinsert
  | openPty =>
      cases h
      exact .openPty
  | draw task stream payload now =>
      simp only [step, draw, Option.bind_eq_bind, Option.bind_eq_some_iff] at h
      obtain ⟨⟨command, phase⟩, htask, _, hguard, h⟩ := h
      obtain ⟨pre, post, htasks, hset⟩ := task_split htask
      simp only [guard_some] at hguard
      subst hguard
      cases h
      simp only [setTask, hset]
      exact .draw htasks
  | append task =>
      simp only [step, append, Option.bind_eq_bind, Option.bind_eq_some_iff] at h
      obtain ⟨⟨command, phase⟩, htask, h⟩ := h
      obtain ⟨pre, post, htasks, hset⟩ := task_split htask
      cases phase with
      | drawn event =>
          simp only at h
          split at h
          · cases h
          · rename_i hresult
            cases h
            rcases (Storage.appendEvent_ok hresult).2 with ⟨he, hs⟩ | ⟨db, hinsert, he, hs⟩
            · simp only [setTask, hset, he, hs]
              exact .reject htasks
            · simp only [setTask, hset, he, hs]
              exact .accept htasks hinsert
      | idle | rejected _ | written | updated | finished => cases h
  | keep task =>
      simp only [step, keep, Option.bind_eq_bind, Option.bind_eq_some_iff] at h
      obtain ⟨⟨command, phase⟩, htask, h⟩ := h
      obtain ⟨pre, post, htasks, hset⟩ := task_split htask
      cases phase with
      | rejected event =>
          cases h
          simp only [setTask, hset]
          exact .keep htasks
      | idle | drawn _ | written | updated | finished => cases h
  | announce task now =>
      simp only [step, announce, Option.bind_eq_bind, Option.bind_eq_some_iff] at h
      obtain ⟨⟨command, phase⟩, htask, _, hguard, h⟩ := h
      obtain ⟨pre, post, htasks, hset⟩ := task_split htask
      simp only [guard_some] at hguard
      subst hguard
      cases h
      simp only [setTask, hset]
      exact .announce htasks
  | update task status exit now =>
      simp only [step, update, Option.bind_eq_bind, Option.bind_eq_some_iff] at h
      obtain ⟨⟨command, phase⟩, htask, _, hguard, command', hcommand, h⟩ := h
      obtain ⟨pre, post, htasks, hset⟩ := task_split htask
      simp only [guard_some] at hguard hcommand
      obtain ⟨rfl, hstatus⟩ := hguard
      subst hcommand
      cases h
      simp only [setTask, hset]
      exact .update htasks hstatus
  | wake task =>
      simp only [step, wake, Option.bind_eq_bind, Option.bind_eq_some_iff] at h
      obtain ⟨⟨command, phase⟩, htask, _, hguard, h⟩ := h
      obtain ⟨pre, post, htasks, hset⟩ := task_split htask
      simp only [guard_some] at hguard
      cases h
      simp only [setTask, hset]
      exact .wake htasks (hguard.imp id And.left)

/-- A task that takes its steps without a break does what `record` does. -/
theorem record_steps {s : Recorders} {task : Nat} {command : Option CommandInfo}
    {stream : StreamKind} {payload : Bytes} {now : Now}
    (htask : s.tasks[task]? = some ⟨command, .idle⟩)
    (hresult : (record s.storage s.runtime (command.map CommandInfo.id) stream payload now).result =
      .ok ()) :
    ∃ moves, machine.run s (.draw task stream payload now :: .append task :: moves) = some
      { s with
        storage := (record s.storage s.runtime (command.map CommandInfo.id) stream payload
          now).storage
        runtime := (record s.storage s.runtime (command.map CommandInfo.id) stream payload
          now).runtime } := by
  obtain ⟨hlt, hget⟩ := List.getElem?_eq_some_iff.mp htask
  have hback : s.tasks.set task ⟨command, .idle⟩ = s.tasks := by
    rw [← hget, List.set_getElem_self]
  have happended := record_result s.storage s.runtime (command.map CommandInfo.id) stream payload
    now
  rw [hresult] at happended
  have hguard : guard True = some () := rfl
  rcases (Storage.appendEvent_ok happended.symm).2 with ⟨he, hs⟩ | ⟨db, -, he, hs⟩
  · refine ⟨[.keep task, .announce task now], ?_⟩
    simp [machine, Machine.run, step, draw, append, keep, announce, setTask, Recorder.commandId,
      hlt, hget, hguard, hback, ← happended, he, hs, record, SessionRuntime.keepLive,
      SessionRuntime.drawSequence, SessionRuntime.overflow]
  · refine ⟨[.announce task now], ?_⟩
    simp [machine, Machine.run, step, draw, append, announce, setTask, Recorder.commandId,
      hlt, hget, hguard, hback, ← happended, he, hs, record]

/-- The row of a task's command: it runs as long as the task records. -/
def HasRow (s : Recorders) (recorder : Recorder) : Prop :=
  ∀ id, recorder.commandId = some id →
    ∃ row, s.storage.db.command id = some row ∧ row.sessionId = s.runtime.sessionId ∧
      (recorder.recording = true → row.status = .running)

/-- What the steps of the recorders keep. -/
structure Wellformed (s : Recorders) : Prop where
  schema : s.storage.db.Schema
  taskIds : (s.tasks.filterMap Recorder.commandId).Nodup
  taskRow : ∀ recorder ∈ s.tasks, s.HasRow recorder
  pendingOwn : ∀ recorder ∈ s.tasks, ∀ event, recorder.pending = some event →
    event.sessionId = s.runtime.sessionId ∧ event.commandId = recorder.commandId
  liveOwn : ∀ event ∈ s.runtime.liveEvents, ∀ id, event.commandId = some id →
    ∃ row, s.storage.db.command id = some row ∧ row.sessionId = s.runtime.sessionId

theorem wellformed_created {db : Database} {limit : Nat} {info : SessionInfo} {now : Now}
    (hschema : db.Schema) : Wellformed (created ⟨db, limit⟩ info now) where
  schema := Storage.upsertSession_schema hschema
  taskIds := List.nodup_nil
  taskRow := by simp [created]
  pendingOwn := by simp [created]
  liveOwn := by simp [created, SessionRuntime.new]

theorem HasRow.of_keeps {s s' : Recorders} {recorder other : Recorder} (h : s.HasRow recorder)
    (hkeeps : s.storage.KeepsCommands s'.storage)
    (hown : s'.runtime.sessionId = s.runtime.sessionId)
    (hid : other.commandId = recorder.commandId)
    (hrecording : other.recording = true → recorder.recording = true) : s'.HasRow other := by
  intro id hid'
  obtain ⟨row, hrow, hr, hrunning⟩ := h id (hid ▸ hid')
  obtain ⟨row', hrow', hr', hstatus⟩ := hkeeps.command hrow
  exact ⟨row', hrow', hown ▸ hr'.trans hr, fun h => hstatus.trans (hrunning (hrecording h))⟩

theorem keepsCommands_refl (s : Storage) : s.KeepsCommands s :=
  ⟨id, fun _ => by simp, fun _ => ⟨rfl, rfl⟩⟩

/-- A step that moves one task on and keeps the command rows. -/
theorem Wellformed.move {s s' : Recorders} (h : Wellformed s) {recorder other : Recorder}
    {pre post : List Recorder} (htasks : s.tasks = pre ++ recorder :: post)
    (htasks' : s'.tasks = pre ++ other :: post) (hid : other.commandId = recorder.commandId)
    (hrecording : other.recording = true → recorder.recording = true)
    (hschema : s'.storage.db.Schema) (hkeeps : s.storage.KeepsCommands s'.storage)
    (hown : s'.runtime.sessionId = s.runtime.sessionId)
    (hpending : ∀ event, other.pending = some event →
      event.sessionId = s.runtime.sessionId ∧ event.commandId = recorder.commandId)
    (hlive : ∀ event ∈ s'.runtime.liveEvents, event ∈ s.runtime.liveEvents ∨
      recorder.pending = some event) : Wellformed s' where
  schema := hschema
  taskIds := by
    have hids := h.taskIds
    rw [htasks] at hids
    rw [htasks']
    simpa [List.filterMap_append, List.filterMap_cons, hid] using hids
  taskRow := by
    intro r hr
    rw [htasks', mem_middle] at hr
    rcases hr with rfl | hr
    · exact (h.taskRow recorder (htasks ▸ mem_middle.mpr (.inl rfl))).of_keeps hkeeps hown hid
        hrecording
    · exact (h.taskRow r (htasks ▸ mem_middle.mpr (.inr hr))).of_keeps hkeeps hown rfl id
  pendingOwn := by
    intro r hr event hevent
    rw [htasks', mem_middle] at hr
    rw [hown]
    rcases hr with rfl | hr
    · exact hid ▸ hpending event hevent
    · exact h.pendingOwn r (htasks ▸ mem_middle.mpr (.inr hr)) event hevent
  liveOwn := by
    intro event he id hc
    have hrecorder := htasks ▸ mem_middle.mpr (.inl rfl)
    have hold : ∃ row, s.storage.db.command id = some row ∧
        row.sessionId = s.runtime.sessionId := by
      cases hlive event he with
      | inl hlive => exact h.liveOwn event hlive id hc
      | inr hpending =>
          have hown := (h.pendingOwn recorder hrecorder event hpending).2
          obtain ⟨row, hrow, hr, -⟩ := h.taskRow recorder hrecorder id (hown.symm.trans hc)
          exact ⟨row, hrow, hr⟩
    rw [hown]
    exact hkeeps.row (fun owner _ => owner = s.runtime.sessionId) hold

theorem Wellformed.startExec {s : Recorders} (h : Wellformed s) {id command : String} {now : Now}
    {storage : Storage}
    (hinsert : s.storage.insertCommand (.started id s.runtime.sessionId command now) =
      .ok storage) :
    Wellformed { s with
      storage := storage
      tasks := s.tasks ++ [⟨some (.started id s.runtime.sessionId command now), .idle⟩] } := by
  have hcommand := Storage.insertCommand_command hinsert
  have hfresh := (Storage.insertCommand_ok hinsert).1
  have hkept : ∀ c row, s.storage.db.command c = some row →
      storage.db.command c = some row := by
    intro c row hrow
    have hne : c ≠ id := by
      rintro rfl
      exact absurd (hfresh.symm.trans hrow) nofun
    exact (hcommand c).trans ((if_neg hne).trans hrow)
  exact
    { schema := Storage.insertCommand_schema h.schema hinsert
      taskIds := by
        rw [List.filterMap_append]
        refine List.nodup_append.mpr ⟨h.taskIds, by simp [Recorder.commandId], ?_⟩
        -- the row of a running task is there, the new row was not
        rintro a ha b hb rfl
        obtain ⟨r, hr, hid⟩ := List.mem_filterMap.mp ha
        obtain ⟨row, hrow, -⟩ := h.taskRow r hr a hid
        have hsame : a = id := by simpa [Recorder.commandId, CommandInfo.started] using hb
        subst hsame
        exact absurd (hfresh.symm.trans hrow) nofun
      taskRow := by
        refine List.forall_mem_append.mpr ⟨fun r hr c hc => ?_, ?_⟩
        · obtain ⟨row, hrow, hrest⟩ := h.taskRow r hr c hc
          exact ⟨row, hkept c row hrow, hrest⟩
        · refine List.forall_mem_singleton.mpr fun c hc => ?_
          have hsame : id = c := by simpa [Recorder.commandId, CommandInfo.started] using hc
          subst hsame
          exact ⟨_, (hcommand id).trans (if_pos rfl), rfl, fun _ => rfl⟩
      pendingOwn := List.forall_mem_append.mpr
        ⟨h.pendingOwn, List.forall_mem_singleton.mpr (by simp [Recorder.pending])⟩
      liveOwn := fun event he c hc => by
        obtain ⟨row, hrow, hr⟩ := h.liveOwn event he c hc
        exact ⟨row, hkept c row hrow, hr⟩ }

theorem Wellformed.openPty {s : Recorders} (h : Wellformed s) :
    Wellformed { s with tasks := s.tasks ++ [⟨none, .idle⟩] } :=
  { h with
    taskIds := by simpa [List.filterMap_cons, Recorder.commandId] using h.taskIds
    taskRow := List.forall_mem_append.mpr
      ⟨h.taskRow, List.forall_mem_singleton.mpr (by simp [HasRow, Recorder.commandId])⟩
    pendingOwn := List.forall_mem_append.mpr
      ⟨h.pendingOwn, List.forall_mem_singleton.mpr (by simp [Recorder.pending])⟩ }

/-- The ids of the other exec tasks differ from that of a task. -/
theorem Wellformed.other_id {s : Recorders} (h : Wellformed s) {recorder other : Recorder}
    {pre post : List Recorder} (htasks : s.tasks = pre ++ recorder :: post)
    (hother : other ∈ pre ++ post) {id : String} (hid : recorder.commandId = some id) :
    other.commandId ≠ some id := by
  intro hsame
  have hids := h.taskIds
  rw [htasks, List.filterMap_append, List.filterMap_cons, hid] at hids
  have hmem : id ∈ pre.filterMap Recorder.commandId ++ post.filterMap Recorder.commandId := by
    rw [← List.filterMap_append]
    exact List.mem_filterMap.mpr ⟨other, hother, hsame⟩
  exact (List.nodup_middle.mp hids).notMem hmem

theorem Wellformed.update {s : Recorders} (h : Wellformed s) {status : CommandStatus}
    {exit : Option UInt32} {now : Now} {command : CommandInfo} {outputBytes : Nat}
    {pre post : List Recorder} (htasks : s.tasks = pre ++ ⟨some command, .idle⟩ :: post) :
    Wellformed { s with
      storage := s.storage.updateCommand
        (command.finished status exit s.runtime.sequence outputBytes now)
      tasks := pre ++ ⟨some command, .updated⟩ :: post } := by
  have hkept : ∀ c row, s.storage.db.command c = some row →
      ∃ row', (s.storage.updateCommand (command.finished status exit s.runtime.sequence
          outputBytes now)).db.command c = some row' ∧ row'.sessionId = row.sessionId ∧
        (c ≠ command.id → row' = row) := by
    intro c row hrow
    refine ⟨_, by rw [Storage.updateCommand_command, hrow, Option.map_some], ?_, ?_⟩
    · split <;> rfl
    · intro hne
      exact if_neg fun hid => hne ((Database.command_id hrow).symm.trans hid)
  exact
    { schema := Storage.updateCommand_schema h.schema
      taskIds := by
        have hids := h.taskIds
        rw [htasks] at hids
        simpa [List.filterMap_append, List.filterMap_cons, Recorder.commandId] using hids
      taskRow := by
        intro r hr c hc
        rcases mem_middle.mp hr with rfl | hr'
        · obtain ⟨row, hrow, hown, -⟩ := h.taskRow ⟨some command, .idle⟩
            (htasks ▸ mem_middle.mpr (.inl rfl)) c hc
          obtain ⟨row', hrow', hsame, -⟩ := hkept c row hrow
          exact ⟨row', hrow', hsame.trans hown, by simp [Recorder.recording]⟩
        · obtain ⟨row, hrow, hrest⟩ := h.taskRow r (htasks ▸ mem_middle.mpr (.inr hr')) c hc
          obtain ⟨row', hrow', -, hother⟩ := hkept c row hrow
          have hne : c ≠ command.id := by
            rintro rfl
            exact h.other_id htasks hr' rfl hc
          cases hother hne
          exact ⟨row, hrow', hrest⟩
      pendingOwn := by
        intro r hr event hevent
        rcases mem_middle.mp hr with rfl | hr'
        · cases hevent
        · exact h.pendingOwn r (htasks ▸ mem_middle.mpr (.inr hr')) event hevent
      liveOwn := fun event he c hc => by
        obtain ⟨row, hrow, hown⟩ := h.liveOwn event he c hc
        obtain ⟨row', hrow', hsame, -⟩ := hkept c row hrow
        exact ⟨row', hrow', hsame.trans hown⟩ }

theorem Wellformed.steps {s s' : Recorders} (h : Wellformed s) {move : RecorderStep}
    (hstep : Steps s move s') : Wellformed s' := by
  have hrefl := keepsCommands_refl s.storage
  cases hstep with
  | startExec hinsert => exact h.startExec hinsert
  | openPty => exact h.openPty
  | draw htasks =>
      refine h.move htasks rfl rfl id h.schema hrefl rfl ?_ fun _ he => .inl he
      rintro event ⟨⟩
      exact ⟨rfl, rfl⟩
  | @reject task command event pre post htasks =>
      refine h.move htasks rfl rfl id (Storage.rejectEvent_schema h.schema)
        (s.storage.rejectEvent_keeps event) rfl ?_ fun _ he => .inl he
      rintro _ ⟨⟩
      exact h.pendingOwn ⟨command, .drawn event⟩ (htasks ▸ mem_middle.mpr (.inl rfl)) event rfl
  | accept htasks hinsert =>
      exact h.move htasks rfl rfl id (Storage.countEvent_schema (h.schema.insertEvent hinsert))
        (Storage.acceptEvent_keeps hinsert) rfl (by simp [Recorder.pending]) fun _ he => .inl he
  | keep htasks =>
      refine h.move htasks rfl rfl id h.schema hrefl rfl (by simp [Recorder.pending]) ?_
      intro event he
      rcases SessionRuntime.mem_keepLive he with hlive | rfl
      · exact .inl hlive
      · exact .inr rfl
  | announce htasks =>
      exact h.move htasks rfl rfl id h.schema hrefl rfl (by simp [Recorder.pending])
        fun _ he => .inl he
  | update htasks _ => exact h.update htasks
  | wake htasks _ =>
      exact h.move htasks rfl rfl (by simp [Recorder.recording]) h.schema hrefl rfl
        (by simp [Recorder.pending]) fun _ he => .inl he

end Recorders
end AiSsh
