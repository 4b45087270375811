import AiSsh.Library.Machine
import AiSsh.Storage

/-!
One session's recorder: the runtime record the daemon keeps per session, and the
`record` call that draws a sequence number, offers the event to the store, keeps
a rejected event in the live tail and announces the event.

The run of a session is a sequence of `record` calls with the row writes of
`start_exec`, `run_exec` and `close` in between. The run carries two histories the
daemon does not keep: every event as `append_event` returned it, and every event
the live tail gave up.
-/

namespace AiSsh

open Library

/-- A transport handle; the identifier stands for the shared pointer. -/
structure SshConnection where
  id : String
  fingerprint : String
  deriving DecidableEq, Repr

/-- What occupies the foreground. The cancellation token of an exec and the
writer of a PTY belong to the identifier. -/
inductive Foreground
  | exec (commandId : String)
  | pty (id : String)
  deriving DecidableEq, Repr

/-- The two clocks a step reads. -/
structure Now where
  utc : DateTime
  instant : Nat
  deriving DecidableEq, Repr

/-- `eventsTx` counts the announcements a watch receiver compares against. -/
structure SessionRuntime where
  sessionId : String
  info : SessionInfo
  connection : Option SshConnection
  foreground : Option Foreground
  background : List String
  sequence : Nat
  recordingTruncated : Bool
  liveTailDropped : Bool
  lastActivity : Nat
  lastOutputAt : Option Nat
  liveEvents : List TerminalEvent
  eventsTx : Nat
  deriving DecidableEq, Repr

/-- Ceiling of the in-memory tail. -/
def liveTailBytes : Nat := 4 * 1024 * 1024

/-- The eviction loop: what the tail keeps, and what it gave up from the front. -/
def popOverflow (bytes : Nat) : List TerminalEvent → List TerminalEvent × List TerminalEvent
  | [] => ([], [])
  | old :: live =>
      if bytes > liveTailBytes then
        let (kept, popped) := popOverflow (bytes - old.payload.length) live
        (kept, old :: popped)
      else
        (old :: live, [])

namespace SessionInfo

/-- The record `create` starts from. -/
def created (id targetId targetName purpose clientName : String) (now : Now) : SessionInfo where
  id := id
  targetId := targetId
  targetName := targetName
  purpose := purpose
  clientName := clientName
  status := .connecting
  currentCommand := none
  lastExitCode := none
  recordingTruncated := false
  hostFingerprint := none
  createdAt := now.utc
  updatedAt := now.utc
  closedAt := none

/-- A foreground `start_exec`. -/
def execStarted (info : SessionInfo) (command : String) (now : Now) : SessionInfo :=
  { info with
    status := .execRunning
    currentCommand := some command
    lastExitCode := none
    updatedAt := now.utc }

/-- The end of a foreground `run_exec`, when the session is not closed. -/
def execFinished (info : SessionInfo) (interrupted : Bool) (exit : Option UInt32)
    (now : Now) : SessionInfo :=
  { info with
    status := if interrupted then .disconnected else .idle
    currentCommand := none
    lastExitCode := exit
    updatedAt := now.utc }

def closed (info : SessionInfo) (now : Now) : SessionInfo :=
  { info with
    status := .closed
    currentCommand := none
    updatedAt := now.utc
    closedAt := some now.utc }

end SessionInfo

namespace CommandInfo

/-- The row `start_exec` inserts. -/
def started (id sessionId command : String) (now : Now) : CommandInfo where
  id := id
  sessionId := sessionId
  command := command
  status := .running
  exitCode := none
  startedAt := now.utc
  finishedAt := none
  lastSequence := 0
  recordingTruncated := false
  outputBytes := 0

/-- The task's own copy, as `run_exec` fills it in before it updates the row. -/
def finished (command : CommandInfo) (status : CommandStatus) (exit : Option UInt32)
    (lastSequence outputBytes : Nat) (now : Now) : CommandInfo :=
  { command with
    status := status
    exitCode := exit
    finishedAt := some now.utc
    lastSequence := lastSequence
    outputBytes := outputBytes }

end CommandInfo

namespace SessionRuntime

def new (info : SessionInfo) (now : Now) : SessionRuntime where
  sessionId := info.id
  info := info
  connection := none
  foreground := none
  background := []
  sequence := 0
  recordingTruncated := false
  liveTailDropped := false
  lastActivity := now.instant
  lastOutputAt := none
  liveEvents := []
  eventsTx := 0

/-- The event under the number `fetch_add` hands out. -/
def nextEvent (runtime : SessionRuntime) (commandId : Option String) (stream : StreamKind)
    (payload : Bytes) (now : Now) : TerminalEvent where
  sessionId := runtime.sessionId
  commandId := commandId
  sequence := runtime.sequence + 1
  timestamp := now.utc
  stream := stream
  payload := payload
  persisted := true

def drawSequence (runtime : SessionRuntime) (now : Now) : SessionRuntime :=
  { runtime with sequence := runtime.sequence + 1, lastActivity := now.instant }

/-- The tail after one more event, split into what stays and what is evicted. -/
def overflow (runtime : SessionRuntime) (event : TerminalEvent) :
    List TerminalEvent × List TerminalEvent :=
  popOverflow (payloadBytes (runtime.liveEvents ++ [event])) (runtime.liveEvents ++ [event])

/-- What `record` does with an event the store rejected. -/
def keepLive (runtime : SessionRuntime) (event : TerminalEvent) : SessionRuntime :=
  { runtime with
    recordingTruncated := true
    liveEvents := (runtime.overflow event).1
    liveTailDropped := runtime.liveTailDropped || !(runtime.overflow event).2.isEmpty }

def announce (runtime : SessionRuntime) (now : Now) : SessionRuntime :=
  { runtime with lastOutputAt := some now.instant, eventsTx := runtime.eventsTx + 1 }

end SessionRuntime

/-- What one `record` call leaves behind. -/
structure Record where
  result : Except StorageError Unit
  event : TerminalEvent
  popped : List TerminalEvent
  storage : Storage
  runtime : SessionRuntime

def record (storage : Storage) (runtime : SessionRuntime) (commandId : Option String)
    (stream : StreamKind) (payload : Bytes) (now : Now) : Record :=
  let appended := storage.appendEvent (runtime.nextEvent commandId stream payload now)
  let runtime := runtime.drawSequence now
  if appended.event.persisted then
    ⟨appended.result, appended.event, [], appended.storage, runtime.announce now⟩
  else
    ⟨appended.result, appended.event, (runtime.overflow appended.event).2, appended.storage,
      (runtime.keepLive appended.event).announce now⟩

/-- A `run_exec` task with the copy of the command it was started with. -/
structure ExecTask where
  command : CommandInfo
  background : Bool
  deriving DecidableEq, Repr

structure Session where
  storage : Storage
  runtime : SessionRuntime
  tasks : List ExecTask
  history : List TerminalEvent
  evicted : List TerminalEvent
  deriving DecidableEq, Repr

inductive SessionCall
  | record (commandId : Option String) (stream : StreamKind) (payload : Bytes) (now : Now)
  | startExec (id command : String) (background : Bool) (now : Now)
  | finishExec (id : String) (status : CommandStatus) (exit : Option UInt32) (now : Now)
  | close (now : Now)
  deriving DecidableEq, Repr

namespace Session

/-- A session right after `create` has stored it. -/
def created (storage : Storage) (info : SessionInfo) (now : Now) : Session :=
  ⟨storage.upsertSession info, .new info now, [], [], []⟩

def setInfo (s : Session) (info : SessionInfo) : Session :=
  { s with
    runtime := { s.runtime with info := info }
    storage := s.storage.upsertSession info }

def task (s : Session) (id : String) : Option ExecTask :=
  s.tasks.find? fun task => task.command.id == id

/-- Output is recorded by a running exec for its own command, or by a PTY. -/
def stepRecord (s : Session) (commandId : Option String) (stream : StreamKind)
    (payload : Bytes) (now : Now) : Option Session :=
  if commandId.all fun id => (s.task id).isSome then
    let recorded := AiSsh.record s.storage s.runtime commandId stream payload now
    match recorded.result with
    | .error _ => none
    | .ok () => some
        { s with
          storage := recorded.storage
          runtime := recorded.runtime
          history := s.history ++ [recorded.event]
          evicted := s.evicted ++ recorded.popped }
  else
    none

def stepStartExec (s : Session) (id command : String) (background : Bool) (now : Now) :
    Option Session :=
  let commandInfo := CommandInfo.started id s.runtime.sessionId command now
  match s.storage.insertCommand commandInfo with
  | .error _ => none
  | .ok storage =>
      let s := { s with storage := storage, tasks := s.tasks ++ [⟨commandInfo, background⟩] }
      some (if background then s else s.setInfo (s.runtime.info.execStarted command now))

def stepFinishExec (s : Session) (id : String) (status : CommandStatus)
    (exit : Option UInt32) (now : Now) : Option Session :=
  match s.task id with
  | none => none
  | some task =>
      if status = .running then none else
      let outputBytes := ((s.storage.command id).map CommandInfo.outputBytes).getD 0
      let command := task.command.finished status exit s.runtime.sequence outputBytes now
      let s := { s with
        storage := s.storage.updateCommand command
        tasks := s.tasks.filter fun task => task.command.id != id }
      some (if task.background || s.runtime.info.status == .closed then s else
        s.setInfo (s.runtime.info.execFinished (status == .interrupted) exit now))

def step (s : Session) : SessionCall → Option Session
  | .record commandId stream payload now => s.stepRecord commandId stream payload now
  | .startExec id command background now => s.stepStartExec id command background now
  | .finishExec id status exit now => s.stepFinishExec id status exit now
  | .close now => some (s.setInfo (s.runtime.info.closed now))

/-- The session under any sequence of calls whose storage operations succeed. -/
def machine : Machine Session SessionCall := ⟨step⟩

/-- The rows of this session. -/
def stored (s : Session) : List TerminalEvent :=
  s.storage.db.events.filter fun event => event.sessionId == s.runtime.sessionId

end Session

/-! The live tail. -/

theorem popOverflow_append (bytes : Nat) (live : List TerminalEvent) :
    (popOverflow bytes live).2 ++ (popOverflow bytes live).1 = live := by
  induction live generalizing bytes with
  | nil => rfl
  | cons old live ih =>
      by_cases h : bytes > liveTailBytes
      · simp only [popOverflow, h, if_true, List.cons_append, ih]
      · simp [popOverflow, h]

/-- A tail within its ceiling gives nothing up. -/
theorem popOverflow_of_le {bytes : Nat} (h : bytes ≤ liveTailBytes) (live : List TerminalEvent) :
    popOverflow bytes live = (live, []) := by
  cases live with
  | nil => rfl
  | cons old live => rw [popOverflow, if_neg (Nat.not_lt.mpr h)]

theorem popOverflow_bounded (live : List TerminalEvent) :
    payloadBytes (popOverflow (payloadBytes live) live).1 ≤ liveTailBytes := by
  induction live with
  | nil => exact Nat.zero_le _
  | cons old live ih =>
      by_cases h : payloadBytes (old :: live) > liveTailBytes
      · have hrest : payloadBytes (old :: live) - old.payload.length = payloadBytes live := by
          simp [payloadBytes, payloadLength]
        simp only [popOverflow, h, if_true, hrest]
        exact ih
      · rw [popOverflow, if_neg h]
        exact Nat.le_of_not_gt h

theorem SessionRuntime.overflow_append (runtime : SessionRuntime) (event : TerminalEvent) :
    (runtime.overflow event).2 ++ (runtime.overflow event).1 = runtime.liveEvents ++ [event] :=
  popOverflow_append _ _

theorem SessionRuntime.keepLive_bounded (runtime : SessionRuntime) (event : TerminalEvent) :
    payloadBytes (runtime.keepLive event).liveEvents ≤ liveTailBytes :=
  popOverflow_bounded _

theorem SessionRuntime.mem_keepLive {runtime : SessionRuntime} {event kept : TerminalEvent}
    (h : kept ∈ (runtime.keepLive event).liveEvents) :
    kept ∈ runtime.liveEvents ∨ kept = event := by
  have hqueue : kept ∈ runtime.liveEvents ++ [event] := by
    rw [← runtime.overflow_append event]
    exact List.mem_append_right _ h
  simpa using hqueue

/-! What a call that succeeds has done. -/

theorem record_result (storage : Storage) (runtime : SessionRuntime) (commandId : Option String)
    (stream : StreamKind) (payload : Bytes) (now : Now) :
    (record storage runtime commandId stream payload now).result =
      (storage.appendEvent (runtime.nextEvent commandId stream payload now)).result := by
  unfold record
  dsimp only
  split <;> rfl

theorem record_storage (storage : Storage) (runtime : SessionRuntime) (commandId : Option String)
    (stream : StreamKind) (payload : Bytes) (now : Now) :
    (record storage runtime commandId stream payload now).storage =
      (storage.appendEvent (runtime.nextEvent commandId stream payload now)).storage := by
  unfold record
  dsimp only
  split <;> rfl

/-- What `record` leaves as it was, and when it was called. -/
structure SessionRuntime.Recorded (runtime runtime' : SessionRuntime) (now : Now) : Prop where
  sessionId : runtime'.sessionId = runtime.sessionId
  info : runtime'.info = runtime.info
  connection : runtime'.connection = runtime.connection
  foreground : runtime'.foreground = runtime.foreground
  background : runtime'.background = runtime.background
  lastActivity : runtime'.lastActivity = now.instant

theorem record_runtime (storage : Storage) (runtime : SessionRuntime) (commandId : Option String)
    (stream : StreamKind) (payload : Bytes) (now : Now) :
    runtime.Recorded (record storage runtime commandId stream payload now).runtime now := by
  unfold record
  dsimp only
  split
  · exact ⟨rfl, rfl, rfl, rfl, rfl, rfl⟩
  · exact ⟨rfl, rfl, rfl, rfl, rfl, rfl⟩

/-- The store either rejects the event, which then goes to the live tail, or
inserts and counts it. -/
theorem record_ok {storage : Storage} {runtime : SessionRuntime} {commandId : Option String}
    {stream : StreamKind} {payload : Bytes} {now : Now} {event : TerminalEvent}
    (hevent : runtime.nextEvent commandId stream payload now = event)
    (h : (record storage runtime commandId stream payload now).result = .ok ()) :
    record storage runtime commandId stream payload now =
      ⟨.ok (), { event with persisted := false },
        (runtime.overflow { event with persisted := false }).2, storage.rejectEvent event,
        ((runtime.drawSequence now).keepLive { event with persisted := false }).announce now⟩ ∨
    ∃ db, storage.db.insertEvent event = .ok db ∧
      record storage runtime commandId stream payload now =
        ⟨.ok (), { event with persisted := true }, [],
          { storage with db := Storage.countEvent db event },
          (runtime.drawSequence now).announce now⟩ := by
  rw [record_result, hevent] at h
  unfold record
  dsimp only
  rw [hevent]
  rcases (Storage.appendEvent_ok h).2 with ⟨he, hs⟩ | ⟨db, hins, he, hs⟩
  · left
    rw [h, he, hs, if_neg Bool.false_ne_true]
    rfl
  · right
    refine ⟨db, hins, ?_⟩
    rw [h, he, hs, if_pos rfl]

namespace Session

theorem task_mem {s : Session} {id : String} {task : ExecTask} (h : s.task id = some task) :
    task ∈ s.tasks ∧ task.command.id = id :=
  ⟨List.mem_of_find?_eq_some h, by simpa using List.find?_some h⟩

theorem stepRecord_some {s s' : Session} {commandId : Option String} {stream : StreamKind}
    {payload : Bytes} {now : Now} (h : s.stepRecord commandId stream payload now = some s') :
    (∀ id, commandId = some id → ∃ task, s.task id = some task) ∧
      (AiSsh.record s.storage s.runtime commandId stream payload now).result = .ok () ∧
      s' = { s with
        storage := (AiSsh.record s.storage s.runtime commandId stream payload now).storage
        runtime := (AiSsh.record s.storage s.runtime commandId stream payload now).runtime
        history := s.history ++
          [(AiSsh.record s.storage s.runtime commandId stream payload now).event]
        evicted := s.evicted ++
          (AiSsh.record s.storage s.runtime commandId stream payload now).popped } := by
  unfold stepRecord at h
  split at h
  · rename_i hrunning
    cases hresult : (AiSsh.record s.storage s.runtime commandId stream payload now).result with
    | error error => simp [hresult] at h
    | ok _ =>
        simp only [hresult, Option.some.injEq] at h
        refine ⟨?_, rfl, h.symm⟩
        rintro id rfl
        exact Option.isSome_iff_exists.mp (by simpa using hrunning)
  · cases h

theorem stepStartExec_some {s s' : Session} {id command : String} {background : Bool} {now : Now}
    (h : s.stepStartExec id command background now = some s') :
    ∃ storage, s.storage.insertCommand (.started id s.runtime.sessionId command now) = .ok storage ∧
      let started := { s with
        storage := storage
        tasks := s.tasks ++ [⟨.started id s.runtime.sessionId command now, background⟩] }
      s' = if background then started
        else started.setInfo (s.runtime.info.execStarted command now) := by
  unfold stepStartExec at h
  dsimp only at h
  split at h
  · cases h
  · rename_i storage hinsert
    exact ⟨storage, hinsert, (Option.some.inj h).symm⟩

theorem stepFinishExec_some {s s' : Session} {id : String} {status : CommandStatus}
    {exit : Option UInt32} {now : Now} (h : s.stepFinishExec id status exit now = some s') :
    ∃ task, s.task id = some task ∧ status ≠ .running ∧ ∃ outputBytes,
      let finished := { s with
        storage := s.storage.updateCommand
          (task.command.finished status exit s.runtime.sequence outputBytes now)
        tasks := s.tasks.filter fun task => task.command.id != id }
      s' = if task.background || s.runtime.info.status == .closed then finished
        else finished.setInfo (s.runtime.info.execFinished (status == .interrupted) exit now) := by
  unfold stepFinishExec at h
  cases htask : s.task id with
  | none => simp [htask] at h
  | some task =>
      simp only [htask] at h
      split at h
      · cases h
      · rename_i hstatus
        exact ⟨task, rfl, hstatus, _, (Option.some.inj h).symm⟩

end Session
end AiSsh
