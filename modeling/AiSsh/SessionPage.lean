import AiSsh.Recording

/-!
How a page of output is put together: the database page first, then the part of
the live tail that still fits. A command page is what `command_poll` answers with,
a session page what `shell_read` answers with.
-/

namespace AiSsh

open Library

/-- Ceiling for the bytes one read returns. -/
def maxReadBytes : Nat := 1024 * 1024

/-- `max_bytes.clamp(1, MAX_READ_BYTES)`. -/
def readLimit (maxBytes : Nat) : Nat := max 1 (min maxBytes maxReadBytes)

structure CommandPage where
  command : CommandInfo
  events : List TerminalEvent
  more : Bool
  runtime : Option SessionRuntime
  deriving DecidableEq, Repr

/-- Nothing to return yet and the command may still produce output. -/
def CommandPage.quiet (page : CommandPage) : Bool :=
  page.events.isEmpty && !page.more && page.command.status == .running

structure PollPage where
  command : CommandInfo
  events : List TerminalEvent
  more : Bool
  warnings : List String
  progress : EventProgress
  deriving DecidableEq, Repr

/-- The live events a reader of this command, or of the whole session, is after. -/
def liveSelects (after : Nat) (commandId : Option String) (event : TerminalEvent) : Bool :=
  decide (after < event.sequence) && commandId.all fun id => event.commandId == some id

def appendLiveLoop (limit : Nat) (events : List TerminalEvent) (size : Nat) :
    List TerminalEvent → List TerminalEvent × Bool
  | [] => (events, false)
  | event :: live =>
      if ¬ events.isEmpty ∧ size + event.payload.length > limit then
        (events, true)
      else
        appendLiveLoop limit (events ++ [event]) (size + event.payload.length) live

/-- A page that the database has cut is left alone. -/
def appendLive (events : List TerminalEvent) (more : Bool) (live : List TerminalEvent)
    (after limit : Nat) (commandId : Option String) : List TerminalEvent × Bool :=
  if more then
    (events, more)
  else
    let (events, more) := appendLiveLoop limit events (payloadBytes events)
      (live.filter (liveSelects after commandId))
    (sortByKey TerminalEvent.sequence events, more)

/-- The runtime map of the manager. -/
def findRuntime (sessions : List SessionRuntime) (id : String) : Option SessionRuntime :=
  sessions.find? fun runtime => runtime.sessionId == id

def loadCommand (storage : Storage) (commandId : String) : Except ErrorPayload CommandInfo :=
  match storage.command commandId with
  | some command => .ok command
  | none =>
      .error (.new "COMMAND_NOT_FOUND" ("command " ++ debugText commandId ++ " does not exist"))

/-- The last of the three reads: the live tail on top of the row and the database page. -/
def readLivePage (sessions : List SessionRuntime) (command : CommandInfo)
    (stored : List TerminalEvent × Bool) (commandId : String) (after limit : Nat) : CommandPage :=
  match findRuntime sessions command.sessionId with
  | none => ⟨command, stored.1, stored.2, none⟩
  | some runtime =>
      let (events, more) :=
        appendLive stored.1 stored.2 runtime.liveEvents after limit (some commandId)
      ⟨command, events, more, some runtime⟩

def readCommandPage (storage : Storage) (sessions : List SessionRuntime) (commandId : String)
    (after limit : Nat) : Except ErrorPayload CommandPage := do
  let command ← loadCommand storage commandId
  let stored := storage.eventsForCommand commandId after limit
  return readLivePage sessions command stored commandId after limit

/-- Whole seconds between two instants. -/
def elapsedSeconds (since now : Nat) : Nat := (now - since) / 1000000000

def secondsSinceOutput (runtime : Option SessionRuntime) (now : Now) : Option Nat :=
  (runtime.bind SessionRuntime.lastOutputAt).map fun instant => elapsedSeconds instant now.instant

/-- A finished command has no meaningful time since its last output. -/
def progressFor (command : CommandInfo) (runtime : Option SessionRuntime) (timedOut : Bool)
    (waitedSeconds : Nat) (now : Now) : EventProgress where
  secondsSinceLastOutput :=
    if command.status = .running then secondsSinceOutput runtime now else none
  liveTailDropped := runtime.any SessionRuntime.liveTailDropped
  timedOut := timedOut
  waitedSeconds := waitedSeconds

def recordingLimitWarning : String :=
  "the session recording limit dropped earlier output; it is no longer available from storage"

def liveTailWarning : String :=
  "the in-memory overflow buffer dropped its oldest output; some output is unrecoverable"

def interruptedWithOutputWarning : String :=
  "the SSH transport dropped before an exit status arrived; this command did produce output, " ++
    "so the remote process started and may still be running"

def interruptedWarning : String :=
  "the SSH transport dropped before an exit status arrived and no output was received; " ++
    "whether the remote process started is unknown"

def noOutputWarning : String := "command finished without producing stdout or stderr events"

/-- The warnings a page is answered with, in the order they are pushed. -/
def pollWarnings (page : CommandPage) (after : Nat) : List String :=
  (if page.command.recordingTruncated then [recordingLimitWarning] else []) ++
  (if page.runtime.any SessionRuntime.liveTailDropped then [liveTailWarning] else []) ++
  (if page.command.status = .interrupted then
    if page.command.outputBytes > 0 then [interruptedWithOutputWarning] else [interruptedWarning]
  else []) ++
  (if after = 0 ∧ page.events.isEmpty ∧ page.command.status ≠ .running then
    [noOutputWarning]
  else [])

def finishPoll (page : CommandPage) (after : Nat) (timedOut : Bool) (started now : Now) :
    PollPage where
  command := page.command
  events := page.events
  more := page.more
  warnings := pollWarnings page after
  progress := progressFor page.command page.runtime timedOut
    (elapsedSeconds started.instant now.instant) now

structure ShellPage where
  commands : List CommandInfo
  events : List TerminalEvent
  more : Bool
  progress : EventProgress
  deriving DecidableEq, Repr

/-- The database page of a session, with the live tail on top. -/
def readLiveShell (sessions : List SessionRuntime) (stored : List TerminalEvent × Bool)
    (sessionId : String) (after limit : Nat) : List TerminalEvent × Bool :=
  match findRuntime sessions sessionId with
  | none => stored
  | some runtime => appendLive stored.1 stored.2 runtime.liveEvents after limit none

/-- The rows a session page lists: the commands of its events and the newest
command of the session, in the order of their ids. -/
def shellCommands (storage : Storage) (sessionId : String) (events : List TerminalEvent) :
    List CommandInfo :=
  let ids := events.filterMap TerminalEvent.commandId ++
    ((storage.latestCommandForSession sessionId).map CommandInfo.id).toList
  ((ids.dedup.insertionSort fun a b => a ≤ b).filterMap storage.command)

/-- A session has no single running command. -/
def shellProgress (timedOut : Bool) (started now : Now) (runtime : Option SessionRuntime) :
    EventProgress where
  secondsSinceLastOutput := secondsSinceOutput runtime now
  liveTailDropped := runtime.any SessionRuntime.liveTailDropped
  timedOut := timedOut
  waitedSeconds := elapsedSeconds started.instant now.instant

def eventsResponse (command : Option CommandInfo) (commands : List CommandInfo)
    (events : List TerminalEvent) (after : Nat) (more : Bool) (warnings : List String)
    (progress : EventProgress) : EventsData where
  command := command
  commands := commands
  events := events
  nextSequence := (events.getLast?.map TerminalEvent.sequence).getD after
  hasMore := more
  deliveryComplete := command.any fun value => value.status != .running && !more
  warnings := warnings
  progress := progress

/-- The daemon's answer to a `CommandPoll` request. -/
def respondPoll (page : PollPage) (after : Nat) : EventsData :=
  eventsResponse (some page.command) [] page.events after page.more page.warnings page.progress

/-- The daemon's answer to a `ShellRead` request. -/
def respondShell (page : ShellPage) (after : Nat) : EventsData :=
  eventsResponse none page.commands page.events after page.more [] page.progress

/-- A poll that is answered from the first page it reads. -/
def commandPoll (storage : Storage) (sessions : List SessionRuntime) (commandId : String)
    (after maxBytes : Nat) (now : Now) : Except ErrorPayload EventsData := do
  let page ← readCommandPage storage sessions commandId after (readLimit maxBytes)
  return respondPoll (finishPoll page after false now now) after

/-! What goes on a page. -/

theorem appendLiveLoop_eq_fill (limit : Nat) (events live : List TerminalEvent) :
    appendLiveLoop limit events (payloadBytes events) live =
      fill (withinBudget payloadLength limit) events live := by
  induction live generalizing events with
  | nil => rfl
  | cons event live ih =>
      have hsize : payloadBytes events + event.payload.length =
          payloadBytes (events ++ [event]) := by simp [payloadBytes, payloadLength]
      have hcond : (¬ events.isEmpty ∧ payloadBytes (events ++ [event]) > limit) ↔
          withinBudget payloadLength limit events event = false := by
        cases events with
        | nil => simp [withinBudget]
        | cons first events => simp [withinBudget, payloadBytes, Nat.add_assoc]
      rw [appendLiveLoop, fill, hsize, ih]
      cases h : withinBudget payloadLength limit events event with
      | false => rw [if_pos (hcond.mpr h), if_neg Bool.false_ne_true]
      | true => rw [if_neg fun hc => absurd (hcond.mp hc) (by simp [h]), if_pos rfl]

theorem appendLive_of_cut (events live : List TerminalEvent) (after limit : Nat)
    (commandId : Option String) :
    appendLive events true live after limit commandId = (events, true) := rfl

theorem appendLive_of_whole (events live : List TerminalEvent) (after limit : Nat)
    (commandId : Option String) :
    appendLive events false live after limit commandId =
      (sortByKey TerminalEvent.sequence
        (fill (withinBudget payloadLength limit) events
          (live.filter (liveSelects after commandId))).1,
        (fill (withinBudget payloadLength limit) events
          (live.filter (liveSelects after commandId))).2) := by
  simp only [appendLive, Bool.false_eq_true, if_false, appendLiveLoop_eq_fill]

/-- A page shows the database page, and the live events within the budget when
the database page is whole. -/
theorem mem_appendLive {events live : List TerminalEvent} {more : Bool} {after limit : Nat}
    {commandId : Option String} {x : TerminalEvent}
    (hnodup : (events ++ live.filter (liveSelects after commandId)).Nodup) :
    x ∈ (appendLive events more live after limit commandId).1 ↔
      x ∈ events ∨ more = false ∧
        Within payloadLength limit events (live.filter (liveSelects after commandId)) x := by
  cases more with
  | true => simp [appendLive_of_cut]
  | false =>
      rw [appendLive_of_whole]
      simp only [mem_sortByKey, true_and]
      exact mem_fill_within hnodup

/-- A page without more shows everything there is. -/
theorem appendLive_all {events live : List TerminalEvent} {more : Bool} {after limit : Nat}
    {commandId : Option String}
    (h : (appendLive events more live after limit commandId).2 = false) :
    more = false ∧ (appendLive events more live after limit commandId).1 =
      sortByKey TerminalEvent.sequence
        (events ++ live.filter (liveSelects after commandId)) := by
  cases more with
  | true => simp [appendLive_of_cut] at h
  | false =>
      rw [appendLive_of_whole] at h ⊢
      exact ⟨rfl, congrArg (sortByKey TerminalEvent.sequence) (fill_all h)⟩

theorem appendLive_more_ne_nil {events live : List TerminalEvent} {more : Bool}
    {after limit : Nat} {commandId : Option String} (hevents : more = true → events ≠ [])
    (h : (appendLive events more live after limit commandId).2 = true) :
    (appendLive events more live after limit commandId).1 ≠ [] := by
  cases more with
  | true => exact hevents rfl
  | false =>
      rw [appendLive_of_whole] at h ⊢
      have hfill : (fill (withinBudget payloadLength limit) events
          (live.filter (liveSelects after commandId))).1 ≠ [] := by
        apply fill_ne_nil fun x => withinBudget_nil _ _ x
        right
        intro hnil
        simp [hnil, fill] at h
      intro hsorted
      obtain ⟨x, hx⟩ := List.exists_mem_of_ne_nil _ hfill
      exact List.ne_nil_of_mem ((mem_sortByKey TerminalEvent.sequence).mpr hx) hsorted

theorem ascending_appendLive {events live : List TerminalEvent} {more : Bool}
    {after limit : Nat} {commandId : Option String}
    (hevents : Ascending TerminalEvent.sequence events)
    (hnodup : ((events ++ live.filter (liveSelects after commandId)).map
      TerminalEvent.sequence).Nodup) :
    Ascending TerminalEvent.sequence
      (appendLive events more live after limit commandId).1 := by
  cases more with
  | true => exact hevents
  | false =>
      rw [appendLive_of_whole]
      apply ascending_sortByKey
      obtain ⟨taken, htaken, hpage⟩ := fill_prefix (withinBudget payloadLength limit) events
        (live.filter (liveSelects after commandId))
      rw [hpage]
      refine hnodup.sublist (List.Sublist.map _ ?_)
      exact List.Sublist.append_left htaken.sublist _

/-- An empty page without more was put together from nothing. -/
theorem appendLive_empty {events live : List TerminalEvent} {more : Bool} {after limit : Nat}
    {commandId : Option String}
    (hpage : (appendLive events more live after limit commandId).1 = [])
    (hmore : (appendLive events more live after limit commandId).2 = false) :
    events = [] ∧ more = false ∧ live.filter (liveSelects after commandId) = [] := by
  obtain ⟨hwhole, hall⟩ := appendLive_all hmore
  have hnil : events ++ live.filter (liveSelects after commandId) = [] := by
    refine List.eq_nil_iff_forall_not_mem.mpr fun x hx => ?_
    have hshown := (mem_sortByKey TerminalEvent.sequence).mpr hx
    rw [← hall, hpage] at hshown
    contradiction
  exact ⟨(List.append_eq_nil_iff.mp hnil).1, hwhole, (List.append_eq_nil_iff.mp hnil).2⟩

theorem appendLive_of_none {live : List TerminalEvent} {after limit : Nat}
    {commandId : Option String} (h : live.filter (liveSelects after commandId) = []) :
    appendLive [] false live after limit commandId = ([], false) := by
  rw [appendLive_of_whole, h]
  rfl

/-- A page is empty when there is nothing to put on it. -/
theorem appendLive_eq_nil_iff {events live : List TerminalEvent} {more : Bool}
    {after limit : Nat} {commandId : Option String} (hevents : more = true → events ≠ []) :
    (appendLive events more live after limit commandId).1 = [] ↔
      events = [] ∧ live.filter (liveSelects after commandId) = [] := by
  constructor
  · intro hpage
    have hmore : (appendLive events more live after limit commandId).2 = false := by
      by_contra hmore
      exact appendLive_more_ne_nil hevents (Bool.eq_true_of_not_eq_false hmore) hpage
    obtain ⟨hrows, -, hlive⟩ := appendLive_empty hpage hmore
    exact ⟨hrows, hlive⟩
  · intro ⟨hrows, hlive⟩
    have hwhole : more = false := by
      by_contra hmore
      exact hevents (Bool.eq_true_of_not_eq_false hmore) hrows
    rw [hrows, hwhole, appendLive_of_none hlive]

theorem findRuntime_singleton {runtime found : SessionRuntime} {id : String} :
    findRuntime [runtime] id = some found ↔ runtime = found ∧ runtime.sessionId = id := by
  by_cases h : runtime.sessionId = id <;> simp [findRuntime, h]

theorem readLivePage_own {runtime : SessionRuntime} {command : CommandInfo}
    (hown : command.sessionId = runtime.sessionId) (stored : List TerminalEvent × Bool)
    (commandId : String) (after limit : Nat) :
    readLivePage [runtime] command stored commandId after limit =
      ⟨command, (appendLive stored.1 stored.2 runtime.liveEvents after limit
          (some commandId)).1,
        (appendLive stored.1 stored.2 runtime.liveEvents after limit (some commandId)).2,
        some runtime⟩ := by
  rw [readLivePage, findRuntime_singleton.mpr ⟨rfl, hown.symm⟩]

theorem readLivePage_command (sessions : List SessionRuntime) (command : CommandInfo)
    (stored : List TerminalEvent × Bool) (commandId : String) (after limit : Nat) :
    (readLivePage sessions command stored commandId after limit).command = command := by
  rw [readLivePage]
  split <;> rfl

theorem loadCommand_ok {storage : Storage} {id : String} {command : CommandInfo} :
    loadCommand storage id = .ok command ↔ storage.db.command id = some command := by
  cases h : storage.db.command id <;> simp [loadCommand, Storage.command, h]

theorem mem_liveSelects {live : List TerminalEvent} {after : Nat} {commandId : Option String}
    {x : TerminalEvent} :
    x ∈ live.filter (liveSelects after commandId) ↔
      x ∈ live ∧ after < x.sequence ∧ ∀ id, commandId = some id → x.commandId = some id := by
  cases commandId <;> simp [liveSelects]

/-- The cursor a response hands back. -/
theorem eventsResponse_nextSequence (command : Option CommandInfo) (commands : List CommandInfo)
    (events : List TerminalEvent) (after : Nat) (more : Bool) (warnings : List String)
    (progress : EventProgress) :
    (eventsResponse command commands events after more warnings progress).nextSequence =
      nextCursor TerminalEvent.sequence after events := rfl

end AiSsh
