import AiSsh.Recording

/-!
The operations of one session, step by step: `create`, `start_exec`, `shell_open`,
an operation on files, `shell_close` and `close`, and the tasks `run_exec` and
`run_pty` that the first ones spawn. A step ends at a lock or at an await. The
info record, the connection slot and the foreground slot have a lock each; a
foreground lock is held across awaits by the operations that fill the slot and by
those that close a PTY writer, the connection lock while a connection is
disconnected. Answers of the network, of the storage and of the configuration come
with the step that receives them.
-/

namespace AiSsh

open Library

namespace SessionInfo

/-- The end of `create` when the connection stands. -/
def connected (info : SessionInfo) (fingerprint : String) (now : Now) : SessionInfo :=
  { info with status := .ready, hostFingerprint := some fingerprint, updatedAt := now.utc }

def connectFailed (info : SessionInfo) (now : Now) : SessionInfo :=
  { info with status := .failed, updatedAt := now.utc, closedAt := some now.utc }

/-- Only a session that had no live work becomes ready by a reconnect. -/
def reconnected (info : SessionInfo) (fingerprint : String) (now : Now) : SessionInfo :=
  { info with
    status :=
      if info.status = .connecting ∨ info.status = .disconnected ∨ info.status = .failed then
        .ready
      else
        info.status
    hostFingerprint := some fingerprint
    updatedAt := now.utc }

def reconnectFailed (info : SessionInfo) (now : Now) : SessionInfo :=
  { info with status := .disconnected, currentCommand := none, updatedAt := now.utc }

def ptyOpened (info : SessionInfo) (now : Now) : SessionInfo :=
  { info with
    status := .ptyOpen
    currentCommand := some "Interactive shell"
    updatedAt := now.utc }

def ptyFinished (info : SessionInfo) (intentional : Bool) (now : Now) : SessionInfo :=
  { info with
    status := if intentional then .idle else .disconnected
    currentCommand := none
    updatedAt := now.utc }

end SessionInfo

/-- What the connection is wanted for. -/
inductive Purpose
  | exec (command : String) (background : Bool)
  | pty
  | sftp
  deriving DecidableEq, Repr

def Purpose.takesForeground : Purpose → Bool
  | .exec _ background => !background
  | .pty => true
  | .sftp => false

/-- An operation or task, by the step it takes next. -/
inductive Op
  | createDial
  | createStore (connection : SshConnection)
  | createReady (connection : SshConnection)
  | createFailed (error : ErrorPayload)
  | acquire (purpose : Purpose)
  | look (purpose : Purpose)
  | check (purpose : Purpose)
  | dial (purpose : Purpose) (left : Nat)
  | dialed (purpose : Purpose) (connection : SshConnection)
  | dialFailed (purpose : Purpose) (error : ErrorPayload)
  | store (purpose : Purpose) (connection : SshConnection)
  | opening (purpose : Purpose) (connection : SshConnection)
  | openFailed (error : ErrorPayload) (purpose : Purpose)
  | installExec (command : CommandInfo) (background : Bool)
  | installPty (id : String)
  | startedExec (command : CommandInfo)
  | startedPty (id : String)
  | runExec (command : CommandInfo) (background : Bool)
  | execDiscard (id : String) (background : Bool) (exit : Option UInt32)
  | execBackground (id : String)
  | execRelease (id : String) (interrupted : Bool) (exit : Option UInt32)
  | execInfo (interrupted : Bool) (exit : Option UInt32)
  | runPty (id : String)
  | ptyRelease (id : String)
  | ptyDiscard
  | ptyInfo (intentional : Bool)
  | shellClose
  | shellClosing
  | closeForeground
  | closeWriter
  | closeBackground
  | closeConnection
  | closeDisconnect (connection : SshConnection)
  | closeInfo
  | returned (result : Except ErrorPayload Unit)
  deriving DecidableEq

/-- What a step hears from outside the session. -/
inductive Answer
  | ok
  | connected (connection : SshConnection)
  | opened (id : String)
  | ended (status : CommandStatus) (exit : Option UInt32)
  | failed (error : ErrorPayload)
  deriving DecidableEq, Repr

/-- What the operations share. `dead` are the connections whose transport is gone,
`cancelled` the execs whose token is cancelled, `used` the ids handed out so far. -/
structure Shared where
  runtime : SessionRuntime
  storage : Storage
  reconnectAttempts : Nat
  dead : List String
  cancelled : List String
  used : List String
  deriving DecidableEq, Repr

def Op.holdsForeground : Op → Bool
  | .look p | .check p | .dial p _ | .dialed p _ | .dialFailed p _ | .store p _ | .opening p _
  | .openFailed _ p => p != .sftp
  | .installExec _ _ | .installPty _ | .shellClosing | .closeWriter => true
  | _ => false

def Op.holdsConnection : Op → Bool
  | .closeDisconnect _ => true
  | _ => false

namespace Shared

def isClosed (s : Shared) (connection : SshConnection) : Bool := s.dead.contains connection.id

/-- The slot's connection, when its transport stands. -/
def liveConnection (s : Shared) : Option SshConnection :=
  s.runtime.connection.filter fun connection => !s.isClosed connection

def setInfo (s : Shared) (info : SessionInfo) : Shared :=
  { s with runtime := { s.runtime with info := info } }

/-- The info record and, when the storage answers, its row. -/
def writeInfo (s : Shared) (info : SessionInfo) (stored : Bool) : Shared :=
  { s.setInfo info with
    storage := if stored then s.storage.upsertSession info else s.storage }

/-- The writes that leave a closed session alone. -/
def writeOpenInfo (s : Shared) (info : SessionInfo) (stored : Bool) : Shared :=
  if s.runtime.info.status ≠ .closed then s.writeInfo info stored else s

def setConnection (s : Shared) (connection : Option SshConnection) : Shared :=
  { s with runtime := { s.runtime with connection := connection } }

def setForeground (s : Shared) (foreground : Option Foreground) : Shared :=
  { s with runtime := { s.runtime with foreground := foreground } }

def setBackground (s : Shared) (background : List String) : Shared :=
  { s with runtime := { s.runtime with background := background } }

/-- Wakes the waiters at the end of a task. -/
def wake (s : Shared) : Shared :=
  { s with runtime := { s.runtime with eventsTx := s.runtime.eventsTx + 1 } }

@[simp] theorem writeOpenInfo_foreground (s : Shared) (info : SessionInfo) (stored : Bool) :
    (s.writeOpenInfo info stored).runtime.foreground = s.runtime.foreground := by
  rw [writeOpenInfo]
  split
  · rfl
  · rfl

@[simp] theorem writeOpenInfo_used (s : Shared) (info : SessionInfo) (stored : Bool) :
    (s.writeOpenInfo info stored).used = s.used := by
  rw [writeOpenInfo]
  split
  · rfl
  · rfl

theorem writeOpenInfo_info {s : Shared} (h : s.runtime.info.status ≠ .closed)
    (info : SessionInfo) (stored : Bool) :
    (s.writeOpenInfo info stored).runtime.info = info := by
  rw [writeOpenInfo, if_pos h]
  rfl

end Shared

def sessionBusy : ErrorPayload :=
  (ErrorPayload.new "SESSION_BUSY" "session already has a foreground exec or PTY").withRetry

def sessionClosed : ErrorPayload := .new "SESSION_CLOSED" "session is closed"

def ptyNotOpen : ErrorPayload := .new "PTY_NOT_OPEN" "session has no open PTY"

/-- The answer of a storage call whose failure the operation passes over. -/
def Answer.stored : Answer → Option Bool
  | .ok => some true
  | .failed _ => some false
  | _ => none

/-- The outcome of a storage call whose failure the operation returns. -/
def Answer.result : Answer → Option (Except ErrorPayload Unit)
  | .ok => some (.ok ())
  | .failed error => some (.error error)
  | _ => none

namespace Op

/-- After the foreground task of an exec has passed its row write. -/
def execNext (id : String) (background interrupted : Bool) (exit : Option UInt32) : Op :=
  if background then .execBackground id else .execRelease id interrupted exit

/-- `create`. -/
def stepCreate (s : Shared) (connectionFree : Bool) (answer : Answer) (now : Now) :
    Op → Option (Shared × Op)
  | .createDial =>
      match answer with
      | .connected connection =>
          if s.used.contains connection.id then none else
          some ({ s with used := connection.id :: s.used }, .createStore connection)
      | .failed error => some (s, .createFailed error)
      | _ => none
  | .createStore connection =>
      if connectionFree then some (s.setConnection (some connection), .createReady connection)
      else none
  | .createReady connection =>
      answer.result.map fun result =>
        (s.writeInfo (s.runtime.info.connected connection.fingerprint now) result.toBool,
          .returned result)
  | .createFailed error =>
      answer.result.map fun result =>
        (s.writeInfo (s.runtime.info.connectFailed now) result.toBool,
          .returned (result.bind fun _ => .error error))
  | _ => none

/-- `connection_for` and `connect_runtime`, with the look at the foreground before
and the opening of the channel after. -/
def stepConnect (s : Shared) (foregroundFree connectionFree : Bool) (answer : Answer)
    (now : Now) : Op → Option (Shared × Op)
  | .acquire purpose =>
      if purpose ≠ .sftp ∧ !foregroundFree then none
      else
        match purpose, answer with
        | .sftp, .ok => some (s, .look purpose)
        | .exec _ true, .ok => some (s, .look purpose)
        | .exec _ false, .ok | .pty, .ok =>
            if s.runtime.foreground.isSome then some (s, .returned (.error sessionBusy))
            else some (s, .look purpose)
        | .exec _ _, .failed error => some (s, .returned (.error error))
        | _, _ => none
  | .look purpose =>
      if connectionFree then
        match s.liveConnection with
        | some connection => some (s, .opening purpose connection)
        | none => some (s, .check purpose)
      else none
  | .check purpose =>
      if s.runtime.info.status = .closed then some (s, .returned (.error sessionClosed))
      else
        match answer with
        | .ok => some (s, .dial purpose (max 1 (min s.reconnectAttempts 10)))
        | .failed error => some (s, .returned (.error error))
        | _ => none
  | .dial purpose left =>
      match answer with
      | .connected connection =>
          if s.used.contains connection.id then none else
          some ({ s with used := connection.id :: s.used }, .dialed purpose connection)
      | .failed error =>
          some (s, if left > 1 then .dial purpose (left - 1) else .dialFailed purpose error)
      | _ => none
  | .dialed purpose connection =>
      answer.stored.map fun stored =>
        (s.writeOpenInfo (s.runtime.info.reconnected connection.fingerprint now) stored,
          .store purpose connection)
  | .dialFailed _ error =>
      answer.stored.map fun stored =>
        (s.writeOpenInfo (s.runtime.info.reconnectFailed now) stored, .returned (.error error))
  | .store purpose connection =>
      if connectionFree then
        match s.liveConnection with
        | some existing => some (s, .opening purpose existing)
        | none => some (s.setConnection (some connection), .opening purpose connection)
      else none
  | .opening purpose connection =>
      match purpose, answer with
      | .sftp, .ok => if s.isClosed connection then none else some (s, .returned (.ok ()))
      | .exec command background, .opened id =>
          if s.isClosed connection || s.used.contains id then none else
          some ({ s with used := id :: s.used },
            .installExec (.started id s.runtime.sessionId command now) background)
      | .pty, .opened id =>
          if s.isClosed connection || s.used.contains id then none else
          some ({ s with used := id :: s.used }, .installPty id)
      | _, .failed error => some (s, .openFailed error purpose)
      | _, _ => none
  | .openFailed error _ =>
      if connectionFree then some (s.setConnection none, .returned (.error error)) else none
  | _ => none

/-- `start_exec` and `shell_open` once the channel is open. -/
def stepInstall (s : Shared) (answer : Answer) (now : Now) : Op → Option (Shared × Op)
  | .installExec command background =>
      match answer, s.storage.insertCommand command with
      | .ok, .ok storage =>
          if background then
            some ({ s with storage := storage }.setBackground
              (s.runtime.background ++ [command.id]), .runExec command true)
          else
            some ({ s with storage := storage }.setForeground (some (.exec command.id)),
              .startedExec command)
      | .failed error, _ => some (s, .returned (.error error))
      | _, _ => none
  | .installPty id => some (s.setForeground (some (.pty id)), .startedPty id)
  | .startedExec command =>
      answer.result.map fun result =>
        (s.writeInfo (s.runtime.info.execStarted command.command ⟨command.startedAt, now.instant⟩)
            result.toBool,
          match result with
          | .ok () => .runExec command false
          | .error error => .returned (.error error))
  | .startedPty id =>
      answer.result.map fun result =>
        (s.writeInfo (s.runtime.info.ptyOpened now) result.toBool,
          match result with
          | .ok () => .runPty id
          | .error error => .returned (.error error))
  | _ => none

/-- `run_exec` from the end of its channel on. -/
def stepRunExec (s : Shared) (foregroundFree connectionFree : Bool) (answer : Answer)
    (now : Now) : Op → Option (Shared × Op)
  | .runExec command background =>
      match answer with
      | .ended status exit =>
          if status = .running ∨ status = .cancelled ∧ !s.cancelled.contains command.id then none
          else
            let outputBytes := ((s.storage.command command.id).map CommandInfo.outputBytes).getD 0
            let finished := command.finished status exit s.runtime.sequence outputBytes now
            some ({ s with
                storage := s.storage.updateCommand finished
                runtime := { s.runtime with lastActivity := now.instant } },
              if status = .interrupted then .execDiscard command.id background exit
              else execNext command.id background false exit)
      | _ => none
  | .execDiscard id background exit =>
      if connectionFree then some (s.setConnection none, execNext id background true exit)
      else none
  | .execBackground id =>
      some ((s.setBackground (s.runtime.background.filter fun other => other != id)).wake,
        .returned (.ok ()))
  | .execRelease id interrupted exit =>
      if foregroundFree then
        some (if s.runtime.foreground = some (.exec id) then s.setForeground none else s,
          .execInfo interrupted exit)
      else none
  | .execInfo interrupted exit =>
      answer.stored.map fun stored =>
        ((s.writeOpenInfo (s.runtime.info.execFinished interrupted exit now) stored).wake,
          .returned (.ok ()))
  | _ => none

/-- `run_pty` from the end of its channel on. -/
def stepRunPty (s : Shared) (foregroundFree connectionFree : Bool) (answer : Answer) (now : Now) :
    Op → Option (Shared × Op)
  | .runPty id =>
      match answer with
      | .ok => some (s, .ptyRelease id)
      | _ => none
  | .ptyRelease id =>
      if foregroundFree then
        if s.runtime.foreground = some (.pty id) then some (s.setForeground none, .ptyDiscard)
        else some (s, .ptyInfo true)
      else none
  | .ptyDiscard => if connectionFree then some (s.setConnection none, .ptyInfo false) else none
  | .ptyInfo intentional =>
      answer.stored.map fun stored =>
        ((s.writeOpenInfo (s.runtime.info.ptyFinished intentional now) stored).wake,
          .returned (.ok ()))
  | _ => none

/-- `shell_close` and `close`. -/
def stepClose (s : Shared) (foregroundFree connectionFree : Bool) (answer : Answer) (now : Now) :
    Op → Option (Shared × Op)
  | .shellClose =>
      if foregroundFree then
        match s.runtime.foreground with
        | some (.pty _) => some (s.setForeground none, .shellClosing)
        | _ => some (s.setForeground none, .returned (.error ptyNotOpen))
      else none
  | .shellClosing => answer.result.map fun result => (s, .returned result)
  | .closeForeground =>
      if foregroundFree then
        match s.runtime.foreground with
        | none => some (s, .closeBackground)
        | some (.exec id) =>
            some ({ s with cancelled := id :: s.cancelled }.setForeground none, .closeBackground)
        | some (.pty _) => some (s.setForeground none, .closeWriter)
      else none
  | .closeWriter => some (s, .closeBackground)
  | .closeBackground =>
      some ({ s with cancelled := s.runtime.background ++ s.cancelled }.setBackground [],
        .closeConnection)
  | .closeConnection =>
      if connectionFree then
        match s.runtime.connection with
        | some connection => some (s.setConnection none, .closeDisconnect connection)
        | none => some (s, .closeInfo)
      else none
  | .closeDisconnect connection =>
      some ({ s with dead := connection.id :: s.dead }, .closeInfo)
  | .closeInfo =>
      answer.result.map fun result =>
        (s.writeInfo (s.runtime.info.closed now) result.toBool, .returned result)
  | _ => none

/-- One step of an operation. -/
def step (s : Shared) (foregroundFree connectionFree : Bool) (answer : Answer) (now : Now)
    (op : Op) : Option (Shared × Op) :=
  match op with
  | .createDial | .createStore _ | .createReady _ | .createFailed _ =>
      stepCreate s connectionFree answer now op
  | .acquire _ | .look _ | .check _ | .dial _ _ | .dialed _ _ | .dialFailed _ _ | .store _ _
  | .opening _ _ | .openFailed _ _ => stepConnect s foregroundFree connectionFree answer now op
  | .installExec _ _ | .installPty _ | .startedExec _ | .startedPty _ =>
      stepInstall s answer now op
  | .runExec _ _ | .execDiscard _ _ _ | .execBackground _ | .execRelease _ _ _
  | .execInfo _ _ => stepRunExec s foregroundFree connectionFree answer now op
  | .runPty _ | .ptyRelease _ | .ptyDiscard | .ptyInfo _ =>
      stepRunPty s foregroundFree connectionFree answer now op
  | .shellClose | .shellClosing | .closeForeground | .closeWriter | .closeBackground
  | .closeConnection | .closeDisconnect _ | .closeInfo =>
      stepClose s foregroundFree connectionFree answer now op
  | .returned _ => none

/-- The table of the steps: what an answer makes of the shared state and of the
operation that hears it. -/
inductive Moves (s : Shared) (foregroundFree : Bool) (now : Now) :
    Op → Answer → Shared → Op → Prop
  | createConnected {connection : SshConnection} :
      Moves s foregroundFree now .createDial (.connected connection)
        { s with used := connection.id :: s.used } (.createStore connection)
  | createRefused {error : ErrorPayload} :
      Moves s foregroundFree now .createDial (.failed error) s (.createFailed error)
  | createStored {connection : SshConnection} {answer : Answer} :
      Moves s foregroundFree now (.createStore connection) answer
        (s.setConnection (some connection)) (.createReady connection)
  | createReady {connection : SshConnection} {answer : Answer} {stored : Bool}
      {result : Except ErrorPayload Unit} :
      Moves s foregroundFree now (.createReady connection) answer
        (s.writeInfo (s.runtime.info.connected connection.fingerprint now) stored)
        (.returned result)
  | createFailed {error : ErrorPayload} {answer : Answer} {stored : Bool}
      {result : Except ErrorPayload Unit} :
      Moves s foregroundFree now (.createFailed error) answer
        (s.writeInfo (s.runtime.info.connectFailed now) stored) (.returned result)
  | acquired {purpose : Purpose} {answer : Answer}
      (free : purpose ≠ .sftp → foregroundFree = true)
      (empty : purpose.takesForeground = true → s.runtime.foreground = none) :
      Moves s foregroundFree now (.acquire purpose) answer s (.look purpose)
  | turnedAway {purpose : Purpose} {answer : Answer} {error : ErrorPayload} :
      Moves s foregroundFree now (.acquire purpose) answer s (.returned (.error error))
  | found {connection : SshConnection} {purpose : Purpose}
      {answer : Answer} (live : s.liveConnection = some connection) :
      Moves s foregroundFree now (.look purpose) answer s (.opening purpose connection)
  | missed {purpose : Purpose} {answer : Answer} (dead : s.liveConnection = none) :
      Moves s foregroundFree now (.look purpose) answer s (.check purpose)
  | refused {purpose : Purpose} {answer : Answer} {error : ErrorPayload} :
      Moves s foregroundFree now (.check purpose) answer s (.returned (.error error))
  | dialling {purpose : Purpose} {answer : Answer}
      {left : Nat} (opened : s.runtime.info.status ≠ .closed) :
      Moves s foregroundFree now (.check purpose) answer s (.dial purpose left)
  | dialled {purpose : Purpose} {left : Nat} {connection : SshConnection} :
      Moves s foregroundFree now (.dial purpose left) (.connected connection)
        { s with used := connection.id :: s.used } (.dialed purpose connection)
  | dialAgain {purpose : Purpose} {left : Nat} {error : ErrorPayload} :
      Moves s foregroundFree now (.dial purpose left) (.failed error) s (.dial purpose (left - 1))
  | gaveUp {purpose : Purpose} {left : Nat} {error : ErrorPayload} :
      Moves s foregroundFree now (.dial purpose left) (.failed error) s (.dialFailed purpose error)
  | reconnected {purpose : Purpose} {connection : SshConnection} {answer : Answer} {stored : Bool} :
      Moves s foregroundFree now (.dialed purpose connection) answer
        (s.writeOpenInfo (s.runtime.info.reconnected connection.fingerprint now) stored)
        (.store purpose connection)
  | reconnectFailed {purpose : Purpose} {error : ErrorPayload} {answer : Answer} {stored : Bool} :
      Moves s foregroundFree now (.dialFailed purpose error) answer
        (s.writeOpenInfo (s.runtime.info.reconnectFailed now) stored) (.returned (.error error))
  | overtaken {existing : SshConnection} {purpose : Purpose} {connection : SshConnection}
      {answer : Answer} (live : s.liveConnection = some existing) :
      Moves s foregroundFree now (.store purpose connection) answer s (.opening purpose existing)
  | stored {purpose : Purpose} {connection : SshConnection}
      {answer : Answer} (dead : s.liveConnection = none) :
      Moves s foregroundFree now (.store purpose connection) answer
        (s.setConnection (some connection)) (.opening purpose connection)
  | sftpOpened {connection : SshConnection} :
      Moves s foregroundFree now (.opening .sftp connection) .ok s (.returned (.ok ()))
  | execOpened {command : String} {background : Bool} {connection : SshConnection}
      {id : String} (fresh : id ∉ s.used) :
      Moves s foregroundFree now (.opening (.exec command background) connection) (.opened id)
        { s with used := id :: s.used }
        (.installExec (.started id s.runtime.sessionId command now) background)
  | ptyOpened {connection : SshConnection} {id : String} :
      Moves s foregroundFree now (.opening .pty connection) (.opened id)
        { s with used := id :: s.used } (.installPty id)
  | openFailed {purpose : Purpose} {connection : SshConnection} {error : ErrorPayload} :
      Moves s foregroundFree now (.opening purpose connection) (.failed error) s
        (.openFailed error purpose)
  | openDiscarded {error : ErrorPayload} {purpose : Purpose} {answer : Answer} :
      Moves s foregroundFree now (.openFailed error purpose) answer (s.setConnection none)
        (.returned (.error error))
  | installedBackground {command : CommandInfo} {storage : Storage} :
      Moves s foregroundFree now (.installExec command true) .ok
        ({ s with storage := storage }.setBackground (s.runtime.background ++ [command.id]))
        (.runExec command true)
  | installedExec {command : CommandInfo} {storage : Storage} :
      Moves s foregroundFree now (.installExec command false) .ok
        ({ s with storage := storage }.setForeground (some (.exec command.id)))
        (.startedExec command)
  | notInserted {command : CommandInfo} {background : Bool} {error : ErrorPayload} :
      Moves s foregroundFree now (.installExec command background) (.failed error) s
        (.returned (.error error))
  | installedPty {answer : Answer} {id : String} :
      Moves s foregroundFree now (.installPty id) answer (s.setForeground (some (.pty id)))
        (.startedPty id)
  | startedExec {command : CommandInfo} :
      Moves s foregroundFree now (.startedExec command) .ok
        (s.writeInfo (s.runtime.info.execStarted command.command ⟨command.startedAt, now.instant⟩)
          true)
        (.runExec command false)
  | execNotStored {command : CommandInfo} {error : ErrorPayload} :
      Moves s foregroundFree now (.startedExec command) (.failed error)
        (s.writeInfo (s.runtime.info.execStarted command.command ⟨command.startedAt, now.instant⟩)
          false)
        (.returned (.error error))
  | startedPty {id : String} :
      Moves s foregroundFree now (.startedPty id) .ok
        (s.writeInfo (s.runtime.info.ptyOpened now) true) (.runPty id)
  | ptyNotStored {error : ErrorPayload} {id : String} :
      Moves s foregroundFree now (.startedPty id) (.failed error)
        (s.writeInfo (s.runtime.info.ptyOpened now) false) (.returned (.error error))
  | execInterrupted {command : CommandInfo} {background : Bool} {answer : Answer}
      {finished : CommandInfo} {exit : Option UInt32} :
      Moves s foregroundFree now (.runExec command background) answer
        { s with
          storage := s.storage.updateCommand finished
          runtime := { s.runtime with lastActivity := now.instant } }
        (.execDiscard command.id background exit)
  | execEnded {command : CommandInfo} {background : Bool} {answer : Answer}
      {finished : CommandInfo} {exit : Option UInt32} :
      Moves s foregroundFree now (.runExec command background) answer
        { s with
          storage := s.storage.updateCommand finished
          runtime := { s.runtime with lastActivity := now.instant } }
        (execNext command.id background false exit)
  | execDiscarded {background : Bool} {exit : Option UInt32} {answer : Answer} {id : String} :
      Moves s foregroundFree now (.execDiscard id background exit) answer (s.setConnection none)
        (execNext id background true exit)
  | backgroundLeft {answer : Answer} {id : String} :
      Moves s foregroundFree now (.execBackground id) answer
        (s.setBackground (s.runtime.background.filter fun other => other != id)).wake
        (.returned (.ok ()))
  | execReleased {interrupted : Bool} {exit : Option UInt32} {answer : Answer} {id : String}
      (free : foregroundFree = true) (own : s.runtime.foreground = some (.exec id)) :
      Moves s foregroundFree now (.execRelease id interrupted exit) answer (s.setForeground none)
        (.execInfo interrupted exit)
  | execAlreadyReleased {interrupted : Bool} {exit : Option UInt32} {answer : Answer}
      {id : String} (other : s.runtime.foreground ≠ some (.exec id)) :
      Moves s foregroundFree now (.execRelease id interrupted exit) answer s
        (.execInfo interrupted exit)
  | execFinished {interrupted : Bool} {exit : Option UInt32} {answer : Answer} {stored : Bool} :
      Moves s foregroundFree now (.execInfo interrupted exit) answer
        (s.writeOpenInfo (s.runtime.info.execFinished interrupted exit now) stored).wake
        (.returned (.ok ()))
  | ptyEnded {answer : Answer} {id : String} :
      Moves s foregroundFree now (.runPty id) answer s (.ptyRelease id)
  | ptyReleased {answer : Answer} {id : String} (free : foregroundFree = true)
      (own : s.runtime.foreground = some (.pty id)) :
      Moves s foregroundFree now (.ptyRelease id) answer (s.setForeground none) .ptyDiscard
  | ptyAlreadyReleased {answer : Answer}
      {id : String} (other : s.runtime.foreground ≠ some (.pty id)) :
      Moves s foregroundFree now (.ptyRelease id) answer s (.ptyInfo true)
  | ptyDiscarded {answer : Answer} :
      Moves s foregroundFree now .ptyDiscard answer (s.setConnection none) (.ptyInfo false)
  | ptyFinished {intentional : Bool} {answer : Answer} {stored : Bool} :
      Moves s foregroundFree now (.ptyInfo intentional) answer
        (s.writeOpenInfo (s.runtime.info.ptyFinished intentional now) stored).wake
        (.returned (.ok ()))
  | shellTaken {answer : Answer} {id : String} (free : foregroundFree = true)
      (own : s.runtime.foreground = some (.pty id)) :
      Moves s foregroundFree now .shellClose answer (s.setForeground none) .shellClosing
  | shellNotOpen {answer : Answer} (free : foregroundFree = true)
      (own : ∀ id, s.runtime.foreground ≠ some (.pty id)) :
      Moves s foregroundFree now .shellClose answer (s.setForeground none)
        (.returned (.error ptyNotOpen))
  | shellClosed {answer : Answer} {result : Except ErrorPayload Unit} :
      Moves s foregroundFree now .shellClosing answer s (.returned result)
  | foregroundEmpty {answer : Answer} :
      Moves s foregroundFree now .closeForeground answer s .closeBackground
  | execCancelled {answer : Answer} {id : String} :
      Moves s foregroundFree now .closeForeground answer
        ({ s with cancelled := id :: s.cancelled }.setForeground none) .closeBackground
  | ptyTaken {answer : Answer} (free : foregroundFree = true) :
      Moves s foregroundFree now .closeForeground answer (s.setForeground none) .closeWriter
  | writerClosed {answer : Answer} :
      Moves s foregroundFree now .closeWriter answer s .closeBackground
  | backgroundCancelled {answer : Answer} :
      Moves s foregroundFree now .closeBackground answer
        ({ s with cancelled := s.runtime.background ++ s.cancelled }.setBackground [])
        .closeConnection
  | connectionTaken {answer : Answer} {connection : SshConnection} :
      Moves s foregroundFree now .closeConnection answer (s.setConnection none)
        (.closeDisconnect connection)
  | notConnected {answer : Answer} :
      Moves s foregroundFree now .closeConnection answer s .closeInfo
  | disconnected {connection : SshConnection} {answer : Answer} :
      Moves s foregroundFree now (.closeDisconnect connection) answer
        { s with dead := connection.id :: s.dead } .closeInfo
  | closed {answer : Answer} {stored : Bool} {result : Except ErrorPayload Unit} :
      Moves s foregroundFree now .closeInfo answer
        (s.writeInfo (s.runtime.info.closed now) stored) (.returned result)

theorem moves_of_step {s s' : Shared} {foregroundFree connectionFree : Bool} {answer : Answer}
    {now : Now} {op op' : Op}
    (h : op.step s foregroundFree connectionFree answer now = some (s', op')) :
    Moves s foregroundFree now op answer s' op' := by
  cases op with
  | createDial =>
      simp only [step, stepCreate] at h
      repeat' split at h
      all_goals cases h
      · exact .createConnected
      · exact .createRefused
  | createStore connection | closeConnection | openFailed error purpose | ptyDiscard
  | execDiscard id background exit =>
      simp only [step, stepCreate, stepConnect, stepRunExec, stepRunPty, stepClose] at h
      repeat' split at h
      all_goals cases h
      all_goals constructor
  | createReady connection | createFailed error | dialed purpose connection
  | dialFailed purpose error | execInfo interrupted exit | ptyInfo intentional | shellClosing
  | closeInfo =>
      simp only [step, stepCreate, stepConnect, stepRunExec, stepRunPty, stepClose,
        Option.map_eq_some_iff] at h
      obtain ⟨result, -, h⟩ := h
      cases h
      constructor
  | closeWriter | closeBackground | closeDisconnect connection | execBackground id
  | installPty id =>
      cases h
      constructor
  | acquire purpose =>
      simp only [step, stepConnect] at h
      split at h
      · cases h
      · rename_i hlock
        have hfree : purpose ≠ .sftp → foregroundFree = true := by
          intro hpurpose
          simpa [hpurpose] using hlock
        split at h
        · cases h
          exact .acquired hfree nofun
        · cases h
          exact .acquired hfree nofun
        · split at h
          · cases h
            exact .turnedAway
          · rename_i hempty
            cases h
            exact .acquired hfree fun _ => by simpa using hempty
        · split at h
          · cases h
            exact .turnedAway
          · rename_i hempty
            cases h
            exact .acquired hfree fun _ => by simpa using hempty
        · cases h
          exact .turnedAway
        · cases h
  | look purpose =>
      simp only [step, stepConnect] at h
      repeat' split at h
      all_goals cases h
      · exact .found ‹_›
      · exact .missed ‹_›
  | check purpose =>
      simp only [step, stepConnect] at h
      repeat' split at h
      all_goals cases h
      · exact .refused
      · exact .dialling ‹_›
      · exact .refused
  | dial purpose left =>
      simp only [step, stepConnect] at h
      repeat' split at h
      all_goals cases h
      · exact .dialled
      · exact .dialAgain
      · exact .gaveUp
  | store purpose connection =>
      simp only [step, stepConnect] at h
      repeat' split at h
      all_goals cases h
      · exact .overtaken ‹_›
      · exact .stored ‹_›
  | opening purpose connection =>
      simp only [step, stepConnect] at h
      repeat' split at h
      all_goals cases h
      · exact .sftpOpened
      · exact .execOpened (by simp_all)
      · exact .ptyOpened
      · exact .openFailed
  | installExec command background =>
      simp only [step, stepInstall] at h
      repeat' split at h
      all_goals cases h
      · cases ‹background = true›
        exact .installedBackground
      · cases (Bool.not_eq_true background).mp ‹_›
        exact .installedExec
      · exact .notInserted
  | startedExec command =>
      simp only [step, stepInstall, Option.map_eq_some_iff] at h
      obtain ⟨result, hresult, h⟩ := h
      cases answer <;> cases hresult
      · cases h
        exact .startedExec
      · cases h
        exact .execNotStored
  | startedPty id =>
      simp only [step, stepInstall, Option.map_eq_some_iff] at h
      obtain ⟨result, hresult, h⟩ := h
      cases answer <;> cases hresult
      · cases h
        exact .startedPty
      · cases h
        exact .ptyNotStored
  | runExec command background =>
      simp only [step, stepRunExec] at h
      repeat' split at h
      all_goals cases h
      · exact .execInterrupted
      · exact .execEnded
  | execRelease id interrupted exit =>
      simp only [step, stepRunExec] at h
      split at h
      · cases h
        split
        · exact .execReleased ‹_› ‹_›
        · exact .execAlreadyReleased ‹_›
      · cases h
  | runPty id =>
      simp only [step, stepRunPty] at h
      split at h
      · cases h
        exact .ptyEnded
      · cases h
  | ptyRelease id =>
      simp only [step, stepRunPty] at h
      repeat' split at h
      all_goals cases h
      · exact .ptyReleased ‹_› ‹_›
      · exact .ptyAlreadyReleased ‹_›
  | shellClose =>
      simp only [step, stepClose] at h
      repeat' split at h
      all_goals cases h
      · exact .shellTaken ‹_› ‹_›
      · exact .shellNotOpen ‹_› ‹_›
  | closeForeground =>
      simp only [step, stepClose] at h
      repeat' split at h
      all_goals cases h
      · exact .foregroundEmpty
      · exact .execCancelled
      · exact .ptyTaken ‹_›
  | returned result => cases h

end Op

/-- A session with the operations in flight; an operation is named by its place. -/
structure Lifecycle where
  shared : Shared
  ops : List Op

/-- A request that reaches a session. -/
inductive Call
  | startExec (command : String) (background : Bool)
  | shellOpen
  | file
  | shellClose
  | close
  deriving DecidableEq, Repr

def Call.op : Call → Op
  | .startExec command background => .acquire (.exec command background)
  | .shellOpen => .acquire .pty
  | .file => .acquire .sftp
  | .shellClose => .shellClose
  | .close => .closeForeground

inductive LifecycleStep
  | call (call : Call)
  | advance (op : Nat) (answer : Answer) (now : Now)
  | die (connection : String)
  deriving DecidableEq, Repr

namespace Lifecycle

def foregroundFree (s : Lifecycle) : Bool := s.ops.all fun op => !op.holdsForeground

def connectionFree (s : Lifecycle) : Bool := s.ops.all fun op => !op.holdsConnection

def step (s : Lifecycle) : LifecycleStep → Option Lifecycle
  | .call call => some { s with ops := s.ops ++ [call.op] }
  | .die connection =>
      some { s with shared := { s.shared with dead := connection :: s.shared.dead } }
  | .advance i answer now => do
      let op ← s.ops[i]?
      let (shared, op) ← op.step s.shared s.foregroundFree s.connectionFree answer now
      return ⟨shared, s.ops.set i op⟩

/-- The operations of the session in any interleaving. -/
def machine : Machine Lifecycle LifecycleStep := ⟨step⟩

/-- The session as it enters the map, with `create` waiting for its connection. -/
def created (storage : Storage) (info : SessionInfo) (reconnectAttempts : Nat) (now : Now) :
    Lifecycle :=
  ⟨⟨.new info now, storage.upsertSession info, reconnectAttempts, [], [], []⟩, [.createDial]⟩

/-- One operation moves on and the others keep their places. -/
structure Advances (s s' : Lifecycle) (op op' : Op) (others : List Op) (answer : Answer)
    (now : Now) : Prop where
  before : s.ops.Perm (op :: others)
  after : s'.ops.Perm (op' :: others)
  moves : op.Moves s.shared s.foregroundFree now answer s'.shared op'

/-- The step of one operation, with the operation's own step. -/
theorem step_own {s s' : Lifecycle} {i : Nat} {answer : Answer} {now : Now}
    (h : s.step (.advance i answer now) = some s') :
    ∃ op op' others, s.ops[i]? = some op ∧ s.ops.Perm (op :: others) ∧
      s'.ops.Perm (op' :: others) ∧
      op.step s.shared s.foregroundFree s.connectionFree answer now = some (s'.shared, op') := by
  simp only [step, Option.bind_eq_bind, Option.bind_eq_some_iff] at h
  obtain ⟨op, hop, ⟨shared, op'⟩, hstep, h⟩ := h
  cases h
  obtain ⟨hlt, rfl⟩ := List.getElem?_eq_some_iff.mp hop
  exact ⟨_, op', s.ops.eraseIdx i, hop, (List.getElem_cons_eraseIdx_perm hlt).symm,
    List.set_perm_cons_eraseIdx hlt op', hstep⟩

theorem step_advance {s s' : Lifecycle} {i : Nat} {answer : Answer} {now : Now}
    (h : s.step (.advance i answer now) = some s') :
    ∃ op op' others, s.ops[i]? = some op ∧ Advances s s' op op' others answer now := by
  obtain ⟨op, op', others, hop, hbefore, hafter, hstep⟩ := step_own h
  exact ⟨op, op', others, hop, hbefore, hafter, Op.moves_of_step hstep⟩

/-- A step leaves an operation in its place, unless it is the one that moves on. -/
theorem step_at {s s' : Lifecycle} {move : LifecycleStep} {i : Nat} {op : Op}
    (hop : s.ops[i]? = some op) (h : s.step move = some s') :
    (∀ answer now, move ≠ .advance i answer now) ∧ s'.ops[i]? = some op ∨
      ∃ answer now op', move = .advance i answer now ∧ s'.ops[i]? = some op' ∧
        op.step s.shared s.foregroundFree s.connectionFree answer now = some (s'.shared, op') := by
  obtain ⟨hlt, -⟩ := List.getElem?_eq_some_iff.mp hop
  cases move with
  | call call =>
      cases h
      refine .inl ⟨fun _ _ h => (by cases h), ?_⟩
      rw [List.getElem?_append_left hlt, hop]
  | die connection =>
      cases h
      exact .inl ⟨fun _ _ h => (by cases h), hop⟩
  | advance j answer now =>
      simp only [step, Option.bind_eq_bind, Option.bind_eq_some_iff] at h
      obtain ⟨other, hother, ⟨shared, op'⟩, hstep, h⟩ := h
      cases h
      by_cases hij : j = i
      · subst hij
        cases hop.symm.trans hother
        exact .inr ⟨answer, now, op', rfl, List.getElem?_set_self hlt, hstep⟩
      · refine .inl ⟨fun _ _ h => hij (by cases h; rfl), ?_⟩
        rw [List.getElem?_set_ne hij, hop]

theorem Advances.mem_before {s s' : Lifecycle} {op op' x : Op} {others : List Op}
    {answer : Answer} {now : Now} (h : Advances s s' op op' others answer now) :
    x ∈ s.ops ↔ x = op ∨ x ∈ others := by
  rw [h.before.mem_iff, List.mem_cons]

theorem Advances.mem_after {s s' : Lifecycle} {op op' x : Op} {others : List Op}
    {answer : Answer} {now : Now} (h : Advances s s' op op' others answer now) :
    x ∈ s'.ops ↔ x = op' ∨ x ∈ others := by
  rw [h.after.mem_iff, List.mem_cons]

end Lifecycle
end AiSsh
