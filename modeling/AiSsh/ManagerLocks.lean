import AiSsh.Library.Locks
import AiSsh.ServeClient

/-!
The locks of the session manager. Each method, each task it spawns and the reaper is the
program of the locks it takes, in the order in which it takes them and for as long as it keeps
each; what it reads and what the network answers decide only how it goes on. The map, the
configuration and the slots of a session are tokio locks, which serve in order and may be kept
over an await; the store, the clocks and the live tail are plain mutexes.
-/

namespace AiSsh

open Library Library.LockProgram

inductive ManagerLock
  | config
  | sessions
  | storage
  | foreground (session : String)
  | background (session : String)
  | connection (session : String)
  | info (session : String)
  | lastActivity (session : String)
  | lastOutputAt (session : String)
  | liveEvents (session : String)
  deriving DecidableEq, Repr

namespace ManagerLock

/-- The map before the foreground slot, and both before what a session keeps besides. -/
def rank : ManagerLock → Nat
  | sessions => 0
  | foreground _ => 1
  | config | background _ | connection _ | info _ => 2
  | storage | lastActivity _ | lastOutputAt _ | liveEvents _ => 3

/-- A `std::sync::Mutex`. -/
def isStd : ManagerLock → Bool
  | storage | lastActivity _ | lastOutputAt _ | liveEvents _ => true
  | config | sessions | foreground _ | background _ | connection _ | info _ => false

def discipline : Discipline ManagerLock where
  rank := rank
  fair lock := !lock.isStd
  brief := isStd

end ManagerLock

namespace ManagerLocks

open ManagerLock

abbrev Work (α : Type) : Type := LockProgram ManagerLock α

/-- A write guard, or the guard of a mutex, for one statement. -/
def set (lock : ManagerLock) : Work Unit := touch lock .exclusive

/-- A read guard for one statement. -/
def get (lock : ManagerLock) : Work Unit := touch lock .shared

/-- A call of the store, which may fail. -/
def store : Work Unit := do
  set .storage
  orFail

/-- The info of a session is changed and stored, and a failure to store it is reported. -/
def storeInfo (id : String) : Work Unit := holding (.info id) .exclusive store

/-- The info of a session is changed and stored, unless the session is closed. -/
def updateInfo (id : String) : Work Unit :=
  holding (.info id) .exclusive (optional (set .storage))

def record (id : String) : Work Unit := do
  set (.lastActivity id)
  set .storage
  optional (set (.liveEvents id))
  set (.lastOutputAt id)

def secondsSinceOutput (id : String) : Work Unit := optional (set (.lastOutputAt id))

def runtime : Work Unit := do
  get .sessions
  orFail

/-- The attempts of `connect_runtime`. Between two of them it sleeps. -/
def dial (id : String) : Nat → Work Unit
  | 0 => do
      updateInfo id
      .fail ()
  | attempts + 1 => do
      let connected ← choose
      if connected then updateInfo id else dial id attempts

def connectRuntime (id : String) : Work Unit := do
  get (.info id)
  orFail
  get .config
  orFail
  let attempts ← wait
  dial id (max 1 (min 10 attempts))

def connectionFor (id : String) : Work Unit := do
  let usable ← holding (.connection id) .exclusive choose
  if usable then pure () else do
    connectRuntime id
    set (.connection id)

def discardConnection (id : String) : Work Unit := set (.connection id)

/-- A channel on the connection, which is dropped when none can be opened. -/
def openChannel (id : String) : Work Unit := do
  connectionFor id
  let opened ← choose
  if opened then pure () else do
    discardConnection id
    .fail ()

def targets : Work Unit := get .config

def sessions (active : List String) (includeHistory : Bool) : Work Unit := do
  holding .sessions .shared (each (fun id => get (.info id)) active)
  if includeHistory then store else pure ()

def create (id : String) : Work Unit := do
  get .config
  orFail
  store
  set .sessions
  let connected ← choose
  if connected then do
    set (.connection id)
    storeInfo id
  else do
    storeInfo id
    .fail ()

def status (id : String) : Work Unit := do
  get .sessions
  let live ← choose
  if live then get (.info id) else do
    store
    orFail

def close (id : String) : Work Unit := do
  runtime
  let _ ← holding (.foreground id) .exclusive wait
  set (.background id)
  let _ ← holding (.connection id) .exclusive wait
  storeInfo id

def startExec (id : String) (background : Bool) : Work Unit := do
  orFail
  runtime
  holding (.foreground id) .exclusive do
    orFail
    openChannel id
    store
    if background then set (.background id) else pure ()
  if background then pure () else storeInfo id

/-- The events of a channel, of which those with data are recorded. -/
def channelEvents (id : String) (events : Nat) : Work Unit :=
  each (fun _ => optional (record id)) (List.range events)

def runExec (id : String) (background : Bool) : Work Unit := do
  let events ← wait
  channelEvents id events
  set .storage
  set .storage
  set (.lastActivity id)
  optional (discardConnection id)
  if background then set (.background id) else do
    set (.foreground id)
    updateInfo id

def readCommandPage (id : String) : Work Unit := do
  store
  store
  get .sessions
  optional (set (.liveEvents id))

/-- The pages a poll reads until it answers, with a wait after each but the last. -/
def pages (page : Work Unit) (wakes : Nat) : Work Unit := do
  each (fun _ => do
    page
    let _ ← wait) (List.range wakes)
  page

def commandPoll (id : String) : Work Unit := do
  set .storage
  optional (get .sessions)
  let wakes ← wait
  pages (readCommandPage id) wakes
  secondsSinceOutput id

/-- The search of `command_cancel`, with the map under a read guard. -/
def cancelIn : List String → Work Unit
  | [] => .fail ()
  | id :: rest => do
      let found ← holding (.foreground id) .exclusive choose
      if found then pure () else do
        let found ← holding (.background id) .exclusive choose
        if found then pure () else cancelIn rest

def commandCancel (active : List String) : Work Unit := holding .sessions .shared (cancelIn active)

def commands (active : List String) : Work Unit := do
  store
  holding .sessions .shared (each secondsSinceOutput active)

def shellOpen (id : String) : Work Unit := do
  runtime
  holding (.foreground id) .exclusive do
    orFail
    openChannel id
  storeInfo id
  get (.info id)

def discardUnless (id : String) (intentional : Bool) : Work Unit :=
  if intentional then pure () else discardConnection id

def runPty (id : String) : Work Unit := do
  let chunks ← wait
  each (fun _ => do
    let _ ← wait
    set (.lastActivity id)
    record id) (List.range chunks)
  let intentional ← holding (.foreground id) .exclusive choose
  discardUnless id intentional
  updateInfo id

/-- A call on the writer of the open PTY. -/
def onPty (id : String) (after : Work Unit) : Work Unit := do
  runtime
  holding (.foreground id) .exclusive do
    orFail
    orFail
    after

def shellWrite (id : String) : Work Unit := onPty id (set (.lastActivity id))

def shellResize (id : String) : Work Unit := onPty id (pure ())

def shellClose (id : String) : Work Unit := onPty id (pure ())

def readShellPage (id : String) : Work Unit := do
  get .sessions
  store
  optional (set (.liveEvents id))
  store
  let ids ← wait
  each (fun _ => store) (List.range ids)

def shellRead (id : String) : Work Unit := do
  get .sessions
  optional (store >>= fun _ => orFail)
  let wakes ← wait
  pages (readShellPage id) wakes
  secondsSinceOutput id

def sftpChannel (id : String) : Work Unit := do
  runtime
  openChannel id

/-- What is asked of a channel once it is open. -/
def overSftp (id : String) : Work Unit := do
  sftpChannel id
  orFail

def fileRead (id : String) (useSudo : Bool) : Work Unit := do
  runtime
  connectionFor id
  if useSudo then orFail else overSftp id

def fileWrite (id : String) (useSudo : Bool) : Work Unit := do
  runtime
  connectionFor id
  let unchanged ← choose
  if unchanged then pure () else if useSudo then orFail else overSftp id

/-- A transfer, whose local path is looked at first. -/
def transfer (id : String) : Work Unit := do
  orFail
  overSftp id

def reloadConfig : Work Unit := do
  orFail
  set .config

/-- One session of the sweep. -/
def reapSession (id : String) : Work Unit := do
  set (.lastActivity id)
  let idle ← choose
  if idle then do
    let free ← holding (.foreground id) .exclusive choose
    if free then do
      let free ← holding (.background id) .exclusive choose
      if free then do
        get (.info id)
        (close id).handle fun _ => pure ()
      else pure ()
    else pure ()
  else pure ()

def reapIdle (active : List String) : Work Unit := do
  get .config
  set .storage
  get .sessions
  each reapSession active

end ManagerLocks

open ManagerLocks in
/-- The locks of a call. `session` is the session of a call that names none: the new one, or
the one of the command; `active` are the sessions in the map. -/
def ManagerCall.work (session : String) (active : List String) : ManagerCall → Work Unit
  | targets => ManagerLocks.targets
  | sessions includeHistory => ManagerLocks.sessions active includeHistory
  | create _ _ _ => ManagerLocks.create session
  | status id => ManagerLocks.status id
  | close id => ManagerLocks.close id
  | execStart id _ _ _ _ => startExec id false
  | execBackground id _ _ _ _ => startExec id true
  | commandPoll _ _ _ _ => ManagerLocks.commandPoll session
  | commandCancel _ => ManagerLocks.commandCancel active
  | commands _ _ _ => ManagerLocks.commands active
  | shellOpen id _ _ _ => ManagerLocks.shellOpen id
  | shellWrite id _ => ManagerLocks.shellWrite id
  | shellRead id _ _ _ => ManagerLocks.shellRead id
  | shellResize id _ _ => ManagerLocks.shellResize id
  | shellClose id => ManagerLocks.shellClose id
  | fileStat id _ _ => overSftp id
  | fileRead id _ _ useSudo => ManagerLocks.fileRead id useSudo
  | fileWrite id _ _ _ _ _ useSudo _ => ManagerLocks.fileWrite id useSudo
  | fileUpload id _ _ _ _ _ => transfer id
  | fileDownload id _ _ _ _ _ => transfer id
  | fileMkdir id _ _ _ => overSftp id
  | reloadConfig => ManagerLocks.reloadConfig

/-- What runs in the daemon: the calls of its clients, the tasks of the commands and of the
PTYs, and the sweeps. -/
inductive ManagerTask
  | call (method : ManagerCall) (session : String) (active : List String)
  | runExec (session : String) (background : Bool)
  | runPty (session : String)
  | reapIdle (active : List String)

open ManagerLocks in
def ManagerTask.work : ManagerTask → Work Unit
  | call method session active => method.work session active
  | runExec session background => ManagerLocks.runExec session background
  | runPty session => ManagerLocks.runPty session
  | reapIdle active => ManagerLocks.reapIdle active

end AiSsh
