import AiSsh.SessionPage

/-!
The requests of a client and the answers of the daemon, as the frames of the local
endpoint carry them.
-/

namespace AiSsh

def protocolVersion : UInt16 := 3

/-- The version of the workspace. -/
def daemonVersion : String := "0.2.0"

structure TargetSummary where
  id : String
  name : String
  host : String
  port : UInt16
  username : String
  hostVerification : Bool
  deriving DecidableEq, Repr

structure CommandSummary where
  id : String
  sessionId : String
  commandPreview : String
  status : CommandStatus
  exitCode : Option UInt32
  startedAt : DateTime
  finishedAt : Option DateTime
  lastSequence : Nat
  outputBytes : Nat
  recordingTruncated : Bool
  runningForSeconds : Option Nat
  secondsSinceLastOutput : Option Nat
  deriving DecidableEq, Repr

inductive FileKind
  | file
  | directory
  | symlink
  | other
  deriving DecidableEq, Repr

structure FileStatInfo where
  path : String
  kind : FileKind
  size : Nat
  mode : Option UInt32
  uid : Option UInt32
  gid : Option UInt32
  user : Option String
  group : Option String
  modifiedAt : Option DateTime
  sha256 : Option String
  deriving DecidableEq, Repr

structure FileContentInfo where
  path : String
  size : Nat
  bytesReturned : Nat
  truncated : Bool
  isUtf8 : Bool
  sha256 : Option String
  data : Bytes
  deriving DecidableEq, Repr

inductive Request
  | handshake (protocolVersion : UInt16) (clientName : String)
  | targetsList
  | sessionsList (includeHistory : Bool)
  | sessionCreate (targetId purpose : String)
  | sessionStatus (sessionId : String)
  | sessionClose (sessionId : String)
  | execStart (sessionId command : String) (cwd : Option String) (env : List (String × String))
      (timeoutSeconds : Option Nat)
  | execBackground (sessionId command : String) (cwd : Option String)
      (env : List (String × String)) (timeoutSeconds : Option Nat)
  | commandPoll (commandId : String) (afterSequence maxBytes waitSeconds : Nat)
  | commandCancel (commandId : String)
  | commandsList (sessionId : Option String) (includeFinished : Bool) (limit : UInt32)
  | shellOpen (sessionId : String) (cols rows : UInt32) (term : String)
  | shellWrite (sessionId : String) (data : Bytes)
  | shellRead (sessionId : String) (afterSequence maxBytes waitSeconds : Nat)
  | shellResize (sessionId : String) (cols rows : UInt32)
  | shellClose (sessionId : String)
  | fileStat (sessionId remotePath : String) (hash : Bool)
  | fileRead (sessionId remotePath : String) (maxBytes : Nat) (useSudo : Bool)
  | fileWrite (sessionId remotePath : String) (data : Bytes) (append createDirs : Bool)
      (mode : Option UInt32) (useSudo ifChanged : Bool)
  | fileUpload (sessionId localPath remotePath : String) (createDirs : Bool)
      (mode : Option UInt32) (verify : Bool)
  | fileDownload (sessionId remotePath localPath : String) (overwrite createDirs verify : Bool)
  | fileMkdir (sessionId remotePath : String) (parents : Bool) (mode : Option UInt32)
  | reloadConfig
  | daemonShutdown
  deriving DecidableEq, Repr

inductive ResponseData
  | handshake (protocolVersion : UInt16) (daemonVersion : String)
  | targets (targets : List TargetSummary)
  | sessions (sessions : List SessionInfo)
  | session (session : SessionInfo)
  | command (command : CommandInfo)
  | commands (commands : List CommandSummary)
  | fileStat (stat : FileStatInfo)
  | fileContent (content : FileContentInfo)
  | fileOutcome (outcome : FileOutcome)
  | events (events : EventsData)
  | ack
  deriving DecidableEq, Repr

structure RequestFrame where
  requestId : Nat
  request : Request
  deriving DecidableEq, Repr

structure Response where
  requestId : Nat
  result : Except ErrorPayload ResponseData

namespace Request

def isHandshake : Request → Bool
  | handshake _ _ => true
  | _ => false

/-- A handshake with the daemon's own version. -/
def matchesProtocol : Request → Bool
  | handshake version _ => version == protocolVersion
  | _ => false

theorem isHandshake_of_matchesProtocol {request : Request}
    (h : request.matchesProtocol = true) : request.isHandshake = true := by
  cases request with
  | handshake version name => rfl
  | _ => cases h

end Request
end AiSsh
