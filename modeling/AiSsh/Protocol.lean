/-!
The records that cross the daemon's local endpoint. Field names follow the
wire contract. A time is a count of nanoseconds from the Unix epoch, a payload is
its list of bytes.
-/

namespace AiSsh

abbrev DateTime := Int

abbrev Bytes := List UInt8

/-- Upper bound for `wait_seconds` on polling requests. -/
def maxWaitSeconds : Nat := 300

inductive SessionStatus
  | connecting
  | ready
  | execRunning
  | ptyOpen
  | idle
  | disconnected
  | interrupted
  | closed
  | failed
  deriving DecidableEq, Repr

inductive CommandStatus
  | running
  | completed
  | failed
  | timedOut
  | cancelled
  | interrupted
  deriving DecidableEq, Repr

inductive StreamKind
  | stdout
  | stderr
  | pty
  | system
  deriving DecidableEq, Repr

structure SessionInfo where
  id : String
  targetId : String
  targetName : String
  purpose : String
  clientName : String
  status : SessionStatus
  currentCommand : Option String
  lastExitCode : Option UInt32
  recordingTruncated : Bool
  hostFingerprint : Option String
  createdAt : DateTime
  updatedAt : DateTime
  closedAt : Option DateTime
  deriving DecidableEq, Repr

structure CommandInfo where
  id : String
  sessionId : String
  command : String
  status : CommandStatus
  exitCode : Option UInt32
  startedAt : DateTime
  finishedAt : Option DateTime
  lastSequence : Nat
  recordingTruncated : Bool
  outputBytes : Nat
  deriving DecidableEq, Repr

structure TerminalEvent where
  sessionId : String
  commandId : Option String
  sequence : Nat
  timestamp : DateTime
  stream : StreamKind
  payload : Bytes
  persisted : Bool
  deriving DecidableEq, Repr

structure EventProgress where
  secondsSinceLastOutput : Option Nat
  liveTailDropped : Bool
  timedOut : Bool
  waitedSeconds : Nat
  deriving DecidableEq, Repr

/-- The answer to `CommandPoll` and `ShellRead`. -/
structure EventsData where
  command : Option CommandInfo
  commands : List CommandInfo
  events : List TerminalEvent
  nextSequence : Nat
  hasMore : Bool
  deliveryComplete : Bool
  warnings : List String
  progress : EventProgress
  deriving DecidableEq, Repr

structure FileOutcome where
  path : String
  bytes : Nat
  sha256 : Option String
  verified : Bool
  changed : Bool
  mode : Option Nat
  localPath : Option String
  deriving DecidableEq, Repr

/-- A character of a text that `{:?}` prints. The tables of the characters beyond Latin-1 that
are not printed as they stand are left out. -/
def escapeDebug (c : Char) : List Char :=
  match c with
  | '"' | '\\' => ['\\', c]
  | '\t' => ['\\', 't']
  | '\n' => ['\\', 'n']
  | '\r' => ['\\', 'r']
  | '\x00' => ['\\', '0']
  | _ =>
      if c.toNat < 0x20 || 0x7f ≤ c.toNat && c.toNat ≤ 0xa0 || c.toNat = 0xad then
        ['\\', 'u', '\x7b'] ++ Nat.toDigits 16 c.toNat ++ ['\x7d']
      else [c]

/-- A text as `{:?}` prints it. -/
def debugText (text : String) : String :=
  .ofList ('"' :: (text.toList.flatMap escapeDebug ++ ['"']))

example : debugText "a\u001b\"" = "\"a\\u\x7b1b\x7d\\\"\"" := by decide

structure ErrorPayload where
  code : String
  message : String
  retryable : Bool
  deriving DecidableEq, Repr

namespace ErrorPayload

def new (code message : String) : ErrorPayload := ⟨code, message, false⟩

def display (error : ErrorPayload) : String := error.code ++ ": " ++ error.message

def withRetry (error : ErrorPayload) : ErrorPayload := { error with retryable := true }

end ErrorPayload
end AiSsh
