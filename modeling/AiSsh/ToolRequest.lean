import AiSsh.Requests
import AiSsh.ToolSchemas

/-!
The conversion of a tool call into a request.
-/

namespace AiSsh

open Library.Json

abbrev Arguments := Object

/-- An error of the conversion. Of an unknown tool the text is the name as `{:?}` prints it. -/
inductive ArgumentError
  | text (message : String)
  | unknownTool (name : String)
  deriving DecidableEq, Repr

abbrev Reading (α : Type) := Except ArgumentError α

def requiredString (args : Arguments) (key : String) : Reading String :=
  match ((args.get key).bind Value.asStr).filter fun v => !v.isEmpty with
  | some v => .ok v
  | none => .error (.text s!"{key} must be a non-empty string")

def optionalString (args : Arguments) (key : String) : Reading (Option String) :=
  match args.get key with
  | none | some .null => .ok none
  | some (.string v) => .ok (some v)
  | _ => .error (.text s!"{key} must be a string")

/-- `u32::try_from` of a `u64`. -/
def toU32 (value : Nat) : Option UInt32 :=
  if value < 2 ^ 32 then some (UInt32.ofNat value) else none

def u32Arg (args : Arguments) (key : String) (default : UInt32) : UInt32 :=
  (((args.get key).bind Value.asU64).bind toU32).getD default

def envEntry (entry : String × Value) : Reading (String × String) :=
  match entry.2.asStr with
  | some s => .ok (entry.1, s)
  | none => .error (.text s!"env.{entry.1} must be a string")

def envMap (args : Arguments) : Reading (List (String × String)) :=
  match args.get "env" with
  | none | some .null => .ok []
  | some (.object values) => values.mapM envEntry
  | _ => .error (.text "env must be an object")

def u64Arg (args : Arguments) (key : String) : Option Nat := (args.get key).bind Value.asU64

def afterSequenceArg (args : Arguments) : Nat := (u64Arg args "after_sequence").getD 0

def maxBytesArg (args : Arguments) : Nat := (u64Arg args "max_bytes").getD 65536

def waitSecondsArg (args : Arguments) (default : Nat) : Nat :=
  min ((u64Arg args "wait_seconds").getD default) maxWaitSeconds

/-- Default block time for `ssh_command_poll`. -/
def defaultPollWaitSeconds : Nat := 30

def commandsLimit (args : Arguments) : UInt32 :=
  UInt32.ofNat (max 1 (min ((u64Arg args "limit").getD 50) 500))

def modeArg (args : Arguments) : Reading (Option UInt32) :=
  match u64Arg args "mode" with
  | none => .ok none
  | some value =>
      match (toU32 value).filter fun value => decide (value ≤ 0o7777) with
      | some value => .ok (some value)
      | none => .error (.text "mode must be an octal permission value up to 07777")

def flag (args : Arguments) (key : String) (default : Bool) : Bool :=
  ((args.get key).bind Value.asBool).getD default

section

-- the standard base64 decoding of a text, where it is valid
variable (base64 : String → Option Bytes)

def decodeBase64 (key encoded : String) : Reading Bytes :=
  match base64 encoded with
  | some data => .ok data
  | none => .error (.text s!"{key} is not valid base64")

def contentBytes (args : Arguments) : Reading Bytes :=
  match (args.get "content").bind Value.asStr, (args.get "content_base64").bind Value.asStr with
  | some _, some _ => .error (.text "provide either content or content_base64, not both")
  | some text, none => .ok text.toUTF8.data.toList
  | none, some encoded => decodeBase64 base64 "content_base64" encoded
  | none, none => .error (.text "content or content_base64 is required")

def toolRequest (name : String) (args : Arguments) : Reading Request :=
  match name with
  | "ssh_targets_list" => pure .targetsList
  | "ssh_sessions_list" => pure (.sessionsList (flag args "include_history" false))
  | "ssh_session_create" => do
      let targetId ← requiredString args "target_id"
      let purpose ← requiredString args "purpose"
      pure (.sessionCreate targetId purpose)
  | "ssh_session_status" => do
      let sessionId ← requiredString args "session_id"
      pure (.sessionStatus sessionId)
  | "ssh_session_close" => do
      let sessionId ← requiredString args "session_id"
      pure (.sessionClose sessionId)
  | "ssh_exec_start" => do
      let sessionId ← requiredString args "session_id"
      let command ← requiredString args "command"
      let cwd ← optionalString args "cwd"
      let env ← envMap args
      pure (.execStart sessionId command cwd env (u64Arg args "timeout_seconds"))
  | "ssh_exec_background" => do
      let sessionId ← requiredString args "session_id"
      let command ← requiredString args "command"
      let cwd ← optionalString args "cwd"
      let env ← envMap args
      pure (.execBackground sessionId command cwd env (u64Arg args "timeout_seconds"))
  | "ssh_command_poll" => do
      let commandId ← requiredString args "command_id"
      pure (.commandPoll commandId (afterSequenceArg args) (maxBytesArg args)
        (waitSecondsArg args defaultPollWaitSeconds))
  | "ssh_command_cancel" => do
      let commandId ← requiredString args "command_id"
      pure (.commandCancel commandId)
  | "ssh_commands_list" => do
      let sessionId ← optionalString args "session_id"
      pure (.commandsList sessionId (flag args "include_finished" false) (commandsLimit args))
  | "ssh_shell_open" => do
      let sessionId ← requiredString args "session_id"
      let term ← optionalString args "term"
      pure (.shellOpen sessionId (u32Arg args "cols" 120) (u32Arg args "rows" 32)
        (term.getD "xterm-256color"))
  | "ssh_shell_write" => do
      let sessionId ← requiredString args "session_id"
      let encoded ← requiredString args "data_base64"
      let data ← decodeBase64 base64 "data_base64" encoded
      pure (.shellWrite sessionId data)
  | "ssh_shell_read" => do
      let sessionId ← requiredString args "session_id"
      pure (.shellRead sessionId (afterSequenceArg args) (maxBytesArg args) (waitSecondsArg args 0))
  | "ssh_shell_resize" => do
      let sessionId ← requiredString args "session_id"
      pure (.shellResize sessionId (u32Arg args "cols" 120) (u32Arg args "rows" 32))
  | "ssh_shell_close" => do
      let sessionId ← requiredString args "session_id"
      pure (.shellClose sessionId)
  | "ssh_file_stat" => do
      let sessionId ← requiredString args "session_id"
      let remotePath ← requiredString args "remote_path"
      pure (.fileStat sessionId remotePath (flag args "hash" false))
  | "ssh_file_read" => do
      let sessionId ← requiredString args "session_id"
      let remotePath ← requiredString args "remote_path"
      pure (.fileRead sessionId remotePath (maxBytesArg args) (flag args "sudo" false))
  | "ssh_file_write" => do
      let sessionId ← requiredString args "session_id"
      let remotePath ← requiredString args "remote_path"
      let data ← contentBytes base64 args
      let mode ← modeArg args
      pure (.fileWrite sessionId remotePath data (flag args "append" false)
        (flag args "create_dirs" false) mode (flag args "sudo" false)
        (flag args "if_changed" false))
  | "ssh_file_upload" => do
      let sessionId ← requiredString args "session_id"
      let localPath ← requiredString args "local_path"
      let remotePath ← requiredString args "remote_path"
      let mode ← modeArg args
      pure (.fileUpload sessionId localPath remotePath (flag args "create_dirs" false) mode
        (flag args "verify" true))
  | "ssh_file_download" => do
      let sessionId ← requiredString args "session_id"
      let remotePath ← requiredString args "remote_path"
      let localPath ← requiredString args "local_path"
      pure (.fileDownload sessionId remotePath localPath (flag args "overwrite" false)
        (flag args "create_dirs" false) (flag args "verify" true))
  | "ssh_file_mkdir" => do
      let sessionId ← requiredString args "session_id"
      let remotePath ← requiredString args "remote_path"
      let mode ← modeArg args
      pure (.fileMkdir sessionId remotePath (flag args "parents" true) mode)
  | _ => .error (.unknownTool name)

end

end AiSsh
