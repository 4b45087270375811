import AiSsh.DaemonCall
import AiSsh.Library.JsonPretty
import AiSsh.TextChannel

/-!
The structured payloads of all answers, and the answers of the MCP server that carry them. An
answer without a payload of its own is shown as it came over the wire, as its kind and its data.
-/

namespace AiSsh

open Library.Json

def SessionStatus.name : SessionStatus → String
  | .connecting => "connecting"
  | .ready => "ready"
  | .execRunning => "exec_running"
  | .ptyOpen => "pty_open"
  | .idle => "idle"
  | .disconnected => "disconnected"
  | .interrupted => "interrupted"
  | .closed => "closed"
  | .failed => "failed"

def FileKind.name : FileKind → String
  | .file => "file"
  | .directory => "directory"
  | .symlink => "symlink"
  | .other => "other"

def u32Value (n : UInt32) : Value := u64Value n.toNat

def TargetSummary.value (target : TargetSummary) : Value :=
  (Object.of [
    ("id", .string target.id),
    ("name", .string target.name),
    ("host", .string target.host),
    ("port", u64Value target.port.toNat),
    ("username", .string target.username),
    ("host_verification", .bool target.hostVerification)]).toValue

def FileOutcome.value (outcome : FileOutcome) : Value :=
  (Object.of [
    ("path", .string outcome.path),
    ("bytes", u64Value outcome.bytes),
    ("sha256", optionValue .string outcome.sha256),
    ("verified", .bool outcome.verified),
    ("changed", .bool outcome.changed),
    ("mode", optionValue u64Value outcome.mode),
    ("local_path", optionValue .string outcome.localPath)]).toValue

section Views

variable (rfc3339 : DateTime → String)

def timeValue (time : DateTime) : Value := .string (rfc3339 time)

def SessionInfo.value (session : SessionInfo) : Value :=
  (Object.of [
    ("id", .string session.id),
    ("target_id", .string session.targetId),
    ("target_name", .string session.targetName),
    ("purpose", .string session.purpose),
    ("client_name", .string session.clientName),
    ("status", .string session.status.name),
    ("current_command", optionValue .string session.currentCommand),
    ("last_exit_code", optionValue u32Value session.lastExitCode),
    ("recording_truncated", .bool session.recordingTruncated),
    ("host_fingerprint", optionValue .string session.hostFingerprint),
    ("created_at", timeValue rfc3339 session.createdAt),
    ("updated_at", timeValue rfc3339 session.updatedAt),
    ("closed_at", optionValue (timeValue rfc3339) session.closedAt)]).toValue

def CommandSummary.value (summary : CommandSummary) : Value :=
  (Object.of [
    ("id", .string summary.id),
    ("session_id", .string summary.sessionId),
    ("command_preview", .string summary.commandPreview),
    ("status", .string summary.status.name),
    ("exit_code", optionValue u32Value summary.exitCode),
    ("started_at", timeValue rfc3339 summary.startedAt),
    ("finished_at", optionValue (timeValue rfc3339) summary.finishedAt),
    ("last_sequence", u64Value summary.lastSequence),
    ("output_bytes", u64Value summary.outputBytes),
    ("recording_truncated", .bool summary.recordingTruncated),
    ("running_for_seconds", optionValue u64Value summary.runningForSeconds),
    ("seconds_since_last_output",
      optionValue u64Value summary.secondsSinceLastOutput)]).toValue

def FileStatInfo.value (stat : FileStatInfo) : Value :=
  (Object.of [
    ("path", .string stat.path),
    ("kind", .string stat.kind.name),
    ("size", u64Value stat.size),
    ("mode", optionValue u32Value stat.mode),
    ("uid", optionValue u32Value stat.uid),
    ("gid", optionValue u32Value stat.gid),
    ("user", optionValue .string stat.user),
    ("group", optionValue .string stat.group),
    ("modified_at", optionValue (timeValue rfc3339) stat.modifiedAt),
    ("sha256", optionValue .string stat.sha256)]).toValue

/-- `public_json`. Only a page of output reads or changes the decoders. -/
def publicData (recordingLimitMib : Option Nat) (shaping : Shaping) (decoders : TextDecoders) :
    ResponseData → TextDecoders × Value
  | .events page => publicJson rfc3339 recordingLimitMib shaping decoders (.events page)
  | .fileContent info => publicJson rfc3339 recordingLimitMib shaping decoders (.fileContent info)
  | .fileStat stat => (decoders, enveloped "file_stat" (stat.value rfc3339))
  | .fileOutcome outcome => (decoders, enveloped "file_outcome" outcome.value)
  | .commands summaries =>
      (decoders, enveloped "commands" (Object.of [("commands",
        .array (summaries.map (CommandSummary.value rfc3339)))]).toValue)
  -- the caller's own command is echoed in full
  | .command command => (decoders, enveloped "command" (commandView rfc3339 command .full true))
  | .handshake version daemonVersion =>
      (decoders, enveloped "handshake" (Object.of [("protocol_version", u64Value version.toNat),
        ("daemon_version", .string daemonVersion)]).toValue)
  | .targets targets =>
      (decoders, enveloped "targets" (.array (targets.map TargetSummary.value)))
  | .sessions sessions =>
      (decoders, enveloped "sessions" (.array (sessions.map (SessionInfo.value rfc3339))))
  | .session session => (decoders, enveloped "session" (session.value rfc3339))
  | .ack => (decoders, (Object.of [("kind", .string "ack")]).toValue)

end Views

/-- The page that an answer shows. -/
def ResponseData.page : ResponseData → Option EventsData
  | .events page => some page
  | _ => none

/-- `public_error`. What broke down on the way to the daemon is told by a text. -/
def publicError (breakdown : String) : CallError → Value
  | .daemon payload =>
      (Object.of [("code", .string payload.code), ("message", .string payload.message),
        ("retryable", .bool payload.retryable)]).toValue
  | .transport =>
      (Object.of [("code", .string "DAEMON_UNAVAILABLE"), ("message", .string breakdown),
        ("retryable", .bool true)]).toValue

section Answers

def jsonRpc : Value := .string "2.0"

/-- An answer to a request: its result, or why it has none. -/
def rpcAnswer (id : Value) (key : String) (value : Value) : Value :=
  (Object.of [("jsonrpc", jsonRpc), ("id", id), (key, value)]).toValue

def rpcResult (id : Value) (result : Object) : Value := rpcAnswer id "result" result.toValue

/-- An error by the absolute value of its code, which is negative. -/
def rpcError (id : Value) (code : Nat) (message : String) : Value :=
  rpcAnswer id "error"
    (Object.of [("code", .number (.negInt (code - 1))), ("message", .string message)]).toValue

variable (floatText : Rat → String)

/-- `render_text`. -/
def contentText (payload : Value) (isError : Bool) : String :=
  if isError then payload.pretty floatText 0 else renderText floatText payload

def toolResult (id payload : Value) (isError : Bool) : Value :=
  rpcResult id (Object.of [
    ("content", .array [(Object.of [("type", .string "text"),
      ("text", .string (contentText floatText payload isError))]).toValue]),
    ("structuredContent", payload), ("isError", .bool isError)])

end Answers

end AiSsh
