import AiSsh.FileWrite
import AiSsh.Library.Base64
import AiSsh.ResponseFrame
import AiSsh.TextDecoders

/-!
The structured payload of the answers that carry recorded output or the content of a file.
How a time is written and the configured recording limit come from outside.
-/

namespace AiSsh

open Library Library.Json

/-- How much of a response to show. -/
inductive Detail
  | compact
  | full
  deriving DecidableEq, Repr

/-- Requested encoding for file content. -/
inductive Encoding
  | text
  | base64
  deriving DecidableEq, Repr

structure Shaping where
  detail : Detail
  encoding : Encoding
  afterSequence : Nat
  deriving DecidableEq, Repr

def Shaping.firstPage (shaping : Shaping) : Bool := shaping.afterSequence == 0

def commandPreviewChars : Nat := 200

def commandPreview (command : String) : String :=
  let trimmed := trim command
  if trimmed.length ≤ commandPreviewChars then trimmed
  else .ofList (trimmed.toList.take commandPreviewChars ++ ['…'])

/-- A `u64` as JSON. -/
def u64Value (n : Nat) : Value := .number (.posInt (.ofNat n))

/-- An optional value as JSON. -/
def optionValue {α : Type} (value : α → Value) : Option α → Value
  | some a => value a
  | none => .null

structure Chunk where
  stream : String
  persisted : Bool
  firstSequence : Nat
  lastSequence : Nat
  count : Nat
  text : String
  deriving DecidableEq, Repr

def Chunk.start (event : DecodedEvent) : Chunk :=
  ⟨event.stream, event.persisted, event.sequence, event.sequence, 1, event.text⟩

/-- An event goes to the last chunk when it is of the same stream. -/
def pushEvent (chunks : List Chunk) (event : DecodedEvent) : List Chunk :=
  match chunks.getLast? with
  | some chunk =>
      if chunk.stream = event.stream ∧ chunk.persisted = event.persisted then
        chunks.dropLast ++ [{ chunk with
          text := chunk.text ++ event.text
          lastSequence := event.sequence
          count := chunk.count + 1 }]
      else
        chunks ++ [.start event]
  | none => chunks ++ [.start event]

def chunksOf (decoded : List DecodedEvent) : List Chunk := decoded.foldl pushEvent []

def Chunk.value (chunk : Chunk) : Value :=
  (Object.of [
    ("stream", .string chunk.stream),
    ("text", .string chunk.text),
    ("first_sequence", u64Value chunk.firstSequence),
    ("last_sequence", u64Value chunk.lastSequence),
    ("events", u64Value chunk.count),
    ("persisted", .bool chunk.persisted)]).toValue

def chunksFrom (decoded : List DecodedEvent) : List Value := (chunksOf decoded).map Chunk.value

def DecodedEvent.value (event : DecodedEvent) : Value :=
  (Object.of [
    ("stream", .string event.stream),
    ("text", .string event.text),
    ("data_base64", .string (Base64.encode event.payload)),
    ("sequence", u64Value event.sequence),
    ("persisted", .bool event.persisted)]).toValue

def eventsFrom (decoded : List DecodedEvent) : List Value := decoded.map DecodedEvent.value

def enveloped (kind : String) (data : Value) : Value :=
  (Object.of [("kind", .string kind), ("data", data)]).toValue

section Views

variable (rfc3339 : DateTime → String)

/-- A `CommandInfo` as JSON. -/
def commandObject (command : CommandInfo) : Object :=
  Object.of [
    ("id", .string command.id),
    ("session_id", .string command.sessionId),
    ("command", .string command.command),
    ("status", .string command.status.name),
    ("exit_code", optionValue (fun code => u64Value code.toNat) command.exitCode),
    ("started_at", .string (rfc3339 command.startedAt)),
    ("finished_at", optionValue (fun time => .string (rfc3339 time)) command.finishedAt),
    ("last_sequence", u64Value command.lastSequence),
    ("recording_truncated", .bool command.recordingTruncated),
    ("output_bytes", u64Value command.outputBytes)]

def commandView (command : CommandInfo) (detail : Detail) (includePreview : Bool) : Value :=
  let object := commandObject rfc3339 command
  let object :=
    if includePreview then
      object.insert "command_preview" (.string (commandPreview command.command))
    else object
  let object := if detail = .compact then object.remove "command" else object
  object.toValue

/-- The key and the items of the output. -/
def outputValue (detail : Detail) (decoded : List DecodedEvent) : String × List Value :=
  match detail with
  | .compact => ("chunks", chunksFrom decoded)
  | .full => ("events", eventsFrom decoded)

/-- What the payload of a page says besides the output. -/
def pageObject (recordingLimitMib : Option Nat) (shaping : Shaping) (page : EventsData) : Object :=
  Object.of [
    ("command", optionValue
      (fun value => commandView rfc3339 value shaping.detail shaping.firstPage) page.command),
    ("commands", .array
      ((page.commands.filter fun value => some value.id != page.command.map CommandInfo.id).map
        fun value => commandView rfc3339 value shaping.detail shaping.firstPage)),
    ("next_sequence", u64Value page.nextSequence),
    ("has_more", .bool page.hasMore),
    ("poll_complete", .bool page.deliveryComplete),
    ("sequence_scope", .string "session"),
    ("remote_state_unknown", .bool (page.command.any fun value => value.status = .interrupted)),
    ("truncation", (Object.of [
      ("page_truncated", .bool page.hasMore),
      ("recording_truncated", .bool (page.command.any CommandInfo.recordingTruncated)),
      ("live_tail_dropped", .bool page.progress.liveTailDropped),
      ("recording_limit_mib", optionValue u64Value recordingLimitMib)]).toValue),
    ("progress", (Object.of [
      ("seconds_since_last_output", optionValue u64Value page.progress.secondsSinceLastOutput),
      ("timed_out", .bool page.progress.timedOut),
      ("waited_seconds", u64Value page.progress.waitedSeconds)]).toValue),
    ("warnings", .array (page.warnings.map .string))]

/-- The `Events` arm of `public_json`, once the events are decoded. -/
def eventsJson (recordingLimitMib : Option Nat) (shaping : Shaping) (page : EventsData)
    (decoded : List DecodedEvent) : Value :=
  let output := outputValue shaping.detail decoded
  ((pageObject rfc3339 recordingLimitMib shaping page).insert output.1 (.array output.2)).toValue

end Views

/-- What the payload of a file says besides its content. -/
def contentObject (info : FileContentInfo) : Object :=
  Object.of [
    ("path", .string info.path),
    ("size", u64Value info.size),
    ("bytes_returned", u64Value info.bytesReturned),
    ("truncated", .bool info.truncated),
    ("is_utf8", .bool info.isUtf8),
    ("sha256", optionValue .string info.sha256)]

def fileContentJson (info : FileContentInfo) (detail : Detail) (encoding : Encoding) : Value :=
  let value := contentObject info
  let includeBase64 := encoding = .base64 ∨ info.isUtf8 = false ∨ detail = .full
  let includeText := encoding = .text ∧ info.isUtf8 = true
  let value :=
    if includeText then value.insert "text" (.string (Utf8.decodeLossy info.data)) else value
  let value :=
    if includeBase64 then
      (value.insert "data_base64" (.string (Base64.encode info.data))).insert "encoding"
        (.string (if info.isUtf8 then "text" else "binary"))
    else value
  let value :=
    if ¬ includeText ∧ encoding = .base64 then value.insert "encoding" (.string "base64")
    else value
  value.toValue

/-- The answers that carry output or the content of a file. -/
inductive BulkData
  | events (page : EventsData)
  | fileContent (info : FileContentInfo)
  deriving DecidableEq, Repr

/-- `public_json` for these answers. -/
def publicJson (rfc3339 : DateTime → String) (recordingLimitMib : Option Nat)
    (shaping : Shaping) (decoders : TextDecoders) : BulkData → TextDecoders × Value
  | .events page =>
      let (decoders, decoded) := publicEvents decoders page
      (decoders, eventsJson rfc3339 recordingLimitMib shaping page decoded)
  | .fileContent info =>
      (decoders, enveloped "file_content" (fileContentJson info shaping.detail shaping.encoding))

end AiSsh
