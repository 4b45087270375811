import AiSsh.Library.JsonLines
import AiSsh.PublicData
import AiSsh.ToolCall

/-!
The loop of the MCP server. A line of its input that is no JSON is answered with an error, one
that carries an identifier with what its method gives, and any other line is not answered. Who
reads the output gets one answer for each line that asks for one, in order.
-/

namespace AiSsh

open Library Library.Json

/-- What a line meets: what the daemon answers to a call, how a breakdown on the way to it is
told, and the configured recording limit. -/
structure Surroundings where
  daemon : Except CallError ResponseData
  breakdown : String
  recordingLimitMib : Option Nat

/-- A line of input, and what it meets. -/
structure Heard where
  line : String
  around : Surroundings

/-- How JSON, base64, times and quoted texts are read and written. -/
structure McpSetting where
  format : FloatFormat
  parse : String → Except String Value
  base64 : String → Option Bytes
  rfc3339 : DateTime → String
  debug : String → String

structure McpServer where
  clientName : String
  decoders : TextDecoders
  calls : List (String × Request)
  written : List Char

section Messages

/-- `Value::pointer` by names. -/
def pointer (message : Value) (path : List String) : Option Value :=
  path.foldl (fun found key => found.bind (Value.get · key)) (some message)

def textAt (message : Value) (path : List String) : Option String :=
  (pointer message path).bind Value.asStr

def methodOf (message : Value) : String := (textAt message ["method"]).getD ""

def toolName (message : Value) : String := (textAt message ["params", "name"]).getD ""

/-- The arguments of a call. What is no object has no members. -/
def toolArguments (message : Value) : Arguments :=
  match pointer message ["params", "arguments"] with
  | some (.object members) => Object.of members
  | _ => .empty

def initializeResult (message : Value) : Object :=
  Object.of [
    ("protocolVersion",
      .string ((textAt message ["params", "protocolVersion"]).getD "2025-03-26")),
    ("capabilities",
      (Object.of [("tools", (Object.of [("listChanged", .bool false)]).toValue)]).toValue),
    ("serverInfo",
      (Object.of [("name", .string "aissh-mcp"), ("version", .string daemonVersion)]).toValue)]

def invalidArgument (message : String) : Value :=
  (Object.of [("code", .string "INVALID_ARGUMENT"), ("message", .string message),
    ("retryable", .bool false)]).toValue

end Messages

namespace McpServer

def start : McpServer where
  clientName := "MCP client"
  decoders := .empty
  calls := []
  written := []

variable (setting : McpSetting)

def writeJson (s : McpServer) (value : Value) : McpServer :=
  { s with written := s.written ++ lines setting.format [value] }

def callTool (s : McpServer) (message id : Value) (around : Surroundings) : McpServer × Value :=
  let answer := toolResult setting.format.text id
  match toolCall setting.base64 (toolName message) (toolArguments message) with
  | .error error => (s, answer (invalidArgument (error.message setting.debug)) true)
  | .ok (shaping, request) =>
      let s := { s with calls := s.calls ++ [(s.clientName, request)] }
      match around.daemon with
      | .ok data =>
          let (decoders, payload) :=
            publicData setting.rfc3339 around.recordingLimitMib shaping s.decoders data
          ({ s with decoders := decoders }, answer payload false)
      | .error error => (s, answer (publicError around.breakdown error) true)

def respond (s : McpServer) (message id : Value) (around : Surroundings) : McpServer × Value :=
  match methodOf message with
  | "initialize" =>
      ({ s with
          clientName := (textAt message ["params", "clientInfo", "name"]).getD s.clientName },
        rpcResult id (initializeResult message))
  | "ping" => (s, rpcResult id .empty)
  | "tools/list" => (s, rpcResult id (Object.of [("tools", toolsValue)]))
  | "tools/call" => s.callTool setting message id around
  | method => (s, rpcError id 32601 ("method " ++ setting.debug method ++ " not found"))

/-- What a line changes, and its answer if it has one. -/
def handle (s : McpServer) (heard : Heard) : McpServer × Option Value :=
  match setting.parse heard.line with
  | .error error => (s, some (rpcError .null 32700 error))
  | .ok message =>
      match message.get "id" with
      | none => (s, none)
      | some id =>
          let (s, answer) := s.respond setting message id heard.around
          (s, some answer)

/-- One round of the loop. -/
def hear (s : McpServer) (heard : Heard) : McpServer :=
  match s.handle setting heard with
  | (s, none) => s
  | (s, some answer) => s.writeJson setting answer

def serve (heard : List Heard) : McpServer := heard.foldl (hear setting) start

end McpServer

/-- An answer to the request with an identifier: a result or an error, and not both. -/
structure AnswersTo (id answer : Value) : Prop where
  version : answer.get "jsonrpc" = some jsonRpc
  id : answer.get "id" = some id
  either : (answer.get "result").isSome = !(answer.get "error").isSome

theorem answersTo_result (id value : Value) : AnswersTo id (rpcAnswer id "result" value) := by
  refine ⟨?_, ?_, ?_⟩ <;> simp [rpcAnswer, Object.get_of, List.lookup_cons]

theorem answersTo_error (id value : Value) : AnswersTo id (rpcAnswer id "error" value) := by
  refine ⟨?_, ?_, ?_⟩ <;> simp [rpcAnswer, Object.get_of, List.lookup_cons]

/-- The result of a tool call as the client has it. The text of a failure can be read like its
payload. -/
structure Tells (format : FloatFormat) (answer payload : Value) (isError : Bool) : Prop where
  structured : ((answer.get "result").bind (Value.get · "structuredContent")) = some payload
  flagged : ((answer.get "result").bind (Value.get · "isError")) = some (.bool isError)
  content : ((answer.get "result").bind (Value.get · "content")) =
    some (.array [(Object.of [("type", .string "text"),
      ("text", .string (contentText format.text payload isError))]).toValue])
  legible : isError = true →
    Json.read format.read (strip .outside (contentText format.text payload isError).toList) =
      some payload

theorem tells_toolResult (format : FloatFormat) (id payload : Value) (isError : Bool) :
    Tells format (toolResult format.text id payload isError) payload isError := by
  have hresult (result : Object) : (rpcResult id result).get "result" = some result.toValue := by
    simp [rpcResult, rpcAnswer, Object.get_of]
  refine ⟨?_, ?_, ?_, fun herror => ?_⟩
  · simp [toolResult, hresult, Object.get_of, List.lookup_cons]
  · simp [toolResult, hresult, Object.get_of]
  · simp [toolResult, hresult, Object.get_of, List.lookup_cons]
  · rw [contentText, if_pos herror, read_pretty]

section Conversation

variable (setting : McpSetting)

/-- The identifier under which a line asks for an answer. -/
def wanted (heard : Heard) : Option Value :=
  match setting.parse heard.line with
  | .error _ => some .null
  | .ok message => message.get "id"

/-- The message of a line that asks for an answer by a method. -/
def asked (method : String) (heard : Heard) : Option Value :=
  match setting.parse heard.line with
  | .error _ => none
  | .ok message =>
      if (message.get "id").isSome ∧ methodOf message = method then some message else none

/-- The name under which a client introduces itself. -/
def introduced (heard : Heard) : Option String :=
  (asked setting "initialize" heard).bind (textAt · ["params", "clientInfo", "name"])

/-- The tool call of a line, as it is read. -/
def toolAsked (heard : Heard) : Option (Except ToolCallError (Shaping × Request)) :=
  (asked setting "tools/call" heard).map fun message =>
    toolCall setting.base64 (toolName message) (toolArguments message)

def requested (heard : Heard) : Option Request :=
  ((toolAsked setting heard).bind Except.toOption).map Prod.snd

/-- The calls that lines make of the daemon, each in the name that is in force. -/
def calledFor : String → List Heard → List (String × Request)
  | _, [] => []
  | name, heard :: later =>
      ((requested setting heard).map (Prod.mk name)).toList ++
        calledFor ((introduced setting heard).getD name) later

/-- The page that the answer to a line shows. -/
def pageShown (heard : Heard) : Option EventsData :=
  (requested setting heard).bind fun _ => heard.around.daemon.toOption.bind ResponseData.page

/-- What is left of the decoders by the pages that were shown. -/
def decodersAfter (heard : List Heard) : TextDecoders :=
  (publicPages .empty (heard.filterMap (pageShown setting))).1

/-- What the client is told of a call: the payload, and whether it is an error. -/
def outcome (decoders : TextDecoders) (around : Surroundings) :
    Except ToolCallError (Shaping × Request) → Value × Bool
  | .error error => (invalidArgument (error.message setting.debug), true)
  | .ok (shaping, _) =>
      match around.daemon with
      | .ok data =>
          ((publicData setting.rfc3339 around.recordingLimitMib shaping decoders data).2, false)
      | .error error => (publicError around.breakdown error, true)

namespace McpServer

variable {setting} {s : McpServer} {heard : Heard}

/-- What a line may do, each case with what the line asks for. -/
inductive Handled (setting : McpSetting) (s : McpServer) (heard : Heard) :
    McpServer × Option Value → Prop
  | silent (hwanted : wanted setting heard = none)
      (hasked : ∀ method, asked setting method heard = none) : Handled setting s heard (s, none)
  | told {id answer : Value} (hwanted : wanted setting heard = some id)
      (hanswer : AnswersTo id answer) (hnamed : asked setting "initialize" heard = none)
      (hcall : asked setting "tools/call" heard = none) :
      Handled setting s heard (s, some answer)
  | introduced {id answer message : Value} (hwanted : wanted setting heard = some id)
      (hanswer : AnswersTo id answer)
      (hnamed : asked setting "initialize" heard = some message)
      (hcall : asked setting "tools/call" heard = none) :
      Handled setting s heard
        ({ s with
            clientName := (textAt message ["params", "clientInfo", "name"]).getD s.clientName },
          some answer)
  | called {id message : Value} (hwanted : wanted setting heard = some id)
      (hnamed : asked setting "initialize" heard = none)
      (hcall : asked setting "tools/call" heard = some message) :
      Handled setting s heard
        ((s.callTool setting message id heard.around).1,
          some (s.callTool setting message id heard.around).2)

theorem handled (setting : McpSetting) (s : McpServer) (heard : Heard) :
    Handled setting s heard (s.handle setting heard) := by
  cases hparse : setting.parse heard.line with
  | error error =>
      rw [handle, hparse]
      refine .told ?_ (answersTo_error .null _) ?_ ?_
      · rw [wanted, hparse]
      · rw [asked, hparse]
      · rw [asked, hparse]
  | ok message =>
      have hwanted : wanted setting heard = message.get "id" := by rw [wanted, hparse]
      have hasked (method : String) : asked setting method heard =
          if (message.get "id").isSome ∧ methodOf message = method then some message else none := by
        rw [asked, hparse]
      cases hid : message.get "id" with
      | none =>
          have hsilent : s.handle setting heard = (s, none) := by simp only [handle, hparse, hid]
          rw [hsilent]
          refine .silent (hwanted.trans hid) fun method => ?_
          rw [hasked, hid]
          rfl
      | some id =>
          rw [hid] at hwanted hasked
          simp only [Option.isSome_some, true_and] at hasked
          have hanswered : s.handle setting heard =
              ((s.respond setting message id heard.around).1,
                some (s.respond setting message id heard.around).2) := by
            simp only [handle, hparse, hid]
          rw [hanswered]
          generalize hrespond : s.respond setting message id heard.around = response
          unfold respond at hrespond
          split at hrespond <;> subst hrespond
          · rename_i hmethod
            refine .introduced hwanted (answersTo_result _ _) ?_ ?_
            · rw [hasked, if_pos hmethod]
            · rw [hasked, hmethod, if_neg (by decide)]
          · rename_i hmethod
            refine .told hwanted (answersTo_result _ _) ?_ ?_
            · rw [hasked, hmethod, if_neg (by decide)]
            · rw [hasked, hmethod, if_neg (by decide)]
          · rename_i hmethod
            refine .told hwanted (answersTo_result _ _) ?_ ?_
            · rw [hasked, hmethod, if_neg (by decide)]
            · rw [hasked, hmethod, if_neg (by decide)]
          · rename_i hmethod
            refine .called hwanted ?_ ?_
            · rw [hasked, hmethod, if_neg (by decide)]
            · rw [hasked, if_pos hmethod]
          · rename_i hnamed _ _ hcall
            refine .told hwanted (answersTo_error _ _) ?_ ?_
            · rw [hasked, if_neg hnamed]
            · rw [hasked, if_neg hcall]

/-- The decoders behind an answer with a page or without one. -/
def shownBy (decoders : TextDecoders) (page : Option EventsData) : TextDecoders :=
  page.elim decoders fun page => (publicEvents decoders page).1

theorem publicData_decoders (rfc3339 : DateTime → String) (limit : Option Nat)
    (shaping : Shaping) (decoders : TextDecoders) (data : ResponseData) :
    (publicData rfc3339 limit shaping decoders data).1 = shownBy decoders data.page := by
  cases data <;> rfl

/-- What a tool call does, all at once. -/
structure Calls (setting : McpSetting) (s : McpServer) (message id : Value)
    (around : Surroundings) (call : Except ToolCallError (Shaping × Request)) : Prop where
  clientName : (s.callTool setting message id around).1.clientName = s.clientName
  written : (s.callTool setting message id around).1.written = s.written
  calls : (s.callTool setting message id around).1.calls =
    s.calls ++ ((call.toOption.map Prod.snd).map (Prod.mk s.clientName)).toList
  decoders : (s.callTool setting message id around).1.decoders =
    shownBy s.decoders (call.toOption.bind fun _ => around.daemon.toOption.bind ResponseData.page)
  answer : (s.callTool setting message id around).2 =
    toolResult setting.format.text id (outcome setting s.decoders around call).1
      (outcome setting s.decoders around call).2

theorem calls_callTool (s : McpServer) (message id : Value) (around : Surroundings) :
    Calls setting s message id around
      (toolCall setting.base64 (toolName message) (toolArguments message)) := by
  cases hcall : toolCall setting.base64 (toolName message) (toolArguments message) with
  | error error =>
      constructor <;> simp only [callTool, hcall, Except.toOption] <;> first | rfl | simp
  | ok call =>
      obtain ⟨shaping, request⟩ := call
      cases hdaemon : around.daemon with
      | error error =>
          constructor <;> simp only [callTool, hcall, hdaemon, Except.toOption, outcome] <;> rfl
      | ok data =>
          have hdecoders := publicData_decoders setting.rfc3339 around.recordingLimitMib shaping
            s.decoders data
          constructor <;> simp only [callTool, hcall, hdaemon, Except.toOption, outcome]
          · rfl
          · exact hdecoders

variable {result : McpServer × Option Value}

theorem Handled.clientName (h : Handled setting s heard result) :
    result.1.clientName = (AiSsh.introduced setting heard).getD s.clientName := by
  rw [AiSsh.introduced]
  cases h with
  | silent hwanted hasked => rw [hasked]; rfl
  | told hwanted hanswer hnamed hcall => rw [hnamed]; rfl
  | introduced hwanted hanswer hnamed hcall => rw [hnamed]; rfl
  | called hwanted hnamed hcall =>
      rw [hnamed]
      exact (calls_callTool s _ _ _).clientName

theorem Handled.written (h : Handled setting s heard result) : result.1.written = s.written := by
  cases h with
  | silent hwanted hasked => rfl
  | told hwanted hanswer hnamed hcall => rfl
  | introduced hwanted hanswer hnamed hcall => rfl
  | called hwanted hnamed hcall => exact (calls_callTool s _ _ _).written

theorem Handled.calls (h : Handled setting s heard result) :
    result.1.calls = s.calls ++ ((requested setting heard).map (Prod.mk s.clientName)).toList := by
  rw [requested, toolAsked]
  cases h with
  | silent hwanted hasked => simp [hasked]
  | told hwanted hanswer hnamed hcall => simp [hcall]
  | introduced hwanted hanswer hnamed hcall => simp [hcall]
  | called hwanted hnamed hcall =>
      rw [hcall]
      exact (calls_callTool s _ _ _).calls

theorem Handled.decoders (h : Handled setting s heard result) :
    result.1.decoders = shownBy s.decoders (pageShown setting heard) := by
  rw [pageShown, requested, toolAsked]
  cases h with
  | silent hwanted hasked => rw [hasked]; rfl
  | told hwanted hanswer hnamed hcall => rw [hcall]; rfl
  | introduced hwanted hanswer hnamed hcall => rw [hcall]; rfl
  | called hwanted hnamed hcall =>
      rw [hcall, Option.map_some, Option.bind_some, Option.bind_map]
      exact (calls_callTool s _ _ _).decoders

/-- A line is answered where it asks for it. -/
theorem Handled.answers (h : Handled setting s heard result) :
    List.Forall₂ AnswersTo (wanted setting heard).toList result.2.toList := by
  cases h with
  | silent hwanted hasked => rw [hwanted]; exact .nil
  | told hwanted hanswer hnamed hcall => rw [hwanted]; exact .cons hanswer .nil
  | introduced hwanted hanswer hnamed hcall => rw [hwanted]; exact .cons hanswer .nil
  | called hwanted hnamed hcall =>
      rw [hwanted, (calls_callTool s _ _ _).answer]
      exact .cons (answersTo_result _ _) .nil

theorem Handled.tells (h : Handled setting s heard result)
    {call : Except ToolCallError (Shaping × Request)}
    (hcall : toolAsked setting heard = some call) :
    ∃ answer, result.2 = some answer ∧
      Tells setting.format answer (outcome setting s.decoders heard.around call).1
        (outcome setting s.decoders heard.around call).2 := by
  rw [toolAsked] at hcall
  cases h with
  | silent hwanted hasked => simp [hasked] at hcall
  | told hwanted hanswer hnamed hnone => simp [hnone] at hcall
  | introduced hwanted hanswer hnamed hnone => simp [hnone] at hcall
  | called hwanted hnamed hmessage =>
      rw [hmessage, Option.map_some, Option.some.injEq] at hcall
      refine ⟨_, rfl, ?_⟩
      rw [(calls_callTool s _ _ _).answer, hcall]
      exact tells_toolResult _ _ _ _

section Rounds

variable (setting) (s) (heard)

/-- The answers to lines that are heard one after the other. -/
def answersFrom : McpServer → List Heard → List Value
  | _, [] => []
  | s, heard :: later =>
      (s.handle setting heard).2.toList ++ answersFrom (s.hear setting heard) later

/-- A round is what the line changes, and the answer written out. -/
theorem hear_eq :
    s.hear setting heard =
      { (s.handle setting heard).1 with
        written := s.written ++ lines setting.format (s.handle setting heard).2.toList } := by
  have hwritten := (handled setting s heard).written
  rw [hear]
  split
  · rename_i next hhandle
    rw [hhandle] at hwritten ⊢
    simp only [Option.toList_none, lines, List.flatMap_nil, List.append_nil]
    cases next
    simp only at hwritten
    rw [hwritten]
  · rename_i next answer hhandle
    rw [hhandle] at hwritten ⊢
    have hsame : next.written = s.written := hwritten
    rw [writeJson, hsame, Option.toList_some]

/-- What is written grows by the answers. -/
theorem foldl_written (heard : List Heard) (s : McpServer) :
    (heard.foldl (hear setting) s).written =
      s.written ++ lines setting.format (answersFrom setting s heard) := by
  induction heard generalizing s with
  | nil => rw [answersFrom, lines, List.flatMap_nil, List.append_nil, List.foldl_nil]
  | cons first later ih =>
      rw [List.foldl_cons, ih, answersFrom, lines_append, hear_eq, List.append_assoc]

theorem answersFrom_append (front back : List Heard) (s : McpServer) :
    answersFrom setting s (front ++ back) =
      answersFrom setting s front ++ answersFrom setting (front.foldl (hear setting) s) back := by
  induction front generalizing s with
  | nil => rfl
  | cons first front ih =>
      rw [List.cons_append, answersFrom, ih, answersFrom, List.foldl_cons, List.append_assoc]

theorem forall₂_answersFrom (heard : List Heard) (s : McpServer) :
    List.Forall₂ AnswersTo (heard.filterMap (wanted setting)) (answersFrom setting s heard) := by
  induction heard generalizing s with
  | nil => exact .nil
  | cons first later ih =>
      have hsplit : (first :: later).filterMap (wanted setting) =
          (wanted setting first).toList ++ later.filterMap (wanted setting) := by
        rw [List.filterMap_cons]
        cases wanted setting first <;> rfl
      rw [hsplit, answersFrom]
      exact List.rel_append (handled setting s first).answers (ih _)

theorem hear_clientName :
    (s.hear setting heard).clientName = (AiSsh.introduced setting heard).getD s.clientName := by
  rw [hear_eq]
  exact (handled setting s heard).clientName

theorem hear_calls :
    (s.hear setting heard).calls =
      s.calls ++ ((requested setting heard).map (Prod.mk s.clientName)).toList := by
  rw [hear_eq]
  exact (handled setting s heard).calls

theorem hear_decoders :
    (s.hear setting heard).decoders = shownBy s.decoders (pageShown setting heard) := by
  rw [hear_eq]
  exact (handled setting s heard).decoders

theorem foldl_calls (heard : List Heard) (s : McpServer) :
    (heard.foldl (hear setting) s).calls = s.calls ++ calledFor setting s.clientName heard := by
  induction heard generalizing s with
  | nil => rw [calledFor, List.append_nil, List.foldl_nil]
  | cons first later ih =>
      rw [List.foldl_cons, ih, hear_calls, hear_clientName, calledFor, List.append_assoc]

theorem foldl_decoders (heard : List Heard) (s : McpServer) :
    (heard.foldl (hear setting) s).decoders =
      (publicPages s.decoders (heard.filterMap (pageShown setting))).1 := by
  induction heard generalizing s with
  | nil => rfl
  | cons first later ih =>
      rw [List.foldl_cons, ih, hear_decoders, List.filterMap_cons]
      cases pageShown setting first with
      | none => rfl
      | some page => rfl

end Rounds

/-- The conversation of a client with the server, from the lines that it sent. -/
structure Conversed (setting : McpSetting) (heard : List Heard) : Prop where
  answered : ∃ answers,
    readLines setting.format (serve setting heard).written = answers.map some ∧
      List.Forall₂ AnswersTo (heard.filterMap (wanted setting)) answers
  partly : ∀ part, part <+: (serve setting heard).written → ∃ n,
    readLines setting.format part =
      (readLines setting.format (serve setting heard).written).take n
  called : (serve setting heard).calls = calledFor setting start.clientName heard
  told : ∀ before line later call, heard = before ++ line :: later →
    toolAsked setting line = some call → ∃ answer,
      (readLines setting.format (serve setting heard).written)[
        (before.filterMap (wanted setting)).length]? = some (some answer) ∧
      Tells setting.format answer
        (outcome setting (decodersAfter setting before) line.around call).1
        (outcome setting (decodersAfter setting before) line.around call).2

/-- The server answers every line that asks for it, once and in order, and calls the daemon for
the tool calls that it takes, in the name of the client. A call is told what the daemon answered,
its output read on from the pages that were shown before. -/
theorem mcp_conversation (setting : McpSetting) (heard : List Heard) :
    Conversed setting heard := by
  have hwritten : (serve setting heard).written =
      lines setting.format (answersFrom setting start heard) := foldl_written setting heard start
  have hread : readLines setting.format (serve setting heard).written =
      (answersFrom setting start heard).map some := by
    rw [hwritten, readLines_lines]
  refine ⟨⟨_, hread, forall₂_answersFrom setting heard start⟩, fun part hpart => ?_,
    foldl_calls setting heard start, ?_⟩
  · rw [hwritten] at hpart
    obtain ⟨n, hpart⟩ := readLines_part setting.format hpart
    exact ⟨n, by rw [hpart, hread, List.map_take]⟩
  · rintro before line later call rfl hcall
    obtain ⟨answer, hanswer, htells⟩ :=
      (handled setting (before.foldl (hear setting) start) line).tells hcall
    rw [foldl_decoders] at htells
    refine ⟨answer, ?_, htells⟩
    have hposition := (forall₂_answersFrom setting before start).length_eq
    rw [hread, answersFrom_append, answersFrom, hanswer, List.map_append, hposition,
      List.getElem?_append_right (by simp)]
    simp

end McpServer

end Conversation

/-- JSON without spaces, and no base64. -/
def plainSetting : McpSetting where
  format := .fraction
  parse line := (Json.read readFraction line.toList).elim (.error "expected value") .ok
  base64 _ := none
  rfc3339 _ := ""
  debug text := text

/-- A request, a line that is none, and a notification. -/
def threeLines : List Heard :=
  ["\x7b\"id\":7,\"method\":\"ping\"\x7d", "ping", "\x7b\"method\":\"ping\"\x7d"].map fun line =>
    ⟨line, ⟨.ok .ack, "", none⟩⟩

example :
    (readLines plainSetting.format (McpServer.serve plainSetting threeLines).written).map
      (fun answer => ((answer.bind (Value.get · "id")).bind Value.asU64)) = [some 7, none] := by
  decide +kernel

end AiSsh
