import AiSsh.PublicJson
import AiSsh.ToolRequest

/-!
The arguments of a tool call beside those of its request, and the tools as the MCP server lists
them. The list names a default for many members; a call that leaves such a member out is the
call that gives the default.
-/

namespace AiSsh

open Library.Json

/-- Why a tool call is not taken. `shaping` is for a member that shapes the answer and is none
of the two texts it may be. -/
inductive ToolCallError
  | shaping (key first second other : String)
  | argument (error : ArgumentError)
  deriving DecidableEq, Repr

/-- The text of an error; `debug` is a text as `{:?}` prints it. -/
def ToolCallError.message (debug : String → String) : ToolCallError → String
  | shaping key first second other =>
      key ++ " must be \"" ++ first ++ "\" or \"" ++ second ++ "\", got " ++ debug other
  | argument (.text message) => message
  | argument (.unknownTool name) => "unknown tool " ++ debug name

/-- A member that is one of two texts, and the first of them when it is no text. -/
def choiceArg {α : Type} (args : Arguments) (key first second : String) (ifFirst ifSecond : α) :
    Except ToolCallError α :=
  match (args.get key).bind Value.asStr with
  | none => .ok ifFirst
  | some other =>
      if other = first then .ok ifFirst
      else if other = second then .ok ifSecond
      else .error (.shaping key first second other)

def Detail.parse (args : Arguments) : Except ToolCallError Detail :=
  choiceArg args "detail" "compact" "full" .compact .full

def Encoding.parse (args : Arguments) : Except ToolCallError Encoding :=
  choiceArg args "encoding" "text" "base64" .text .base64

def Shaping.parse (args : Arguments) : Except ToolCallError Shaping := do
  let detail ← Detail.parse args
  let encoding ← Encoding.parse args
  pure ⟨detail, encoding, afterSequenceArg args⟩

/-- The arguments of a `tools/call`, as it reads them. -/
def toolCall (base64 : String → Option Bytes) (name : String) (args : Arguments) :
    Except ToolCallError (Shaping × Request) :=
  match Shaping.parse args with
  | .error error => .error error
  | .ok shaping =>
      match toolRequest base64 name args with
      | .error error => .error (.argument error)
      | .ok request => .ok (shaping, request)

/-- What the list says of a tool besides its schema: a description, and notes to members. -/
structure Publication where
  name : String
  description : String
  notes : List (String × String × Value)

namespace Publication

def default (key : String) (value : Value) : String × String × Value := (key, "default", value)

def octal (sample : String) : String × String × Value :=
  ("mode", "description", .string ("octal permissions, e.g. " ++ sample))

/-- The notes of `ssh_command_poll` and of `ssh_shell_read`. -/
def pageNotes (waitSeconds : Nat) : List (String × String × Value) :=
  [default "after_sequence" (u64Value 0), default "max_bytes" (u64Value 65536),
    default "wait_seconds" (u64Value waitSeconds), default "detail" (.string "compact")]

end Publication

open Publication in
def publications : List Publication :=
  [ ⟨"ssh_targets_list", "List configured SSH targets. Credentials are never returned.", []⟩,
    ⟨"ssh_sessions_list",
      "List daemon-owned SSH sessions; sessions survive this MCP process.",
      [default "include_history" (.bool false)]⟩,
    ⟨"ssh_session_create", "Create and authenticate a logical SSH session.", []⟩,
    ⟨"ssh_session_status", "Get a session's state and active command.", []⟩,
    ⟨"ssh_session_close", "Close a session and its SSH connection.", []⟩,
    ⟨"ssh_exec_start",
      "Start a non-interactive command. Prefer this for ordinary commands. Use a PTY only for " ++
        "persistent cwd/env, prompts, or full-screen programs. Login credentials are never " ++
        "supplied to sudo or remote prompts. A dropped transport marks the command interrupted " ++
        "rather than failed, with a warning saying whether the remote process is known to have " ++
        "started.", []⟩,
    ⟨"ssh_exec_background",
      "Start a non-interactive background command without occupying the session foreground. " ++
        "Returns a command_id for ssh_command_poll and ssh_command_cancel; the default timeout " ++
        "is 24 hours.", []⟩,
    ⟨"ssh_command_poll",
      "Read command output starting after a session-scoped sequence number. Blocks up to " ++
        "wait_seconds for new output instead of returning an empty page, so a quiet build does " ++
        "not need a client-side sleep loop; progress.seconds_since_last_output and " ++
        "progress.timed_out tell you whether it is working or stalled. Continue until " ++
        "poll_complete is true. Responses report the three truncation levels separately in " ++
        "`truncation`.", pageNotes 30⟩,
    ⟨"ssh_command_cancel", "Cancel a running exec command.", []⟩,
    ⟨"ssh_commands_list",
      "List commands across sessions, newest first, so concurrent long tasks are visible in " ++
        "one call. Defaults to running commands only. Pair with ssh_command_cancel.",
      [default "include_finished" (.bool false), default "limit" (u64Value 50)]⟩,
    ⟨"ssh_shell_open", "Open an interactive PTY only when exec cannot satisfy the task.",
      [default "cols" (u64Value 120), default "rows" (u64Value 32),
        default "term" (.string "xterm-256color")]⟩,
    ⟨"ssh_shell_write", "Write base64-encoded bytes to an open PTY.", []⟩,
    ⟨"ssh_shell_read",
      "Read raw ANSI PTY output after a sequence number, optionally blocking up to " ++
        "wait_seconds for it.", pageNotes 0⟩,
    ⟨"ssh_shell_resize", "Resize the remote PTY. The observer window never resizes it.", []⟩,
    ⟨"ssh_shell_close", "Close an open PTY without closing the SSH session.", []⟩,
    ⟨"ssh_file_stat",
      "Stat a remote path via SFTP. Follows symlinks. Set hash=true to also compute the remote " ++
        "SHA-256.", [default "hash" (.bool false)]⟩,
    ⟨"ssh_file_read",
      "Read a remote file with truncation and encoding handled for you: no shell quoting, and " ++
        "no base64 round trip unless you ask. Returns text when the bytes are UTF-8, otherwise " ++
        "base64. Use sudo=true for paths the login user cannot open, such as /var/lib/docker " ++
        "volumes.",
      [default "max_bytes" (u64Value 65536), default "encoding" (.string "text"),
        default "sudo" (.bool false), default "detail" (.string "compact")]⟩,
    ⟨"ssh_file_write",
      "Write a remote file from content or content_base64. The bytes land at a staged path " ++
        "first and are moved into place only after a remote SHA-256 confirms them, so a partial " ++
        "or mangled write cannot appear at the destination. Set if_changed=true to skip an " ++
        "identical write, and sudo=true for root-owned paths.",
      [default "append" (.bool false), default "create_dirs" (.bool false),
        octal "420 for 0644", default "sudo" (.bool false), default "if_changed" (.bool false)]⟩,
    ⟨"ssh_file_upload",
      "Upload a local file over SFTP, verifying it against a remote SHA-256 before it replaces " ++
        "the destination. Use this instead of piping base64 through a heredoc. local_path must " ++
        "be absolute or start with ~, and refers to this machine.",
      [default "create_dirs" (.bool false), octal "420 for 0644",
        default "verify" (.bool true)]⟩,
    ⟨"ssh_file_download",
      "Download a remote file over SFTP to an absolute local path, verified, staged, and " ++
        "renamed into place so a failure never leaves a partial file. Refuses to replace an " ++
        "existing path unless overwrite=true.",
      [default "overwrite" (.bool false), default "create_dirs" (.bool false),
        default "verify" (.bool true)]⟩,
    ⟨"ssh_file_mkdir", "Create a remote directory, optionally including missing parents.",
      [default "parents" (.bool true), octal "493 for 0755"]⟩ ]

def publicationOf (name : String) : Option Publication :=
  publications.find? fun publication => publication.name == name

/-- The defaults among the notes to the members of a tool. -/
def noteDefaults (notes : List (String × String × Value)) : List (String × Value) :=
  (notes.filter fun note => note.2.1 == "default").map fun note => (note.1, note.2.2)

/-- The defaults that are listed for the members of a tool. -/
def defaultsOf (name : String) : List (String × Value) :=
  match publicationOf name with
  | none => []
  | some publication => noteDefaults publication.notes

section Listing

def intValue : Int → Value
  | .ofNat n => u64Value n
  | .negSucc n => .number (.negInt n)

def propertyObject : Property → Object
  | .string none => Object.of [("type", .string "string")]
  | .string (some among) =>
      Object.of [("type", .string "string"), ("enum", .array (among.map .string))]
  | .boolean => Object.of [("type", .string "boolean")]
  | .integer minimum maximum =>
      Object.of ([("type", .string "integer")] ++
        (minimum.map fun bound => ("minimum", intValue bound)).toList ++
        (maximum.map fun bound => ("maximum", intValue bound)).toList)
  | .strings =>
      Object.of [("type", .string "object"),
        ("additionalProperties", (Object.of [("type", .string "string")]).toValue)]

/-- A property as the list shows it, with the notes to it. -/
def shownProperty (notes : List (String × String × Value)) (key : String) (property : Property) :
    Value :=
  ((notes.filter fun note => note.1 == key).foldl
    (fun object note => object.insert note.2.1 note.2.2) (propertyObject property)).toValue

/-- The schema of a tool as the list shows it. -/
def inputSchemaValue (schema : ObjectSchema) (notes : List (String × String × Value)) : Value :=
  let properties := Object.of (schema.properties.map fun member =>
    (member.1, shownProperty notes member.1 member.2))
  let required := if schema.required = [] then [] else
    [("required", Value.array (schema.required.map .string))]
  (Object.of ([("type", .string "object"), ("properties", properties.toValue)] ++ required ++
    [("additionalProperties", .bool false)])).toValue

/-- What the list says of a tool. -/
def Tool.publication (tool : Tool) : Publication :=
  (publicationOf tool.name).getD ⟨tool.name, "", []⟩

def Tool.value (tool : Tool) : Value :=
  (Object.of [("name", .string tool.name), ("description", .string tool.publication.description),
    ("inputSchema", inputSchemaValue tool.inputSchema tool.publication.notes)]).toValue

/-- What `tools/list` answers. -/
def toolsValue : Value := .array (tools.map Tool.value)

/-- The default of a member, as the list shows it. -/
def shownDefault (tool : Tool) (key : String) : Option Value :=
  (((tool.value.get "inputSchema").bind (Value.get · "properties")).bind (Value.get · key)).bind
    (Value.get · "default")

theorem get_foldl_notes (notes : List (String × String × Value)) (object : Object) (key : String) :
    (notes.foldl (fun object note => object.insert note.2.1 note.2.2) object).get key =
      ((notes.map Prod.snd).reverse.lookup key).or (object.get key) := by
  induction notes using List.reverseRecOn with
  | nil => rfl
  | append_singleton notes note ih =>
      rw [List.foldl_concat, Object.get_insert, ih, List.map_append, List.map_singleton,
        List.reverse_concat, List.lookup_cons]
      by_cases hkey : key = note.2.1
      · simp [hkey]
      · simp [hkey, beq_eq_false_iff_ne.mpr hkey]

theorem propertyObject_default (property : Property) :
    (propertyObject property).get "default" = none := by
  cases property with
  | string among => cases among <;> simp [propertyObject, Object.get_of, List.lookup_cons]
  | boolean => simp [propertyObject, Object.get_of, List.lookup_cons]
  | integer minimum maximum =>
      cases minimum <;> cases maximum <;> simp [propertyObject, Object.get_of, List.lookup_cons]
  | strings => simp [propertyObject, Object.get_of, List.lookup_cons]

/-- Of names that are told apart the last is the first. -/
theorem lookup_reverse {α : Type} {members : List (String × α)} (key : String)
    (h : (members.map Prod.fst).Nodup) : members.reverse.lookup key = members.lookup key := by
  induction members with
  | nil => rfl
  | cons member members ih =>
      obtain ⟨name, value⟩ := member
      rw [List.map_cons, List.nodup_cons] at h
      rw [List.reverse_cons, List.lookup_append, ih h.2, List.lookup_cons, List.lookup_cons]
      by_cases hkey : key = name
      · subst hkey
        have hnone : members.lookup key = none := by
          refine List.lookup_eq_none_iff.mpr fun member hmember => ?_
          exact bne_iff_ne.mpr fun hsame => h.1 (List.mem_map.mpr ⟨member, hmember, hsame.symm⟩)
        simp [hnone]
      · simp [beq_eq_false_iff_ne.mpr hkey]

/-- The notes to a tool name members of its schema, each with one default at most. -/
structure NotesFit (schema : ObjectSchema) (notes : List (String × String × Value)) : Prop where
  distinct : (schema.properties.map Prod.fst).Nodup
  once : (notes.map fun note => (note.1, note.2.1)).Nodup
  known : ∀ note ∈ notes, note.1 ∈ schema.properties.map Prod.fst

theorem lookup_noteDefaults (notes : List (String × String × Value)) (key : String) :
    (noteDefaults notes).lookup key =
      ((notes.filter fun note => note.1 == key).map Prod.snd).lookup "default" := by
  induction notes with
  | nil => rfl
  | cons note notes ih =>
      obtain ⟨name, kind, value⟩ := note
      rw [noteDefaults] at ih ⊢
      by_cases hname : name = key
      · by_cases hkind : kind = "default"
        · simp [hname, hkind]
        · simp [hname, hkind, List.lookup_cons, ih, beq_eq_false_iff_ne.mpr (Ne.symm hkind)]
      · by_cases hkind : kind = "default"
        · simp [hname, hkind, List.lookup_cons, ih, beq_eq_false_iff_ne.mpr (Ne.symm hname)]
        · simp [hname, hkind, ih]

theorem NotesFit.noteDefaults {schema : ObjectSchema} {notes : List (String × String × Value)}
    (h : NotesFit schema notes) {key : String} (hkey : key ∉ schema.properties.map Prod.fst) :
    (noteDefaults notes).lookup key = none := by
  refine List.lookup_eq_none_iff.mpr fun member hmember => bne_iff_ne.mpr ?_
  rintro rfl
  obtain ⟨note, hnote, rfl⟩ := List.mem_map.mp hmember
  exact hkey (h.known note (List.mem_of_mem_filter hnote))

theorem lookup_map {α β : Type} (members : List (String × α)) (f : String → α → β) (key : String) :
    (members.map fun member => (member.1, f member.1 member.2)).lookup key =
      (members.lookup key).map (f key) := by
  induction members with
  | nil => rfl
  | cons member members ih =>
      rw [List.map_cons, List.lookup_cons, List.lookup_cons, ih]
      by_cases hkey : key = member.1
      · simp [hkey]
      · simp [beq_eq_false_iff_ne.mpr hkey]

theorem shownProperty_default {notes : List (String × String × Value)}
    (h : (notes.map fun note => (note.1, note.2.1)).Nodup) (key : String) (property : Property) :
    (shownProperty notes key property).get "default" = (noteDefaults notes).lookup key := by
  have honce : (((notes.filter fun note => note.1 == key).map Prod.snd).map Prod.fst).Nodup := by
    have hfilter := (List.filter_sublist (p := fun note => note.1 == key) (l := notes)).map
      (fun note => (note.1, note.2.1))
    rw [List.map_map]
    refine List.Nodup.of_map (fun kind => (key, kind)) ?_
    rw [List.map_map]
    have hsame : (notes.filter fun note => note.1 == key).map
        ((fun kind => (key, kind)) ∘ Prod.fst ∘ Prod.snd) =
        (notes.filter fun note => note.1 == key).map fun note => (note.1, note.2.1) := by
      refine List.map_congr_left fun note hnote => ?_
      have hname : note.1 = key := by simpa using List.of_mem_filter hnote
      simp [hname]
    rw [hsame]
    exact hfilter.nodup h
  rw [shownProperty, Object.get_toValue, get_foldl_notes, propertyObject_default, Option.or_none,
    lookup_reverse _ honce, lookup_noteDefaults]

theorem get_properties (schema : ObjectSchema) (notes : List (String × String × Value)) :
    (inputSchemaValue schema notes).get "properties" =
      some (Object.of (schema.properties.map fun member =>
        (member.1, shownProperty notes member.1 member.2))).toValue := by
  rw [inputSchemaValue, Object.get_toValue, Object.get_of]
  split <;> simp [List.lookup_cons]

/-- The list shows the defaults that its notes name. -/
theorem NotesFit.shown {schema : ObjectSchema} {notes : List (String × String × Value)}
    (h : NotesFit schema notes) (key : String) :
    (((inputSchemaValue schema notes).get "properties").bind (Value.get · key)).bind
      (Value.get · "default") = (AiSsh.noteDefaults notes).lookup key := by
  have hdistinct : ((schema.properties.map fun member =>
      (member.1, shownProperty notes member.1 member.2)).map Prod.fst).Nodup := by
    rw [List.map_map]
    exact h.distinct
  rw [get_properties, Option.bind_some, Object.get_toValue, Object.get_of,
    lookup_reverse _ hdistinct, lookup_map]
  cases hfound : schema.properties.lookup key with
  | none =>
      refine (h.noteDefaults fun hkey => ?_).symm
      obtain ⟨member, hmember, rfl⟩ := List.mem_map.mp hkey
      exact bne_iff_ne.mp (List.lookup_eq_none_iff.mp hfound member hmember) rfl
  | some property => exact shownProperty_default h.once key property

theorem notesFit : ∀ tool ∈ tools, NotesFit tool.inputSchema tool.publication.notes := by
  simp only [tools, List.forall_mem_cons]
  repeat' apply And.intro
  all_goals first
    | exact List.forall_mem_nil _
    | exact ⟨by decide, by decide, by decide⟩

theorem shownDefault_eq {tool : Tool} (h : tool ∈ tools) (key : String) :
    shownDefault tool key = (defaultsOf tool.name).lookup key := by
  have hschema : tool.value.get "inputSchema" =
      some (inputSchemaValue tool.inputSchema tool.publication.notes) := by
    simp [Tool.value, Object.get_of]
  have hdefaults : defaultsOf tool.name = noteDefaults tool.publication.notes := by
    rw [defaultsOf, Tool.publication]
    cases publicationOf tool.name with
    | none => rfl
    | some publication => rfl
  rw [shownDefault, hschema, Option.bind_some, (notesFit tool h).shown key, hdefaults]

end Listing

section Defaults

/-- The arguments with a default for a member that they leave out. -/
def withDefault (args : Arguments) (note : String × Value) : Arguments :=
  if (args.get note.1).isSome then args else args.insert note.1 note.2

def withDefaults (name : String) (args : Arguments) : Arguments :=
  (defaultsOf name).foldl withDefault args

theorem get_withDefault (args : Arguments) (note : String × Value) (key : String) :
    (withDefault args note).get key =
      (args.get key).or (if key = note.1 then some note.2 else none) := by
  rw [withDefault]
  by_cases hkey : key = note.1
  · subst hkey
    cases hget : args.get note.1 with
    | none => simp
    | some value => simp [hget]
  · rw [if_neg hkey, Option.or_none]
    split
    · rfl
    · rw [Object.get_insert, if_neg hkey]

theorem get_foldl_withDefault (notes : List (String × Value)) (args : Arguments) (key : String) :
    (notes.foldl withDefault args).get key = (args.get key).or (notes.lookup key) := by
  induction notes generalizing args with
  | nil => simp
  | cons note notes ih =>
      obtain ⟨name, value⟩ := note
      rw [List.foldl_cons, ih, get_withDefault, Option.or_assoc, List.lookup_cons]
      congr 1
      by_cases hkey : key = name
      · simp [hkey]
      · simp [hkey, beq_eq_false_iff_ne.mpr hkey]

theorem get_withDefaults (name : String) (args : Arguments) (key : String) :
    (withDefaults name args).get key = (args.get key).or ((defaultsOf name).lookup key) :=
  get_foldl_withDefault _ _ _

/-- A reader that does not see whether a default is given. -/
def Blind {α : Type} (name : String) (read : Arguments → α) : Prop :=
  ∀ args, read (withDefaults name args) = read args

section Readers

variable {name key : String} (args : Arguments)

theorem get_unlisted (h : (defaultsOf name).lookup key = none) :
    (withDefaults name args).get key = args.get key := by
  rw [get_withDefaults, h, Option.or_none]

/-- What reads the listed default from a member as it reads it from none. -/
theorem read_listed {α : Type} {value : Value} {read : Value → Option α} {default : α}
    (h : (defaultsOf name).lookup key = some value) (hread : read value = some default) :
    (((withDefaults name args).get key).bind read).getD default =
      ((args.get key).bind read).getD default := by
  rw [get_withDefaults, h]
  cases args.get key with
  | none => simp [hread]
  | some given => rfl

theorem flag_listed {default : Bool} (h : (defaultsOf name).lookup key = some (.bool default)) :
    flag (withDefaults name args) key default = flag args key default :=
  read_listed args h rfl

theorem asU64_u64Value {n : Nat} (h : n < 2 ^ 64) : (u64Value n).asU64 = some n := by
  simp only [u64Value, Value.asU64, UInt64.toNat_ofNat', Nat.mod_eq_of_lt h]

theorem u64_listed {default : Nat} (h : (defaultsOf name).lookup key = some (u64Value default))
    (hsize : default < 2 ^ 64) :
    (u64Arg (withDefaults name args) key).getD default = (u64Arg args key).getD default :=
  read_listed args h (asU64_u64Value hsize)

theorem u32_listed {default : Nat} (h : (defaultsOf name).lookup key = some (u64Value default))
    (hsize : default < 2 ^ 32) :
    u32Arg (withDefaults name args) key (UInt32.ofNat default) =
      u32Arg args key (UInt32.ofNat default) := by
  have hread : (u64Value default).asU64.bind toU32 = some (UInt32.ofNat default) := by
    simp only [asU64_u64Value (Nat.lt_trans hsize (by decide)), Option.bind_some, toU32, hsize,
      if_true]
  rw [u32Arg, Option.bind_assoc, u32Arg, Option.bind_assoc]
  exact read_listed args h hread

theorem required_unlisted (h : (defaultsOf name).lookup key = none) :
    Blind name fun args => requiredString args key := fun args => by
  simp only [requiredString, get_unlisted args h]

theorem optional_unlisted (h : (defaultsOf name).lookup key = none) :
    Blind name fun args => optionalString args key := fun args => by
  simp only [optionalString, get_unlisted args h]

theorem mode_unlisted (h : (defaultsOf name).lookup "mode" = none) : Blind name modeArg :=
  fun args => by simp only [modeArg, u64Arg, get_unlisted args h]

theorem content_unlisted (base64 : String → Option Bytes)
    (htext : (defaultsOf name).lookup "content" = none)
    (hencoded : (defaultsOf name).lookup "content_base64" = none) :
    Blind name (contentBytes base64) := fun args => by
  simp only [contentBytes, get_unlisted args htext, get_unlisted args hencoded]

theorem choice_listed {α : Type} {first second : String} {ifFirst ifSecond : α}
    (h : (defaultsOf name).lookup key = none ∨
      (defaultsOf name).lookup key = some (.string first)) :
    choiceArg (withDefaults name args) key first second ifFirst ifSecond =
      choiceArg args key first second ifFirst ifSecond := by
  cases h with
  | inl hnone => simp only [choiceArg, get_unlisted args hnone]
  | inr hfirst =>
      rw [choiceArg, get_withDefaults, hfirst, choiceArg]
      cases args.get key with
      | none => simp [Value.asStr]
      | some given => rfl

theorem Blind.bind {α β : Type} {read : Arguments → Reading α} {next : α → Arguments → Reading β}
    (h : Blind name read) (hnext : ∀ a, Blind name (next a)) :
    Blind name fun args => read args >>= fun a => next a args := fun args => by
  simp only [h args]
  exact congrArg (read args >>= ·) (funext fun a => hnext a args)

theorem Blind.value {α : Type} {read : Arguments → α} (h : Blind name read) :
    Blind name fun args => (pure (read args) : Reading α) := fun args =>
  congrArg pure (h args)

end Readers

/-- The request of a tool does not depend on whether its defaults are given. -/
abbrev BlindRequest (base64 : String → Option Bytes) (name : String) : Prop :=
  Blind name (toolRequest base64 name)

namespace BlindRequest

variable (base64 : String → Option Bytes)

theorem sessionsList : BlindRequest base64 "ssh_sessions_list" :=
  Blind.value fun args => by rw [flag_listed args rfl]

theorem commandPoll : BlindRequest base64 "ssh_command_poll" := by
  refine Blind.bind (required_unlisted rfl) fun commandId => Blind.value fun args => ?_
  simp only [afterSequenceArg, maxBytesArg, waitSecondsArg, defaultPollWaitSeconds]
  rw [u64_listed args rfl (by decide), u64_listed args rfl (by decide),
    u64_listed args rfl (by decide)]

theorem commandsList : BlindRequest base64 "ssh_commands_list" := by
  refine Blind.bind (optional_unlisted rfl) fun sessionId => Blind.value fun args => ?_
  simp only [commandsLimit]
  rw [flag_listed args rfl, u64_listed args rfl (by decide)]

/-- A terminal that is not named is the listed one. -/
theorem term_listed (args : Arguments) :
    (optionalString (withDefaults "ssh_shell_open" args) "term").map (·.getD "xterm-256color") =
      (optionalString args "term").map (·.getD "xterm-256color") := by
  have hterm : (defaultsOf "ssh_shell_open").lookup "term" = some (.string "xterm-256color") := rfl
  rw [optionalString, get_withDefaults, hterm, optionalString]
  cases args.get "term" with
  | none => rfl
  | some given => rfl

theorem shellOpen : BlindRequest base64 "ssh_shell_open" := by
  refine Blind.bind (required_unlisted rfl) fun sessionId => fun args => ?_
  have hterm := term_listed args
  have hcols : u32Arg (withDefaults "ssh_shell_open" args) "cols" 120 = u32Arg args "cols" 120 :=
    u32_listed args rfl (by decide)
  have hrows : u32Arg (withDefaults "ssh_shell_open" args) "rows" 32 = u32Arg args "rows" 32 :=
    u32_listed args rfl (by decide)
  simp only [hcols, hrows]
  cases hfilled : optionalString (withDefaults "ssh_shell_open" args) "term" with
  | error error =>
      rw [hfilled] at hterm
      cases hgiven : optionalString args "term" with
      | error other =>
          rw [hgiven] at hterm
          cases hterm
          rfl
      | ok term =>
          rw [hgiven] at hterm
          cases hterm
  | ok term =>
      rw [hfilled] at hterm
      cases hgiven : optionalString args "term" with
      | error other =>
          rw [hgiven] at hterm
          cases hterm
      | ok other =>
          rw [hgiven] at hterm
          have hsame : term.getD "xterm-256color" = other.getD "xterm-256color" :=
            Except.ok.inj hterm
          simp only [Bind.bind, Except.bind, hsame]

theorem shellRead : BlindRequest base64 "ssh_shell_read" := by
  refine Blind.bind (required_unlisted rfl) fun sessionId => Blind.value fun args => ?_
  simp only [afterSequenceArg, maxBytesArg, waitSecondsArg]
  rw [u64_listed args rfl (by decide), u64_listed args rfl (by decide),
    u64_listed args rfl (by decide)]

theorem fileStat : BlindRequest base64 "ssh_file_stat" := by
  refine Blind.bind (required_unlisted rfl) fun sessionId => ?_
  refine Blind.bind (required_unlisted rfl) fun remotePath => Blind.value fun args => ?_
  rw [flag_listed args rfl]

theorem fileRead : BlindRequest base64 "ssh_file_read" := by
  refine Blind.bind (required_unlisted rfl) fun sessionId => ?_
  refine Blind.bind (required_unlisted rfl) fun remotePath => Blind.value fun args => ?_
  simp only [maxBytesArg]
  rw [u64_listed args rfl (by decide), flag_listed args rfl]

theorem fileWrite : BlindRequest base64 "ssh_file_write" := by
  refine Blind.bind (required_unlisted rfl) fun sessionId => ?_
  refine Blind.bind (required_unlisted rfl) fun remotePath => ?_
  refine Blind.bind (content_unlisted base64 rfl rfl) fun data => ?_
  refine Blind.bind (mode_unlisted rfl) fun mode => Blind.value fun args => ?_
  rw [flag_listed args rfl, flag_listed args rfl, flag_listed args rfl, flag_listed args rfl]

theorem fileUpload : BlindRequest base64 "ssh_file_upload" := by
  refine Blind.bind (required_unlisted rfl) fun sessionId => ?_
  refine Blind.bind (required_unlisted rfl) fun localPath => ?_
  refine Blind.bind (required_unlisted rfl) fun remotePath => ?_
  refine Blind.bind (mode_unlisted rfl) fun mode => Blind.value fun args => ?_
  rw [flag_listed args rfl, flag_listed args rfl]

theorem fileDownload : BlindRequest base64 "ssh_file_download" := by
  refine Blind.bind (required_unlisted rfl) fun sessionId => ?_
  refine Blind.bind (required_unlisted rfl) fun remotePath => ?_
  refine Blind.bind (required_unlisted rfl) fun localPath => Blind.value fun args => ?_
  rw [flag_listed args rfl, flag_listed args rfl, flag_listed args rfl]

theorem fileMkdir : BlindRequest base64 "ssh_file_mkdir" := by
  refine Blind.bind (required_unlisted rfl) fun sessionId => ?_
  refine Blind.bind (required_unlisted rfl) fun remotePath => ?_
  refine Blind.bind (mode_unlisted rfl) fun mode => Blind.value fun args => ?_
  rw [flag_listed args rfl]

end BlindRequest

/-- What the list says of the members that shape the answer. -/
structure ListsShaping (name : String) : Prop where
  detail : (defaultsOf name).lookup "detail" = none ∨
    (defaultsOf name).lookup "detail" = some (.string "compact")
  encoding : (defaultsOf name).lookup "encoding" = none ∨
    (defaultsOf name).lookup "encoding" = some (.string "text")
  after : (defaultsOf name).lookup "after_sequence" = none ∨
    (defaultsOf name).lookup "after_sequence" = some (u64Value 0)

theorem ListsShaping.blind {name : String} (h : ListsShaping name) :
    Blind name Shaping.parse := fun args => by
  have hdetail : Detail.parse (withDefaults name args) = Detail.parse args :=
    choice_listed args h.detail
  have hencoding : Encoding.parse (withDefaults name args) = Encoding.parse args :=
    choice_listed args h.encoding
  have hafter : afterSequenceArg (withDefaults name args) = afterSequenceArg args := by
    cases h.after with
    | inl hnone => simp only [afterSequenceArg, u64Arg, get_unlisted args hnone]
    | inr hzero => exact u64_listed args hzero (by decide)
  rw [Shaping.parse, hdetail, hencoding, hafter, Shaping.parse]

/-- What holds of every tool of the list, and of a tool without defaults, holds of every name. -/
theorem forall_names {P : String → Prop} (hnone : ∀ name, defaultsOf name = [] → P name)
    (hlisted : ∀ publication ∈ publications, P publication.name) (name : String) : P name := by
  cases hfound : publicationOf name with
  | none =>
      refine hnone name ?_
      rw [defaultsOf, hfound]
  | some publication =>
      have hname : publication.name = name := by
        simpa using List.find?_some hfound
      exact hname ▸ hlisted publication (List.mem_of_find?_eq_some hfound)

theorem blind_of_no_defaults {α : Type} {name : String} (h : defaultsOf name = [])
    (read : Arguments → α) : Blind name read := fun args => by
  rw [withDefaults, h, List.foldl_nil]

theorem blindRequest (base64 : String → Option Bytes) (name : String) :
    BlindRequest base64 name := by
  refine forall_names (fun name hnone => blind_of_no_defaults hnone _) ?_ name
  simp only [publications, List.forall_mem_cons]
  exact ⟨fun _ => rfl, BlindRequest.sessionsList base64, fun _ => rfl, fun _ => rfl, fun _ => rfl,
    fun _ => rfl, fun _ => rfl, BlindRequest.commandPoll base64, fun _ => rfl,
    BlindRequest.commandsList base64, BlindRequest.shellOpen base64, fun _ => rfl,
    BlindRequest.shellRead base64, fun _ => rfl, fun _ => rfl, BlindRequest.fileStat base64,
    BlindRequest.fileRead base64, BlindRequest.fileWrite base64, BlindRequest.fileUpload base64,
    BlindRequest.fileDownload base64, BlindRequest.fileMkdir base64, List.forall_mem_nil _⟩

theorem listsShaping (name : String) : ListsShaping name := by
  refine forall_names (fun name hnone => ?_) ?_ name
  · have hlookup (key : String) : (defaultsOf name).lookup key = none := by
      rw [hnone, List.lookup_nil]
    exact ⟨.inl (hlookup _), .inl (hlookup _), .inl (hlookup _)⟩
  · simp only [publications, List.forall_mem_cons]
    repeat' apply And.intro
    -- most tools list none of the three, the pages two of them, and a file two others
    all_goals first
      | exact List.forall_mem_nil _
      | exact ⟨.inl rfl, .inl rfl, .inl rfl⟩
      | exact ⟨.inr rfl, .inl rfl, .inr rfl⟩
      | exact ⟨.inr rfl, .inr rfl, .inl rfl⟩

/-- A default that the list shows is what the call takes when the member is left out: whatever
the tool and the arguments, giving the listed defaults changes neither the request nor the shape
of the answer. -/
theorem listed_defaults_hold (base64 : String → Option Bytes) (args : Arguments) :
    (∀ tool ∈ tools, ∀ key, shownDefault tool key = (defaultsOf tool.name).lookup key) ∧
      ∀ name, toolCall base64 name (withDefaults name args) = toolCall base64 name args := by
  refine ⟨fun tool htool key => shownDefault_eq htool key, fun name => ?_⟩
  rw [toolCall, (listsShaping name).blind args, blindRequest base64 name args, toolCall]

end Defaults

end AiSsh
