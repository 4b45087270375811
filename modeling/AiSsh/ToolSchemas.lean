import AiSsh.Library.JsonSchema

/-!
The tools that the MCP server publishes, with the schemas of their arguments.
-/

namespace AiSsh

open Library.Json

structure Tool where
  name : String
  inputSchema : ObjectSchema
  deriving DecidableEq, Repr

namespace Tool

def object (properties : List (String × Property)) (required : List String) : ObjectSchema :=
  { properties := properties, required := required }

def string : Property := .string none

def boolean : Property := .boolean

def integer : Property := .integer none none

def detail : Property := .string (some ["compact", "full"])

def maxBytes : Property := .integer (some 1) (some 1048576)

/-- The schema of `ssh_exec_start` and of `ssh_exec_background`. -/
def execSchema : ObjectSchema :=
  object [("session_id", string), ("command", string), ("cwd", string), ("env", .strings),
    ("timeout_seconds", .integer (some 1) (some 86400))] ["session_id", "command"]

/-- The schema of `ssh_command_poll` and of `ssh_shell_read`. -/
def pageSchema (owner : String) : ObjectSchema :=
  object [(owner, string), ("after_sequence", .integer (some 0) none), ("max_bytes", maxBytes),
    ("wait_seconds", .integer (some 0) (some 300)), ("detail", detail)] [owner]

end Tool

open Tool in
def tools : List Tool :=
  [ ⟨"ssh_targets_list", object [] []⟩,
    ⟨"ssh_sessions_list", object [("include_history", boolean)] []⟩,
    ⟨"ssh_session_create", object [("target_id", string), ("purpose", string)]
      ["target_id", "purpose"]⟩,
    ⟨"ssh_session_status", object [("session_id", string)] ["session_id"]⟩,
    ⟨"ssh_session_close", object [("session_id", string)] ["session_id"]⟩,
    ⟨"ssh_exec_start", execSchema⟩,
    ⟨"ssh_exec_background", execSchema⟩,
    ⟨"ssh_command_poll", pageSchema "command_id"⟩,
    ⟨"ssh_command_cancel", object [("command_id", string)] ["command_id"]⟩,
    ⟨"ssh_commands_list", object [("session_id", string), ("include_finished", boolean),
      ("limit", .integer (some 1) (some 500))] []⟩,
    ⟨"ssh_shell_open", object [("session_id", string), ("cols", integer), ("rows", integer),
      ("term", string)] ["session_id"]⟩,
    ⟨"ssh_shell_write", object [("session_id", string), ("data_base64", string)]
      ["session_id", "data_base64"]⟩,
    ⟨"ssh_shell_read", pageSchema "session_id"⟩,
    ⟨"ssh_shell_resize", object [("session_id", string), ("cols", integer), ("rows", integer)]
      ["session_id", "cols", "rows"]⟩,
    ⟨"ssh_shell_close", object [("session_id", string)] ["session_id"]⟩,
    ⟨"ssh_file_stat", object [("session_id", string), ("remote_path", string),
      ("hash", boolean)] ["session_id", "remote_path"]⟩,
    ⟨"ssh_file_read", object [("session_id", string), ("remote_path", string),
      ("max_bytes", maxBytes), ("encoding", .string (some ["text", "base64"])),
      ("sudo", boolean), ("detail", detail)] ["session_id", "remote_path"]⟩,
    ⟨"ssh_file_write", object [("session_id", string), ("remote_path", string),
      ("content", string), ("content_base64", string), ("append", boolean),
      ("create_dirs", boolean), ("mode", integer), ("sudo", boolean), ("if_changed", boolean)]
      ["session_id", "remote_path"]⟩,
    ⟨"ssh_file_upload", object [("session_id", string), ("local_path", string),
      ("remote_path", string), ("create_dirs", boolean), ("mode", integer),
      ("verify", boolean)] ["session_id", "local_path", "remote_path"]⟩,
    ⟨"ssh_file_download", object [("session_id", string), ("remote_path", string),
      ("local_path", string), ("overwrite", boolean), ("create_dirs", boolean),
      ("verify", boolean)] ["session_id", "remote_path", "local_path"]⟩,
    ⟨"ssh_file_mkdir", object [("session_id", string), ("remote_path", string),
      ("parents", boolean), ("mode", integer)] ["session_id", "remote_path"]⟩ ]

/-- The schema that is published under a name. -/
def schemaOf (name : String) : Option ObjectSchema :=
  (tools.find? fun tool => tool.name == name).map Tool.inputSchema

end AiSsh
