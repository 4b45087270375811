import AiSsh.Transfer

/-!
Writing a remote file from memory. Over SFTP an append is folded into a staged
rewrite of the whole file; a privileged append streams the new bytes into `tee` and
compares digests afterwards.
-/

namespace AiSsh

open Library Program

abbrev FileCall : Type → Type := Program HostOp HostOp.Reply ErrorPayload

/-- The largest file that is appended to in place. -/
def appendReadLimit : Nat := 8 * 1024 * 1024

/-- The white space of Unicode. -/
def isWhitespace (c : Char) : Bool :=
  (9 ≤ c.toNat && c.toNat ≤ 13) || (0x2000 ≤ c.toNat && c.toNat ≤ 0x200a) ||
    [0x20, 0x85, 0xa0, 0x1680, 0x2028, 0x2029, 0x202f, 0x205f, 0x3000].contains c.toNat

def trim (text : String) : String :=
  .ofList ((text.toList.dropWhile isWhitespace).rdropWhile isWhitespace)

/-- The first of the words of `split_whitespace`. -/
def firstWord (text : String) : Option String :=
  match (text.toList.dropWhile isWhitespace).takeWhile fun c => !isWhitespace c with
  | [] => none
  | word => some (.ofList word)

def toAsciiLowercase (text : String) : String := .ofList (text.toList.map Char.toLower)

/-- The digest at the start of a line of `sha256sum`. -/
def parseDigest (text : String) : Option String :=
  ((firstWord text).filter fun digest => digest.utf8ByteSize == 64).map toAsciiLowercase

/-- What stands before and after the first `": "`. -/
def splitOnce : List Char → Option (List Char × List Char)
  | ':' :: ' ' :: detail => some ([], detail)
  | c :: rest => (splitOnce rest).map fun (code, detail) => (c :: code, detail)
  | [] => none

/-- Takes the stable code off the front of an error text. -/
def classifyError (message : String) : ErrorPayload :=
  match splitOnce message.toList with
  | some (code, detail) =>
      if code.all fun c => c.isUpper || c == '_' then .new (.ofList code) (.ofList detail)
      else (ErrorPayload.new "SSH_ERROR" message).withRetry
  | none => (ErrorPayload.new "SSH_ERROR" message).withRetry

def exitText : Option UInt32 → String
  | some exit => "Some(" ++ toString exit.toNat ++ ")"
  | none => "None"

/-- The output of a command that has exited with zero. -/
def checkExit (what : String) (output : ExecOutput) : FileCall (Option String) :=
  if output.exit = some 0 then .done output.stdout
  else
    let detail := trim output.stderr
    .fail (.new "REMOTE_COMMAND_FAILED"
      (if detail = "" then what ++ " exited with " ++ exitText output.exit else detail))

def execHelper (command : RemoteCommand) : FileCall (Option String) := do
  let output ← .ask (.exec command []) .ofExcept
  checkExit "helper command" output

/-- The SHA-256 of a remote file, or `none` when the host does not tell it. -/
def remoteSha256 {ε : Type} (path : String) (useSudo : Bool) :
    Program HostOp HostOp.Reply ε (Option String) :=
  (do let output ← execHelper (.sha256 path useSudo)
      return output.bind parseDigest).handle fun _ => .done none

def execRemoteHash : RemoteHash := fun path => remoteSha256 path false

/-- A privileged write by streaming the raw bytes into `tee`. -/
def sudoWrite (path : String) (data : Bytes) (append : Bool) : FileCall Unit := do
  let output ← .ask (.exec (.tee path append) data) .ofExcept
  let _ ← checkExit "privileged write" output

def sudoMakeDir (path : String) : FileCall Unit := do
  let _ ← execHelper (.makeDir path)

def sudoChmod (path : String) (mode : Nat) : FileCall Unit := do
  let _ ← execHelper (.chmod path mode)

def toFileOutcome (path : String) (outcome : TransferOutcome) (mode : Option Nat)
    (path' : Option LocalPath) : FileOutcome where
  path := path
  bytes := outcome.bytes
  sha256 := some outcome.sha256
  verified := outcome.verified
  changed := outcome.changed
  mode := mode
  localPath := path'.map LocalPath.display

/-- Makes the directory of `path` when asked to. -/
def makeParent (path : String) (createDirs : Bool) (make : String → FileCall Unit) :
    FileCall Unit :=
  if createDirs then
    match parentOf path with
    | some parent => make parent
    | none => .done ()
  else
    .done ()

/-- The bytes are already in place, so a failure to set the mode is only logged. -/
def sudoApplyMode (path : String) : Option Nat → FileCall Unit
  | some mode => (sudoChmod path mode).handle fun _ => .done ()
  | none => .done ()

/-- The privileged branch of `file_write`. -/
def fileWriteSudo (hexDigest : Bytes → String) (path : String) (data : Bytes)
    (append createDirs : Bool) (mode : Option Nat) : FileCall FileOutcome := do
  makeParent path createDirs sudoMakeDir
  sudoWrite path data append
  sudoApplyMode path mode
  let actual ← remoteSha256 path true
  if actual = some (hexDigest data) then
    return ⟨path, data.length, some (hexDigest data), true, true, mode, none⟩
  else
    .fail (.new "TRANSFER_VERIFY_FAILED" (path ++ " does not match the bytes that were sent"))

/-- The whole content of an append: what the file has, as far as it was read, and `data`. -/
def combined (path : String) (data : Bytes) : FileCall Bytes := do
  let (existing, size, _) ← (readCapped path appendReadLimit).mapError classifyError
  if size > existing.length then
    .fail (.new "INVALID_ARGUMENT" (path ++ " is " ++ toString size ++ " bytes, above the " ++
      toString appendReadLimit ++
      " byte in-place append limit; upload the full replacement instead"))
  else
    return existing ++ data

/-- The SFTP branch of `file_write`. -/
def fileWriteSftp (hexDigest : Bytes → String) (id : StageId) (path : String) (data : Bytes)
    (append createDirs : Bool) (mode : Option Nat) : FileCall FileOutcome := do
  .ask .connection .ofExcept
  .ask .sftpChannel .ofExcept
  makeParent path createDirs fun parent => (makeDir parent true none).mapError classifyError
  let content ← if append then combined path data else pure data
  let outcome ← (writeStaged hexDigest id path content mode (some execRemoteHash)).mapError
    classifyError
  return toFileOutcome path outcome mode none

def fileWrite (hexDigest : Bytes → String) (id : StageId) (path : String) (data : Bytes)
    (append createDirs : Bool) (mode : Option Nat) (useSudo ifChanged : Bool) :
    FileCall FileOutcome := do
  .ask .connection .ofExcept
  let existing ← if ifChanged && !append then remoteSha256 path useSudo else pure none
  if existing = some (hexDigest data) then
    return ⟨path, data.length, some (hexDigest data), true, false, mode, none⟩
  else if useSudo then
    fileWriteSudo hexDigest path data append createDirs mode
  else
    fileWriteSftp hexDigest id path data append createDirs mode

end AiSsh
