import AiSsh.Hosts
import Mathlib.Data.List.DropRight

/-!
Staged transfers. Bytes land at a staged path beside the destination, are confirmed
there when a verifier is given, and are moved into place. `hexDigest` is SHA-256 in
lower-case hexadecimal; an error is the text the transfer code gives it.
-/

namespace AiSsh

open Library

structure TransferOutcome where
  bytes : Nat
  sha256 : String
  verified : Bool
  changed : Bool
  deriving DecidableEq, Repr

abbrev Transfer : Type → Type := Program HostOp HostOp.Reply String

/-- What makes a staged name unique. -/
structure StageId where
  processId : Nat
  nanos : Nat
  counter : Nat
  deriving DecidableEq, Repr

def stageTag : List Char := ".aissh-tmp-".toList

/-- The characters of the suffix of a staged name. -/
def StageId.suffix (id : StageId) : List Char :=
  stageTag ++ Nat.toDigits 10 id.processId ++ '-' :: Nat.toDigits 10 id.nanos ++
    '-' :: Nat.toDigits 10 id.counter

def trimEndSlash (path : List Char) : List Char := path.rdropWhile fun c => c == '/'

/-- The name after the last slash. -/
def lastName (path : List Char) : List Char := path.rtakeWhile fun c => c != '/'

/-- What stands before the last slash. -/
def dirName (path : List Char) : List Char := (path.rdropWhile fun c => c != '/').dropLast

/-- A sibling of `remote`, so that the last rename stays in one directory. -/
def stagedPath (id : StageId) (remote : String) : String :=
  let trimmed := trimEndSlash remote.toList
  let staged := lastName trimmed ++ id.suffix
  if '/' ∈ trimmed then
    if dirName trimmed = [] ∨ dirName trimmed = ['/'] then .ofList ('/' :: staged)
    else .ofList (dirName trimmed ++ '/' :: staged)
  else
    .ofList staged

def parentOf (remote : String) : Option String :=
  let trimmed := trimEndSlash remote.toList
  if '/' ∈ trimmed then
    if dirName trimmed = [] then some "/" else some (.ofList (dirName trimmed))
  else
    none

theorem trimEndSlash_length (path : List Char) : (trimEndSlash path).length ≤ path.length :=
  (List.rdropWhile_prefix _ path).length_le

theorem dirName_length {path : List Char} (h : path ≠ []) :
    (dirName path).length < path.length := by
  have hinitial := (List.rdropWhile_prefix (fun c => c != '/') path).length_le
  have hpos := List.length_pos_iff.mpr h
  rw [dirName, List.length_dropLast]
  omega

/-- A trimmed path does not end in its slash. -/
theorem trimEndSlash_ne_slash (path : List Char) : trimEndSlash path ≠ ['/'] := by
  intro h
  have hne : trimEndSlash path ≠ [] := by simp [h]
  refine List.rdropWhile_last_not (fun c => c == '/') path hne ?_
  change ((trimEndSlash path).getLast hne == '/') = true
  simp [h]

theorem two_le_trimEndSlash {path : List Char} (h : '/' ∈ trimEndSlash path) :
    2 ≤ (trimEndSlash path).length := by
  have hne := trimEndSlash_ne_slash path
  cases hpath : trimEndSlash path with
  | nil => simp [hpath] at h
  | cons c rest =>
      cases rest with
      | nil =>
          rw [hpath] at h hne
          exact absurd (by rw [List.mem_singleton.mp h]) hne
      | cons d rest => simp

/-- A parent path is shorter, so that climbing from parent to parent ends. -/
theorem parentOf_length {remote parent : String} (h : parentOf remote = some parent) :
    parent.length < remote.length := by
  have htrim := trimEndSlash_length remote.toList
  rw [String.length_toList] at htrim
  simp only [parentOf] at h
  split at h
  · rename_i hslash
    split at h
    · cases h
      have htwo := two_le_trimEndSlash hslash
      have hone : "/".length = 1 := rfl
      omega
    · cases h
      have hdir := dirName_length (List.ne_nil_of_mem hslash)
      rw [String.length_ofList]
      omega
  · cases h

theorem slash_not_mem_suffix (id : StageId) : '/' ∉ id.suffix := by
  have htag : '/' ∉ stageTag := by decide
  have hdigit (n : Nat) : '/' ∉ Nat.toDigits 10 n := by
    intro h
    have hdigit := Nat.isDigit_of_mem_toDigits (b := 10) (by decide) (by decide) h
    exact absurd hdigit (by decide)
  simp [StageId.suffix, htag, hdigit]

theorem lastName_append (path : List Char) {name : List Char} (hname : '/' ∉ name) :
    lastName (path ++ '/' :: name) = name := by
  have hall : ∀ c ∈ name.reverse, (c != '/') = true := by
    intro c hc
    simpa using fun h : c = '/' => hname (h ▸ List.mem_reverse.mp hc)
  simp [lastName, List.rtakeWhile, List.takeWhile_append_of_pos hall]

theorem lastName_self {name : List Char} (hname : '/' ∉ name) : lastName name = name := by
  refine List.rtakeWhile_eq_self_iff.mpr ?_
  intro c hc
  simpa using fun h : c = '/' => hname (h ▸ hc)

theorem slash_not_mem_lastName (path : List Char) : '/' ∉ lastName path := by
  intro h
  simpa using List.mem_rtakeWhile_imp h

theorem lastName_stagedPath (id : StageId) (remote : String) :
    lastName (stagedPath id remote).toList =
      lastName (trimEndSlash remote.toList) ++ id.suffix := by
  have hstaged : '/' ∉ lastName (trimEndSlash remote.toList) ++ id.suffix := by
    simp [slash_not_mem_lastName, slash_not_mem_suffix]
  simp only [stagedPath]
  split
  · split
    · simpa using lastName_append [] hstaged
    · simpa using lastName_append _ hstaged
  · simpa using lastName_self hstaged

theorem stagedPath_ne (id : StageId) (remote : String) : stagedPath id remote ≠ remote := by
  intro h
  have hname := lastName_stagedPath id remote
  rw [h] at hname
  have hsuffix : id.suffix ≠ [] := by simp [StageId.suffix]
  rcases List.eq_nil_or_concat' remote.toList with hnil | ⟨path, c, hpath⟩
  · rw [hnil] at hname
    exact hsuffix (by simpa [lastName, trimEndSlash] using hname.symm)
  · rw [hpath] at hname
    by_cases hc : c = '/'
    · have hlast : lastName (path ++ [c]) = [] :=
        List.rtakeWhile_concat_neg _ _ _ (by simp [hc])
      rw [hlast] at hname
      exact hsuffix (List.append_eq_nil_iff.mp hname.symm).2
    · have htrim : trimEndSlash (path ++ [c]) = path ++ [c] :=
        List.rdropWhile_concat_neg _ _ _ (by simp [hc])
      rw [htrim] at hname
      exact hsuffix (List.self_eq_append_right.mp hname)

/-- Local counterpart of `stagedPath`. -/
def localStagedPath (processId : Nat) (path : LocalPath) : LocalPath :=
  let staged := path.fileName.getD "download" ++ ".aissh-tmp-" ++ toString processId
  match path.parent with
  | some parent => parent.join staged
  | none => ⟨false, [.normal staged]⟩

theorem localStagedPath_ne (processId : Nat) (path : LocalPath) :
    localStagedPath processId path ≠ path := by
  intro h
  have hcomponents := congrArg LocalPath.components h
  rcases List.eq_nil_or_concat' path.components with hnil | ⟨parents, last, hlast⟩
  · simp [localStagedPath, LocalPath.parent, hnil] at hcomponents
  · have hend : .normal (path.fileName.getD "download" ++ ".aissh-tmp-" ++ toString processId) =
        last := by
      simpa [localStagedPath, LocalPath.parent, LocalPath.join, hlast] using hcomponents
    cases last with
    | parentDir => cases hend
    | normal name =>
        have hname : path.fileName = some name := by simp [LocalPath.fileName, hlast]
        rw [hname, Option.getD_some, Component.normal.injEq] at hend
        have hlength := congrArg String.length hend
        have htag : ".aissh-tmp-".length = 11 := rfl
        rw [String.length_append, String.length_append, htag] at hlength
        omega

def sftpError (error : SftpError) (path : String) : String :=
  let code :=
    match error with
    | .status .noSuchFile _ => "FILE_NOT_FOUND"
    | .status .permissionDenied _ => "PERMISSION_DENIED"
    | .status _ _ => "REMOTE_IO_ERROR"
    | .timeout _ => "REMOTE_TIMEOUT"
    | .other _ => "REMOTE_IO_ERROR"
  code ++ ": " ++ path ++ ": " ++ error.text

def localError (error : IoError) (path : LocalPath) : String :=
  let code :=
    match error.kind with
    | .notFound => "FILE_NOT_FOUND"
    | .permissionDenied => "PERMISSION_DENIED"
    | .alreadyExists => "FILE_EXISTS"
    | .other => "LOCAL_IO_ERROR"
  code ++ ": " ++ path.display ++ ": " ++ error.text

section Calls

variable {α : Type}

/-- The reply of an SFTP call, its error named after `path`. -/
def sftpReply (path : String) (reply : Except SftpError α) : Transfer α :=
  .ofExcept (reply.mapError fun error => sftpError error path)

def localReply (path : LocalPath) (reply : Except IoError α) : Transfer α :=
  .ofExcept (reply.mapError fun error => localError error path)

def discard (staged : String) : Transfer Unit := .ask (.removeRemote staged) fun _ => .done ()

/-- Discards the staged file when `p` fails, and fails as it did. -/
def orDiscard (staged : String) (p : Transfer α) : Transfer α :=
  p.handle fun error => discard staged >>= fun _ => .fail error

def discardLocal (staged : LocalPath) : Transfer Unit :=
  .ask (.removeLocal staged) fun _ => .done ()

def orDiscardLocal (staged : LocalPath) (p : Transfer α) : Transfer α :=
  p.handle fun error => discardLocal staged >>= fun _ => .fail error

end Calls

def tryStat (path : String) : Transfer (Option Metadata) :=
  .ask (.stat path) fun
    | .ok metadata => .done (some metadata)
    | .error (.status .noSuchFile _) => .done none
    | .error error => .fail (sftpError error path)

/-- `read_to_end` on an open file limited to `limit` bytes. -/
def readToEnd : Nat → Reads SftpError → Except SftpError Bytes
  | 0, _ => .ok []
  | _ + 1, [] => .ok []
  | _ + 1, .error error :: _ => .error error
  | limit + 1, .ok data :: reads => do
      let rest ← readToEnd (limit + 1 - data.length) reads
      return data.take (limit + 1) ++ rest

/-- Reads at most `maxBytes`, with the reported size. -/
def readCapped (path : String) (maxBytes : Nat) : Transfer (Bytes × Nat × Bool) := do
  let reads ← .ask (.openRemote path) (sftpReply path)
  let size ← .ask (.fstat path) fun metadata =>
    .done ((metadata.map Metadata.len).toOption.getD 0)
  let data ← sftpReply path (readToEnd maxBytes reads)
  return (data, size, size > data.length)

def applyMode (path : String) (mode : Option Nat) : Transfer Unit :=
  match mode with
  | none => .done ()
  | some mode => .ask (.setMode path mode) (sftpReply path)

/-- Moves a verified staged file onto its destination; an existing destination is
removed first. -/
def promote (staged remote : String) : Transfer Unit := do
  match ← tryStat remote with
  | some _ => .ask (.removeRemote remote) (sftpReply remote)
  | none => pure ()
  .ask (.renameRemote staged remote) (sftpReply remote)

/-- A verifier: the digest of a remote file, or `none` without a hashing tool. -/
abbrev RemoteHash : Type := String → Transfer (Option String)

/-- Compares the digest of a staged file with the remote copy. -/
def confirm (staged expected : String) : Option RemoteHash → Transfer Bool
  | none => .done false
  | some hasher => do
      match ← hasher staged with
      | some actual =>
          if actual = expected then
            return true
          else
            discard staged
            .fail ("TRANSFER_VERIFY_FAILED: staged bytes hash to " ++ expected ++
              " but the remote host reports " ++ actual)
      | none => return false

/-- The end of `write_staged` and of `upload_staged`, once every byte is written. -/
def finishStaged (staged remote digest : String) (bytes : Nat) (mode : Option Nat)
    (verify : Option RemoteHash) : Transfer TransferOutcome := do
  orDiscard staged (.ask (.flushRemote staged) (sftpReply staged))
  orDiscard staged (.ask (.closeRemote staged) (sftpReply staged))
  let verified ← confirm staged digest verify
  orDiscard staged (applyMode staged mode)
  promote staged remote
  return ⟨bytes, digest, verified, true⟩

/-- Streams `data` to a staged path, verifies it, and promotes it. -/
def writeStaged (hexDigest : Bytes → String) (id : StageId) (remote : String) (data : Bytes)
    (mode : Option Nat) (verify : Option RemoteHash) : Transfer TransferOutcome := do
  let staged := stagedPath id remote
  .ask (.createRemote staged) (sftpReply staged)
  orDiscard staged (.ask (.writeRemote staged data) (sftpReply staged))
  finishStaged staged remote (hexDigest data) data.length mode verify

/-- The loop of `upload_staged`, with the bytes it has sent and hashed. -/
def sendReads (staged : String) (path : LocalPath) : Reads IoError → Bytes → Transfer Bytes
  | [], sent => .done sent
  | .error error :: _, _ => discard staged >>= fun _ => .fail (localError error path)
  | .ok chunk :: reads, sent =>
      if chunk = [] then .done sent
      else do
        orDiscard staged (.ask (.writeRemote staged chunk) (sftpReply staged))
        sendReads staged path reads (sent ++ chunk)

/-- Streams a local file to a staged remote path, hashing on the way out. -/
def uploadStaged (hexDigest : Bytes → String) (id : StageId) (path : LocalPath)
    (remote : String) (mode : Option Nat) (verify : Option RemoteHash) :
    Transfer TransferOutcome := do
  let staged := stagedPath id remote
  let reads ← .ask (.openLocal path) (localReply path)
  .ask (.createRemote staged) (sftpReply staged)
  let data ← sendReads staged path reads []
  finishStaged staged remote (hexDigest data) data.length mode verify

/-- The loop of `download_staged`, with the bytes it has stored and hashed. -/
def receiveReads (remote : String) (staged : LocalPath) :
    Reads SftpError → Bytes → Transfer Bytes
  | [], received => .done received
  | .error error :: _, _ => discardLocal staged >>= fun _ => .fail (sftpError error remote)
  | .ok chunk :: reads, received =>
      if chunk = [] then .done received
      else do
        orDiscardLocal staged (.ask (.writeLocal staged chunk) (localReply staged))
        receiveReads remote staged reads (received ++ chunk)

/-- Compares the digest of the downloaded bytes with the remote file. -/
def confirmDownload (remote : String) (staged : LocalPath) (digest : String) :
    Option RemoteHash → Transfer Bool
  | none => .done false
  | some hasher => do
      match ← hasher remote with
      | some remoteDigest =>
          if remoteDigest ≠ digest then
            discardLocal staged
            .fail ("TRANSFER_VERIFY_FAILED: " ++ remote ++ " downloaded " ++ digest ++
              " but the remote host reports " ++ remoteDigest)
          else
            return true
      | none => return false

/-- Streams a remote file into a staged local file, then promotes it. -/
def downloadStaged (hexDigest : Bytes → String) (processId : Nat) (remote : String)
    (path : LocalPath) (verify : Option RemoteHash) : Transfer TransferOutcome := do
  let reads ← .ask (.openRemote remote) (sftpReply remote)
  let staged := localStagedPath processId path
  .ask (.createLocal staged) (localReply staged)
  let data ← receiveReads remote staged reads []
  orDiscardLocal staged (.ask (.flushLocal staged) (localReply staged))
  let verified ← confirmDownload remote staged (hexDigest data) verify
  .ask (.renameLocal staged path) (localReply path)
  return ⟨data.length, hexDigest data, verified, true⟩

/-- Creates a directory; a concurrent creation is not a failure. -/
def createDir (path : String) : Transfer Unit :=
  .ask (.createDir path) fun
    | .ok () => .done ()
    | .error error => do
        if (← tryStat path).isNone then .fail (sftpError error path)

/-- Creates a directory, optionally with its missing parents. -/
def makeDir (path : String) (parents : Bool) (mode : Option Nat) : Transfer Unit := do
  match ← tryStat path with
  | some _ => return ()
  | none =>
      match _h : parentOf path with
      | some parent =>
          if parents && parent != "/" && parent != "" then
            makeDir parent true none
      | none => pure ()
      createDir path
      applyMode path mode
termination_by path.length
decreasing_by exact parentOf_length ‹_›

end AiSsh
