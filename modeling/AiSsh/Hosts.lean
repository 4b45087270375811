import AiSsh.Library.Program
import AiSsh.Protocol
import Mathlib.Logic.Function.Basic

/-!
The two machines of a file transfer and what the transfer code asks of them: SFTP
calls and commands on the remote host, file calls on the daemon's own host. A call
that fails may have had its effect all the same, when its reply alone was late; a write,
a flush or a close may leave any bytes in the file they belong to.
-/

namespace AiSsh

open Library

inductive StatusCode
  | noSuchFile
  | permissionDenied
  | failure
  | opUnsupported
  | other
  deriving DecidableEq, Repr

/-- `text` is the error as the client displays it. -/
inductive SftpError
  | status (code : StatusCode) (text : String)
  | timeout (text : String)
  | other (text : String)
  deriving DecidableEq, Repr

def SftpError.text : SftpError → String
  | .status _ text | .timeout text | .other text => text

inductive IoErrorKind
  | notFound
  | permissionDenied
  | alreadyExists
  | other
  deriving DecidableEq, Repr

structure IoError where
  kind : IoErrorKind
  text : String
  deriving DecidableEq, Repr

structure Metadata where
  size : Option Nat
  deriving DecidableEq, Repr

/-- A server may leave the size out. -/
def Metadata.len (metadata : Metadata) : Nat := metadata.size.getD 0

inductive Component
  | normal (name : String)
  | parentDir
  deriving DecidableEq, Repr

/-- A path of the daemon's host, as its components. -/
structure LocalPath where
  absolute : Bool
  components : List Component
  deriving DecidableEq, Repr

namespace LocalPath

def fileName (path : LocalPath) : Option String :=
  match path.components.getLast? with
  | some (.normal name) => some name
  | _ => none

def parent (path : LocalPath) : Option LocalPath :=
  if path.components = [] then none
  else some { path with components := path.components.dropLast }

def join (path : LocalPath) (name : String) : LocalPath :=
  { path with components := path.components ++ [.normal name] }

def display (path : LocalPath) : String :=
  (if path.absolute then "/" else "") ++ "/".intercalate (path.components.map fun
    | .normal name => name
    | .parentDir => "..")

end LocalPath

/-- The helper commands of the session layer. -/
inductive RemoteCommand
  | sha256 (path : String) (useSudo : Bool)
  | tee (path : String) (append : Bool)
  | makeDir (path : String)
  | chmod (path : String) (mode : Nat)
  deriving DecidableEq, Repr

/-- `stdout` as text, when it is UTF-8. -/
structure ExecOutput where
  stdout : Option String
  stderr : String
  exit : Option UInt32
  deriving DecidableEq, Repr

/-- What a transfer asks. An open file is named by its path, and its reads come with
the reply that opens it; `sha256` is the verifier the caller hands in. -/
inductive HostOp
  | stat (path : String)
  | openRemote (path : String)
  | fstat (path : String)
  | createRemote (path : String)
  | writeRemote (path : String) (data : Bytes)
  | flushRemote (path : String)
  | closeRemote (path : String)
  | setMode (path : String) (mode : Nat)
  | removeRemote (path : String)
  | renameRemote (source target : String)
  | createDir (path : String)
  | sha256 (path : String)
  | openLocal (path : LocalPath)
  | createLocal (path : LocalPath)
  | writeLocal (path : LocalPath) (data : Bytes)
  | flushLocal (path : LocalPath)
  | removeLocal (path : LocalPath)
  | renameLocal (source target : LocalPath)
  | connection
  | sftpChannel
  | exec (command : RemoteCommand) (stdin : Bytes)
  deriving DecidableEq, Repr

/-- The reads of an open file, up to the end of the file. -/
abbrev Reads (ε : Type) : Type := List (Except ε Bytes)

abbrev HostOp.Reply : HostOp → Type
  | .stat _ | .fstat _ => Except SftpError Metadata
  | .openRemote _ => Except SftpError (Reads SftpError)
  | .createRemote _ | .writeRemote _ _ | .flushRemote _ | .closeRemote _ | .setMode _ _
  | .removeRemote _ | .renameRemote _ _ | .createDir _ => Except SftpError Unit
  | .sha256 _ => Option String
  | .openLocal _ => Except IoError (Reads IoError)
  | .createLocal _ | .writeLocal _ _ | .flushLocal _ | .removeLocal _ | .renameLocal _ _ =>
      Except IoError Unit
  | .connection | .sftpChannel => Except ErrorPayload Unit
  | .exec _ _ => Except ErrorPayload ExecOutput

inductive Entry
  | file (content : Bytes) (mode : Option Nat)
  | directory
  deriving DecidableEq, Repr

/-- The bytes of a regular file. -/
def Entry.content : Entry → Option Bytes
  | .file content _ => some content
  | .directory => none

structure Hosts where
  remote : String → Option Entry
  here : LocalPath → Option Bytes

namespace Hosts

/-- The content of a regular remote file. -/
def bytes (s : Hosts) (path : String) : Option Bytes := (s.remote path).bind Entry.content

def modeOf (s : Hosts) (path : String) : Option Nat :=
  match s.remote path with
  | some (.file _ mode) => mode
  | _ => none

def setRemote (s : Hosts) (path : String) (entry : Option Entry) : Hosts :=
  { s with remote := Function.update s.remote path entry }

def setHere (s : Hosts) (path : LocalPath) (content : Option Bytes) : Hosts :=
  { s with here := Function.update s.here path content }

def setModeOf (s : Hosts) (path : String) (mode : Nat) : Hosts :=
  match s.remote path with
  | some (.file content _) => s.setRemote path (some (.file content (some mode)))
  | _ => s

@[simp] theorem setRemote_self (s : Hosts) (path : String) (entry : Option Entry) :
    (s.setRemote path entry).remote path = entry :=
  Function.update_self ..

@[simp] theorem setRemote_here (s : Hosts) (path : String) (entry : Option Entry) :
    (s.setRemote path entry).here = s.here := rfl

theorem setRemote_of_ne {s : Hosts} {path other : String} (h : other ≠ path)
    (entry : Option Entry) : (s.setRemote path entry).remote other = s.remote other :=
  Function.update_of_ne h ..

@[simp] theorem setHere_self (s : Hosts) (path : LocalPath) (content : Option Bytes) :
    (s.setHere path content).here path = content :=
  Function.update_self ..

@[simp] theorem setHere_remote (s : Hosts) (path : LocalPath) (content : Option Bytes) :
    (s.setHere path content).remote = s.remote := rfl

theorem setHere_of_ne {s : Hosts} {path other : LocalPath} (h : other ≠ path)
    (content : Option Bytes) : (s.setHere path content).here other = s.here other :=
  Function.update_of_ne h ..

theorem bytes_setModeOf (s : Hosts) (path other : String) (mode : Nat) :
    (s.setModeOf path mode).bytes other = s.bytes other := by
  rw [setModeOf]
  split
  · rename_i content old hentry
    by_cases h : other = path
    · simp [bytes, h, hentry, Entry.content]
    · simp [bytes, setRemote_of_ne h]
  · rfl

end Hosts

/-- Reads of at most a chunk each that deliver `content`, as far as they succeed. -/
def Delivers (chunk : Nat) {ε : Type} : Reads ε → Bytes → Prop
  | [], content => content = []
  | .error _ :: _, _ => True
  | .ok data :: reads, content =>
      data ≠ [] ∧ data.length ≤ chunk ∧ ∃ rest, content = data ++ rest ∧ Delivers chunk reads rest

def transferChunkBytes : Nat := 64 * 1024

/-- A call that succeeds leaves `done` behind, and one that fails leaves the files as they were
or `done` all the same. -/
def Tried {ε : Type} (reply : Except ε Unit) (s done s' : Hosts) : Prop :=
  match reply with
  | .ok _ => s' = done
  | .error _ => s' = s ∨ s' = done

/-- What holds before the call and after its effect holds after the attempt. -/
theorem Tried.holds {ε : Type} {P : Hosts → Prop} {reply : Except ε Unit} {s done s' : Hosts}
    (h : Tried reply s done s') (hs : P s) (hdone : P done) : P s' := by
  cases reply with
  | ok _ =>
      cases h
      exact hdone
  | error _ =>
      cases h with
      | inl hsame => exact hsame ▸ hs
      | inr hdone' => exact hdone' ▸ hdone

/-- The surroundings of a transfer: any call may fail, the remote host may answer a
question as it likes and keeps in an open file whatever it likes. -/
def hosts (s : Hosts) : (op : HostOp) → op.Reply → Hosts → Prop
  | .stat _, _, s' | .openRemote _, _, s' | .fstat _, _, s' | .sha256 _, _, s'
  | .connection, _, s' | .sftpChannel, _, s' => s' = s
  | .createRemote path, reply, s' => Tried reply s (s.setRemote path (some (.file [] none))) s'
  | .writeRemote path _, _, s' | .flushRemote path, _, s' | .closeRemote path, _, s' =>
      ∃ content mode, s' = s.setRemote path (some (.file content mode))
  | .setMode path mode, reply, s' => Tried reply s (s.setModeOf path mode) s'
  | .removeRemote path, reply, s' => Tried reply s (s.setRemote path none) s'
  | .renameRemote source target, reply, s' =>
      Tried reply s ((s.setRemote target (s.remote source)).setRemote source none) s'
  | .createDir path, reply, s' => Tried reply s (s.setRemote path (some .directory)) s'
  | .openLocal path, .ok reads, s' =>
      s' = s ∧ ∃ content, s.here path = some content ∧ Delivers transferChunkBytes reads content
  | .openLocal _, .error _, s' => s' = s
  | .createLocal path, reply, s' => Tried reply s (s.setHere path (some [])) s'
  | .writeLocal path _, _, s' | .flushLocal path, _, s' =>
      ∃ content, s' = s.setHere path (some content)
  | .removeLocal path, reply, s' => Tried reply s (s.setHere path none) s'
  | .renameLocal source target, reply, s' =>
      Tried reply s ((s.setHere target (s.here source)).setHere source none) s'
  | .exec _ _, _, _ => True

/-- How the reads of a file cut it into chunks. -/
structure Cut where
  chunks : Bytes → List Bytes
  flatten : ∀ content, (chunks content).flatten = content
  nonempty : ∀ content, [] ∉ chunks content
  bounded : ∀ content, ∀ chunk ∈ chunks content, chunk.length ≤ transferChunkBytes

/-- One byte at a time. -/
def Cut.bytewise : Cut where
  chunks content := content.map fun byte => [byte]
  flatten := by
    intro content
    induction content with
    | nil => rfl
    | cons byte content ih => simpa using ih
  nonempty := by simp
  bounded := by
    intro content chunk hchunk
    obtain ⟨byte, -, rfl⟩ := List.mem_map.mp hchunk
    exact Nat.le_of_ble_eq_true rfl

def Cut.reads (cut : Cut) (ε : Type) (content : Bytes) : Reads ε :=
  (cut.chunks content).map .ok

theorem Cut.delivers (cut : Cut) (ε : Type) (content : Bytes) :
    Delivers transferChunkBytes (cut.reads ε content) content := by
  have hchunks (chunks : List Bytes) (hnonempty : [] ∉ chunks)
      (hbounded : ∀ chunk ∈ chunks, chunk.length ≤ transferChunkBytes) :
      Delivers transferChunkBytes (chunks.map (.ok : Bytes → Except ε Bytes)) chunks.flatten := by
    induction chunks with
    | nil => rfl
    | cons chunk chunks ih =>
        simp only [List.mem_cons, not_or] at hnonempty
        exact ⟨Ne.symm hnonempty.1, hbounded chunk List.mem_cons_self, chunks.flatten, rfl,
          ih hnonempty.2 fun other hother => hbounded other (List.mem_cons_of_mem _ hother)⟩
  simpa [Cut.reads, cut.flatten] using
    hchunks (cut.chunks content) (cut.nonempty content) (cut.bounded content)

/-- A character of a file name where a hash tool escapes it. -/
def escapedChar : Char → List Char
  | '\n' => ['\\', 'n']
  | '\r' => ['\\', 'r']
  | c => ['\\', c]

/-- The line of a hash tool. A name with a character that the tool escapes puts a backslash
before the digest. -/
def digestLine (escapes : Char → Bool) (digest path : String) : String :=
  if path.toList.any escapes then
    "\\" ++ digest ++ "  " ++
      .ofList (path.toList.flatMap fun c => if escapes c then escapedChar c else [c]) ++ "\n"
  else
    digest ++ "  " ++ path ++ "\n"

/-- Hosts that do what they are asked, except the calls they fail. The hash tool is told by
the digests and by the characters of a file name that it escapes. -/
structure Server where
  hexDigest : Bytes → String
  escapes : Char → Bool
  cut : Cut
  fails : HostOp → Bool
  fstat : Bytes → Except SftpError Metadata

namespace Server

variable (server : Server)

def sftpFailure : SftpError := .other "failure"

def ioFailure : IoError := ⟨.other, "failure"⟩

def call (op : HostOp) (s s' : Hosts) : Except SftpError Unit × Hosts :=
  if server.fails op then (.error sftpFailure, s) else (.ok (), s')

def callLocal (op : HostOp) (s s' : Hosts) : Except IoError Unit × Hosts :=
  if server.fails op then (.error ioFailure, s) else (.ok (), s')

/-- The state in which an open file holds `content`. -/
def store (s : Hosts) (path : String) (content : Bytes) : Hosts :=
  s.setRemote path (some (.file content (s.modeOf path)))

theorem bytes_store (s : Hosts) (path : String) (content : Bytes) :
    (store s path content).bytes path = some content := by
  simp [store, Hosts.bytes, Entry.content]

def exec (s : Hosts) (stdin : Bytes) : RemoteCommand → ExecOutput × Hosts
  | .sha256 path _ =>
      match s.bytes path with
      | some content =>
          (⟨some (digestLine server.escapes (server.hexDigest content) path), "", some 0⟩, s)
      | none => (⟨some "", "No such file", some 1⟩, s)
  | .tee path append =>
      (⟨some "", "", some 0⟩,
        store s path ((if append then (s.bytes path).getD [] else []) ++ stdin))
  | .makeDir path =>
      (⟨some "", "", some 0⟩,
        if s.remote path = none then s.setRemote path (some .directory) else s)
  | .chmod path mode => (⟨some "", "", some 0⟩, s.setModeOf path mode)

def answer : Program.Handler HostOp HostOp.Reply Hosts
  | s, .stat path =>
      if server.fails (.stat path) then (.error sftpFailure, s)
      else
        match s.remote path with
        | some entry => (.ok ⟨entry.content.map List.length⟩, s)
        | none => (.error (.status .noSuchFile "No such file"), s)
  | s, .openRemote path =>
      match s.bytes path with
      | some content => (.ok (server.cut.reads SftpError content), s)
      | none => (.error (.status .noSuchFile "No such file"), s)
  | s, .fstat path => (server.fstat ((s.bytes path).getD []), s)
  | s, .createRemote path =>
      server.call (.createRemote path) s (s.setRemote path (some (.file [] none)))
  | s, .writeRemote path data =>
      server.call (.writeRemote path data) (store s path ((s.bytes path).getD []))
        (store s path ((s.bytes path).getD [] ++ data))
  | s, .flushRemote path =>
      server.call (.flushRemote path) (store s path ((s.bytes path).getD []))
        (store s path ((s.bytes path).getD []))
  | s, .closeRemote path =>
      server.call (.closeRemote path) (store s path ((s.bytes path).getD []))
        (store s path ((s.bytes path).getD []))
  | s, .setMode path mode => server.call (.setMode path mode) s (s.setModeOf path mode)
  | s, .removeRemote path => server.call (.removeRemote path) s (s.setRemote path none)
  | s, .renameRemote source target =>
      server.call (.renameRemote source target) s
        ((s.setRemote target (s.remote source)).setRemote source none)
  | s, .createDir path => server.call (.createDir path) s (s.setRemote path (some .directory))
  | s, .sha256 path => ((s.bytes path).map server.hexDigest, s)
  | s, .openLocal path =>
      match s.here path with
      | some content => (.ok (server.cut.reads IoError content), s)
      | none => (.error ⟨.notFound, "No such file or directory"⟩, s)
  | s, .createLocal path => server.callLocal (.createLocal path) s (s.setHere path (some []))
  | s, .writeLocal path data =>
      server.callLocal (.writeLocal path data) (s.setHere path (some ((s.here path).getD [])))
        (s.setHere path (some ((s.here path).getD [] ++ data)))
  | s, .flushLocal path =>
      server.callLocal (.flushLocal path) (s.setHere path (some ((s.here path).getD [])))
        (s.setHere path (some ((s.here path).getD [])))
  | s, .removeLocal path => server.callLocal (.removeLocal path) s (s.setHere path none)
  | s, .renameLocal source target =>
      server.callLocal (.renameLocal source target) s
        ((s.setHere target (s.here source)).setHere source none)
  | s, .connection | s, .sftpChannel => (.ok (), s)
  | s, .exec command stdin =>
      let (output, s) := server.exec s stdin command
      (.ok output, s)

theorem call_cases (op : HostOp) (s s' : Hosts) :
    server.call op s s' = (.error sftpFailure, s) ∨ server.call op s s' = (.ok (), s') := by
  rw [call]
  split
  · exact .inl rfl
  · exact .inr rfl

theorem callLocal_cases (op : HostOp) (s s' : Hosts) :
    server.callLocal op s s' = (.error ioFailure, s) ∨
      server.callLocal op s s' = (.ok (), s') := by
  rw [callLocal]
  split
  · exact .inl rfl
  · exact .inr rfl

/-- What the server does is something the hosts of a transfer may do. -/
theorem answer_hosts (s : Hosts) (op : HostOp) :
    hosts s op (server.answer s op).1 (server.answer s op).2 := by
  cases op with
  | stat path =>
      simp only [answer]
      split
      · exact rfl
      · split <;> exact rfl
  | openRemote path =>
      simp only [answer]
      split <;> exact rfl
  | fstat path | sha256 path | connection | sftpChannel => exact rfl
  | exec command stdin => trivial
  | openLocal path =>
      simp only [answer]
      split
      · rename_i content hcontent
        exact ⟨rfl, content, hcontent, server.cut.delivers IoError content⟩
      · exact rfl
  | createRemote path | setMode path mode | removeRemote path | renameRemote source target
  | createDir path =>
      simp only [answer]
      rcases server.call_cases _ s _ with h | h
      · rw [h]
        exact .inl rfl
      · rw [h]
        exact rfl
  | writeRemote path data | flushRemote path | closeRemote path =>
      simp only [answer]
      rcases server.call_cases _ _ _ with h | h <;> rw [h] <;> exact ⟨_, _, rfl⟩
  | createLocal path | removeLocal path | renameLocal source target =>
      simp only [answer]
      rcases server.callLocal_cases _ s _ with h | h
      · rw [h]
        exact .inl rfl
      · rw [h]
        exact rfl
  | writeLocal path data | flushLocal path =>
      simp only [answer]
      rcases server.callLocal_cases _ _ _ with h | h <;> rw [h] <;> exact ⟨_, rfl⟩

/-- A program run against a server is a run of it among the hosts of a transfer. -/
theorem runs {α : Type} {p : Program HostOp HostOp.Reply String α} {s : Hosts}
    {r : Except String α} (h : (p.run server.answer s).1 = r) :
    p.Runs hosts s (p.history server.answer s) r (p.run server.answer s).2 :=
  h ▸ Program.runs_of_handler server.answer_hosts p s

end Server
end AiSsh
