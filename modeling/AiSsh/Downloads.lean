import AiSsh.FileWrite
import AiSsh.TransferSafety
import AiSsh.Library.FileTable
import AiSsh.Library.Machine
import AiSsh.Library.Pool

/-!
Downloads to one path of the daemon's host. Each `file_download` call is a task of its own:
it tests the destination, makes the parent directory, opens a channel, and then streams the
remote file into a staged file beside the destination and renames it. The staged name is
made of the destination and the process id, so the calls for one destination share it.
The calls interleave between any two of their operations, and any operation may fail.
-/

namespace AiSsh

open Library

/-- The files and the directories of the daemon's host. -/
structure LocalHost where
  files : FileTable LocalPath UInt8
  directories : LocalPath → Bool

namespace LocalHost

/-- `Path::exists`. -/
def pathExists (host : LocalHost) (path : LocalPath) : Bool :=
  (host.files.names path).isSome || host.directories path

/-- Whether `path` is `directory` or one of the directories it is in. -/
def leadsTo (directory path : LocalPath) : Bool :=
  path.absolute == directory.absolute && path.components.isPrefixOf directory.components

/-- `create_dir_all`. -/
def createDirAll (host : LocalHost) (directory : LocalPath) : LocalHost :=
  { host with directories := fun path => host.directories path || leadsTo directory path }

/-- Another process creates or replaces a file. -/
def put (host : LocalHost) (path : LocalPath) (content : Bytes) : LocalHost :=
  { host with
    files := (host.files.create path).setContents (host.files.created path) content }

end LocalHost

/-- Where a call stands. The number of an open file is that of its handle; a call that has
ended keeps the bytes it had streamed, which the code drops. -/
inductive DownloadPhase
  | testing
  | preparing
  | connecting
  | opening
  | creating (reads : Reads SftpError)
  | receiving (handle : Nat) (reads : Reads SftpError) (received : Bytes)
  | flushing (handle : Nat) (received : Bytes)
  | verifying (received : Bytes)
  | renaming (received : Bytes) (verified : Bool)
  | discarding (streamed : Option Bytes) (error : String)
  | finished (streamed : Option Bytes) (result : Except ErrorPayload FileOutcome)

namespace DownloadPhase

/-- The bytes in the staged file, while the call counts on it. -/
def held : DownloadPhase → Option Bytes
  | .receiving _ _ received | .flushing _ received | .verifying received
  | .renaming received _ => some received
  | _ => none

def handle : DownloadPhase → Option Nat
  | .receiving handle _ _ | .flushing handle _ => some handle
  | _ => none

/-- The remote file, once the call has read it to its end. -/
def streamed : DownloadPhase → Option Bytes
  | .flushing _ received | .verifying received | .renaming received _ => some received
  | .discarding streamed _ | .finished streamed _ => streamed
  | _ => none

/-- Between the test of the destination and the end of the call. -/
def tested : DownloadPhase → Bool
  | .testing | .finished _ _ => false
  | _ => true

def succeeded : DownloadPhase → Bool
  | .finished _ (.ok _) => true
  | _ => false

end DownloadPhase

structure DownloadCall where
  remote : String
  overwrite : Bool
  createDirs : Bool
  verify : Bool
  phase : DownloadPhase

/-- A staged file that has become the destination: what it held, and what was reported. -/
structure Promotion where
  content : Option Bytes
  outcome : TransferOutcome
  deriving DecidableEq, Repr

/-- The next operation of a call, and its answer. A write that fails may have written some
of its bytes. -/
inductive DownloadMove
  | test
  | makeDirs (answer : Except IoError Unit)
  | connect (answer : Except ErrorPayload Unit)
  | openRemote (answer : Except SftpError (Reads SftpError))
  | create (answer : Except IoError Unit)
  | receive (answer : Except (IoError × Nat) Unit)
  | flush (answer : Except IoError Unit)
  | verify (answer : Option String)
  | rename (answer : Except IoError Unit)
  | discard (removed : Bool)

def fileExists (path : LocalPath) : ErrorPayload :=
  .new "FILE_EXISTS" (path.display ++ " already exists; pass overwrite=true to replace it")

def downloadMismatch (remote digest remoteDigest : String) : String :=
  "TRANSFER_VERIFY_FAILED: " ++ remote ++ " downloaded " ++ digest ++
    " but the remote host reports " ++ remoteDigest

namespace DownloadCall

variable (hexDigest : Bytes → String) (processId : Nat) (path : LocalPath)

/-- The directory to make first. -/
def parentToMake (call : DownloadCall) : Option LocalPath :=
  if call.createDirs then path.parent.filter fun parent => parent != ⟨false, []⟩ else none

/-- One operation of a call. -/
def advance (host : LocalHost) (call : DownloadCall) :
    DownloadMove → Option (LocalHost × DownloadPhase × Option Promotion)
  | .test =>
      match call.phase with
      | .testing =>
          if host.pathExists path ∧ call.overwrite = false then
            some (host, .finished none (.error (fileExists path)), none)
          else
            some (host, .preparing, none)
      | _ => none
  | .makeDirs answer =>
      match call.phase, call.parentToMake path, answer with
      | .preparing, none, _ => some (host, .connecting, none)
      | .preparing, some parent, .ok () => some (host.createDirAll parent, .connecting, none)
      | .preparing, some parent, .error error =>
          some (host, .finished none (.error (classifyError (localError error parent))), none)
      | _, _, _ => none
  | .connect answer =>
      match call.phase, answer with
      | .connecting, .ok () => some (host, .opening, none)
      | .connecting, .error error => some (host, .finished none (.error error), none)
      | _, _ => none
  | .openRemote answer =>
      match call.phase, answer with
      | .opening, .ok reads => some (host, .creating reads, none)
      | .opening, .error error =>
          some (host, .finished none (.error (classifyError (sftpError error call.remote))), none)
      | _, _ => none
  | .create answer =>
      let staged := localStagedPath processId path
      match call.phase, answer with
      | .creating reads, .ok () =>
          if host.directories staged then none
          else some ({ host with files := host.files.create staged },
            .receiving (host.files.created staged) reads [], none)
      | .creating _, .error error =>
          some (host, .finished none (.error (classifyError (localError error staged))), none)
      | _, _ => none
  | .receive answer =>
      match call.phase, answer with
      | .receiving handle [] received, _ | .receiving handle (.ok [] :: _) received, _ =>
          some (host, .flushing handle received, none)
      | .receiving _ (.error error :: _) _, _ =>
          some (host, .discarding none (sftpError error call.remote), none)
      | .receiving handle (.ok chunk :: reads) received, .ok () =>
          some ({ host with files := host.files.writeAt handle received.length chunk },
            .receiving handle reads (received ++ chunk), none)
      | .receiving handle (.ok chunk :: _) received, .error (error, written) =>
          some
            ({ host with
                files := host.files.writeAt handle received.length (chunk.take written) },
              .discarding none (localError error (localStagedPath processId path)), none)
      | _, _ => none
  | .flush answer =>
      match call.phase, answer with
      | .flushing _ received, .ok () => some (host, .verifying received, none)
      | .flushing _ received, .error error =>
          some (host, .discarding (some received)
            (localError error (localStagedPath processId path)), none)
      | _, _ => none
  | .verify answer =>
      match call.phase, answer with
      | .verifying received, some remoteDigest =>
          if call.verify = false then some (host, .renaming received false, none)
          else if remoteDigest ≠ hexDigest received then
            some (host, .discarding (some received)
              (downloadMismatch call.remote (hexDigest received) remoteDigest), none)
          else some (host, .renaming received true, none)
      | .verifying received, none => some (host, .renaming received false, none)
      | _, _ => none
  | .rename answer =>
      let staged := localStagedPath processId path
      match call.phase, answer with
      | .renaming received verified, .ok () =>
          if (host.files.names staged).isNone ∨ host.directories path then none
          else
            let outcome := ⟨received.length, hexDigest received, verified, true⟩
            some ({ host with files := host.files.rename staged path },
              .finished (some received)
                (.ok (toFileOutcome call.remote outcome none (some path))),
              some ⟨host.files.read staged, outcome⟩)
      | .renaming received _, .error error =>
          some (host,
            .finished (some received) (.error (classifyError (localError error path))), none)
      | _, _ => none
  | .discard removed =>
      match call.phase with
      | .discarding streamed error =>
          some (if removed then
              { host with files := host.files.remove (localStagedPath processId path) }
            else host,
            .finished streamed (.error (classifyError error)), none)
      | _ => none

end DownloadCall

structure Downloads where
  host : LocalHost
  calls : List DownloadCall
  promoted : List Promotion

/-- A call of the daemon starts, a call takes its next step, or another process creates a
file. -/
inductive DownloadStep
  | call (remote : String) (overwrite createDirs verify : Bool)
  | advance (index : Nat) (move : DownloadMove)
  | other (path : LocalPath) (content : Bytes)

namespace Downloads

variable (hexDigest : Bytes → String) (processId : Nat) (path : LocalPath)

def step (s : Downloads) : DownloadStep → Option Downloads
  | .call remote overwrite createDirs verify =>
      some { s with calls := s.calls ++ [⟨remote, overwrite, createDirs, verify, .testing⟩] }
  | .advance index move => do
      let call ← s.calls[index]?
      let (host, phase, promotion) ← call.advance hexDigest processId path s.host move
      return ⟨host, s.calls.set index { call with phase }, s.promoted ++ promotion.toList⟩
  | .other target content =>
      if s.host.directories target then none else some { s with host := s.host.put target content }

/-- The downloads of one daemon to `path`, in any interleaving. -/
def machine : Machine Downloads DownloadStep := ⟨step hexDigest processId path⟩

def start (host : LocalHost) : Downloads := ⟨host, [], []⟩

end Downloads

/-! What one operation does. -/

/-- The files after an operation of a call, and where the call then stands. -/
inductive DownloadCall.Does (hexDigest : Bytes → String) (processId : Nat) (path : LocalPath)
    (host : LocalHost) (call : DownloadCall) :
    DownloadMove → LocalHost → DownloadPhase → Option Promotion → Prop
  | quiet {move : DownloadMove} {host' : LocalHost} {phase : DownloadPhase}
      (hfiles : host'.files = host.files)
      (hheld : phase.held = none ∨
        phase.held = call.phase.held ∧ (phase.handle = none ∨ phase.handle = call.phase.handle))
      (hstreamed : call.phase.streamed = none ∨ phase.streamed = call.phase.streamed)
      (htested : call.overwrite = false → phase.tested = true →
        call.phase.tested = true ∨ host.files.names path = none)
      (hsucceeded : phase.succeeded = false) :
      Does hexDigest processId path host call move host' phase none
  | create {reads : Reads SftpError} (hphase : call.phase = .creating reads) :
      Does hexDigest processId path host call (.create (.ok ()))
        { host with files := host.files.create (localStagedPath processId path) }
        (.receiving (host.files.created (localStagedPath processId path)) reads []) none
  | write {handle : Nat} {reads rest : Reads SftpError} {received chunk : Bytes}
      (hphase : call.phase = .receiving handle reads received) :
      Does hexDigest processId path host call (.receive (.ok ()))
        { host with files := host.files.writeAt handle received.length chunk }
        (.receiving handle rest (received ++ chunk)) none
  | tear {handle : Nat} {reads : Reads SftpError} {received data : Bytes}
      {error : IoError × Nat} {text : String}
      (hphase : call.phase = .receiving handle reads received) :
      Does hexDigest processId path host call (.receive (.error error))
        { host with files := host.files.writeAt handle received.length data }
        (.discarding none text) none
  | remove {streamed : Option Bytes} {error : String} {result : ErrorPayload}
      (hphase : call.phase = .discarding streamed error) :
      Does hexDigest processId path host call (.discard true)
        { host with files := host.files.remove (localStagedPath processId path) }
        (.finished streamed (.error result)) none
  | rename {received : Bytes} {verified : Bool} {outcome : FileOutcome}
      (hphase : call.phase = .renaming received verified)
      (hstaged : (host.files.names (localStagedPath processId path)).isSome) :
      Does hexDigest processId path host call (.rename (.ok ()))
        { host with files := host.files.rename (localStagedPath processId path) path }
        (.finished (some received) (.ok outcome))
        (some ⟨host.files.read (localStagedPath processId path),
          ⟨received.length, hexDigest received, verified, true⟩⟩)

namespace DownloadCall

variable {hexDigest : Bytes → String} {processId : Nat} {path : LocalPath}
  {host host' : LocalHost} {call : DownloadCall} {move : DownloadMove} {phase : DownloadPhase}
  {promotion : Option Promotion}

/-- An operation that touches no file, by a call that does not count on the staged one. -/
theorem Does.leave (hfiles : host'.files = host.files) (hheld : phase.held = none)
    (hstreamed : call.phase.streamed = none ∨ phase.streamed = call.phase.streamed)
    (htested : call.phase.tested = true ∨ phase.tested = false)
    (hsucceeded : phase.succeeded = false) :
    Does hexDigest processId path host call move host' phase none := by
  refine .quiet hfiles (.inl hheld) hstreamed (fun _ hphase => .inl ?_) hsucceeded
  exact htested.resolve_right (by simp [hphase])

/-- An operation that touches no file, by a call that goes on counting on the staged one. -/
theorem Does.pass (hheld : phase.held = call.phase.held)
    (hhandle : phase.handle = none ∨ phase.handle = call.phase.handle)
    (hstreamed : call.phase.streamed = none ∨ phase.streamed = call.phase.streamed)
    (htested : call.phase.tested = true) (hsucceeded : phase.succeeded = false) :
    Does hexDigest processId path host call move host phase none :=
  .quiet rfl (.inr ⟨hheld, hhandle⟩) hstreamed (fun _ _ => .inl htested) hsucceeded

theorem does_of_advance
    (h : call.advance hexDigest processId path host move = some (host', phase, promotion)) :
    Does hexDigest processId path host call move host' phase promotion := by
  cases move with
  | test =>
      simp only [advance] at h
      split at h
      · rename_i hphase
        split at h
        · cases h
          exact .leave rfl rfl (.inl (by rw [hphase]; rfl)) (.inr rfl) rfl
        · rename_i hexists
          cases h
          refine .quiet rfl (.inl rfl) (.inl (by rw [hphase]; rfl)) (fun hkeep _ => .inr ?_) rfl
          simp only [hkeep, and_true, LocalHost.pathExists, Bool.or_eq_true, not_or] at hexists
          simpa using hexists.1
      · cases h
  | makeDirs answer =>
      simp only [advance] at h
      split at h
      · rename_i hphase hparent
        cases h
        exact .leave rfl rfl (.inl (by rw [hphase]; rfl)) (.inl (by rw [hphase]; rfl)) rfl
      · rename_i parent hphase hparent
        cases h
        exact .leave rfl rfl (.inl (by rw [hphase]; rfl)) (.inl (by rw [hphase]; rfl)) rfl
      · rename_i parent error hphase hparent
        cases h
        exact .leave rfl rfl (.inl (by rw [hphase]; rfl)) (.inr rfl) rfl
      · cases h
  | connect answer =>
      simp only [advance] at h
      split at h
      · rename_i hphase
        cases h
        exact .leave rfl rfl (.inl (by rw [hphase]; rfl)) (.inl (by rw [hphase]; rfl)) rfl
      · rename_i error hphase
        cases h
        exact .leave rfl rfl (.inl (by rw [hphase]; rfl)) (.inr rfl) rfl
      · cases h
  | openRemote answer =>
      simp only [advance] at h
      split at h
      · rename_i reads hphase
        cases h
        exact .leave rfl rfl (.inl (by rw [hphase]; rfl)) (.inl (by rw [hphase]; rfl)) rfl
      · rename_i error hphase
        cases h
        exact .leave rfl rfl (.inl (by rw [hphase]; rfl)) (.inr rfl) rfl
      · cases h
  | create answer =>
      simp only [advance] at h
      split at h
      · rename_i reads hphase
        split at h
        · cases h
        · cases h
          exact .create hphase
      · rename_i reads error hphase
        cases h
        exact .leave rfl rfl (.inl (by rw [hphase]; rfl)) (.inr rfl) rfl
      · cases h
  | receive answer =>
      simp only [advance] at h
      split at h
      · rename_i handle received hphase
        cases h
        refine .pass ?_ (.inr ?_) (.inl ?_) ?_ rfl <;> rw [hphase] <;> rfl
      · rename_i handle reads received hphase
        cases h
        refine .pass ?_ (.inr ?_) (.inl ?_) ?_ rfl <;> rw [hphase] <;> rfl
      · rename_i handle error reads received hphase
        cases h
        exact .leave rfl rfl (.inl (by rw [hphase]; rfl)) (.inl (by rw [hphase]; rfl)) rfl
      · rename_i handle chunk reads received _ hphase
        cases h
        exact .write hphase
      · rename_i handle chunk reads received error written _ hphase
        cases h
        exact .tear hphase
      · cases h
  | flush answer =>
      simp only [advance] at h
      split at h
      · rename_i handle received hphase
        cases h
        refine .pass ?_ (.inl rfl) (.inr ?_) ?_ rfl <;> rw [hphase] <;> rfl
      · rename_i handle received error hphase
        cases h
        exact .leave rfl rfl (.inr (by rw [hphase]; rfl)) (.inl (by rw [hphase]; rfl)) rfl
      · cases h
  | verify answer =>
      simp only [advance] at h
      split at h
      · rename_i received remoteDigest hphase
        split at h
        · cases h
          refine .pass ?_ (.inl rfl) (.inr ?_) ?_ rfl <;> rw [hphase] <;> rfl
        · split at h
          · cases h
            exact .leave rfl rfl (.inr (by rw [hphase]; rfl)) (.inl (by rw [hphase]; rfl)) rfl
          · cases h
            refine .pass ?_ (.inl rfl) (.inr ?_) ?_ rfl <;> rw [hphase] <;> rfl
      · rename_i received hphase
        cases h
        refine .pass ?_ (.inl rfl) (.inr ?_) ?_ rfl <;> rw [hphase] <;> rfl
      · cases h
  | rename answer =>
      simp only [advance] at h
      split at h
      · rename_i received verified hphase
        split at h
        · cases h
        · rename_i hnames
          cases h
          refine .rename hphase ?_
          simp only [not_or, Bool.not_eq_true, Option.isNone_eq_false_iff] at hnames
          exact hnames.1
      · rename_i received verified error hphase
        cases h
        exact .leave rfl rfl (.inr (by rw [hphase]; rfl)) (.inr rfl) rfl
      · cases h
  | discard removed =>
      simp only [advance] at h
      split at h
      · rename_i streamed error hphase
        cases removed with
        | true =>
            cases h
            exact .remove hphase
        | false =>
            cases h
            exact .leave rfl rfl (.inr (by rw [hphase]; rfl)) (.inr rfl) rfl
      · cases h

end DownloadCall

namespace Downloads

variable {hexDigest : Bytes → String} {processId : Nat} {path : LocalPath} {s s' : Downloads}

/-- A step of a call, with the call singled out. -/
theorem advance_some {index : Nat} {move : DownloadMove}
    (h : step hexDigest processId path s (.advance index move) = some s') :
    ∃ pre call post host phase promotion, s.calls = pre ++ call :: post ∧
      s.calls.eraseIdx index = pre ++ post ∧ s.calls[index]? = some call ∧
      call.Does hexDigest processId path s.host move host phase promotion ∧
      s' = ⟨host, pre ++ { call with phase } :: post, s.promoted ++ promotion.toList⟩ := by
  simp only [step, Option.bind_eq_bind, Option.bind_eq_some_iff] at h
  obtain ⟨call, hcall, ⟨host, phase, promotion⟩, hadvance, h⟩ := h
  obtain ⟨hlt, hget⟩ := List.getElem?_eq_some_iff.mp hcall
  refine ⟨s.calls.take index, call, s.calls.drop (index + 1), host, phase, promotion, ?_,
    List.eraseIdx_eq_take_drop_succ .., hcall, DownloadCall.does_of_advance hadvance, ?_⟩
  · rw [← hget, ← List.drop_eq_getElem_cons hlt, List.take_append_drop]
  · cases h
    rw [List.set_eq_take_append_cons_drop, if_pos hlt]

end Downloads

/-! A call that has its channel runs `download_staged`, one operation after the other. -/

namespace DownloadCall

open Program

section Remaining

variable (hexDigest : Bytes → String) (processId : Nat) (path : LocalPath)
  (call : DownloadCall)

/-- A transfer, reported as the call reports it. -/
def report (transfer : Transfer TransferOutcome) : FileCall FileOutcome := do
  let outcome ← transfer.mapError classifyError
  return toFileOutcome call.remote outcome none (some path)

def renameStaged (received : Bytes) (verified : Bool) : Transfer TransferOutcome := do
  .ask (.renameLocal (localStagedPath processId path) path) (localReply path)
  return ⟨received.length, hexDigest received, verified, true⟩

def verifyStaged (received : Bytes) : Transfer TransferOutcome := do
  let verified ← confirmDownload call.remote (localStagedPath processId path)
    (hexDigest received) (verifier call.verify)
  renameStaged hexDigest processId path received verified

def flushStaged (received : Bytes) : Transfer TransferOutcome := do
  let staged := localStagedPath processId path
  orDiscardLocal staged (.ask (.flushLocal staged) (localReply staged))
  verifyStaged hexDigest processId path call received

def receiveStaged (reads : Reads SftpError) (received : Bytes) : Transfer TransferOutcome := do
  let data ← receiveReads call.remote (localStagedPath processId path) reads received
  flushStaged hexDigest processId path call data

def createStaged (reads : Reads SftpError) : Transfer TransferOutcome := do
  let staged := localStagedPath processId path
  .ask (.createLocal staged) (localReply staged)
  receiveStaged hexDigest processId path call reads []

/-- What a call still runs of the transfer, once it has its channel. -/
def remaining : DownloadPhase → Option (FileCall FileOutcome)
  | .testing | .preparing | .connecting => none
  | .opening => some (report path call
      (downloadStaged hexDigest processId call.remote path (verifier call.verify)))
  | .creating reads => some (report path call (createStaged hexDigest processId path call reads))
  | .receiving _ reads received =>
      some (report path call (receiveStaged hexDigest processId path call reads received))
  | .flushing _ received =>
      some (report path call (flushStaged hexDigest processId path call received))
  | .verifying received =>
      some (report path call (verifyStaged hexDigest processId path call received))
  | .renaming received verified =>
      some (report path call (renameStaged hexDigest processId path received verified))
  | .discarding _ error => some (report path call
      (discardLocal (localStagedPath processId path) >>= fun _ => .fail error))
  | .finished _ result => some (.ofExcept result)

end Remaining

variable {hexDigest : Bytes → String} {processId : Nat} {path : LocalPath}
  {host host' : LocalHost} {call : DownloadCall} {move : DownloadMove} {phase : DownloadPhase}
  {promotion : Option Promotion} {p : FileCall FileOutcome}

theorem report_continues {α : Type} (op : HostOp) (next : HostOp.Reply op → Transfer α)
    (transfer : α → Transfer TransferOutcome) (reply : HostOp.Reply op) :
    (report path call (.ask op next >>= transfer)).Reaches
      (report path call (next reply >>= transfer)) :=
  .single (.ask op (fun reply => report path call (next reply >>= transfer)) reply)

/-- The verifier's answer, where there is one to ask. -/
theorem verifyStaged_continues (hexDigest : Bytes → String) (processId : Nat) (path : LocalPath)
    (hverify : call.verify = true) (received : Bytes) (reply : Option String) :
    (report path call (verifyStaged hexDigest processId path call received)).Reaches
      (report path call
        (confirmDownload call.remote (localStagedPath processId path) (hexDigest received)
            (some fun _ => .done reply) >>=
          renameStaged hexDigest processId path received)) := by
  rw [verifyStaged, hverify]
  exact report_continues (.sha256 call.remote)
    (fun reply => confirmDownload call.remote (localStagedPath processId path)
      (hexDigest received) (some fun _ => .done reply)) _ reply

theorem remaining_of_reaches {before : DownloadPhase} {p' q : FileCall FileOutcome}
    (hphase : call.phase = before)
    (hp : call.remaining hexDigest processId path call.phase = some p)
    (hbefore : call.remaining hexDigest processId path before = some p')
    (hq : call.remaining hexDigest processId path phase = some q) (hreach : p'.Reaches q) :
    ∃ q, call.remaining hexDigest processId path phase = some q ∧ p.Reaches q := by
  rw [hphase, hbefore, Option.some.injEq] at hp
  exact ⟨q, hq, hp ▸ hreach⟩

/-- An operation of a call is the next operation of what is left of its transfer, or none. -/
theorem remaining_advance
    (h : call.advance hexDigest processId path host move = some (host', phase, promotion))
    (hp : call.remaining hexDigest processId path call.phase = some p) :
    ∃ q, call.remaining hexDigest processId path phase = some q ∧ p.Reaches q := by
  cases move with
  | test =>
      simp only [advance] at h
      split at h
      · rename_i hphase
        rw [hphase] at hp
        cases hp
      · cases h
  | makeDirs answer =>
      simp only [advance] at h
      split at h
      · rename_i hphase _
        rw [hphase] at hp
        cases hp
      · rename_i hphase _
        rw [hphase] at hp
        cases hp
      · rename_i hphase _
        rw [hphase] at hp
        cases hp
      · cases h
  | connect answer =>
      simp only [advance] at h
      split at h
      · rename_i hphase
        rw [hphase] at hp
        cases hp
      · rename_i hphase
        rw [hphase] at hp
        cases hp
      · cases h
  | openRemote answer =>
      simp only [advance] at h
      split at h
      · rename_i reads hphase
        cases h
        exact remaining_of_reaches hphase hp rfl rfl
          (report_continues (.openRemote call.remote) _ _ (.ok reads))
      · rename_i error hphase
        cases h
        exact remaining_of_reaches hphase hp rfl rfl
          (report_continues (.openRemote call.remote) _ _ (.error error))
      · cases h
  | create answer =>
      simp only [advance] at h
      split at h
      · rename_i reads hphase
        split at h
        · cases h
        · cases h
          exact remaining_of_reaches hphase hp rfl rfl
            (report_continues (.createLocal _) _ _ (.ok ()))
      · rename_i reads error hphase
        cases h
        exact remaining_of_reaches hphase hp rfl rfl
          (report_continues (.createLocal _) _ _ (.error error))
      · cases h
  | receive answer =>
      simp only [advance] at h
      split at h
      · rename_i handle received hphase
        cases h
        exact remaining_of_reaches hphase hp rfl rfl .refl
      · rename_i handle reads received hphase
        cases h
        exact remaining_of_reaches hphase hp rfl rfl .refl
      · rename_i handle error reads received hphase
        cases h
        exact remaining_of_reaches hphase hp rfl rfl .refl
      · rename_i handle chunk reads received hchunk hphase
        cases h
        refine remaining_of_reaches hphase hp rfl rfl ?_
        rw [receiveStaged, receiveReads, if_neg hchunk]
        exact report_continues (.writeLocal _ chunk) _ _ (.ok ())
      · rename_i handle chunk reads received error written hchunk hphase
        cases h
        refine remaining_of_reaches hphase hp rfl rfl ?_
        rw [receiveStaged, receiveReads, if_neg hchunk]
        exact report_continues (.writeLocal _ chunk) _ _ (.error error)
      · cases h
  | flush answer =>
      simp only [advance] at h
      split at h
      · rename_i handle received hphase
        cases h
        exact remaining_of_reaches hphase hp rfl rfl
          (report_continues (.flushLocal _) _ _ (.ok ()))
      · rename_i handle received error hphase
        cases h
        exact remaining_of_reaches hphase hp rfl rfl
          (report_continues (.flushLocal _) _ _ (.error error))
      · cases h
  | verify answer =>
      simp only [advance] at h
      split at h
      · rename_i received remoteDigest hphase
        split at h
        · rename_i hverify
          cases h
          refine remaining_of_reaches hphase hp rfl rfl ?_
          rw [verifyStaged, hverify]
          exact .refl
        · rename_i hverify
          have hasked : call.verify = true := by simpa using hverify
          split at h
          · rename_i hdigest
            cases h
            refine remaining_of_reaches hphase hp rfl rfl ?_
            have hreach := verifyStaged_continues hexDigest processId path hasked received
              (some remoteDigest)
            simp only [confirmDownload, done_bind, if_pos hdigest] at hreach
            exact hreach
          · rename_i hdigest
            cases h
            refine remaining_of_reaches hphase hp rfl rfl ?_
            have hreach := verifyStaged_continues hexDigest processId path hasked received
              (some remoteDigest)
            simp only [confirmDownload, done_bind, if_neg hdigest] at hreach
            exact hreach
      · rename_i received hphase
        cases h
        refine remaining_of_reaches hphase hp rfl rfl ?_
        cases hverify : call.verify with
        | false =>
            rw [verifyStaged, hverify]
            exact .refl
        | true => exact verifyStaged_continues hexDigest processId path hverify received none
      · cases h
  | rename answer =>
      simp only [advance] at h
      split at h
      · rename_i received verified hphase
        split at h
        · cases h
        · cases h
          exact remaining_of_reaches hphase hp rfl rfl
            (report_continues (.renameLocal _ path) _ _ (.ok ()))
      · rename_i received verified error hphase
        cases h
        exact remaining_of_reaches hphase hp rfl rfl
          (report_continues (.renameLocal _ path) _ _ (.error error))
      · cases h
  | discard removed =>
      simp only [advance] at h
      split at h
      · rename_i streamed error hphase
        cases h
        exact remaining_of_reaches hphase hp rfl rfl
          (report_continues (.removeLocal _) _ _ (.ok ()))
      · cases h

end DownloadCall

namespace Downloads

variable {hexDigest : Bytes → String} {processId : Nat} {path : LocalPath} {s s' : Downloads}

/-- In any interleaving, and whatever fails, a call that has its channel goes through
`download_staged` operation by operation, and what it returns is what that returns. -/
theorem run_follows_transfer {steps : List DownloadStep} {index : Nat} {call : DownloadCall}
    {p : FileCall FileOutcome}
    (hrun : (machine hexDigest processId path).run s steps = some s')
    (hcall : s.calls[index]? = some call)
    (hp : call.remaining hexDigest processId path call.phase = some p) :
    ∃ call' q, s'.calls[index]? = some call' ∧
      call'.remaining hexDigest processId path call'.phase = some q ∧ p.Reaches q := by
  refine (machine hexDigest processId path).invariant
    (I := fun s => ∃ call' q, s.calls[index]? = some call' ∧
      call'.remaining hexDigest processId path call'.phase = some q ∧ p.Reaches q)
    ?_ ⟨call, p, hcall, hp, .refl⟩ hrun
  intro s step s' hfollows hstep
  obtain ⟨call, q, hcall, hq, hreach⟩ := hfollows
  cases step with
  | call remote overwrite createDirs verify =>
      cases hstep
      refine ⟨call, q, ?_, hq, hreach⟩
      rw [List.getElem?_append_left (List.getElem?_eq_some_iff.mp hcall).1, hcall]
  | other target content =>
      simp only [machine, Downloads.step] at hstep
      split at hstep
      · cases hstep
      · cases hstep
        exact ⟨call, q, hcall, hq, hreach⟩
  | advance other move =>
      simp only [machine, Downloads.step, Option.bind_eq_bind, Option.bind_eq_some_iff] at hstep
      obtain ⟨moved, hmoved, ⟨host, phase, promotion⟩, hadvance, hstep⟩ := hstep
      cases hstep
      by_cases hsame : other = index
      · subst hsame
        cases hmoved.symm.trans hcall
        obtain ⟨r, hr, hstep⟩ := DownloadCall.remaining_advance hadvance hq
        refine ⟨{ call with phase }, r, ?_, hr, hreach.trans hstep⟩
        exact List.getElem?_set_self (List.getElem?_eq_some_iff.mp hcall).1
      · refine ⟨call, q, ?_, hq, hreach⟩
        rw [List.getElem?_set_ne hsame, hcall]

end Downloads
end AiSsh
