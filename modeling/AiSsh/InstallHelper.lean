import AiSsh.Hosts
import AiSsh.Library.Program

/-!
The installation of a bundled helper. The directory holds the installed helper, the file a
new one is staged in, and the helpers that earlier replacements parked. Unix renames the
staged file over the destination. Windows refuses to overwrite or delete a program that
runs but lets it be renamed, so there the previous helper is moved aside first. Any
operation may fail.
-/

namespace AiSsh

open Library Program

inductive Platform
  | unix
  | windows
  deriving DecidableEq, Repr

abbrev FileName := List Char

/-- A file of the directory; a process that runs it holds it. -/
structure HelperFile where
  content : Bytes
  mode : Nat
  held : Bool
  deriving DecidableEq, Repr

abbrev HelperDirectory := FileName → Option HelperFile

/-- The function that makes a call. The same call of another function may be answered
differently. -/
inductive CallSite
  | sweepDisplaced
  | installHelper
  | replaceHelper
  deriving DecidableEq, Repr

inductive InstallOp
  | readDir
  | exists (site : CallSite) (name : FileName)
  | readSource
  | read (name : FileName)
  | copy (target : FileName)
  | setPermissions (name : FileName) (mode : Nat)
  | rename (old new : FileName)
  | remove (site : CallSite) (name : FileName)
  deriving DecidableEq, Repr

abbrev InstallOp.Reply : InstallOp → Type
  | .readDir => Except IoError (List (Except IoError FileName))
  | .exists _ _ => Bool
  | .readSource | .read _ => Except IoError Bytes
  | .copy _ | .setPermissions _ _ | .rename _ _ | .remove _ _ => Except IoError Unit

structure InstallError where
  context : Option String
  error : IoError
  deriving DecidableEq, Repr

abbrev Installer : Type → Type := Program InstallOp InstallOp.Reply InstallError

/-- The helpers of `install_bundled_helpers`. -/
inductive Helper
  | aisshd
  | aisshMcp
  deriving DecidableEq, Repr

def Helper.name : Helper → FileName
  | .aisshd => "aisshd".toList
  | .aisshMcp => "aissh-mcp".toList

def executableSuffix : Platform → FileName
  | .unix => []
  | .windows => ".exe".toList

def installedHelperName (platform : Platform) (helper : Helper) : FileName :=
  helper.name ++ executableSuffix platform

/-- What stands before the last dot of a name, or the name. -/
def fileStem (name : FileName) : FileName :=
  match (name.reverse.dropWhile (· != '.')).drop 1 with
  | [] => name
  | stem => stem.reverse

def withExtension (name extension : FileName) : FileName := fileStem name ++ '.' :: extension

/-- What the name of a parked helper begins with. -/
def parkedPrefix (destination : FileName) : FileName := destination ++ ".replaced-".toList

/-- One call of `install_helper`. -/
structure HelperInstall where
  platform : Platform
  helper : Helper
  directory : String
  source : String
  processId : Nat
  stamp : Nat
  deriving Repr

namespace HelperInstall

variable (call : HelperInstall)

def destination : FileName := installedHelperName call.platform call.helper

def temp : FileName := withExtension call.destination "installing".toList

def displacedPath : FileName :=
  parkedPrefix call.destination ++ Nat.toDigits 10 call.processId ++
    '-' :: Nat.toDigits 10 call.stamp

def display (name : FileName) : String :=
  call.directory ++ (if call.platform = .windows then "\\" else "/") ++ .ofList name

end HelperInstall

/-- The answer of the file system, with the context the caller gives its errors. -/
def answered (context : Option String) : Except IoError α → Installer α
  | .ok value => .done value
  | .error error => .fail ⟨context, error⟩

/-- The removals of a sweep. What they answer is dropped. -/
def sweepEntries (parked : FileName) : List (Except IoError FileName) → Installer Unit
  | [] => .done ()
  | .ok name :: entries =>
      if parked <+: name then
        .ask (.remove .sweepDisplaced name) fun _ => sweepEntries parked entries
      else sweepEntries parked entries
  | .error _ :: entries => sweepEntries parked entries

def sweepDisplaced (destination : FileName) : Platform → Installer Unit
  | .unix => .done ()
  | .windows =>
      .ask .readDir fun
        | .ok entries => sweepEntries (parkedPrefix destination) entries
        | .error _ => .done ()

def restrictHelper (name : FileName) : Platform → Installer Unit
  | .unix => .ask (.setPermissions name 0o700) (answered none)
  | .windows => .done ()

/-- Whether the destination holds the bytes of the source already. -/
def isInstalled (destination : FileName) : Installer Bool := do
  if ← .ask (.exists .installHelper destination) .done then
    let source ← .ask .readSource (answered none)
    let installed ← .ask (.read destination) (answered none)
    return source == installed
  else
    return false

def moveAside (call : HelperInstall) : Installer Unit := do
  if ← .ask (.exists .replaceHelper call.destination) .done then
    .ask (.rename call.destination call.displacedPath)
      (answered (some ("cannot move the previous helper " ++ call.display call.destination ++
        " aside")))

def takePlace (call : HelperInstall) : Installer Unit := do
  .ask (.rename call.temp call.destination) (answered none)
  .ask (.remove .replaceHelper call.displacedPath) fun _ => .done ()

def replaceHelper (call : HelperInstall) : Installer Unit :=
  match call.platform with
  | .unix => .ask (.rename call.temp call.destination) (answered none)
  | .windows => do
      moveAside call
      takePlace call

def copyHelper (call : HelperInstall) : Installer Unit :=
  .ask (.copy call.temp)
    (answered (some ("cannot copy helper " ++ call.source ++ " to " ++ call.display call.temp)))

def stageHelper (call : HelperInstall) : Installer Unit := do
  copyHelper call
  restrictHelper call.temp call.platform

/-- The part of `install_helper` after the comparison. -/
def placeHelper (call : HelperInstall) : Installer Unit := do
  stageHelper call
  replaceHelper call

def installHelper (call : HelperInstall) : Installer Unit := do
  sweepDisplaced call.destination call.platform
  if ← isInstalled call.destination then
    restrictHelper call.destination call.platform
  else
    placeHelper call

def missingFile : IoError := ⟨.notFound, "os error 2"⟩

def fileInUse : IoError := ⟨.permissionDenied, "os error 5"⟩

/-- Windows does not let a program that runs be overwritten or removed. -/
def Platform.refuses (platform : Platform) (d : HelperDirectory) (name : FileName) : Bool :=
  platform = .windows && (d name).any HelperFile.held

def HelperDirectory.move (d : HelperDirectory) (old new : FileName) : HelperDirectory :=
  Function.update (Function.update d old none) new (d old)

/-- The bundled file, and how the file system answers. A fault is an error without a reason
in the directory; a copy that fails may have written some bytes. -/
structure InstallHost (platform : Platform) where
  source : Option HelperFile
  listing : Except IoError (List (Except IoError FileName))
  fault : InstallOp → Option IoError
  copied : Option Nat

namespace InstallHost

variable {platform : Platform} (host : InstallHost platform)

/-- What an operation answers that finds no file. -/
def missing (op : InstallOp) : IoError := (host.fault op).getD missingFile

def readFile (op : InstallOp) : Option HelperFile → Except IoError Bytes
  | none => .error (host.missing op)
  | some file => (host.fault op).elim (.ok file.content) .error

/-- Neither a fault nor a process that holds `name` stands in the way. -/
def Allows (op : InstallOp) (d : HelperDirectory) (name : FileName) : Prop :=
  host.fault op = none ∧ platform.refuses d name = false

/-- An operation that takes or overwrites `name` and leaves `after` if it succeeds. -/
def attempt (op : InstallOp) (d : HelperDirectory) (name : FileName)
    (after : HelperDirectory) : Except IoError Unit × HelperDirectory :=
  match host.fault op with
  | some error => (.error error, d)
  | none => if platform.refuses d name then (.error fileInUse, d) else (.ok (), after)

def copyTo (d : HelperDirectory) (target : FileName) (source : HelperFile) :
    Except IoError Unit × HelperDirectory :=
  match host.fault (.copy target), host.copied with
  | some error, some count =>
      if platform.refuses d target then (.error error, d)
      else (.error error, Function.update d target
        (some { source with content := source.content.take count, held := false }))
  | _, _ =>
      host.attempt (.copy target) d target
        (Function.update d target (some { source with held := false }))

def answer : Handler InstallOp InstallOp.Reply HelperDirectory
  | d, .readDir => (host.listing, d)
  | d, .exists site name =>
      ((host.fault (.exists site name)).isNone && (d name).isSome, d)
  | d, .readSource => (host.readFile .readSource host.source, d)
  | d, .read name => (host.readFile (.read name) (d name), d)
  | d, .copy target =>
      match host.source with
      | some source => host.copyTo d target source
      | none => (.error (host.missing (.copy target)), d)
  | d, .setPermissions name mode =>
      match d name, host.fault (.setPermissions name mode) with
      | some file, none => (.ok (), Function.update d name (some { file with mode }))
      | some _, some error => (.error error, d)
      | none, _ => (.error (host.missing (.setPermissions name mode)), d)
  | d, .rename old new =>
      match d old with
      | some _ => host.attempt (.rename old new) d new (d.move old new)
      | none => (.error (host.missing (.rename old new)), d)
  | d, .remove site name =>
      match d name with
      | some _ => host.attempt (.remove site name) d name (Function.update d name none)
      | none => (.error (host.missing (.remove site name)), d)

/-- What the comparison with the bundled file yields. It fails where a read does. -/
def compares (d : HelperDirectory) (destination : FileName) : Except IoError Bool :=
  if (host.fault (.exists .installHelper destination)).isNone && (d destination).isSome then do
    let source ← host.readFile .readSource host.source
    let installed ← host.readFile (.read destination) (d destination)
    return source == installed
  else
    return false

end InstallHost

section Names

variable (call : HelperInstall)

theorem parked_displacedPath : parkedPrefix call.destination <+: call.displacedPath := by
  rw [HelperInstall.displacedPath, List.append_assoc]
  exact List.prefix_append _ _

theorem not_parked_destination : ¬ parkedPrefix call.destination <+: call.destination := by
  intro h
  have hlength := h.length_le
  simp only [parkedPrefix, List.length_append] at hlength
  exact absurd hlength (by simp)

theorem not_parked_temp : ¬ parkedPrefix call.destination <+: call.temp := by
  rw [HelperInstall.temp, HelperInstall.destination]
  cases call.platform <;> cases call.helper <;> decide

theorem temp_ne_destination : call.temp ≠ call.destination := by
  rw [HelperInstall.temp, HelperInstall.destination]
  cases call.platform <;> cases call.helper <;> decide

theorem displacedPath_ne_destination : call.displacedPath ≠ call.destination :=
  fun h => not_parked_destination call (h ▸ parked_displacedPath call)

theorem displacedPath_ne_temp : call.displacedPath ≠ call.temp :=
  fun h => not_parked_temp call (h ▸ parked_displacedPath call)

end Names

section Operations

variable {platform : Platform} {host : InstallHost platform} {d : HelperDirectory}
  {name : FileName}

theorem move_new (d : HelperDirectory) (old new : FileName) : d.move old new new = d old :=
  Function.update_self _ _ _

theorem move_old {old new : FileName} (h : old ≠ new) : d.move old new old = none := by
  rw [HelperDirectory.move, Function.update_of_ne h, Function.update_self]

theorem move_other {old new : FileName} (hold : name ≠ old) (hnew : name ≠ new) :
    d.move old new name = d name := by
  rw [HelperDirectory.move, Function.update_of_ne hnew, Function.update_of_ne hold]

/-- What an attempt can do. -/
theorem attempt_cases (host : InstallHost platform) (op : InstallOp) (d : HelperDirectory)
    (name : FileName) (after : HelperDirectory) :
    (host.Allows op d name ∧ host.attempt op d name after = (.ok (), after)) ∨
      ¬ host.Allows op d name ∧ ∃ error, host.attempt op d name after = (.error error, d) := by
  simp only [InstallHost.Allows, InstallHost.attempt]
  cases host.fault op with
  | some error => exact .inr ⟨by simp, error, rfl⟩
  | none =>
      cases hrefuses : platform.refuses d name with
      | true => exact .inr ⟨by simp, fileInUse, rfl⟩
      | false => exact .inl ⟨⟨rfl, rfl⟩, rfl⟩

theorem attempt_allowed {op : InstallOp} (h : host.Allows op d name) (after : HelperDirectory) :
    host.attempt op d name after = (.ok (), after) :=
  (attempt_cases host op d name after).elim And.right fun hnot => absurd h hnot.1

theorem rename_cases (host : InstallHost platform) (d : HelperDirectory) (old new : FileName) :
    ((d old).isSome ∧ host.Allows (.rename old new) d new ∧
        host.answer d (.rename old new) = (.ok (), d.move old new)) ∨
      ¬ ((d old).isSome ∧ host.Allows (.rename old new) d new) ∧
        ∃ error, host.answer d (.rename old new) = (.error error, d) := by
  simp only [InstallHost.answer]
  cases d old with
  | none => exact .inr ⟨by simp, _, rfl⟩
  | some file =>
      cases attempt_cases host (.rename old new) d new (d.move old new) with
      | inl h => exact .inl ⟨rfl, h⟩
      | inr h => exact .inr ⟨fun hboth => h.1 hboth.2, h.2⟩

theorem remove_cases (host : InstallHost platform) (d : HelperDirectory) (site : CallSite)
    (name : FileName) :
    (platform.refuses d name = false ∧
        (host.answer d (.remove site name)).2 = Function.update d name none) ∨
      (host.answer d (.remove site name)).2 = d := by
  simp only [InstallHost.answer]
  split
  · cases attempt_cases host (.remove site name) d name (Function.update d name none) with
    | inl h => exact .inl ⟨h.1.2, congrArg Prod.snd h.2⟩
    | inr h =>
        obtain ⟨error, hanswer⟩ := h.2
        exact .inr (congrArg Prod.snd hanswer)
  · exact .inr rfl

theorem remove_other {other : FileName} {site : CallSite} (h : other ≠ name) :
    (host.answer d (.remove site name)).2 other = d other := by
  cases remove_cases host d site name with
  | inl hremoved => rw [hremoved.2, Function.update_of_ne h]
  | inr hsame => rw [hsame]

/-- Nothing that is held comes or goes with a removal. -/
theorem remove_refuses (host : InstallHost platform) (d : HelperDirectory) (site : CallSite)
    (name other : FileName) :
    platform.refuses (host.answer d (.remove site name)).2 other = platform.refuses d other := by
  cases remove_cases host d site name with
  | inr hsame => rw [hsame]
  | inl hremoved =>
      by_cases hother : other = name
      · rw [hother, hremoved.1, hremoved.2]
        simp [Platform.refuses]
      · rw [Platform.refuses, Platform.refuses, hremoved.2, Function.update_of_ne hother]

theorem copy_allowed {target : FileName} {source : HelperFile} (hsource : host.source = some source)
    (h : host.Allows (.copy target) d target) :
    host.answer d (.copy target) =
      (.ok (), Function.update d target (some { source with held := false })) := by
  simp only [InstallHost.answer, InstallHost.copyTo, hsource, h.1, attempt_allowed h]

theorem copy_cases (host : InstallHost platform) (d : HelperDirectory) (target : FileName) :
    (∃ source, host.source = some source ∧ host.Allows (.copy target) d target ∧
        host.answer d (.copy target) =
          (.ok (), Function.update d target (some { source with held := false }))) ∨
      ¬ (host.source.isSome ∧ host.Allows (.copy target) d target) ∧
        ∃ error d', host.answer d (.copy target) = (.error error, d') ∧
          ∀ name, name ≠ target → d' name = d name := by
  cases hsource : host.source with
  | none =>
      right
      simp only [InstallHost.answer, hsource]
      exact ⟨by simp, _, d, rfl, fun _ _ => rfl⟩
  | some source =>
      by_cases hallows : host.Allows (.copy target) d target
      · exact .inl ⟨source, rfl, hallows, copy_allowed hsource hallows⟩
      · right
        refine ⟨fun hboth => hallows hboth.2, ?_⟩
        simp only [InstallHost.answer, hsource, InstallHost.copyTo]
        split
        · split
          · exact ⟨_, d, rfl, fun _ _ => rfl⟩
          · exact ⟨_, _, rfl, fun name hname => Function.update_of_ne hname _ _⟩
        · obtain ⟨error, hanswer⟩ :=
            ((attempt_cases host _ d target _).resolve_left fun h => hallows h.1).2
          exact ⟨error, d, hanswer, fun _ _ => rfl⟩

theorem setPermissions_cases (host : InstallHost platform) (d : HelperDirectory)
    (name : FileName) (mode : Nat) :
    (∃ file, d name = some file ∧ host.answer d (.setPermissions name mode) =
        (.ok (), Function.update d name (some { file with mode }))) ∨
      ∃ error, host.answer d (.setPermissions name mode) = (.error error, d) := by
  simp only [InstallHost.answer]
  split
  · rename_i file hfile hfault
    exact .inl ⟨file, hfile, rfl⟩
  · exact .inr ⟨_, rfl⟩
  · exact .inr ⟨_, rfl⟩

end Operations

end AiSsh
