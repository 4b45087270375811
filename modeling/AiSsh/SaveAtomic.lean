import AiSsh.Config
import AiSsh.Library.Machine
import AiSsh.Library.Staged
import AiSsh.Library.TextOrder

/-!
Saves of the configuration below one root. Each `save_atomic` call makes the directories,
validates its configuration, opens `config.toml.tmp`, restricts it, writes the TOML text in
parts, syncs the file and renames it to `config.toml`. The temporary name is fixed, so the
calls share it. They interleave between any two of their operations, and any operation may
fail.
-/

namespace AiSsh

open Library

/-- The files below the root that a save touches. -/
inductive ConfigFile
  | config
  | temp
  deriving DecidableEq, Repr

abbrev ConfigFiles := FileTable ConfigFile UInt8

/-- Where a call stands. The number of an open file is that of its handle; a call that has
ended keeps what `config.toml` read right after its rename, which the code never looks at. -/
inductive SavePhase
  | ensuring
  | validating
  | opening
  | restricting (handle : Nat)
  | writing (handle : Nat) (written left : Bytes)
  | renaming (written : Bytes)
  | finished (installed : Option Bytes) (result : Except ConfigError Unit)

/-- What the call counts on in the temporary file. -/
def SavePhase.holding : SavePhase → Option (Holding UInt8)
  | .restricting handle => some ⟨[], some handle⟩
  | .writing handle written _ => some ⟨written, some handle⟩
  | .renaming written => some ⟨written, none⟩
  | _ => none

structure SaveCall where
  config : Config
  phase : SavePhase

/-- The next operation of a call, and its answer. A write reports how many bytes it wrote;
one that fails may have written some. -/
inductive SaveMove
  | ensure (answer : Except IoError Unit)
  | validate (store : KeyStore)
  | openTemp (answer : Except IoError Unit)
  | restrict (answer : Except IoError Unit)
  | write (answer : Except (IoError × Nat) Nat)
  | sync (answer : Except IoError Unit)
  | rename (answer : Except IoError Unit)

/-- What `write_all` reports of a write that takes nothing. -/
def writeZero : IoError := ⟨.other, "failed to write whole buffer"⟩

def SavePhase.failed (error : ConfigError) : SavePhase := .finished none (.error error)

namespace SaveCall

variable (serialize : Config → Except ConfigError Bytes)

/-- One operation of a call. -/
def advance (files : ConfigFiles) (call : SaveCall) :
    SaveMove → Option (ConfigFiles × SavePhase)
  | .ensure answer =>
      match call.phase, answer with
      | .ensuring, .ok () => some (files, .validating)
      | .ensuring, .error error => some (files, .failed (.io error))
      | _, _ => none
  | .validate store =>
      match call.phase, call.config.validate store with
      | .validating, .ok () => some (files, .opening)
      | .validating, .error error => some (files, .failed error)
      | _, _ => none
  | .openTemp answer =>
      match call.phase, answer with
      | .opening, .ok () => some (files.create .temp, .restricting (files.created .temp))
      | .opening, .error error => some (files, .failed (.io error))
      | _, _ => none
  | .restrict answer =>
      match call.phase, answer, serialize call.config with
      | .restricting handle, .ok (), .ok text => some (files, .writing handle [] text)
      | .restricting _, .ok (), .error error => some (files, .failed error)
      | .restricting _, .error error, _ => some (files, .failed (.io error))
      | _, _, _ => none
  | .write answer =>
      match call.phase, answer with
      | .writing _ _ [], _ => none
      | .writing _ _ (_ :: _), .ok 0 => some (files, .failed (.io writeZero))
      | .writing handle written left, .ok count =>
          if count ≤ left.length then
            some (files.writeAt handle written.length (left.take count),
              .writing handle (written ++ left.take count) (left.drop count))
          else none
      | .writing handle written left, .error (error, count) =>
          some (files.writeAt handle written.length (left.take count), .failed (.io error))
      | _, _ => none
  | .sync answer =>
      match call.phase, answer with
      | .writing _ written [], .ok () => some (files, .renaming written)
      | .writing _ _ [], .error error => some (files, .failed (.io error))
      | _, _ => none
  | .rename answer =>
      match call.phase, answer with
      | .renaming _, .ok () =>
          if (files.names .temp).isNone then none
          else some (files.rename .temp .config,
            .finished ((files.rename .temp .config).read .config) (.ok ()))
      | .renaming _, .error error => some (files, .failed (.io error))
      | _, _ => none

end SaveCall

structure Saves where
  files : ConfigFiles
  calls : List SaveCall

/-- A save starts, or one of the calls takes its next step. -/
inductive SaveStep
  | save (config : Config)
  | advance (index : Nat) (move : SaveMove)

namespace Saves

variable (serialize : Config → Except ConfigError Bytes)

def step (s : Saves) : SaveStep → Option Saves
  | .save config => some { s with calls := s.calls ++ [⟨config, .ensuring⟩] }
  | .advance index move => do
      let call ← s.calls[index]?
      let (files, phase) ← call.advance serialize s.files move
      return ⟨files, s.calls.set index { call with phase }⟩

/-- The saves below one root, in any interleaving. -/
def machine : Machine Saves SaveStep := ⟨step serialize⟩

def start (files : ConfigFiles) : Saves := ⟨files, []⟩

/-- `config.toml` is complete: it is the text it was before the saves, or that of a
configuration being saved. A call that has returned `Ok` installed its own. -/
structure Complete (previous : Bytes) (s : Saves) : Prop where
  config : ∃ content, s.files.read .config = some content ∧
    (content = previous ∨ ∃ call ∈ s.calls, serialize call.config = .ok content)
  installed : ∀ call ∈ s.calls, ∀ installed, call.phase = .finished installed (.ok ()) →
    ∃ content, installed = some content ∧ serialize call.config = .ok content

/-- No call opens the temporary file while another one counts on it. -/
def Alone (s : Saves) : SaveStep → Prop
  | .advance _ (.openTemp (.ok ())) => ∀ call ∈ s.calls, call.phase.holding = none
  | _ => True

end Saves

namespace SaveCall

variable {serialize : Config → Except ConfigError Bytes} {files files' : ConfigFiles}
  {call : SaveCall} {move : SaveMove} {phase : SavePhase}

/-- What a call has written and will write is the text of its configuration. -/
def Planned (serialize : Config → Except ConfigError Bytes) (config : Config) :
    SavePhase → Prop
  | .writing _ written left => serialize config = .ok (written ++ left)
  | .renaming written => serialize config = .ok written
  | _ => True

/-- What one operation does, in terms of the temporary file. -/
structure Does (serialize : Config → Except ConfigError Bytes) (files : ConfigFiles)
    (call : SaveCall) (others : List (Option (Holding UInt8))) (files' : ConfigFiles)
    (phase : SavePhase) (published : Option Bytes) : Prop where
  move : Holding.Move .temp .config files others call.phase.holding files' phase.holding published
  planned : Planned serialize call.config phase
  own : ∀ content, published = some content → serialize call.config = .ok content
  installed : ∀ installed, phase = .finished installed (.ok ()) →
    installed = files'.read .config ∧ published.isSome = true
  finished : published.isSome = true → ∃ installed, phase = .finished installed (.ok ())

variable {others : List (Option (Holding UInt8))}

/-- An operation that gives up the temporary file, or has not opened it yet. -/
theorem Does.leave (hholding : phase.holding = none)
    (hplanned : Planned serialize call.config phase)
    (hfinished : ∀ installed, phase ≠ .finished installed (.ok ())) :
    Does serialize files call others files phase none where
  move := by
    rw [hholding]
    exact .leave
  planned := hplanned
  own := nofun
  installed := fun installed h => absurd h (hfinished installed)
  finished := nofun

theorem Does.fail (error : ConfigError) :
    Does serialize files call others files (.failed error) none :=
  .leave rfl trivial nofun

theorem does_of_advance (hplanned : Planned serialize call.config call.phase)
    (halone : move = .openTemp (.ok ()) → ∀ y ∈ others, y = none)
    (h : call.advance serialize files move = some (files', phase)) :
    ∃ published, Does serialize files call others files' phase published := by
  cases move with
  | ensure answer =>
      simp only [advance] at h
      split at h
      · cases h
        exact ⟨none, .leave rfl trivial nofun⟩
      · cases h
        exact ⟨none, .fail _⟩
      · cases h
  | validate store =>
      simp only [advance] at h
      split at h
      · cases h
        exact ⟨none, .leave rfl trivial nofun⟩
      · cases h
        exact ⟨none, .fail _⟩
      · cases h
  | openTemp answer =>
      simp only [advance] at h
      split at h
      · cases h
        exact ⟨none, .create (halone rfl), trivial, nofun, nofun, nofun⟩
      · cases h
        exact ⟨none, .fail _⟩
      · cases h
  | restrict answer =>
      simp only [advance] at h
      split at h
      · rename_i handle text hphase htext
        cases h
        refine ⟨none, ?_, htext, nofun, nofun, nofun⟩
        rw [hphase]
        exact .keep (.inr rfl)
      · cases h
        exact ⟨none, .fail _⟩
      · cases h
        exact ⟨none, .fail _⟩
      · cases h
  | write answer =>
      simp only [advance] at h
      split at h
      · cases h
      · cases h
        exact ⟨none, .fail _⟩
      · rename_i handle written left count _ _ hphase
        split at h
        · cases h
          rw [hphase] at hplanned
          refine ⟨none, ?_, ?_, nofun, nofun, nofun⟩
          · rw [hphase]
            exact .write (left.take count)
          · simpa [Planned] using hplanned
        · cases h
      · rename_i handle written left error count _ hphase
        cases h
        refine ⟨none, ?_, trivial, nofun, nofun, nofun⟩
        rw [hphase]
        exact .tear (left.take count)
      · cases h
  | sync answer =>
      simp only [advance] at h
      split at h
      · rename_i handle written hphase
        cases h
        rw [hphase] at hplanned
        refine ⟨none, ?_, ?_, nofun, nofun, nofun⟩
        · rw [hphase]
          exact .keep (.inl rfl)
        · simpa [Planned] using hplanned
      · cases h
        exact ⟨none, .fail _⟩
      · cases h
  | rename answer =>
      simp only [advance] at h
      split at h
      · rename_i written hphase
        split at h
        · cases h
        · rename_i hnames
          cases h
          rw [hphase] at hplanned
          refine ⟨some written, ?_, trivial, ?_, ?_, fun _ => ⟨_, rfl⟩⟩
          · rw [hphase]
            exact .publish (Option.isSome_iff_ne_none.mpr (by simpa using hnames))
          · intro content hcontent
            cases hcontent
            exact hplanned
          · intro installed hinstalled
            cases hinstalled
            exact ⟨rfl, rfl⟩
      · cases h
        exact ⟨none, .fail _⟩
      · cases h

end SaveCall

namespace Saves

variable {serialize : Config → Except ConfigError Bytes} {previous : Bytes} {s s' : Saves}

def holdings (calls : List SaveCall) : List (Option (Holding UInt8)) :=
  calls.map fun call => call.phase.holding

/-- The temporary file is one call's, with what that call has written so far. -/
structure Saving (serialize : Config → Except ConfigError Bytes) (previous : Bytes)
    (s : Saves) : Prop extends Complete serialize previous s where
  planned : ∀ call ∈ s.calls, SaveCall.Planned serialize call.config call.phase
  sole : SoleHolder .temp s.files (holdings s.calls)

theorem holdings_split (pre post : List SaveCall) (call : SaveCall) :
    holdings (pre ++ call :: post) =
      holdings pre ++ call.phase.holding :: holdings post := by
  simp [holdings]

/-- A step of a call, with the call singled out. -/
theorem advance_some {index : Nat} {move : SaveMove}
    (h : step serialize s (.advance index move) = some s') :
    ∃ pre call post files phase, s.calls = pre ++ call :: post ∧
      call.advance serialize s.files move = some (files, phase) ∧
      s' = ⟨files, pre ++ { call with phase } :: post⟩ := by
  simp only [step, Option.bind_eq_bind, Option.bind_eq_some_iff] at h
  obtain ⟨call, hcall, ⟨files, phase⟩, hadvance, h⟩ := h
  obtain ⟨hlt, hget⟩ := List.getElem?_eq_some_iff.mp hcall
  refine ⟨s.calls.take index, call, s.calls.drop (index + 1), files, phase, ?_, hadvance, ?_⟩
  · rw [← hget, ← List.drop_eq_getElem_cons hlt, List.take_append_drop]
  · cases h
    rw [List.set_eq_take_append_cons_drop, if_pos hlt]

theorem Saving.does (h : Saving serialize previous s) {pre post : List SaveCall}
    {call : SaveCall} {files : ConfigFiles} {phase : SavePhase} {published : Option Bytes}
    (hcalls : s.calls = pre ++ call :: post)
    (hdoes : call.Does serialize s.files (holdings pre ++ holdings post) files phase published) :
    Saving serialize previous ⟨files, pre ++ { call with phase } :: post⟩ := by
  have hsole : SoleHolder .temp s.files
      (holdings pre ++ call.phase.holding :: holdings post) := by
    rw [← holdings_split, ← hcalls]
    exact h.sole
  have hread := hsole.read_target (by decide) hdoes.move
  have hmem {other : SaveCall} (hother : other ∈ pre ++ post) : other ∈ s.calls :=
    hcalls ▸ mem_middle.mpr (.inr hother)
  refine
    { config := ?_
      installed := ?_
      planned := ?_
      sole := ?_ }
  · cases hpublished : published with
    | none =>
        obtain ⟨content, hcontent, hfrom⟩ := h.config
        rw [hpublished] at hread
        refine ⟨content, hread.trans hcontent, hfrom.imp_right ?_⟩
        intro hcall
        obtain ⟨other, hother, htext⟩ := hcall
        cases mem_middle.mp (hcalls ▸ hother) with
        | inl hsame =>
            subst hsame
            exact ⟨_, mem_middle.mpr (.inl rfl), htext⟩
        | inr hother => exact ⟨other, mem_middle.mpr (.inr hother), htext⟩
    | some content =>
        rw [hpublished] at hread
        exact ⟨content, hread, .inr ⟨_, mem_middle.mpr (.inl rfl), hdoes.own content hpublished⟩⟩
  · intro other hother installed hphase
    cases mem_middle.mp hother with
    | inl hsame =>
        subst hsame
        obtain ⟨rfl, hsome⟩ := hdoes.installed installed hphase
        obtain ⟨content, hcontent⟩ := Option.isSome_iff_exists.mp hsome
        rw [hcontent] at hread
        exact ⟨content, hread, hdoes.own content hcontent⟩
    | inr hother => exact h.installed other (hmem hother) installed hphase
  · intro other hother
    cases mem_middle.mp hother with
    | inl hsame =>
        subst hsame
        exact hdoes.planned
    | inr hother => exact h.planned other (hmem hother)
  · rw [holdings_split]
    exact hsole.move hdoes.move

theorem Saving.step (h : Saving serialize previous s) {step : SaveStep} (halone : Alone s step)
    (hstep : Saves.step serialize s step = some s') : Saving serialize previous s' := by
  cases step with
  | save config =>
      cases hstep
      refine
        { config := ?_
          installed := ?_
          planned := List.forall_mem_append.mpr
            ⟨h.planned, List.forall_mem_singleton.mpr trivial⟩
          sole := ?_ }
      · obtain ⟨content, hcontent, hfrom⟩ := h.config
        refine ⟨content, hcontent, hfrom.imp_right ?_⟩
        intro hcall
        obtain ⟨call, hcall, htext⟩ := hcall
        exact ⟨call, List.mem_append_left _ hcall, htext⟩
      · refine List.forall_mem_append.mpr ⟨h.installed, List.forall_mem_singleton.mpr ?_⟩
        intro installed hphase
        cases hphase
      · simpa [holdings, SavePhase.holding] using h.sole.join
  | advance index move =>
      obtain ⟨pre, call, post, files, phase, hcalls, hadvance, rfl⟩ := advance_some hstep
      have hcall : call ∈ s.calls := hcalls ▸ mem_middle.mpr (.inl rfl)
      have hothers (hopen : move = .openTemp (.ok ())) (y : Option (Holding UInt8))
          (hy : y ∈ holdings pre ++ holdings post) : y = none := by
        rw [hopen] at halone
        rw [holdings, holdings, ← List.map_append] at hy
        obtain ⟨other, hother, rfl⟩ := List.mem_map.mp hy
        exact halone other (hcalls ▸ mem_middle.mpr (.inr hother))
      obtain ⟨published, hdoes⟩ :=
        SaveCall.does_of_advance (h.planned call hcall) hothers hadvance
      exact h.does hcalls hdoes

theorem saving_start {files : ConfigFiles} (hstart : files.read .config = some previous) :
    Saving serialize previous (start files) where
  config := ⟨previous, hstart, .inl rfl⟩
  installed := nofun
  planned := nofun
  sole := ⟨Nat.zero_le 1, nofun⟩

/-- In every run of the saves in which none opens the temporary file while another one counts
on it, `config.toml` is complete all along. -/
theorem config_stays_complete {files : ConfigFiles} {steps : List SaveStep}
    (hstart : files.read .config = some previous)
    (halone : (machine serialize).Meets Alone (start files) steps)
    (hrun : (machine serialize).run (start files) steps = some s) :
    Complete serialize previous s := by
  have hsaving := (machine serialize).invariant_under
    (I := fun s => Saving serialize previous s)
    (fun _ _ _ h halone hstep => h.step halone hstep) (saving_start hstart) halone hrun
  exact hsaving.toComplete

instance decidableAlone (s : Saves) : DecidablePred (Alone s) := by
  intro step
  simp only [Alone]
  split <;> infer_instance

def tomlLine (key value : String) : Bytes := [key, " = ", value, "\n"].flatMap textBytes

/-- A configuration without targets as `toml::to_string_pretty` writes it. -/
def tomlText (config : Config) : Bytes :=
  tomlLine "version" (toString config.version) ++
  tomlLine "retention_days" (toString config.retentionDays) ++
  tomlLine "idle_timeout_seconds" (toString config.idleTimeoutSeconds) ++
  tomlLine "connect_timeout_seconds" (toString config.connectTimeoutSeconds) ++
  tomlLine "keepalive_seconds" (toString config.keepaliveSeconds) ++
  tomlLine "recording_limit_mib" (toString config.recordingLimitMib) ++
  tomlLine "reconnect_attempts" (toString config.reconnectAttempts) ++
  tomlLine "reconnect_backoff_seconds" (toString config.reconnectBackoffSeconds) ++
  tomlLine "quit_daemon_on_app_exit" (toString config.quitDaemonOnAppExit) ++
  tomlLine "launch_at_login" (toString config.launchAtLogin) ++
  tomlLine "targets" "[]"

def untargeted (config : Config) : Except ConfigError Bytes :=
  if config.targets = [] then .ok (tomlText config) else .error (.serialize "targets")

theorem tomlText_ne_nil (config : Config) : tomlText config ≠ [] := by
  have hline : tomlLine "targets" "[]" ≠ [] := by decide
  exact List.append_ne_nil_of_right_ne_nil _ hline

theorem untargeted_ne_nil (config : Config) : untargeted config ≠ .ok [] := by
  rw [untargeted]
  split
  · exact fun h => tomlText_ne_nil config (Except.ok.inj h)
  · exact nofun

def savedFiles (text : Bytes) : ConfigFiles :=
  (FileTable.empty.create .config).setContents 0 text

theorem read_savedFiles (text : Bytes) : (savedFiles text).read .config = some text := rfl

def shorterRetention : Config := { Config.defaultConfig with retentionDays := 7 }

/-- The steps of a call up to the restriction of the temporary file. -/
def opens (index : Nat) : List SaveStep :=
  [.advance index (.ensure (.ok ())), .advance index (.validate emptyKeyStore),
    .advance index (.openTemp (.ok ())), .advance index (.restrict (.ok ()))]

/-- The steps that write the text of `config` in two parts. -/
def writes (index : Nat) (config : Config) : List SaveStep :=
  [.advance index (.write (.ok 100)),
    .advance index (.write (.ok ((tomlText config).length - 100))),
    .advance index (.sync (.ok ()))]

def renames (index : Nat) : SaveStep := .advance index (.rename (.ok ()))

/-- Two saves, one after the other. -/
def inTurn : List SaveStep :=
  [.save shorterRetention] ++ opens 0 ++ writes 0 shorterRetention ++ [renames 0] ++
    [.save .defaultConfig] ++ opens 1 ++ writes 1 .defaultConfig ++ [renames 1]

def defaultText : Bytes := tomlText .defaultConfig

theorem config_stays_complete_inTurn :
    ∃ s, (machine untargeted).run (start (savedFiles defaultText)) inTurn = some s ∧
      s.files.read .config = some defaultText ∧ Complete untargeted defaultText s := by
  have hall : (((machine untargeted).run (start (savedFiles defaultText)) inTurn).any
      fun s => s.files.read .config == some defaultText) = true := by decide +kernel
  obtain ⟨s, hrun, hread⟩ := (Option.any_eq_true _ _).mp hall
  exact ⟨s, hrun, eq_of_beq hread,
    config_stays_complete (read_savedFiles _) (by decide +kernel) hrun⟩

/-- The second save truncates the text that the first one then installs. -/
def overlapping : List SaveStep :=
  [.save shorterRetention, .save .defaultConfig] ++ opens 0 ++ writes 0 shorterRetention ++
    opens 1 ++ [renames 0]

/-- The call has installed an empty file, and reports success. -/
def installedNothing : SavePhase → Bool
  | .finished (some []) (.ok ()) => true
  | _ => false

theorem finished_of_installedNothing {phase : SavePhase} (h : installedNothing phase = true) :
    phase = .finished (some []) (.ok ()) := by
  simp only [installedNothing] at h
  split at h
  · rfl
  · cases h

theorem overlapping_save_truncates_config :
    ∃ s, (machine untargeted).run (start (savedFiles defaultText)) overlapping = some s ∧
      s.files.read .config = some [] ∧
      (∃ call ∈ s.calls, call.phase = .finished (some []) (.ok ())) ∧
      ¬ Complete untargeted defaultText s := by
  have hall : (((machine untargeted).run (start (savedFiles defaultText)) overlapping).any
      fun s => s.files.read .config == some [] &&
        s.calls.any fun call => installedNothing call.phase) = true := by decide +kernel
  obtain ⟨s, hrun, hall⟩ := (Option.any_eq_true _ _).mp hall
  rw [Bool.and_eq_true, List.any_eq_true] at hall
  obtain ⟨hread, call, hcall, hphase⟩ := hall
  refine ⟨s, hrun, eq_of_beq hread, ⟨call, hcall, ?_⟩, fun hcomplete => ?_⟩
  · exact finished_of_installedNothing hphase
  · obtain ⟨content, hcontent, hfrom⟩ := hcomplete.config
    cases (eq_of_beq hread).symm.trans hcontent
    cases hfrom with
    | inl hprevious => exact tomlText_ne_nil _ hprevious.symm
    | inr hcall =>
        obtain ⟨other, -, htext⟩ := hcall
        exact untargeted_ne_nil _ htext

end Saves
end AiSsh
