import AiSsh.Requests
import AiSsh.SaveAtomic

/-!
The settings save of the desktop. `config_save` loads the configuration in force, saves the
new one, brings the login entry in line with it, and asks the daemon to load it. Only a
failure at the login entry is compensated. Every operation may fail, and the answers of all
of them are inputs.
-/

namespace AiSsh

open Library

namespace SaveCall

variable (serialize : Config → Except ConfigError Bytes)

/-- The operations of one call, one after the other. -/
def runs (files : ConfigFiles) (call : SaveCall) : List SaveMove → Option (ConfigFiles × SaveCall)
  | [] => some (files, call)
  | move :: moves => do
      let (files, phase) ← call.advance serialize files move
      runs files { call with phase } moves

end SaveCall

/-- What a call has returned. -/
def SavePhase.result : SavePhase → Option (Except ConfigError Unit)
  | .finished _ result => some result
  | _ => none

/-- A `save_atomic` call with the answers to its operations. -/
def saveAtomic (serialize : Config → Except ConfigError Bytes) (files : ConfigFiles)
    (config : Config) (moves : List SaveMove) : Option (ConfigFiles × Except ConfigError Unit) := do
  let (files, call) ← SaveCall.runs serialize files ⟨config, .ensuring⟩ moves
  let result ← call.phase.result
  return (files, result)

/-- The answers of the login entry: to the query, and to the change. A change that fails may
leave the entry either way. -/
structure LoginAnswers where
  query : Except String Unit
  change : Except (String × Bool) Unit

/-- `set_autostart`, with what the login entry is after it. -/
def setAutostart (answers : LoginAnswers) (entry enabled : Bool) : Bool × Except String Unit :=
  match answers.query with
  | .error error => (entry, .error error)
  | .ok () =>
      if entry = enabled then (entry, .ok ())
      else
        match answers.change with
        | .ok () => (enabled, .ok ())
        | .error (error, left) => (left, .error error)

/-- How a process reads the configuration: an error of its file operations, and its keys. -/
structure LoadAnswers where
  failed : Option ConfigError
  store : KeyStore

/-- The call to the daemon fails before the daemon takes the request, or the daemon loads
the file and its reply is delivered or lost. -/
inductive ReloadAnswers
  | lost (error : String)
  | taken (load : LoadAnswers) (reply : Except String Unit)

/-- What a settings save can change. A daemon that is down has no configuration. -/
structure Settings where
  files : ConfigFiles
  entry : Bool
  daemon : Option Config

/-- The answers to all operations of one `config_save`. -/
structure SaveAnswers where
  load : LoadAnswers
  save : List SaveMove
  login : LoginAnswers
  restore : List SaveMove
  restoreLogin : LoginAnswers
  reload : ReloadAnswers

/-- What `config_save` leaves and returns. The outcome of the compensating calls is dropped
by the code. -/
structure SaveOutcome where
  settings : Settings
  result : Except String ResponseData
  compensated : Bool

section ConfigSave

variable (serialize : Config → Except ConfigError Bytes)
  (parse : Bytes → Except ConfigError Config) (display : ConfigError → String)

/-- The text of `config.toml`, as a process reads and parses it. -/
def parsed (answers : LoadAnswers) (text : Option Bytes) : Except ConfigError Config :=
  match answers.failed, text with
  | some error, _ => .error error
  | none, none => .error (.io ⟨.notFound, "No such file or directory (os error 2)"⟩)
  | none, some text => parse text

def loadConfig (answers : LoadAnswers) (text : Option Bytes) : Except ConfigError Config :=
  Config.load (parsed parse answers text) answers.store

/-- `ReloadConfig`, with the configuration of the daemon after it. -/
def callReload (answers : ReloadAnswers) (text : Option Bytes) (daemon : Option Config) :
    Option (Option Config × Except String ResponseData) :=
  match answers, daemon with
  | .lost error, daemon => some (daemon, .error error)
  | .taken _ _, none => none
  | .taken load reply, some current =>
      match loadConfig parse load text, reply with
      | .ok config, .ok () => some (some config, .ok .ack)
      | .ok config, .error error => some (some config, .error error)
      | .error error, .ok () =>
          some (some current, .error (ErrorPayload.new "CONFIG_INVALID" (display error)).display)
      | .error _, .error error => some (some current, .error error)

def configSave (answers : SaveAnswers) (config : Config) (s : Settings) : Option SaveOutcome :=
  match loadConfig parse answers.load (s.files.read .config) with
  | .error error => some ⟨s, .error (display error), true⟩
  | .ok previous => do
      let (files, saved) ← saveAtomic serialize s.files config answers.save
      match saved with
      | .error error => return ⟨{ s with files }, .error (display error), true⟩
      | .ok () =>
          match setAutostart answers.login s.entry config.launchAtLogin with
          | (entry, .error error) => do
              let (files, saved) ← saveAtomic serialize files previous answers.restore
              let (entry, set) := setAutostart answers.restoreLogin entry previous.launchAtLogin
              return ⟨{ s with files, entry },
                .error ("cannot update launch at login: " ++ error), saved.isOk && set.isOk⟩
          | (entry, .ok ()) => do
              let (daemon, result) ←
                callReload parse display answers.reload (files.read .config) s.daemon
              return ⟨⟨files, entry, daemon⟩, result, true⟩

end ConfigSave

/-! What a whole save does. -/

@[simp] theorem isOk_ok {ε α : Type} (a : α) : (Except.ok a : Except ε α).isOk = true := rfl

@[simp] theorem isOk_error {ε α : Type} (e : ε) : (Except.error e : Except ε α).isOk = false :=
  rfl

/-- An operation that goes well: its answer is no error, and what the call itself checks or
computes at it is none either. -/
def SaveMove.succeeds (serialize : Config → Except ConfigError Bytes) (config : Config) :
    SaveMove → Bool
  | .ensure answer | .openTemp answer | .sync answer | .rename answer => answer.isOk
  | .validate store => (config.validate store).isOk
  | .restrict answer => answer.isOk && (serialize config).isOk
  | .write answer => match answer with
    | .ok count => count != 0
    | .error _ => false

namespace SaveCall

variable {serialize : Config → Except ConfigError Bytes} {files files' : ConfigFiles}
  {call call' : SaveCall} {move : SaveMove} {moves : List SaveMove} {phase : SavePhase}

section Succeeds

attribute [local simp] SaveMove.succeeds SavePhase.result SavePhase.failed

/-- After an operation a call has failed exactly if the operation did. -/
theorem succeeds_of_advance (h : call.advance serialize files move = some (files', phase)) :
    move.succeeds serialize call.config = true ↔ ∀ error, phase.result ≠ some (.error error) := by
  cases move with
  | ensure answer | openTemp answer | sync answer =>
      simp only [advance] at h
      split at h <;> cases h <;> simp
  | validate store =>
      simp only [advance] at h
      split at h
      · rename_i hvalid
        cases h
        simp [hvalid]
      · rename_i error hvalid
        cases h
        simp [hvalid]
      · cases h
  | restrict answer =>
      simp only [advance] at h
      split at h
      · rename_i handle text hphase htext
        cases h
        simp [htext]
      · rename_i handle error hphase htext
        cases h
        simp [htext]
      · cases h
        simp
      · cases h
  | write answer =>
      simp only [advance] at h
      split at h
      · cases h
      · cases h
        simp
      · rename_i handle written left count hleft hcount hphase
        obtain ⟨byte, rest, hcons⟩ := List.exists_cons_of_ne_nil hleft
        split at h
        · cases h
          simpa using hcount byte rest hcons
        · cases h
      · cases h
        simp
      · cases h
  | rename answer =>
      simp only [advance] at h
      split at h
      · split at h <;> cases h
        simp
      · cases h
        simp
      · cases h

end Succeeds

theorem result_eq_some {result : Except ConfigError Unit} :
    phase.result = some result ↔ ∃ installed, phase = .finished installed result := by
  cases phase <;> simp [SavePhase.result]

/-- A call that has ended takes no more steps. -/
theorem runs_ended {result : Except ConfigError Unit} (hended : call.phase.result = some result)
    (h : runs serialize files call moves = some (files', call')) :
    moves = [] ∧ files' = files ∧ call' = call := by
  obtain ⟨installed, hphase⟩ := result_eq_some.mp hended
  cases moves with
  | nil =>
      cases h
      exact ⟨rfl, rfl, rfl⟩
  | cons move moves =>
      have hstuck : call.advance serialize files move = none := by
        cases move <;> simp [advance, hphase]
      simp [runs, hstuck] at h

/-- The operations of a call go well up to its end exactly if it returns `Ok`. -/
theorem succeeds_of_runs {result : Except ConfigError Unit} (hopen : call.phase.result = none)
    (h : runs serialize files call moves = some (files', call'))
    (hresult : call'.phase.result = some result) :
    result = .ok () ↔ ∀ move ∈ moves, move.succeeds serialize call.config = true := by
  induction moves generalizing files call with
  | nil =>
      cases h
      rw [hopen] at hresult
      cases hresult
  | cons move moves ih =>
      simp only [runs, Option.bind_eq_bind, Option.bind_eq_some_iff] at h
      obtain ⟨⟨files₁, phase⟩, hadvance, hrest⟩ := h
      have hmove := succeeds_of_advance hadvance
      rw [List.forall_mem_cons, hmove]
      cases hended : phase.result with
      | none =>
          rw [ih hended hrest]
          simp
      | some result' =>
          obtain ⟨rfl, -, rfl⟩ := runs_ended hended hrest
          cases hended.symm.trans hresult
          cases result <;> simp

/-- A call on its own leaves `config.toml` as it was unless it returns `Ok`, and then with the
text of its configuration. -/
theorem read_of_runs (hplanned : Planned serialize call.config call.phase)
    (hsole : SoleHolder .temp files [call.phase.holding])
    (hopen : call.phase.result ≠ some (.ok ()))
    (h : runs serialize files call moves = some (files', call')) :
    (∃ text, call'.phase.result = some (.ok ()) ∧ serialize call.config = .ok text ∧
      files'.read .config = some text) ∨
    (call'.phase.result ≠ some (.ok ()) ∧ files'.read .config = files.read .config) := by
  induction moves generalizing files call with
  | nil =>
      cases h
      exact .inr ⟨hopen, rfl⟩
  | cons move moves ih =>
      simp only [runs, Option.bind_eq_bind, Option.bind_eq_some_iff] at h
      obtain ⟨⟨files₁, phase⟩, hadvance, hrest⟩ := h
      have hnobody (_ : move = .openTemp (.ok ())) (y : Option (Holding UInt8)) (hy : y ∈ []) :
          y = none := by cases hy
      obtain ⟨published, hdoes⟩ := does_of_advance hplanned hnobody hadvance
      have hsole : SoleHolder .temp files ([] ++ call.phase.holding :: []) := hsole
      have hread := hsole.read_target (by decide) hdoes.move
      have hsole' := hsole.move hdoes.move
      cases published with
      | none =>
          have hphase : phase.result ≠ some (.ok ()) := by
            intro hresult
            obtain ⟨installed, hphase⟩ := result_eq_some.mp hresult
            cases (hdoes.installed installed hphase).2
          have hread : files₁.read .config = files.read .config := hread
          rw [← hread]
          have hplanned' : Planned serialize ({ call with phase } : SaveCall).config
              ({ call with phase } : SaveCall).phase := hdoes.planned
          have hend := ih hplanned' hsole' hphase hrest
          exact hend
      | some text =>
          obtain ⟨installed, hphase⟩ := hdoes.finished rfl
          have hresult : phase.result = some (.ok ()) := result_eq_some.mpr ⟨installed, hphase⟩
          obtain ⟨-, rfl, rfl⟩ := runs_ended hresult hrest
          exact .inl ⟨text, hresult, hdoes.own text rfl, hread⟩

end SaveCall

section SaveAtomic

variable {serialize : Config → Except ConfigError Bytes} {files files' : ConfigFiles}
  {config : Config} {moves : List SaveMove} {result : Except ConfigError Unit}

theorem saveAtomic_some (h : saveAtomic serialize files config moves = some (files', result)) :
    (result = .ok () ↔ ∀ move ∈ moves, move.succeeds serialize config = true) ∧
    ((∃ text, result = .ok () ∧ serialize config = .ok text ∧ files'.read .config = some text) ∨
      (result ≠ .ok () ∧ files'.read .config = files.read .config)) := by
  simp only [saveAtomic, Option.bind_eq_bind, Option.bind_eq_some_iff] at h
  obtain ⟨⟨files₁, call⟩, hruns, result', hresult, h⟩ := h
  cases h
  refine ⟨SaveCall.succeeds_of_runs rfl hruns hresult, ?_⟩
  have hsole : SoleHolder .temp files [SavePhase.ensuring.holding] :=
    ⟨Nat.zero_le 1, by simp [SavePhase.holding]⟩
  have hplanned : SaveCall.Planned serialize config .ensuring := trivial
  have hopen : SavePhase.ensuring.result ≠ some (.ok ()) := fun h => by cases h
  have hread := SaveCall.read_of_runs hplanned hsole hopen hruns
  simpa [hresult] using hread

end SaveAtomic

/-! What a settings save leaves behind. -/

/-- `set_autostart` fails at the query, or at the change it has to make. -/
def LoginAnswers.Fails (answers : LoginAnswers) (entry enabled : Bool) : Prop :=
  answers.query.isOk = false ∨ entry ≠ enabled ∧ answers.change.isOk = false

theorem setAutostart_fails {answers : LoginAnswers} {entry enabled : Bool} :
    (setAutostart answers entry enabled).2.isOk = false ↔ answers.Fails entry enabled := by
  rw [LoginAnswers.Fails]
  cases hquery : answers.query with
  | error error => simp [setAutostart, hquery]
  | ok _ =>
      by_cases hentry : entry = enabled
      · simp [setAutostart, hquery, hentry]
      · cases hchange : answers.change <;> simp [setAutostart, hquery, hentry, hchange]

theorem setAutostart_ok {answers : LoginAnswers} {entry enabled : Bool}
    (h : (setAutostart answers entry enabled).2.isOk = true) :
    (setAutostart answers entry enabled).1 = enabled := by
  cases hquery : answers.query with
  | error error => simp [setAutostart, hquery] at h
  | ok _ =>
      by_cases hentry : entry = enabled
      · simp [setAutostart, hquery, hentry]
      · cases hchange : answers.change with
        | error error => simp [setAutostart, hquery, hentry, hchange] at h
        | ok _ => simp [setAutostart, hquery, hentry, hchange]

section ConfigSave

variable (serialize : Config → Except ConfigError Bytes)
  (parse : Bytes → Except ConfigError Config) (display : ConfigError → String)

/-- The call to the daemon fails. -/
def ReloadAnswers.Fails (parse : Bytes → Except ConfigError Config) (text : Option Bytes) :
    ReloadAnswers → Prop
  | .lost _ => True
  | .taken load reply => (loadConfig parse load text).isOk = false ∨ reply.isOk = false

/-- The configuration the daemon has taken up, whatever became of its reply. -/
def ReloadAnswers.loaded (parse : Bytes → Except ConfigError Config) (text : Option Bytes) :
    ReloadAnswers → Option Config
  | .lost _ => none
  | .taken load _ => (loadConfig parse load text).toOption

/-- A save that returns an error has changed nothing. -/
def AllOrNothing (before : Settings) (outcome : SaveOutcome) : Prop :=
  outcome.result.isOk = false →
    outcome.settings.files.read .config = before.files.read .config ∧
    outcome.settings.entry = before.entry ∧ outcome.settings.daemon = before.daemon

/-- Once `config.toml` has the new `text`, a failure is harmless only where there is nothing
to take back: at the login entry, where the file was as `previous` is written and the entry
as `previous` has it; at the daemon, where file, entry and daemon were as the new
configuration has them. -/
def NothingToTakeBack (answers : SaveAnswers) (config : Config) (s : Settings)
    (previous : Config) (text : Bytes) : Prop :=
  (answers.login.Fails s.entry config.launchAtLogin →
    s.files.read .config = (serialize previous).toOption ∧ s.entry = previous.launchAtLogin) ∧
  (¬ answers.login.Fails s.entry config.launchAtLogin → answers.reload.Fails parse (some text) →
    s.files.read .config = some text ∧ s.entry = config.launchAtLogin ∧
      ∀ loaded, answers.reload.loaded parse (some text) = some loaded → s.daemon = some loaded)

/-- A failure after the save has nothing to take back. -/
def FailsCleanly (answers : SaveAnswers) (config : Config) (s : Settings) : Prop :=
  ∀ previous text, loadConfig parse answers.load (s.files.read .config) = .ok previous →
    (∀ move ∈ answers.save, move.succeeds serialize config = true) →
    serialize config = .ok text → NothingToTakeBack serialize parse answers config s previous text

variable {serialize parse display} {answers : SaveAnswers} {config : Config} {s : Settings}
  {outcome : SaveOutcome}

/-- What the daemon has taken up, and whether the call failed. -/
theorem callReload_some {answers : ReloadAnswers} {text : Option Bytes}
    {daemon daemon' : Option Config} {result : Except String ResponseData}
    (h : callReload parse display answers text daemon = some (daemon', result)) :
    daemon' = (answers.loaded parse text <|> daemon) ∧
      (result.isOk = false ↔ answers.Fails parse text) := by
  cases answers with
  | lost error =>
      cases h
      exact ⟨rfl, by simp [ReloadAnswers.Fails]⟩
  | taken load reply =>
      cases daemon with
      | none => cases h
      | some current =>
          simp only [callReload] at h
          simp only [ReloadAnswers.loaded, ReloadAnswers.Fails]
          cases hload : loadConfig parse load text with
          | error error =>
              rw [hload] at h
              cases reply <;> cases h <;> exact ⟨rfl, by simp⟩
          | ok config =>
              rw [hload] at h
              cases reply <;> cases h <;> exact ⟨rfl, by simp⟩

theorem failsCleanly_iff {previous : Config} {text : Bytes}
    (hload : loadConfig parse answers.load (s.files.read .config) = .ok previous)
    (hsave : ∀ move ∈ answers.save, move.succeeds serialize config = true)
    (htext : serialize config = .ok text) :
    FailsCleanly serialize parse answers config s ↔
      NothingToTakeBack serialize parse answers config s previous text := by
  refine ⟨fun h => h previous text hload hsave htext, fun h previous' text' hload' _ htext' => ?_⟩
  cases hload.symm.trans hload'
  cases htext.symm.trans htext'
  exact h

section TakeBack

variable {previous : Config} {text : Bytes}

theorem takeBack_login (hfails : answers.login.Fails s.entry config.launchAtLogin) :
    NothingToTakeBack serialize parse answers config s previous text ↔
      s.files.read .config = (serialize previous).toOption ∧
        s.entry = previous.launchAtLogin := by
  simp [NothingToTakeBack, hfails]

theorem takeBack_reload (hfails : ¬ answers.login.Fails s.entry config.launchAtLogin) :
    NothingToTakeBack serialize parse answers config s previous text ↔
      (answers.reload.Fails parse (some text) →
        s.files.read .config = some text ∧ s.entry = config.launchAtLogin ∧
          ∀ loaded, answers.reload.loaded parse (some text) = some loaded →
            s.daemon = some loaded) := by
  simp [NothingToTakeBack, hfails]

end TakeBack

theorem orElse_eq_right {α : Type} {x y : Option α} :
    (x <|> y) = y ↔ ∀ a, x = some a → y = some a := by
  cases x <;> simp [eq_comm]

/-- Where the compensating calls go well, a save that returns an error has changed nothing
exactly if a failure after the save has nothing to take back. -/
theorem config_save_all_or_nothing_iff
    (h : configSave serialize parse display answers config s = some outcome)
    (hcompensated : outcome.compensated = true) :
    AllOrNothing s outcome ↔ FailsCleanly serialize parse answers config s := by
  rw [configSave] at h
  cases hload : loadConfig parse answers.load (s.files.read .config) with
  | error error =>
      rw [hload] at h
      cases h
      refine ⟨fun _ previous text hprevious => ?_, fun _ _ => ⟨rfl, rfl, rfl⟩⟩
      cases hload.symm.trans hprevious
  | ok previous =>
      simp only [hload, Option.bind_eq_bind, Option.bind_eq_some_iff] at h
      obtain ⟨⟨files, saved⟩, hsave, h⟩ := h
      obtain ⟨hsucceeds, hread⟩ := saveAtomic_some hsave
      cases saved with
      | error error =>
          cases h
          refine ⟨fun _ previous' text _ hsave' => ?_, fun _ _ => ⟨?_, rfl, rfl⟩⟩
          · cases hsucceeds.mpr hsave'
          · simpa using hread
      | ok _ =>
          obtain ⟨text, htext, hnew⟩ : ∃ text, serialize config = .ok text ∧
              files.read .config = some text := by simpa using hread
          rw [failsCleanly_iff hload (hsucceeds.mp rfl) htext]
          cases hlogin : setAutostart answers.login s.entry config.launchAtLogin with
          | mk entry set =>
              have hset : (setAutostart answers.login s.entry config.launchAtLogin).2 = set := by
                rw [hlogin]
              simp only [hlogin] at h
              cases set with
              | error error =>
                  simp only [Option.bind_eq_some_iff] at h
                  obtain ⟨⟨restored, saved⟩, hrestore, h⟩ := h
                  cases h
                  obtain ⟨hsaved, hset'⟩ := Bool.and_eq_true_iff.mp hcompensated
                  obtain ⟨old, hold, hrestored⟩ : ∃ old, serialize previous = .ok old ∧
                      restored.read .config = some old := by
                    cases saved with
                    | error error => cases hsaved
                    | ok _ => simpa using (saveAtomic_some hrestore).2
                  rw [takeBack_login (setAutostart_fails.mp (by rw [hset]; rfl))]
                  simp [AllOrNothing, hrestored, setAutostart_ok hset', hold, Except.toOption,
                    eq_comm]
              | ok _ =>
                  simp only [Option.bind_eq_some_iff] at h
                  obtain ⟨⟨daemon, result⟩, hreload, h⟩ := h
                  cases h
                  obtain ⟨hdaemon, hresult⟩ := callReload_some hreload
                  have hok : (setAutostart answers.login s.entry config.launchAtLogin).2.isOk =
                      true := by
                    rw [hset]
                    rfl
                  have hentry : entry = config.launchAtLogin := by
                    simpa [hlogin] using setAutostart_ok hok
                  rw [hnew] at hdaemon hresult
                  rw [takeBack_reload, ← hresult, ← orElse_eq_right, ← hdaemon]
                  · refine imp_congr_right fun _ => ?_
                    simp only [hnew, hentry]
                    exact and_congr eq_comm (and_congr eq_comm Iff.rfl)
                  · rw [← setAutostart_fails, hok]
                    exact Bool.noConfusion

end ConfigSave

section Runs

open Saves

/-- The operations of a save that go well, for the text of `config`. -/
def smoothly (config : Config) : List SaveMove :=
  [.ensure (.ok ()), .validate emptyKeyStore, .openTemp (.ok ()), .restrict (.ok ()),
    .write (.ok (tomlText config).length), .sync (.ok ()), .rename (.ok ())]

/-- The texts of two configurations, read back. -/
def parseKnown (text : Bytes) : Except ConfigError Config :=
  if text = defaultText then .ok .defaultConfig else .error (.parse "unknown text")

def readsFile : LoadAnswers := ⟨none, emptyKeyStore⟩

def obliging : LoginAnswers := ⟨.ok (), .ok ()⟩

def refusedConfig : Config := { Config.defaultConfig with launchAtLogin := true }

/-- Starting at login cannot be turned on, and what was done is undone. -/
def refusedAtLogin : SaveAnswers where
  load := readsFile
  save := smoothly refusedConfig
  login := ⟨.ok (), .error ("permission denied", false)⟩
  restore := smoothly .defaultConfig
  restoreLogin := obliging
  reload := .lost "not reached"

/-- The daemon is down. -/
def daemonDown : SaveAnswers where
  load := readsFile
  save := smoothly shorterRetention
  login := obliging
  restore := []
  restoreLogin := obliging
  reload := .lost "aisshd unavailable: No such file or directory (os error 2)"

def defaultSettings (daemon : Option Config) : Settings :=
  ⟨savedFiles defaultText, false, daemon⟩

theorem failsCleanly_refusedAtLogin :
    FailsCleanly untargeted parseKnown refusedAtLogin refusedConfig
      (defaultSettings (some .defaultConfig)) := by
  intro previous text hprevious _ _
  have hdefault : loadConfig parseKnown readsFile (some defaultText) = .ok .defaultConfig := by
    simp only [loadConfig, parsed, readsFile, parseKnown, if_true]
    rfl
  cases hdefault.symm.trans hprevious
  exact (takeBack_login (.inr ⟨by decide, rfl⟩)).mpr ⟨rfl, rfl⟩

theorem config_save_refused_at_login :
    ∃ outcome, configSave untargeted parseKnown (fun _ => "") refusedAtLogin refusedConfig
        (defaultSettings (some .defaultConfig)) = some outcome ∧
      outcome.result.isOk = false ∧
      AllOrNothing (defaultSettings (some .defaultConfig)) outcome := by
  have hall : ((configSave untargeted parseKnown (fun _ => "") refusedAtLogin refusedConfig
      (defaultSettings (some .defaultConfig))).any fun outcome =>
        !outcome.result.isOk && outcome.compensated) = true := by
    decide +kernel
  obtain ⟨outcome, hsave, hall⟩ := (Option.any_eq_true _ _).mp hall
  simp only [Bool.and_eq_true, Bool.not_eq_true'] at hall
  obtain ⟨hfailed, hcompensated⟩ := hall
  exact ⟨outcome, hsave, hfailed,
    (config_save_all_or_nothing_iff hsave hcompensated).mpr failsCleanly_refusedAtLogin⟩

/-- With the daemon down the save returns an error, and the file keeps the new text. -/
theorem config_save_keeps_new_text :
    ∃ outcome, configSave untargeted parseKnown (fun _ => "") daemonDown shorterRetention
        (defaultSettings none) = some outcome ∧
      outcome.result.isOk = false ∧ outcome.compensated = true ∧
      outcome.settings.files.read .config = some (tomlText shorterRetention) ∧
      ¬ AllOrNothing (defaultSettings none) outcome := by
  have hall : ((configSave untargeted parseKnown (fun _ => "") daemonDown shorterRetention
      (defaultSettings none)).any fun outcome => !outcome.result.isOk && outcome.compensated &&
        outcome.settings.files.read .config == some (tomlText shorterRetention)) = true := by
    decide +kernel
  obtain ⟨outcome, hsave, hall⟩ := (Option.any_eq_true _ _).mp hall
  simp only [Bool.and_eq_true, Bool.not_eq_true', beq_iff_eq] at hall
  obtain ⟨⟨hfailed, hcompensated⟩, hread⟩ := hall
  refine ⟨outcome, hsave, hfailed, hcompensated, hread, fun h => ?_⟩
  have hsame := (h hfailed).1
  rw [hread] at hsame
  have hlength : (tomlText shorterRetention).length ≠ defaultText.length := by decide +kernel
  exact hlength (congrArg List.length (Option.some.inj hsame))

end Runs
end AiSsh
