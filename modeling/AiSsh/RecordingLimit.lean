import AiSsh.Config
import AiSsh.Library.Machine
import AiSsh.Recording

/-!
The recording limit on its way from the configuration file to the store. The daemon
computes the limit once, when it opens the store; `reload_config` replaces the
configuration and leaves the store alone, and the other process that reports the limit
reads the file.
-/

namespace AiSsh

open Library

/-- The file, the configuration the daemon holds, and its store. -/
structure Configured where
  file : Config
  config : Config
  storage : Storage
  deriving DecidableEq, Repr

/-- `failed` is the error of a step whose file operations fail. -/
inductive ConfiguredStep
  | saveAtomic (config : Config) (store : KeyStore) (failed : Option ConfigError)
  | reloadConfig (store : KeyStore) (failed : Option ConfigError)
  | appendEvent (event : TerminalEvent)
  | upsertSession (session : SessionInfo)
  | insertCommand (command : CommandInfo)
  | updateCommand (command : CommandInfo)
  | cleanup (now : DateTime)

namespace Configured

/-- The daemon has loaded `config` and opened the store with it. -/
def opened (config : Config) (db : Database) : Configured :=
  ⟨config, config, .openWith db config.recordingLimitMib.toNat⟩

def contents (s : Configured) (failed : Option ConfigError) : Except ConfigError Config :=
  match failed with
  | none => .ok s.file
  | some error => .error error

def load (s : Configured) (store : KeyStore) (failed : Option ConfigError) :
    Except ConfigError Config :=
  Config.load (s.contents failed) store

/-- Whether a save gets to its rename. -/
def installs (config : Config) (store : KeyStore) (failed : Option ConfigError) : Bool :=
  config.validate store == .ok () && failed.isNone

def step (s : Configured) : ConfiguredStep → Option Configured
  | .saveAtomic config store failed =>
      some (if installs config store failed then { s with file := config } else s)
  | .reloadConfig store failed =>
      match s.load store failed with
      | .ok config => some { s with config := config }
      | .error _ => some s
  | .appendEvent event => some { s with storage := (s.storage.appendEvent event).storage }
  | .upsertSession session => some { s with storage := s.storage.upsertSession session }
  | .insertCommand command =>
      match s.storage.insertCommand command with
      | .ok storage => some { s with storage := storage }
      | .error _ => some s
  | .updateCommand command => some { s with storage := s.storage.updateCommand command }
  | .cleanup now =>
      some { s with storage := s.storage.cleanup s.config.retentionDays.toNat now }

def machine : Machine Configured ConfiguredStep := ⟨step⟩

/-- `recording_limit_mib` of the MCP server. -/
def recordingLimitMib (s : Configured) (store : KeyStore) (failed : Option ConfigError) :
    Option UInt64 :=
  (s.load store failed).toOption.map Config.recordingLimitMib

/-- Whoever reports the limit reports the one in force. -/
def ReportsLimit (s : Configured) : Prop :=
  ∀ store failed limit, s.recordingLimitMib store failed = some limit →
    limit = s.config.recordingLimitMib

/-- An event the tables take is stored exactly when it fits below the limit in force. -/
def EnforcesLimit (s : Configured) : ConfiguredStep → Prop
  | .appendEvent event =>
      ∀ row db, s.storage.db.session event.sessionId = some row →
        s.storage.db.insertEvent event = .ok db →
        ({ event with persisted := true } ∈ (s.storage.appendEvent event).storage.db.events ↔
          row.recordedBytes + event.payload.length ≤ s.config.recordingLimitMib.toNat * 2 ^ 20)
  | _ => True

/-- A save that is installed keeps the limit of the file. -/
def KeepsLimit (s : Configured) : ConfiguredStep → Prop
  | .saveAtomic config store failed =>
      installs config store failed = true →
        config.recordingLimitMib = s.file.recordingLimitMib
  | _ => True

end Configured

namespace Storage

/-- The verdict of `append_event` on an event that the tables take. -/
theorem mem_appendEvent {s : Storage} {event : TerminalEvent} {row : SessionRow} {db : Database}
    (hrow : s.db.session event.sessionId = some row) (hinsert : s.db.insertEvent event = .ok db) :
    { event with persisted := true } ∈ (s.appendEvent event).storage.db.events ↔
      saturatingAdd row.recordedBytes event.payload.length ≤ s.recordingLimitBytes := by
  obtain ⟨-, -, hnew, hdb⟩ := Database.insertEvent_ok hinsert
  simp only [appendEvent, hrow, hinsert]
  split
  · rename_i hover
    have hrest : (s.rejectEvent event).db.events = s.db.events := by
      rw [rejectEvent]
      cases event.commandId <;> rfl
    refine ⟨fun hmem => ?_, fun hfits => absurd hover (Nat.not_lt.mpr hfits)⟩
    rw [hrest] at hmem
    exact absurd ⟨rfl, rfl⟩ (hnew _ hmem)
  · rename_i hfits
    have hevents : (countEvent db event).events = db.events := by
      rw [countEvent, countCommand]
      cases event.commandId <;> rfl
    refine ⟨fun _ => Nat.not_lt.mp hfits, fun _ => ?_⟩
    rw [hevents, hdb]
    exact List.mem_append_right _ (List.mem_singleton_self _)

theorem saturatingAdd_le {a b mib : Nat} (h : mib < 2 ^ 44) :
    saturatingAdd a b ≤ mib * 2 ^ 20 ↔ a + b ≤ mib * 2 ^ 20 := by
  rw [saturatingAdd]
  omega

theorem recordingLimitBytes_openWith {db : Database} {mib : Nat} (h : mib < 2 ^ 44) :
    (openWith db mib).recordingLimitBytes = mib * 2 ^ 20 := by
  have hbytes : mib * 1024 * 1024 % 2 ^ 64 = mib * 2 ^ 20 := by omega
  exact hbytes

theorem recordingLimitBytes_upsertSession (s : Storage) (session : SessionInfo) :
    (s.upsertSession session).recordingLimitBytes = s.recordingLimitBytes := by
  rw [upsertSession]
  split <;> rfl

theorem recordingLimitBytes_insertCommand {s s' : Storage} {command : CommandInfo}
    (h : s.insertCommand command = .ok s') : s'.recordingLimitBytes = s.recordingLimitBytes := by
  rw [insertCommand] at h
  split at h
  · cases h
  · split at h
    · cases h
    · cases h
      rfl

theorem recordingLimitBytes_appendEvent (s : Storage) (event : TerminalEvent) :
    (s.appendEvent event).storage.recordingLimitBytes = s.recordingLimitBytes := by
  rw [appendEvent]
  split
  · rfl
  · split
    · rw [rejectEvent]
      cases event.commandId <;> rfl
    · split <;> rfl

end Storage

namespace Configured

/-- The one limit in its four places. -/
structure OneLimit (s : Configured) : Prop where
  bound : s.config.recordingLimitMib.toNat < 2 ^ 44
  storage : s.storage.recordingLimitBytes = s.config.recordingLimitMib.toNat * 2 ^ 20
  file : s.file.recordingLimitMib = s.config.recordingLimitMib

variable {s s' : Configured}

theorem oneLimit_opened {config : Config} {db : Database}
    (h : config.recordingLimitMib.toNat < 2 ^ 44) : (opened config db).OneLimit :=
  ⟨h, Storage.recordingLimitBytes_openWith h, rfl⟩

theorem load_eq {store : KeyStore} {failed : Option ConfigError} {config : Config}
    (h : s.load store failed = .ok config) : config = s.file := by
  obtain ⟨hcontents, -⟩ := Config.load_ok.mp h
  cases failed with
  | none => exact (Except.ok.inj hcontents).symm
  | some error => cases hcontents

theorem OneLimit.reports (h : s.OneLimit) : s.ReportsLimit := by
  intro store failed limit hlimit
  rw [recordingLimitMib] at hlimit
  cases hload : s.load store failed with
  | error error => simp [hload, Except.toOption] at hlimit
  | ok config =>
      simp only [hload, Except.toOption, Option.map_some, Option.some.injEq] at hlimit
      rw [← hlimit, load_eq hload, h.file]

theorem OneLimit.enforces (h : s.OneLimit) (a : ConfiguredStep) : s.EnforcesLimit a := by
  cases a with
  | appendEvent event =>
      intro row db hrow hinsert
      rw [Storage.mem_appendEvent hrow hinsert, h.storage, Storage.saturatingAdd_le h.bound]
  | _ => trivial

/-- No statement of the store touches its limit. -/
theorem OneLimit.setStorage (h : s.OneLimit) {storage : Storage}
    (hlimit : storage.recordingLimitBytes = s.storage.recordingLimitBytes) :
    ({ s with storage := storage } : Configured).OneLimit :=
  ⟨h.bound, hlimit.trans h.storage, h.file⟩

theorem OneLimit.step (h : s.OneLimit) {a : ConfiguredStep} (hkeeps : s.KeepsLimit a)
    (hstep : s.step a = some s') : s'.OneLimit := by
  cases a with
  | saveAtomic config store failed =>
      cases hstep
      split
      · rename_i hinstalls
        exact ⟨h.bound, h.storage, (hkeeps hinstalls).trans h.file⟩
      · exact h
  | reloadConfig store failed =>
      simp only [Configured.step] at hstep
      split at hstep
      · rename_i config hload
        cases hstep
        have hsame : config.recordingLimitMib = s.config.recordingLimitMib := by
          rw [load_eq hload, h.file]
        exact ⟨hsame ▸ h.bound, hsame ▸ h.storage, by rw [hsame, h.file]⟩
      · cases hstep
        exact h
  | appendEvent event =>
      cases hstep
      exact h.setStorage (Storage.recordingLimitBytes_appendEvent ..)
  | upsertSession session =>
      cases hstep
      exact h.setStorage (Storage.recordingLimitBytes_upsertSession ..)
  | insertCommand command =>
      simp only [Configured.step] at hstep
      split at hstep
      · rename_i storage hinsert
        cases hstep
        exact h.setStorage (Storage.recordingLimitBytes_insertCommand hinsert)
      · cases hstep
        exact h
  | updateCommand command =>
      cases hstep
      exact h.setStorage rfl
  | cleanup now =>
      cases hstep
      exact h.setStorage rfl

/-- A save that changes the limit of the file is reported before it is in force. -/
theorem OneLimit.keepsLimit (h : s.OneLimit) {a : ConfiguredStep} (hstep : s.step a = some s')
    (hreports : s'.ReportsLimit) : s.KeepsLimit a := by
  cases a with
  | saveAtomic config store failed =>
      intro hinstalls
      cases hstep
      simp only [hinstalls, if_true] at hreports
      have hvalid : config.validate store = .ok () := by
        simp only [installs, Bool.and_eq_true, beq_iff_eq] at hinstalls
        exact hinstalls.1
      have hload : ({ s with file := config } : Configured).load store none = .ok config :=
        Config.load_ok.mpr ⟨rfl, Config.validate_ok.mp hvalid⟩
      rw [h.file]
      exact hreports store none _ (by rw [recordingLimitMib, hload]; rfl)
  | _ => trivial

variable (config : Config) (db : Database) (steps : List ConfiguredStep)

/-- Along a run every report names the limit in force and every event meets it. -/
def LimitInForce (s : Configured) (steps : List ConfiguredStep) (t : Configured) : Prop :=
  machine.Meets (fun s a => s.ReportsLimit ∧ s.EnforcesLimit a) s steps ∧ t.ReportsLimit

theorem limitInForce_iff {t : Configured} (h : s.OneLimit)
    (hrun : machine.run s steps = some t) :
    LimitInForce s steps t ↔ machine.Meets KeepsLimit s steps := by
  refine machine.meets_iff_of_keeps (P := OneLimit) (fun s h => h.reports) ?_ ?_ h hrun
  · exact fun s a s' h hkeeps hstep => ⟨h.step hkeeps hstep, h.enforces a⟩
  · exact fun s a s' h hstep hreports => h.keepsLimit hstep hreports

/-- One session that has recorded `bytes` so far, and its next byte. -/
def recordedDatabase (bytes : Nat) : Database :=
  ⟨[⟨.created "s" "t" "t" "p" "m" ⟨0, 0⟩, bytes⟩], [], []⟩

def nextByte : TerminalEvent := ⟨"s", none, 1, 0, .pty, [0], false⟩

theorem enforcesLimit_nextByte {bytes : Nat} {s : Configured}
    (hdb : s.storage.db = recordedDatabase bytes) :
    s.EnforcesLimit (.appendEvent nextByte) ↔
      (saturatingAdd bytes 1 ≤ s.storage.recordingLimitBytes ↔
        bytes + 1 ≤ s.config.recordingLimitMib.toNat * 2 ^ 20) := by
  have hrow : s.storage.db.session nextByte.sessionId =
      some ⟨.created "s" "t" "t" "p" "m" ⟨0, 0⟩, bytes⟩ := by
    rw [hdb]
    rfl
  have hinsert : ∃ db, s.storage.db.insertEvent nextByte = .ok db := by
    rw [hdb]
    exact ⟨_, rfl⟩
  obtain ⟨db, hinsert⟩ := hinsert
  have hmem := Storage.mem_appendEvent hrow hinsert
  constructor
  · intro h
    exact hmem.symm.trans (h _ db hrow hinsert)
  · intro h row db' hrow' hinsert'
    cases hrow.symm.trans hrow'
    exact hmem.trans h

/-- The limit is the one in force, along every run that keeps it, exactly when it fits
64 bits of bytes. -/
theorem recording_limit_in_force_iff (config : Config) :
    (∀ db steps s, machine.run (opened config db) steps = some s →
      (LimitInForce (opened config db) steps s ↔
        machine.Meets KeepsLimit (opened config db) steps)) ↔
    config.recordingLimitMib.toNat < 2 ^ 44 := by
  constructor
  · intro h
    by_contra hwide
    have hbound := config.recordingLimitMib.toNat_lt
    generalize hmib : config.recordingLimitMib.toNat = mib at hwide hbound
    let db := recordedDatabase (mib * 1024 * 1024 % 2 ^ 64)
    obtain ⟨hmeets, -⟩ := (h db [.appendEvent nextByte] _ rfl).mpr ⟨trivial, fun _ _ => trivial⟩
    have henforces := hmeets.1.2
    rw [enforcesLimit_nextByte (s := opened config db) rfl] at henforces
    have hlimit : (opened config db).storage.recordingLimitBytes = mib * 1024 * 1024 % 2 ^ 64 := by
      rw [← hmib]
      rfl
    rw [hlimit, show (opened config db).config = config from rfl, hmib] at henforces
    rw [saturatingAdd] at henforces
    omega
  · intro h db steps s hrun
    exact limitInForce_iff _ (oneLimit_opened h) hrun

/-- Its limit in bytes is a multiple of 2^64. -/
def wideLimit : Config := { Config.defaultConfig with recordingLimitMib := 17592186044416 }

def lowerLimit : Config := { Config.defaultConfig with recordingLimitMib := 1 }

def lowered : List ConfiguredStep :=
  [.saveAtomic lowerLimit emptyKeyStore none, .reloadConfig emptyKeyStore none]

/-- Opened with a limit of 2^44 MiB the store takes no byte at all, and lowering the
limit from 500 MiB to 1 MiB leaves the store at 500 MiB. -/
theorem recording_limit_wraps_and_stays :
    (wideLimit.validate emptyKeyStore = .ok () ∧
      ∃ s, machine.run (opened wideLimit (recordedDatabase 0)) [.appendEvent nextByte] = some s ∧
        ¬LimitInForce (opened wideLimit (recordedDatabase 0)) [.appendEvent nextByte] s) ∧
    (lowerLimit.validate emptyKeyStore = .ok () ∧
      ∃ s, machine.run (opened .defaultConfig (recordedDatabase 1048576)) lowered = some s ∧
        s.config = lowerLimit ∧ ¬s.EnforcesLimit (.appendEvent nextByte)) := by
  refine ⟨⟨rfl, _, rfl, ?_⟩, rfl, _, rfl, rfl, ?_⟩
  · intro h
    have henforces := h.1.1.2
    rw [enforcesLimit_nextByte rfl] at henforces
    revert henforces
    decide
  · rw [enforcesLimit_nextByte rfl]
    decide

end Configured
end AiSsh
