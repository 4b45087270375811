import AiSsh.Hosts

/-!
The configuration and what `validate` accepts. The files a check looks at come from
outside: a key is accepted for one state of the file system, and may be refused for
the next.
-/

namespace AiSsh

inductive ConfigError
  | noHome
  | insecurePermissions (path detail : String)
  | keyOutsideDirectory (keys : String)
  | io (error : IoError)
  | parse (text : String)
  | serialize (text : String)
  | unsupportedVersion (version : UInt32)
  | invalidTarget (id : String)
  | invalidSetting (name : String)
  deriving DecidableEq, Repr

inductive Auth
  | password (password : String)
  | privateKey (path : String) (passphrase : Option String)
  deriving DecidableEq, Repr

structure Target where
  id : String
  name : String
  host : String
  port : UInt16
  username : String
  auth : Auth
  deriving DecidableEq, Repr

structure Config where
  version : UInt32
  retentionDays : UInt32
  idleTimeoutSeconds : UInt64
  connectTimeoutSeconds : UInt64
  keepaliveSeconds : UInt64
  recordingLimitMib : UInt64
  reconnectAttempts : UInt64
  reconnectBackoffSeconds : UInt64
  quitDaemonOnAppExit : Bool
  launchAtLogin : Bool
  targets : List Target
  deriving DecidableEq, Repr

/-- The key directory and the questions `validate` asks about a key below it. -/
structure KeyStore where
  keys : String
  isAbsolute : String → Bool
  join : String → String → String
  canonicalize : String → Except IoError String
  startsWith : String → String → Bool
  requireOwnerOnly : String → Except ConfigError Unit

namespace KeyStore

def checkKey (store : KeyStore) (path : String) : Except ConfigError Unit := do
  let key := if store.isAbsolute path then path else store.join store.keys path
  let canonical ← (store.canonicalize key).mapError ConfigError.io
  let keys ← (store.canonicalize store.keys).mapError ConfigError.io
  if store.startsWith canonical keys then
    store.requireOwnerOnly canonical
  else
    throw (.keyOutsideDirectory keys)

end KeyStore

/-- A key directory no target asks about. -/
def emptyKeyStore : KeyStore where
  keys := "keys"
  isAbsolute := fun path => path.startsWith "/"
  join := fun keys path => keys ++ "/" ++ path
  canonicalize := .ok
  startsWith := fun path keys => path.startsWith keys
  requireOwnerOnly := fun _ => .ok ()

namespace Config

def defaultConfig : Config where
  version := 1
  retentionDays := 30
  idleTimeoutSeconds := 1800
  connectTimeoutSeconds := 15
  keepaliveSeconds := 30
  recordingLimitMib := 500
  reconnectAttempts := 1
  reconnectBackoffSeconds := 2
  quitDaemonOnAppExit := false
  launchAtLogin := false
  targets := []

def checkVersion (version : UInt32) : Except ConfigError Unit :=
  if version = 1 then .ok () else .error (.unsupportedVersion version)

def checkSetting (accepted : Bool) (name : String) : Except ConfigError Unit :=
  if accepted then .ok () else .error (.invalidSetting name)

def checkAuth (store : KeyStore) : Auth → Except ConfigError Unit
  | .password _ => .ok ()
  | .privateKey path _ => store.checkKey path

/-- The body of the loop over the targets, with the identifiers it has seen. -/
def checkTarget (store : KeyStore) (ids : List String) (target : Target) :
    Except ConfigError Unit :=
  if target.id.isEmpty || target.name.isEmpty || target.host.isEmpty ||
      target.username.isEmpty || target.port == 0 || ids.contains target.id then
    .error (.invalidTarget target.id)
  else
    checkAuth store target.auth

def checkTargets (store : KeyStore) : List String → List Target → Except ConfigError Unit
  | _, [] => .ok ()
  | ids, target :: rest => do
      checkTarget store ids target
      checkTargets store (target.id :: ids) rest

def validate (config : Config) (store : KeyStore) : Except ConfigError Unit := do
  checkVersion config.version
  checkSetting (1 ≤ config.retentionDays && config.retentionDays ≤ 3650) "retention_days"
  checkSetting (config.idleTimeoutSeconds != 0) "idle_timeout_seconds"
  checkSetting (config.connectTimeoutSeconds != 0) "connect_timeout_seconds"
  checkSetting (config.keepaliveSeconds != 0) "keepalive_seconds"
  checkSetting (config.recordingLimitMib != 0) "recording_limit_mib"
  checkSetting (1 ≤ config.reconnectAttempts && config.reconnectAttempts ≤ 10)
    "reconnect_attempts"
  checkSetting (config.reconnectBackoffSeconds ≤ 60) "reconnect_backoff_seconds"
  checkTargets store [] config.targets

/-- `Config::load` of a file that reads as `content`. -/
def load (content : Except ConfigError Config) (store : KeyStore) : Except ConfigError Config := do
  let config ← content
  config.validate store
  pure config

end Config

/-- A target whose identity fields are filled in and whose key can be used. -/
structure Target.Valid (store : KeyStore) (target : Target) : Prop where
  id : target.id.isEmpty = false
  name : target.name.isEmpty = false
  host : target.host.isEmpty = false
  username : target.username.isEmpty = false
  port : target.port ≠ 0
  key : ∀ path passphrase, target.auth = .privateKey path passphrase →
    store.checkKey path = .ok ()

structure Config.Valid (store : KeyStore) (config : Config) : Prop where
  version : config.version = 1
  retentionDays : 1 ≤ config.retentionDays ∧ config.retentionDays ≤ 3650
  idleTimeoutSeconds : config.idleTimeoutSeconds ≠ 0
  connectTimeoutSeconds : config.connectTimeoutSeconds ≠ 0
  keepaliveSeconds : config.keepaliveSeconds ≠ 0
  recordingLimitMib : config.recordingLimitMib ≠ 0
  reconnectAttempts : 1 ≤ config.reconnectAttempts ∧ config.reconnectAttempts ≤ 10
  reconnectBackoffSeconds : config.reconnectBackoffSeconds ≤ 60
  targets : ∀ target ∈ config.targets, target.Valid store
  ids : (config.targets.map Target.id).Nodup

namespace Config

variable {store : KeyStore}

theorem checkVersion_ok {version : UInt32} : checkVersion version = .ok () ↔ version = 1 := by
  rw [checkVersion]
  split <;> simp [*]

theorem checkSetting_ok {accepted : Bool} {name : String} :
    checkSetting accepted name = .ok () ↔ accepted = true := by
  cases accepted <;> simp [checkSetting]

theorem bind_ok {ε α β : Type} {x : Except ε α} {f : α → Except ε β} {b : β} :
    (x >>= f) = .ok b ↔ ∃ a, x = .ok a ∧ f a = .ok b := by
  cases x with
  | error e => simp [Bind.bind, Except.bind]
  | ok a => simp [Bind.bind, Except.bind]

theorem checkTarget_ok {ids : List String} {target : Target} :
    checkTarget store ids target = .ok () ↔ target.Valid store ∧ target.id ∉ ids := by
  have hkey : checkAuth store target.auth = .ok () ↔
      ∀ path passphrase, target.auth = .privateKey path passphrase →
        store.checkKey path = .ok () := by
    cases target.auth <;> simp [checkAuth]
  rw [checkTarget]
  split
  · rename_i h
    refine ⟨fun hok => (by cases hok), ?_⟩
    intro hvalid
    obtain ⟨⟨hid, hname, hhost, husername, hport, -⟩, hids⟩ := hvalid
    simp [hid, hname, hhost, husername, hport, hids] at h
  · rename_i h
    simp only [Bool.or_eq_true, not_or, Bool.not_eq_true, beq_eq_false_iff_ne,
      List.contains_eq_mem, decide_eq_false_iff_not] at h
    rw [hkey]
    obtain ⟨⟨⟨⟨⟨hid, hname⟩, hhost⟩, husername⟩, hport⟩, hids⟩ := h
    exact ⟨fun hok => ⟨⟨hid, hname, hhost, husername, hport, hok⟩, hids⟩,
      fun hvalid => hvalid.1.key⟩

theorem bind_unit_ok {ε β : Type} {x : Except ε Unit} {f : Unit → Except ε β} {b : β} :
    (x >>= f) = .ok b ↔ x = .ok () ∧ f () = .ok b := by
  rw [bind_ok]
  exact ⟨fun h => h.choose_spec, fun h => ⟨(), h⟩⟩

/-- The identifiers of an accepted list are new and differ from one another. -/
theorem checkTargets_ok {ids : List String} {targets : List Target} :
    checkTargets store ids targets = .ok () ↔
      (∀ target ∈ targets, target.Valid store ∧ target.id ∉ ids) ∧
        (targets.map Target.id).Nodup := by
  induction targets generalizing ids with
  | nil => simp [checkTargets]
  | cons target rest ih =>
      rw [checkTargets, bind_unit_ok, checkTarget_ok, ih, List.forall_mem_cons, List.map_cons,
        List.nodup_cons]
      simp only [List.mem_cons, not_or, List.mem_map, not_exists, not_and]
      constructor
      · intro h
        obtain ⟨hhead, hrest, hnodup⟩ := h
        exact ⟨⟨hhead, fun t ht => ⟨(hrest t ht).1, (hrest t ht).2.2⟩⟩,
          fun t ht => (hrest t ht).2.1, hnodup⟩
      · intro h
        obtain ⟨⟨hhead, hrest⟩, hnew, hnodup⟩ := h
        exact ⟨hhead, fun t ht => ⟨(hrest t ht).1, hnew t ht, (hrest t ht).2⟩, hnodup⟩

theorem validate_ok {config : Config} : config.validate store = .ok () ↔ config.Valid store := by
  simp only [validate, bind_unit_ok, checkVersion_ok, checkSetting_ok, checkTargets_ok,
    Bool.and_eq_true, decide_eq_true_eq, bne_iff_ne, List.not_mem_nil, not_false_eq_true,
    and_true]
  constructor
  · intro h
    obtain ⟨hver, hret, hidle, hconn, hkeep, hrec, hatt, hback, htargets, hids⟩ := h
    exact ⟨hver, hret, hidle, hconn, hkeep, hrec, hatt, hback, htargets, hids⟩
  · intro h
    exact ⟨h.version, h.retentionDays, h.idleTimeoutSeconds, h.connectTimeoutSeconds,
      h.keepaliveSeconds, h.recordingLimitMib, h.reconnectAttempts, h.reconnectBackoffSeconds,
      h.targets, h.ids⟩

theorem load_ok {content : Except ConfigError Config} {config : Config} :
    load content store = .ok config ↔ content = .ok config ∧ config.Valid store := by
  rw [load, bind_ok]
  constructor
  · intro h
    obtain ⟨loaded, hcontent, hrest⟩ := h
    obtain ⟨hvalid, heq⟩ := bind_unit_ok.mp hrest
    cases heq
    exact ⟨hcontent, validate_ok.mp hvalid⟩
  · intro h
    exact ⟨config, h.1, bind_unit_ok.mpr ⟨validate_ok.mpr h.2, rfl⟩⟩

/-- Every default passes its own check. -/
theorem defaultConfig_valid (store : KeyStore) : defaultConfig.Valid store where
  version := rfl
  retentionDays := by decide
  idleTimeoutSeconds := by decide
  connectTimeoutSeconds := by decide
  keepaliveSeconds := by decide
  recordingLimitMib := by decide
  reconnectAttempts := by decide
  reconnectBackoffSeconds := by decide
  targets := by simp [defaultConfig]
  ids := List.nodup_nil

end Config

end AiSsh
