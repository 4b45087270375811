import AiSsh.Daemon

/-!
`reap_idle` at one session. The reaper reads the last activity, then looks at the
foreground slot, then at the background map, and only then calls `close`: four steps with
everything else of the session in between. What it goes by is written down by execs and
by the traffic of a PTY; a file operation, once it has its channel, is known to nobody.

The session carries histories that the daemon does not keep: when an exec, a PTY, a file
operation or a start of one of these came to its end, and which execs were taken from
their place while they ran.
-/

namespace AiSsh

open Library

def Foreground.isPty : Foreground → Bool
  | .exec _ => false
  | .pty _ => true

/-- An exec is where `command_cancel`, `close` and the reaper look for it. -/
def SessionRuntime.InPlace (runtime : SessionRuntime) (id : String) (background : Bool) : Prop :=
  if background then id ∈ runtime.background else runtime.foreground = some (.exec id)

namespace Op

/-- On the way to a channel: for a file operation, or else under the foreground lock. -/
def connects (file : Bool) : Op → Bool
  | .look p | .check p | .dial p _ | .dialed p _ | .dialFailed p _ | .store p _ | .opening p _
  | .openFailed _ p => (p == .sftp) == file
  | .installExec _ _ | .installPty _ => !file
  | _ => false

/-- The exec an operation or task has put in its place, in the background map or not. -/
def runs : Op → Option (String × Bool)
  | .startedExec command => some (command.id, false)
  | .runExec command background => some (command.id, background)
  | _ => none

/-- Whether `acquire` is about to begin a file operation. -/
def begins : Op → Option Bool
  | .acquire p => some (p == .sftp)
  | _ => none

/-- An exec, or the start of an exec, a PTY or a file operation. -/
def active (op : Op) : Bool := op.connects true || op.connects false || op.runs.isSome

def hasFailed : Op → Bool
  | .returned (.error _) => true
  | _ => false

/-- The end of what `active` counts, with whether it is recorded as activity. -/
def ends (op op' : Op) : Option Bool :=
  if op.isRunExec then some true
  else if op.active && op'.hasFailed then some false
  else none

/-- The execs that `shell_close` and `close` take from their place. -/
def displaces (runtime : SessionRuntime) : Op → List String
  | .shellClose | .closeForeground =>
      match runtime.foreground with
      | some (.exec id) => [id]
      | _ => []
  | .closeBackground => runtime.background
  | _ => []

/-! What a step makes of these. -/

section Moves

variable {s s' : Shared} {foregroundFree : Bool} {answer : Answer} {now : Now} {op op' : Op}

theorem connects_of_reserves (h : op.reserves = true) : op.connects false = true := by
  cases op with
  | look p | check p | dial p _ | dialed p _ | dialFailed p _ | store p _ | opening p _
  | openFailed _ p => exact beq_iff_eq.mpr (not_sftp_of_takesForeground h)
  | installExec _ _ | installPty _ => rfl
  | _ => cases h

theorem holdsForeground_of_connects (h : op.connects false = true) :
    op.holdsForeground = true := by
  have hpurpose {p : Purpose} (hp : ((p == .sftp) == false) = true) : (p != .sftp) = true := by
    simpa [bne] using hp
  cases op with
  | look p | check p | dial p _ | dialed p _ | dialFailed p _ | store p _ | opening p _
  | openFailed _ p => exact hpurpose h
  | installExec _ _ | installPty _ => rfl
  | _ => cases h

@[simp] theorem execNext_connects (file : Bool) (id : String) (background interrupted : Bool)
    (exit : Option UInt32) : (execNext id background interrupted exit).connects file = false := by
  cases background with
  | false => rfl
  | true => rfl

@[simp] theorem execNext_runs (id : String) (background interrupted : Bool)
    (exit : Option UInt32) : (execNext id background interrupted exit).runs = none := by
  cases background with
  | false => rfl
  | true => rfl

theorem Moves.connects {file : Bool} (h : op.Moves s foregroundFree now answer s' op')
    (hconnects : op'.connects file = true) :
    op.connects file = true ∨ op.begins = some file := by
  cases h with
  | acquired => exact .inr (congrArg some (by simpa [Op.connects] using hconnects))
  | found | missed | dialling | dialled | dialAgain | gaveUp | reconnected | overtaken | stored
  | openFailed => exact .inl hconnects
  | execOpened | ptyOpened =>
      left
      cases file with
      | false => rfl
      | true => cases hconnects
  | execEnded | execDiscarded =>
      rw [execNext_connects] at hconnects
      cases hconnects
  | _ => cases hconnects

/-- An exec enters its place before its task runs. -/
theorem Moves.runs {id : String} {background : Bool}
    (h : op.Moves s foregroundFree now answer s' op') (hruns : op'.runs = some (id, background)) :
    op.runs = some (id, background) ∨
      op.connects false = true ∧ s'.runtime.InPlace id background := by
  cases h with
  | installedBackground =>
      cases hruns
      exact .inr ⟨rfl, List.mem_append_right _ (List.mem_singleton_self _)⟩
  | installedExec =>
      cases hruns
      exact .inr ⟨rfl, rfl⟩
  | startedExec => exact .inl hruns
  | execEnded | execDiscarded =>
      rw [execNext_runs] at hruns
      cases hruns
  | _ => cases hruns

theorem Moves.commandId {id : String} (h : op.Moves s foregroundFree now answer s' op')
    (hid : op'.commandId = some id) :
    op.commandId = some id ∨ op.commandId = none ∧ id ∉ s.used ∧ id ∈ s'.used := by
  cases h with
  | execOpened fresh =>
      cases hid
      exact .inr ⟨rfl, fresh, List.mem_cons_self⟩
  | execEnded | execDiscarded =>
      simp only [execNext] at hid
      split at hid
      · exact .inl hid
      · exact .inl hid
  | installedBackground | installedExec | startedExec | execInterrupted => exact .inl hid
  | execReleased | execAlreadyReleased => cases hid
  | _ => cases hid

theorem Moves.background (h : op.Moves s foregroundFree now answer s' op') :
    s'.runtime.background = s.runtime.background ∨
      (∃ id, s'.runtime.background = s.runtime.background ++ [id]) ∨
      (∃ id, op = .execBackground id ∧
        s'.runtime.background = s.runtime.background.filter fun other => other != id) ∨
      op = .closeBackground ∧ s'.runtime.background = [] := by
  cases h with
  | reconnected | reconnectFailed | execFinished | ptyFinished =>
      left
      simp only [Shared.wake, Shared.writeOpenInfo]
      split
      · rfl
      · rfl
  | installedBackground => exact .inr (.inl ⟨_, rfl⟩)
  | backgroundLeft => exact .inr (.inr (.inl ⟨_, rfl, rfl⟩))
  | backgroundCancelled => exact .inr (.inr (.inr ⟨rfl, rfl⟩))
  | _ => exact .inl rfl

/-- An exec leaves its place at its own end, or is taken from it. -/
theorem Moves.inPlace {id : String} {background : Bool}
    (h : op.Moves s foregroundFree now answer s' op')
    (hreserved : op.reserves = true → s.runtime.foreground = none)
    (hplace : s.runtime.InPlace id background) :
    s'.runtime.InPlace id background ∨ id ∈ op.displaces s.runtime ∨
      op.commandId = some id ∧ op.runs = none := by
  cases background with
  | false =>
      have hslot : s.runtime.foreground = some (.exec id) := hplace
      rcases h.foreground with hsame | ⟨-, htaken⟩ | ⟨hop, -⟩
      · exact .inl (hsame.trans hslot)
      · rcases htaken with rfl | rfl | ⟨other, interrupted, exit, rfl, hown⟩ | ⟨other, rfl, hown⟩
        · exact .inr (.inl (by simp [displaces, hslot]))
        · exact .inr (.inl (by simp [displaces, hslot]))
        · cases hslot.symm.trans hown
          exact .inr (.inr ⟨rfl, rfl⟩)
        · cases hslot.symm.trans hown
      · cases hslot.symm.trans (hreserved hop)
  | true =>
      have hmem : id ∈ s.runtime.background := hplace
      rcases h.background with hsame | ⟨other, hmore⟩ | ⟨other, rfl, hleft⟩ | ⟨rfl, -⟩
      · exact .inl (hsame ▸ hmem : id ∈ s'.runtime.background)
      · exact .inl (hmore ▸ List.mem_append_left _ hmem : id ∈ s'.runtime.background)
      · by_cases hsame : id = other
        · subst hsame
          exact .inr (.inr ⟨rfl, rfl⟩)
        · have hstays : id ∈ s.runtime.background.filter fun other' => other' != other :=
            List.mem_filter.mpr ⟨hmem, by simpa using hsame⟩
          exact .inl (hleft ▸ hstays : id ∈ s'.runtime.background)
      · exact .inr (.inl hmem)

/-- Of the steps of the operations only the end of an exec is recorded as activity. -/
theorem Moves.lastActivity (h : op.Moves s foregroundFree now answer s' op') :
    op.isRunExec = true ∧ s'.runtime.lastActivity = now.instant ∨
      op.isRunExec = false ∧ s'.runtime.lastActivity = s.runtime.lastActivity := by
  cases h with
  | reconnected | reconnectFailed | execFinished | ptyFinished =>
      right
      refine ⟨rfl, ?_⟩
      simp only [Shared.wake, Shared.writeOpenInfo]
      split
      · rfl
      · rfl
  | execInterrupted | execEnded => exact .inl ⟨rfl, rfl⟩
  | _ => exact .inr ⟨rfl, rfl⟩

theorem isRunExec_eq_false (h : op.active = false) : op.isRunExec = false := by
  cases op with
  | runExec command background => cases h
  | _ => rfl

end Moves

end Op

/-- Where the reaper stands at the session. Times are in nanoseconds. -/
inductive Reaper
  | waiting
  | visiting (idleTimeout : Nat)
  | slot (idleTimeout readAt : Nat)
  | background (idleTimeout readAt : Nat)
  | closing (idleTimeout op : Nat)
  deriving DecidableEq, Repr

structure Ended where
  recorded : Bool
  instant : Nat
  deriving DecidableEq, Repr

/-- A session with its file operations and the reaper. -/
structure Reaped where
  work : Cancellable
  transfers : List SshConnection
  reaper : Reaper
  clock : Nat
  ended : List Ended
  displaced : List String

/-- A file operation that has its channel takes any time until `transferEnds`; the close
that the reaper calls is an operation of the session like any other. -/
inductive ReapedStep
  | work (move : CancellableStep)
  | transferEnds (transfer : Nat) (now : Now)
  | output (op : Nat) (stream : StreamKind) (payload : Bytes) (now : Now)
  | shellWrite (now : Now)
  | reapIdle (idleTimeoutSeconds retentionDays : Nat) (now : Now)
  | readActivity (now : Now)
  | lookForeground
  | lookBackground (now : Now)
  | reaped
  deriving DecidableEq, Repr

def CancellableStep.time : CancellableStep → Option Now
  | .session (.advance _ _ now) => some now
  | _ => none

def ReapedStep.time : ReapedStep → Option Now
  | .work move => move.time
  | .transferEnds _ now | .output _ _ _ now | .shellWrite now | .reapIdle _ _ now
  | .readActivity now | .lookBackground now => some now
  | .lookForeground | .reaped => none

namespace Reaped

def shared (s : Reaped) : Shared := s.work.session.shared

def runtime (s : Reaped) : SessionRuntime := s.shared.runtime

def ops (s : Reaped) : List Op := s.work.session.ops

def setShared (s : Reaped) (shared : Shared) : Reaped := { s with work := s.work.setShared shared }

def setActivity (s : Reaped) (now : Now) : Reaped :=
  s.setShared { s.shared with runtime := { s.runtime with lastActivity := now.instant } }

/-- The file channel that a step opens. -/
def opened (s : Reaped) : CancellableStep → List SshConnection
  | .session (.advance i .ok _) =>
      match s.ops[i]? with
      | some (.opening .sftp connection) => [connection]
      | _ => []
  | _ => []

/-- What comes to its end with a step that makes `work` of the session. -/
def ending (s : Reaped) (work : Cancellable) : CancellableStep → List Ended
  | .session (.advance i _ now) =>
      let ended :=
        match s.ops[i]?, work.session.ops[i]? with
        | some op, some op' => (op.ends op').toList
        | _, _ => []
      let pty := if s.runtime.foreground.any Foreground.isPty && work.session.slot.isNone then
          [false] else []
      (ended ++ pty).map fun recorded => ⟨recorded, now.instant⟩
  | _ => []

def displacing (s : Reaped) : CancellableStep → List String
  | .session (.advance i _ _) => (s.ops[i]?.map (Op.displaces s.runtime)).getD []
  | _ => []

/-- `record`, by the task that reads the channel. -/
def stepOutput (s : Reaped) (op : Nat) (stream : StreamKind) (payload : Bytes) (now : Now) :
    Option Reaped :=
  let recorded (commandId : Option String) : Reaped :=
    let record := record s.shared.storage s.runtime commandId stream payload now
    s.setShared { s.shared with storage := record.storage, runtime := record.runtime }
  match s.ops[op]? with
  | some (.runExec command _) =>
      if stream = .stdout ∨ stream = .stderr then some (recorded (some command.id)) else none
  | some (.runPty _) => if stream = .pty then some (recorded none) else none
  | _ => none

/-- The steps of `reap_idle`. The lock of the slot is given back before the next look. -/
def stepReaper (s : Reaped) : ReapedStep → Option Reaped
  | .reapIdle idleTimeoutSeconds retentionDays now =>
      if s.reaper = .waiting then
        some { s.setShared { s.shared with
            storage := s.shared.storage.cleanup retentionDays now.utc } with
          reaper := .visiting (idleTimeoutSeconds * 1000000000) }
      else none
  | .readActivity now =>
      match s.reaper with
      | .visiting idleTimeout =>
          if idleTimeout ≤ now.instant - s.runtime.lastActivity then
            some { s with reaper := .slot idleTimeout now.instant }
          else some { s with reaper := .waiting }
      | _ => none
  | .lookForeground =>
      match s.reaper with
      | .slot idleTimeout readAt =>
          if s.work.session.foregroundFree then
            if s.runtime.foreground.isNone then
              some { s with reaper := .background idleTimeout readAt }
            else some { s with reaper := .waiting }
          else none
      | _ => none
  | .lookBackground _ =>
      match s.reaper with
      | .background idleTimeout _ =>
          if s.runtime.background.isEmpty then
            (s.work.step (.session (.call .close))).map fun work =>
              { s with work := work, reaper := .closing idleTimeout s.ops.length }
          else some { s with reaper := .waiting }
      | _ => none
  | .reaped =>
      match s.reaper with
      | .closing _ op =>
          match s.ops[op]? with
          | some (.returned _) => some { s with reaper := .waiting }
          | _ => none
      | _ => none
  | _ => none

def act (s : Reaped) : ReapedStep → Option Reaped
  | .work move =>
      (s.work.step move).map fun work =>
        { s with
          work := work
          transfers := s.transfers ++ s.opened move
          ended := s.ended ++ s.ending work move
          displaced := s.displaced ++ s.displacing move }
  | .transferEnds k now =>
      if k < s.transfers.length then
        some { s with
          transfers := s.transfers.eraseIdx k
          ended := s.ended ++ [⟨false, now.instant⟩] }
      else none
  | .output op stream payload now => s.stepOutput op stream payload now
  | .shellWrite now =>
      if s.work.session.foregroundFree ∧ s.runtime.foreground.any Foreground.isPty then
        some (s.setActivity now)
      else none
  | move => s.stepReaper move

/-- The clock does not go back. -/
def step (s : Reaped) (move : ReapedStep) : Option Reaped :=
  if move.time.all fun now => decide (s.clock ≤ now.instant) then
    (s.act move).map fun s' => { s' with clock := (move.time.map Now.instant).getD s.clock }
  else none

def machine : Machine Reaped ReapedStep := ⟨step⟩

/-- The session as `create` leaves it in the map, before its connection stands. -/
def created (storage : Storage) (info : SessionInfo) (reconnectAttempts : Nat) (now : Now) :
    Reaped :=
  ⟨⟨.created storage info reconnectAttempts now, []⟩, [], .waiting, now.instant, [], []⟩

/-- Nothing that the reaper is to wait for is in progress. -/
structure Idle (s : Reaped) : Prop where
  resting : ∀ op ∈ s.ops, op.active = false
  noPty : s.runtime.foreground.any Foreground.isPty = false
  noTransfer : s.transfers = []

instance (s : Reaped) : Decidable s.Idle :=
  decidable_of_iff ((∀ op ∈ s.ops, op.active = false) ∧
      s.runtime.foreground.any Foreground.isPty = false ∧ s.transfers = [])
    ⟨fun h => ⟨h.1, h.2.1, h.2.2⟩, fun h => ⟨h.1, h.2, h.3⟩⟩

end Reaped

/-- The timeout under which the reaper closes, when its close is the operation at `op`. -/
def Reaper.closes (op : Nat) : Reaper → Option Nat
  | .closing idleTimeout i => if op = i then some idleTimeout else none
  | _ => none

theorem Reaper.closing_of_closes {op idleTimeout : Nat} {reaper : Reaper}
    (h : idleTimeout ∈ reaper.closes op) : reaper = .closing idleTimeout op := by
  cases reaper with
  | closing idleTimeout' i =>
      simp only [Reaper.closes] at h
      split at h
      · rename_i hsame
        cases h
        rw [hsame]
      · cases h
  | _ => cases h

/-- The reaper is at its last look, with the timeout and the time of its reading. -/
def Reaper.decides : Reaper → Option (Nat × Nat)
  | .background idleTimeout readAt => some (idleTimeout, readAt)
  | _ => none

/-- The reaper has seen the slot empty: nothing that fills it is expected any more. A file
operation is expected until the close has begun. -/
def Reaper.past (file : Bool) : Reaper → Bool
  | .closing _ _ => true
  | .background _ _ => !file
  | _ => false

namespace Reaped

/-- A step of the reaper's close finds the session idle, and for long enough. -/
def ReapsIdle (s : Reaped) : ReapedStep → Prop
  | .work (.session (.advance i _ now)) =>
      ∀ idleTimeout ∈ s.reaper.closes i,
        s.Idle ∧ ∀ ended ∈ s.ended, ended.instant + idleTimeout ≤ now.instant
  | _ => True

/-- No operation begins behind the reaper's back, and when the reaper decides, no file
operation is in progress, no exec runs that was taken from its place, and what has ended
unrecorded, or since the reaper read the last activity, ended long enough ago. -/
def Unraced (s : Reaped) : ReapedStep → Prop
  | .work (.session (.advance i answer _)) =>
      ∀ op ∈ s.ops[i]?, ∀ file ∈ op.begins, answer = .ok → s.reaper.past file = false
  | .lookBackground now => ∀ looked ∈ s.reaper.decides,
      s.runtime.background = [] →
        s.transfers = [] ∧
        (∀ op ∈ s.ops, op.connects true = false ∧ ∀ exec ∈ op.runs, exec.1 ∉ s.displaced) ∧
        ∀ ended ∈ s.ended, ended.recorded = false ∨ looked.2 ≤ ended.instant →
          ended.instant + looked.1 ≤ now.instant
  | _ => True

instance (s : Reaped) : DecidablePred s.ReapsIdle
  | .work (.session (.advance i _ now)) =>
      inferInstanceAs (Decidable (∀ idleTimeout ∈ s.reaper.closes i,
        s.Idle ∧ ∀ ended ∈ s.ended, ended.instant + idleTimeout ≤ now.instant))
  | .work (.session (.call _)) | .work (.session (.die _)) | .work (.cancel _) | .work (.look _)
  | .transferEnds _ _ | .output _ _ _ _ | .shellWrite _ | .reapIdle _ _ _ | .readActivity _
  | .lookForeground | .lookBackground _ | .reaped => isTrue trivial

instance (s : Reaped) : DecidablePred s.Unraced
  | .work (.session (.advance i answer _)) =>
      inferInstanceAs (Decidable (∀ op ∈ s.ops[i]?, ∀ file ∈ op.begins,
        answer = .ok → s.reaper.past file = false))
  | .lookBackground now =>
      inferInstanceAs (Decidable (∀ looked ∈ s.reaper.decides, s.runtime.background = [] →
        s.transfers = [] ∧
        (∀ op ∈ s.ops, op.connects true = false ∧ ∀ exec ∈ op.runs, exec.1 ∉ s.displaced) ∧
        ∀ ended ∈ s.ended, ended.recorded = false ∨ looked.2 ≤ ended.instant →
          ended.instant + looked.1 ≤ now.instant))
  | .work (.session (.call _)) | .work (.session (.die _)) | .work (.cancel _) | .work (.look _)
  | .transferEnds _ _ | .output _ _ _ _ | .shellWrite _ | .reapIdle _ _ _ | .readActivity _
  | .lookForeground | .reaped => isTrue trivial

/-- What a step leaves as it was when no operation moves on. -/
structure Frame (s s' : Reaped) : Prop where
  ops : ∃ calls : List Call, s'.ops = s.ops ++ calls.map Call.op
  slot : s'.runtime.foreground = s.runtime.foreground
  background : s'.runtime.background = s.runtime.background
  used : s'.shared.used = s.shared.used
  displaced : s'.displaced = s.displaced
  activity : s'.runtime.lastActivity = s.runtime.lastActivity ∨
    s'.runtime.lastActivity = s'.clock
  clock : s.clock ≤ s'.clock

/-- How the reaper goes on. -/
inductive Turn (s s' : Reaped) : Prop
  | stays (same : s'.reaper = s.reaper)
  | waits (reaper : s'.reaper = .waiting)
  | visits {idleTimeout : Nat} (reaper : s'.reaper = .visiting idleTimeout)
  | reads {idleTimeout : Nat} (elapsed : idleTimeout ≤ s'.clock - s.runtime.lastActivity)
      (reaper : s'.reaper = .slot idleTimeout s'.clock)
  | passes {idleTimeout readAt : Nat} (before : s.reaper = .slot idleTimeout readAt)
      (free : s.work.session.foregroundFree = true) (empty : s.runtime.foreground = none)
      (reaper : s'.reaper = .background idleTimeout readAt)

/-- The table of the steps. -/
inductive Moves (s s' : Reaped) : ReapedStep → Prop
  | advanced {i : Nat} {answer : Answer} {now : Now} {op op' : Op} {others : List Op}
      (hop : s.ops[i]? = some op)
      (hstep : op.step s.shared s.work.session.foregroundFree s.work.session.connectionFree
        answer now = some (s'.shared, op'))
      (hadvance : Lifecycle.Advances s.work.session s'.work.session op op' others answer now)
      (htransfers : op.active = false → s'.transfers = s.transfers)
      (hended : s'.ended = s.ended ++ ((op.ends op').toList ++
        if s.runtime.foreground.any Foreground.isPty && s'.work.session.slot.isNone then [false]
        else []).map fun recorded => ⟨recorded, now.instant⟩)
      (hdisplaced : s'.displaced = s.displaced ++ op.displaces s.runtime)
      (hreaper : s'.reaper = s.reaper) (hclock : s.clock ≤ now.instant)
      (hnow : s'.clock = now.instant) :
      Moves s s' (.work (.session (.advance i answer now)))
  | framed {move : ReapedStep} (hframe : Frame s s') (htransfers : s'.transfers = s.transfers)
      (hended : s'.ended = s.ended) (hturn : Turn s s') : Moves s s' move
  | transferred {k : Nat} {now : Now} (hframe : Frame s s') (hbusy : s.transfers ≠ [])
      (hended : s'.ended = s.ended ++ [⟨false, s'.clock⟩]) (hreaper : s'.reaper = s.reaper) :
      Moves s s' (.transferEnds k now)
  | decided {now : Now} {idleTimeout readAt i : Nat} (hframe : Frame s s')
      (htransfers : s'.transfers = s.transfers) (hended : s'.ended = s.ended)
      (hbefore : s.reaper = .background idleTimeout readAt) (hempty : s.runtime.background = [])
      (hreaper : s'.reaper = .closing idleTimeout i) (hnow : s'.clock = now.instant) :
      Moves s s' (.lookBackground now)

theorem Frame.of_ops {s s' : Reaped} (hops : s'.ops = s.ops)
    (hslot : s'.runtime.foreground = s.runtime.foreground)
    (hbackground : s'.runtime.background = s.runtime.background)
    (hused : s'.shared.used = s.shared.used) (hdisplaced : s'.displaced = s.displaced)
    (hactivity : s'.runtime.lastActivity = s.runtime.lastActivity ∨
      s'.runtime.lastActivity = s'.clock)
    (hclock : s.clock ≤ s'.clock) : Frame s s' :=
  ⟨⟨[], by rw [hops, List.map_nil, List.append_nil]⟩, hslot, hbackground, hused, hdisplaced,
    hactivity, hclock⟩

theorem step_moved {s s' : Lifecycle} {i : Nat} {answer : Answer} {now : Now}
    (h : s.step (.advance i answer now) = some s') :
    ∃ op op' others, s.ops[i]? = some op ∧ s'.ops[i]? = some op' ∧
      op.step s.shared s.foregroundFree s.connectionFree answer now = some (s'.shared, op') ∧
      Lifecycle.Advances s s' op op' others answer now := by
  obtain ⟨op, op', others, hop, hbefore, hafter, hstep⟩ := Lifecycle.step_own h
  refine ⟨op, op', others, hop, ?_, hstep, hbefore, hafter, Op.moves_of_step hstep⟩
  rcases Lifecycle.step_at hop h with ⟨hother, -⟩ | ⟨answer', now', op'', hmove, hop'', hstep'⟩
  · exact absurd rfl (hother answer now)
  · cases hmove
    rw [hop'', (Prod.mk.inj (Option.some.inj (hstep'.symm.trans hstep))).2]

theorem moves_of_step {s s' : Reaped} {move : ReapedStep} (h : s.step move = some s') :
    Moves s s' move := by
  rw [step] at h
  split at h
  · rename_i htime
    obtain ⟨t, hact, rfl⟩ := Option.map_eq_some_iff.mp h
    cases move with
    | work move =>
        obtain ⟨work, hwork, rfl⟩ := Option.map_eq_some_iff.mp hact
        cases move with
        | session move =>
            obtain ⟨session, hsession, rfl⟩ := Option.map_eq_some_iff.mp hwork
            cases move with
            | call call =>
                cases hsession
                exact .framed ⟨⟨[call], rfl⟩, rfl, rfl, rfl, List.append_nil _, .inl rfl,
                  Nat.le_refl _⟩ (List.append_nil _) (List.append_nil _) (.stays rfl)
            | die connection =>
                cases hsession
                exact .framed (.of_ops rfl rfl rfl rfl (List.append_nil _) (.inl rfl)
                  (Nat.le_refl _)) (List.append_nil _) (List.append_nil _) (.stays rfl)
            | advance i answer now =>
                obtain ⟨op, op', others, hop, hop', hstep, hadvance⟩ := step_moved hsession
                have hops : s.ops[i]? = some op := hop
                refine .advanced hop hstep hadvance ?_ ?_ ?_ rfl (of_decide_eq_true htime) rfl
                · intro hactive
                  have hnone : s.opened (.session (.advance i answer now)) = [] := by
                    cases answer with
                    | ok =>
                        simp only [opened, hops]
                        split
                        · rename_i hsame
                          cases hsame
                          cases hactive
                        · rfl
                    | _ => rfl
                  simp only [hnone, List.append_nil]
                · simp only [ending, hops, hop']
                · simp only [displacing, hops, Option.map_some, Option.getD_some]
        | cancel id =>
            cases hwork
            exact .framed (.of_ops rfl rfl rfl rfl (List.append_nil _) (.inl rfl)
              (Nat.le_refl _)) (List.append_nil _) (List.append_nil _) (.stays rfl)
        | look j =>
            obtain ⟨cancelled, -, hsession⟩ := Cancellable.look_session hwork
            obtain ⟨session, cancels⟩ := work
            cases hsession
            exact .framed (.of_ops rfl rfl rfl rfl (List.append_nil _) (.inl rfl)
              (Nat.le_refl _)) (List.append_nil _) (List.append_nil _) (.stays rfl)
    | transferEnds k now =>
        simp only [act] at hact
        split at hact
        · rename_i hlt
          cases hact
          refine .transferred (.of_ops rfl rfl rfl rfl rfl (.inl rfl) (of_decide_eq_true htime))
            ?_ rfl rfl
          intro hnone
          rw [hnone] at hlt
          exact absurd hlt (Nat.not_lt_zero k)
        · cases hact
    | output op stream payload now =>
        have hrecorded (commandId : Option String) :
            Moves s { s.setShared { s.shared with
                storage := (record s.shared.storage s.runtime commandId stream payload now).storage
                runtime :=
                  (record s.shared.storage s.runtime commandId stream payload now).runtime } with
              clock := now.instant } (.output op stream payload now) := by
          have hsame := record_runtime s.shared.storage s.runtime commandId stream payload now
          exact .framed (.of_ops rfl hsame.foreground hsame.background rfl rfl
            (.inr hsame.lastActivity) (of_decide_eq_true htime)) rfl rfl (.stays rfl)
        simp only [act, stepOutput] at hact
        split at hact
        · split at hact
          · cases hact
            exact hrecorded _
          · cases hact
        · split at hact
          · cases hact
            exact hrecorded _
          · cases hact
        · cases hact
    | shellWrite now =>
        simp only [act] at hact
        split at hact
        · cases hact
          exact .framed (.of_ops rfl rfl rfl rfl rfl (.inr rfl) (of_decide_eq_true htime)) rfl rfl
            (.stays rfl)
        · cases hact
    | reapIdle idleTimeoutSeconds retentionDays now =>
        simp only [act, stepReaper] at hact
        split at hact
        · cases hact
          exact .framed (.of_ops rfl rfl rfl rfl rfl (.inl rfl) (of_decide_eq_true htime)) rfl rfl
            (.visits rfl)
        · cases hact
    | readActivity now =>
        have hframe {reaper : Reaper} :
            Frame s { s with reaper := reaper, clock := now.instant } :=
          .of_ops rfl rfl rfl rfl rfl (.inl rfl) (of_decide_eq_true htime)
        simp only [act, stepReaper] at hact
        split at hact
        · split at hact
          · rename_i helapsed
            cases hact
            exact .framed hframe rfl rfl (.reads helapsed rfl)
          · cases hact
            exact .framed hframe rfl rfl (.waits rfl)
        · cases hact
    | lookForeground =>
        have hframe {reaper : Reaper} : Frame s { s with reaper := reaper } :=
          .of_ops rfl rfl rfl rfl rfl (.inl rfl) (Nat.le_refl _)
        simp only [act, stepReaper] at hact
        split at hact
        · rename_i hreaper
          split at hact
          · rename_i hfree
            split at hact
            · rename_i hempty
              cases hact
              exact .framed hframe rfl rfl
                (.passes hreaper hfree (Option.isNone_iff_eq_none.mp hempty) rfl)
            · cases hact
              exact .framed hframe rfl rfl (.waits rfl)
          · cases hact
        · cases hact
    | lookBackground now =>
        simp only [act, stepReaper] at hact
        split at hact
        · rename_i hreaper
          split at hact
          · rename_i hempty
            cases hact
            exact .decided ⟨⟨[.close], rfl⟩, rfl, rfl, rfl, rfl, .inl rfl, of_decide_eq_true htime⟩
              rfl rfl hreaper (List.isEmpty_iff.mp hempty) rfl rfl
          · cases hact
            exact .framed (.of_ops rfl rfl rfl rfl rfl (.inl rfl) (of_decide_eq_true htime)) rfl
              rfl (.waits rfl)
        · cases hact
    | reaped =>
        simp only [act, stepReaper] at hact
        split at hact
        · split at hact
          · cases hact
            exact .framed (.of_ops rfl rfl rfl rfl rfl (.inl rfl) (Nat.le_refl _)) rfl rfl
              (.waits rfl)
          · cases hact
        · cases hact
  · cases h

/-- Who may be in the slot and in the map, and where every exec is. -/
structure Registry (s : Reaped) : Prop where
  locked : s.work.session.Locked
  distinct : (s.ops.filterMap Op.commandId).Nodup
  handed : ∀ id ∈ s.ops.filterMap Op.commandId, id ∈ s.shared.used
  placed : ∀ op ∈ s.ops, ∀ id background, op.runs = some (id, background) →
    s.runtime.InPlace id background ∨ id ∈ s.displaced

/-- The recorded ends are not later than the last activity. -/
structure Timed (s : Reaped) : Prop where
  recorded : ∀ ended ∈ s.ended, ended.recorded = true →
    ended.instant ≤ s.runtime.lastActivity
  passed : s.runtime.lastActivity ≤ s.clock

/-- A reading of the last activity at `readAt` that found it long enough ago. -/
structure Read (s : Reaped) (idleTimeout readAt : Nat) : Prop where
  passed : readAt ≤ s.clock
  recorded : ∀ ended ∈ s.ended, ended.recorded = true →
    ended.instant + idleTimeout ≤ readAt ∨ readAt ≤ ended.instant

/-- What the reaper knows where it stands. -/
def Knows (s : Reaped) : Reaper → Prop
  | .waiting | .visiting _ => True
  | .slot idleTimeout readAt => s.Read idleTimeout readAt
  | .background idleTimeout readAt =>
      s.Read idleTimeout readAt ∧ s.runtime.foreground = none ∧
        ∀ op ∈ s.ops, op.connects false = false
  | .closing idleTimeout _ =>
      s.Idle ∧ s.runtime.foreground = none ∧
        ∀ ended ∈ s.ended, ended.instant + idleTimeout ≤ s.clock

theorem runs_commandId {op : Op} {id : String} {background : Bool}
    (h : op.runs = some (id, background)) : op.commandId = some id := by
  cases op with
  | startedExec command | runExec command background =>
      cases h
      rfl
  | _ => cases h

theorem call_inert (call : Call) :
    call.op.holdsForeground = false ∧ call.op.reserves = false ∧ call.op.commandId = none ∧
      call.op.active = false := by
  cases call with
  | _ => exact ⟨rfl, rfl, rfl, rfl⟩

theorem connects_of_active {op : Op} (h : op.active = false) (file : Bool) :
    op.connects file = false := by
  simp only [Op.active, Bool.or_eq_false_iff] at h
  cases file with
  | false => exact h.1.2
  | true => exact h.1.1

theorem runs_of_active {op : Op} (h : op.active = false) : op.runs = none := by
  simp only [Op.active, Bool.or_eq_false_iff] at h
  exact Option.isSome_eq_false_iff.mp h.2 |> Option.isNone_iff_eq_none.mp

section Frame

variable {s s' : Reaped}

theorem Frame.mem_ops (h : Frame s s') {op : Op} (hop : op ∈ s'.ops) :
    op ∈ s.ops ∨ ∃ call : Call, op = call.op := by
  obtain ⟨calls, hops⟩ := h.ops
  rw [hops] at hop
  cases List.mem_append.mp hop with
  | inl hop => exact .inl hop
  | inr hop =>
      obtain ⟨call, -, rfl⟩ := List.mem_map.mp hop
      exact .inr ⟨call, rfl⟩

theorem Frame.registry (h : Frame s s') (hregistry : Registry s) : Registry s' := by
  obtain ⟨calls, hops⟩ := h.ops
  have hnone : (calls.map Call.op).filterMap Op.commandId = [] := by
    rw [List.filterMap_eq_nil_iff]
    intro op hop
    obtain ⟨call, -, rfl⟩ := List.mem_map.mp hop
    exact (call_inert call).2.2.1
  have hnames : s'.ops.filterMap Op.commandId = s.ops.filterMap Op.commandId := by
    rw [hops, List.filterMap_append, hnone, List.append_nil]
  have hholds : (calls.map Call.op).countP Op.holdsForeground = 0 := by
    rw [List.countP_eq_zero]
    intro op hop
    obtain ⟨call, -, rfl⟩ := List.mem_map.mp hop
    simp [(call_inert call).1]
  refine ⟨⟨?_, ?_⟩, ?_, ?_, ?_⟩
  · change s'.ops.countP Op.holdsForeground ≤ 1
    rw [hops, List.countP_append, hholds]
    exact hregistry.locked.exclusive
  · intro op hop hreserves
    rcases h.mem_ops hop with hop | ⟨call, rfl⟩
    · exact h.slot.trans (hregistry.locked.reserved op hop hreserves)
    · exact absurd hreserves (by simp [(call_inert call).2.1])
  · rw [hnames]
    exact hregistry.distinct
  · rw [hnames, h.used]
    exact hregistry.handed
  · intro op hop id background hruns
    rcases h.mem_ops hop with hop | ⟨call, rfl⟩
    · rw [h.displaced, SessionRuntime.InPlace, h.slot, h.background]
      exact hregistry.placed op hop id background hruns
    · cases (runs_of_active (call_inert call).2.2.2).symm.trans hruns

theorem Frame.timed (h : Frame s s') (htimed : Timed s)
    (hended : ∀ ended ∈ s'.ended, ended ∈ s.ended ∨ ended.recorded = false) : Timed s' := by
  have hpassed := htimed.passed
  have hclock := h.clock
  constructor
  · intro ended hmem hrecorded
    cases hended ended hmem with
    | inl hmem =>
        have hbefore := htimed.recorded ended hmem hrecorded
        cases h.activity with
        | inl hsame => omega
        | inr hnow => omega
    | inr hother => cases hrecorded.symm.trans hother
  · rcases h.activity with hsame | hnow
    · omega
    · omega

theorem Frame.read {idleTimeout readAt : Nat} (h : Frame s s') (hread : s.Read idleTimeout readAt)
    (hended : ∀ ended ∈ s'.ended, ended ∈ s.ended ∨ ended.recorded = false) :
    s'.Read idleTimeout readAt := by
  refine ⟨Nat.le_trans hread.passed h.clock, fun ended hmem hrecorded => ?_⟩
  cases hended ended hmem with
  | inl hmem => exact hread.recorded ended hmem hrecorded
  | inr hother => cases hrecorded.symm.trans hother

theorem Frame.idle (h : Frame s s') (hidle : s.Idle) (htransfers : s'.transfers = s.transfers) :
    s'.Idle := by
  refine ⟨fun op hop => ?_, h.slot ▸ hidle.noPty, htransfers.trans hidle.noTransfer⟩
  rcases h.mem_ops hop with hop | ⟨call, rfl⟩
  · exact hidle.resting op hop
  · exact (call_inert call).2.2.2

theorem Frame.connects (h : Frame s s') (hnone : ∀ op ∈ s.ops, op.connects false = false) :
    ∀ op ∈ s'.ops, op.connects false = false := by
  intro op hop
  rcases h.mem_ops hop with hop | ⟨call, rfl⟩
  · exact hnone op hop
  · exact connects_of_active (call_inert call).2.2.2 false

end Frame

section Advance

variable {s s' : Reaped} {i : Nat} {answer : Answer} {now : Now} {op op' : Op}
  {others : List Op}

/-- Only an operation that is granted its beginning sets out for a channel. -/
theorem ok_of_begins {shared shared' : Shared} {foregroundFree connectionFree file : Bool}
    (hstep : op.step shared foregroundFree connectionFree answer now = some (shared', op'))
    (hbegins : op.begins = some file) (hconnects : op'.connects file = true) : answer = .ok := by
  cases op with
  | acquire p =>
      simp only [Op.step, Op.stepConnect] at hstep
      split at hstep
      · cases hstep
      · split at hstep
        · rfl
        · rfl
        · rfl
        · rfl
        · cases hstep
          cases hconnects
        · cases hstep
  | _ => cases hbegins

theorem advance_registry (h : Registry s)
    (hadvance : Lifecycle.Advances s.work.session s'.work.session op op' others answer now)
    (hdisplaced : s'.displaced = s.displaced ++ op.displaces s.runtime) : Registry s' := by
  obtain ⟨hdistinct, hhanded⟩ := nodup_names_move hadvance.before hadvance.after
    (fun _ hid => hadvance.moves.used hid) (fun _ hid => hadvance.moves.commandId hid)
    h.distinct h.handed
  have hkeeps {id : String} {background : Bool} (hplaced : s.runtime.InPlace id background ∨
      id ∈ s.displaced) (hnot : ¬(op.commandId = some id ∧ op.runs = none)) :
      s'.runtime.InPlace id background ∨ id ∈ s'.displaced := by
    rw [hdisplaced]
    cases hplaced with
    | inl hplace =>
        rcases hadvance.moves.inPlace (fun hreserves => h.locked.reserved op
          (hadvance.mem_before.mpr (.inl rfl)) hreserves) hplace with hstays | htaken | hleft
        · exact .inl hstays
        · exact .inr (List.mem_append_right _ htaken)
        · exact absurd hleft hnot
    | inr hmem => exact .inr (List.mem_append_left _ hmem)
  refine ⟨h.locked.advance hadvance, hdistinct, hhanded, fun x hx id background hruns => ?_⟩
  rcases hadvance.mem_after.mp hx with rfl | hx
  · rcases hadvance.moves.runs hruns with hbefore | ⟨-, hplace⟩
    · exact hkeeps (h.placed op (hadvance.mem_before.mpr (.inl rfl)) id background hbefore)
        fun hnot => by cases hbefore.symm.trans hnot.2
    · exact .inl hplace
  · refine hkeeps (h.placed x (hadvance.mem_before.mpr (.inr hx)) id background hruns) ?_
    intro hnot
    have hnodup := (hadvance.before.filterMap Op.commandId).nodup_iff.mp h.distinct
    rw [List.filterMap_cons_some hnot.1, List.nodup_cons] at hnodup
    exact hnodup.1 (List.mem_filterMap.mpr ⟨x, hx, runs_commandId hruns⟩)

/-- What ends with a step ends now, and what is recorded of it is an exec. -/
theorem mem_ended {ended : Ended} {pty : Bool}
    (hended : s'.ended = s.ended ++ ((op.ends op').toList ++
      if pty then [false] else []).map fun recorded => ⟨recorded, now.instant⟩)
    (hmem : ended ∈ s'.ended) :
    ended ∈ s.ended ∨ ended.instant = now.instant ∧
      (ended.recorded = true → op.isRunExec = true) := by
  rw [hended] at hmem
  cases List.mem_append.mp hmem with
  | inl hold => exact .inl hold
  | inr hnew =>
      obtain ⟨recorded, hrecorded, rfl⟩ := List.mem_map.mp hnew
      refine .inr ⟨rfl, fun htrue => ?_⟩
      subst htrue
      cases List.mem_append.mp hrecorded with
      | inl hends =>
          have hends : op.ends op' = some true := Option.mem_toList.mp hends
          rw [Op.ends] at hends
          split at hends
          · assumption
          · split at hends <;> cases hends
      | inr hpty =>
          split at hpty
          · cases List.mem_singleton.mp hpty
          · cases hpty

/-- Nothing ends in a session that is idle. -/
theorem ended_of_idle {pty : Bool}
    (hended : s'.ended = s.ended ++ ((op.ends op').toList ++
      if pty then [false] else []).map fun recorded => ⟨recorded, now.instant⟩)
    (hactive : op.active = false) (hpty : pty = false) : s'.ended = s.ended := by
  have hends : op.ends op' = none := by
    rw [Op.ends, Op.isRunExec_eq_false hactive, hactive]
    rfl
  rw [hended, hends, hpty]
  exact List.append_nil _

theorem advance_timed {pty : Bool} (h : Timed s)
    (hmoves : op.Moves s.shared s.work.session.foregroundFree now answer s'.shared op')
    (hended : s'.ended = s.ended ++ ((op.ends op').toList ++
      if pty then [false] else []).map fun recorded => ⟨recorded, now.instant⟩)
    (hclock : s.clock ≤ now.instant) (hnow : s'.clock = now.instant) : Timed s' := by
  have hpassed := h.passed
  have hactivity : s'.runtime.lastActivity = now.instant ∧ op.isRunExec = true ∨
      s'.runtime.lastActivity = s.runtime.lastActivity ∧ op.isRunExec = false :=
    hmoves.lastActivity.imp And.symm And.symm
  constructor
  · intro ended hmem hrecorded
    rcases mem_ended hended hmem with hold | ⟨hinstant, hexec⟩
    · have hbefore := h.recorded ended hold hrecorded
      rcases hactivity with ⟨hsame, -⟩ | ⟨hsame, -⟩
      · omega
      · omega
    · rcases hactivity with ⟨hsame, -⟩ | ⟨-, hother⟩
      · omega
      · cases (hexec hrecorded).symm.trans hother
  · rcases hactivity with ⟨hsame, -⟩ | ⟨hsame, -⟩
    · omega
    · omega

theorem advance_read {pty : Bool} {idleTimeout readAt : Nat} (h : s.Read idleTimeout readAt)
    (hended : s'.ended = s.ended ++ ((op.ends op').toList ++
      if pty then [false] else []).map fun recorded => ⟨recorded, now.instant⟩)
    (hclock : s.clock ≤ now.instant) (hnow : s'.clock = now.instant) :
    s'.Read idleTimeout readAt := by
  have hpassed := h.passed
  refine ⟨by omega, fun ended hmem hrecorded => ?_⟩
  rcases mem_ended hended hmem with hold | ⟨hinstant, -⟩
  · exact h.recorded ended hold hrecorded
  · omega

/-- The slot stays empty as long as nothing sets out to fill it. -/
theorem advance_slot (hmem : op ∈ s.ops)
    (hmoves : op.Moves s.shared s.work.session.foregroundFree now answer s'.shared op')
    (hslot : s.runtime.foreground = none) (hnone : ∀ op ∈ s.ops, op.connects false = false) :
    s'.runtime.foreground = none := by
  rcases hmoves.foreground with hsame | ⟨hempty, -⟩ | ⟨hreserves, -⟩
  · exact hsame.trans hslot
  · exact hempty
  · cases (Op.connects_of_reserves hreserves).symm.trans (hnone op hmem)

theorem advance_connects {file : Bool}
    (hadvance : Lifecycle.Advances s.work.session s'.work.session op op' others answer now)
    (hstep : op.step s.shared s.work.session.foregroundFree s.work.session.connectionFree
      answer now = some (s'.shared, op'))
    (hbegins : ∀ file ∈ op.begins, answer = .ok → s.reaper.past file = false)
    (hpast : s.reaper.past file = true) (hnone : ∀ op ∈ s.ops, op.connects file = false) :
    ∀ op ∈ s'.ops, op.connects file = false := by
  intro x hx
  rcases hadvance.mem_after.mp hx with rfl | hx
  · rw [← Bool.not_eq_true]
    intro hconnects
    cases hadvance.moves.connects hconnects with
    | inl hbefore => cases hbefore.symm.trans (hnone op (hadvance.mem_before.mpr (.inl rfl)))
    | inr hbegin =>
        cases hpast.symm.trans (hbegins file hbegin (ok_of_begins hstep hbegin hconnects))
  · exact hnone x (hadvance.mem_before.mpr (.inr hx))

theorem advance_idle
    (hadvance : Lifecycle.Advances s.work.session s'.work.session op op' others answer now)
    (hstep : op.step s.shared s.work.session.foregroundFree s.work.session.connectionFree
      answer now = some (s'.shared, op'))
    (hbegins : ∀ file ∈ op.begins, answer = .ok → s.reaper.past file = false)
    (hpast : ∀ file, s.reaper.past file = true) (hidle : s.Idle)
    (htransfers : op.active = false → s'.transfers = s.transfers)
    (hslot : s'.runtime.foreground = none) : s'.Idle := by
  have hmem : op ∈ s.ops := hadvance.mem_before.mpr (.inl rfl)
  have hconnects (file : Bool) : ∀ x ∈ s'.ops, x.connects file = false :=
    advance_connects hadvance hstep hbegins (hpast file) fun x hx =>
      connects_of_active (hidle.resting x hx) file
  refine ⟨fun x hx => ?_, by rw [hslot]; rfl,
    (htransfers (hidle.resting op hmem)).trans hidle.noTransfer⟩
  have hruns : x.runs = none := by
    rcases hadvance.mem_after.mp hx with rfl | hx'
    · cases hruns : x.runs with
      | none => rfl
      | some exec =>
          rcases hadvance.moves.runs hruns with hbefore | ⟨hbefore, -⟩
          · cases (runs_of_active (hidle.resting op hmem)).symm.trans hbefore
          · cases (connects_of_active (hidle.resting op hmem) false).symm.trans hbefore
    · exact runs_of_active (hidle.resting x (hadvance.mem_before.mpr (.inr hx')))
  rw [Op.active, hconnects true x hx, hconnects false x hx, hruns]
  rfl

end Advance

structure Kept (s : Reaped) : Prop where
  registry : Registry s
  timed : Timed s
  knows : s.Knows s.reaper

section Step

variable {s s' : Reaped} {move : ReapedStep}

theorem Frame.knows (h : Frame s s') (htransfers : s'.transfers = s.transfers)
    (hended : s'.ended = s.ended) {reaper : Reaper} (hknows : s.Knows reaper) :
    s'.Knows reaper := by
  have hold : ∀ ended ∈ s'.ended, ended ∈ s.ended ∨ ended.recorded = false :=
    fun ended hmem => .inl (hended ▸ hmem)
  cases reaper with
  | waiting | visiting idleTimeout => trivial
  | slot idleTimeout readAt => exact h.read hknows hold
  | background idleTimeout readAt =>
      obtain ⟨hread, hslot, hnone⟩ := hknows
      exact ⟨h.read hread hold, h.slot.trans hslot, h.connects hnone⟩
  | closing idleTimeout i =>
      obtain ⟨hidle, hslot, hpast⟩ := hknows
      refine ⟨h.idle hidle htransfers, h.slot.trans hslot, fun ended hmem => ?_⟩
      exact Nat.le_trans (hpast ended (hended ▸ hmem)) h.clock

theorem Turn.knows (h : Turn s s') (hkept : Kept s) (hframe : Frame s s')
    (htransfers : s'.transfers = s.transfers) (hended : s'.ended = s.ended) :
    s'.Knows s'.reaper := by
  cases h with
  | stays same =>
      rw [same]
      exact hframe.knows htransfers hended hkept.knows
  | waits hreaper | visits hreaper =>
      rw [hreaper]
      trivial
  | reads helapsed hreaper =>
      rw [hreaper]
      refine ⟨Nat.le_refl _, fun ended hmem hrecorded => .inl ?_⟩
      have hrecent := hkept.timed.recorded ended (hended ▸ hmem) hrecorded
      have hpassed := hkept.timed.passed
      have hclock := hframe.clock
      omega
  | passes hbefore hfree hempty hreaper =>
      have hknows := hkept.knows
      rw [hbefore] at hknows
      rw [hreaper]
      refine ⟨hframe.read hknows fun ended hmem => .inl (hended ▸ hmem),
        hframe.slot.trans hempty, hframe.connects fun op hop => ?_⟩
      rw [← Bool.not_eq_true]
      intro hconnects
      have hholds := List.all_eq_true.mp hfree op hop
      rw [Op.holdsForeground_of_connects hconnects] at hholds
      cases hholds

/-- The reaper's two looks miss no exec and no PTY that is in its place. -/
theorem idle_of_looks (hregistry : Registry s) (hslot : s.runtime.foreground = none)
    (hempty : s.runtime.background = []) (hnone : ∀ op ∈ s.ops, op.connects false = false)
    (htransfers : s.transfers = [])
    (hunseen : ∀ op ∈ s.ops, op.connects true = false ∧ ∀ exec ∈ op.runs, exec.1 ∉ s.displaced) :
    s.Idle := by
  refine ⟨fun op hop => ?_, by rw [hslot]; rfl, htransfers⟩
  obtain ⟨hfile, hplace⟩ := hunseen op hop
  have hruns : op.runs = none := by
    cases hruns : op.runs with
    | none => rfl
    | some exec =>
        obtain ⟨id, background⟩ := exec
        cases hregistry.placed op hop id background hruns with
        | inl hin =>
            cases background with
            | false => cases hslot.symm.trans hin
            | true =>
                have hmem : id ∈ s.runtime.background := hin
                rw [hempty] at hmem
                cases hmem
        | inr htaken => exact absurd htaken (hplace (id, background) hruns)
  rw [Op.active, hfile, hnone op hop, hruns]
  rfl

theorem Kept.step (h : Kept s) (hunraced : s.Unraced move) (hstep : s.step move = some s') :
    Kept s' := by
  cases moves_of_step hstep with
  | advanced hop hown hadvance htransfers hended hdisplaced hreaper hclock hnow =>
      have hmem := hadvance.mem_before.mpr (.inl rfl)
      have hbegins := hunraced _ hop
      refine ⟨advance_registry h.registry hadvance hdisplaced,
        advance_timed h.timed hadvance.moves hended hclock hnow, ?_⟩
      have hknows := h.knows
      rw [hreaper]
      cases hstage : s.reaper with
      | waiting | visiting idleTimeout => trivial
      | slot idleTimeout readAt =>
          rw [hstage] at hknows
          exact advance_read hknows hended hclock hnow
      | background idleTimeout readAt =>
          rw [hstage] at hknows
          obtain ⟨hread, hslot, hnone⟩ := hknows
          exact ⟨advance_read hread hended hclock hnow,
            advance_slot hmem hadvance.moves hslot hnone,
            advance_connects hadvance hown hbegins (by rw [hstage]; rfl) hnone⟩
      | closing idleTimeout i =>
          rw [hstage] at hknows
          obtain ⟨hidle, hslot, hpast⟩ := hknows
          have hempty := advance_slot hmem hadvance.moves hslot fun op hop =>
            connects_of_active (hidle.resting op hop) false
          refine ⟨advance_idle hadvance hown hbegins (fun file => by rw [hstage]; rfl) hidle
            htransfers hempty, hempty, fun ended hin => ?_⟩
          rw [ended_of_idle hended (hidle.resting _ hmem) (by rw [hidle.noPty]; rfl)] at hin
          have hbefore := hpast ended hin
          omega
  | framed hframe htransfers hended hturn =>
      exact ⟨hframe.registry h.registry,
        hframe.timed h.timed fun ended hmem => .inl (hended ▸ hmem),
        hturn.knows h hframe htransfers hended⟩
  | transferred hframe hbusy hended hreaper =>
      have hold : ∀ ended ∈ s'.ended, ended ∈ s.ended ∨ ended.recorded = false := by
        intro ended hmem
        rw [hended] at hmem
        exact (List.mem_append.mp hmem).imp_right fun hnew => by rw [List.mem_singleton.mp hnew]
      refine ⟨hframe.registry h.registry, hframe.timed h.timed hold, ?_⟩
      have hknows := h.knows
      rw [hreaper]
      cases hstage : s.reaper with
      | waiting | visiting idleTimeout => trivial
      | slot idleTimeout readAt =>
          rw [hstage] at hknows
          exact hframe.read hknows hold
      | background idleTimeout readAt =>
          rw [hstage] at hknows
          obtain ⟨hread, hslot, hnone⟩ := hknows
          exact ⟨hframe.read hread hold, hframe.slot.trans hslot, hframe.connects hnone⟩
      | closing idleTimeout i =>
          rw [hstage] at hknows
          exact absurd hknows.1.noTransfer hbusy
  | @decided now idleTimeout readAt i hframe htransfers hended hbefore hempty hreaper hnow =>
      have hknows := h.knows
      have hunraced := hunraced (idleTimeout, readAt) (by rw [hbefore]; rfl) hempty
      rw [hbefore] at hknows
      obtain ⟨hread, hslot, hnone⟩ := hknows
      obtain ⟨hidleFiles, hunseen, hlong⟩ := hunraced
      have hidle := idle_of_looks h.registry hslot hempty hnone hidleFiles hunseen
      refine ⟨hframe.registry h.registry,
        hframe.timed h.timed fun ended hmem => .inl (hended ▸ hmem), ?_⟩
      rw [hreaper]
      refine ⟨hframe.idle hidle htransfers, hframe.slot.trans hslot, fun ended hmem => ?_⟩
      rw [hended] at hmem
      rw [hnow]
      by_cases hlate : ended.recorded = false ∨ readAt ≤ ended.instant
      · exact hlong ended hmem hlate
      · obtain ⟨hrecorded, hearly⟩ := not_or.mp hlate
        have hpassed := hread.passed
        have hclock := hframe.clock
        cases hread.recorded ended hmem (by simpa using hrecorded) with
        | inl hbefore => omega
        | inr hafter => exact absurd hafter hearly

end Step

theorem created_kept (storage : Storage) (info : SessionInfo) (attempts : Nat) (now : Now) :
    Kept (created storage info attempts now) where
  registry :=
    ⟨Lifecycle.created_locked _ _ _ _, List.nodup_nil, nofun, by
      intro op hop id background hruns
      rw [List.mem_singleton.mp hop] at hruns
      cases hruns⟩
  timed := ⟨nofun, Nat.le_refl _⟩
  knows := trivial

theorem clock_le_of_step {s s' : Reaped} {move : ReapedStep} (h : s.step move = some s') :
    ∀ now ∈ move.time, s.clock ≤ now.instant := by
  intro now hnow
  rw [step] at h
  split at h
  · rename_i htime
    exact of_decide_eq_true ((Option.all_eq_true _ _).mp htime now hnow)
  · cases h

/-- In a run in which the reaper is not raced, every step of its close finds the session
idle, with nothing that ended less than the timeout ago. -/
theorem reaper_closes_idle {storage : Storage} {info : SessionInfo} {attempts : Nat} {now : Now}
    {moves : List ReapedStep} {t : Reaped}
    (hunraced : machine.Meets Unraced (created storage info attempts now) moves)
    (hrun : machine.run (created storage info attempts now) moves = some t) :
    machine.Meets ReapsIdle (created storage info attempts now) moves := by
  refine machine.meets_of_invariant (I := Kept)
    (fun _ _ _ h hunraced hstep => h.step hunraced hstep) ?_
    (created_kept storage info attempts now) hunraced hrun
  intro s move s' h _ hstep
  have hclock := clock_le_of_step hstep
  cases move with
  | work move =>
      cases move with
      | session move =>
          cases move with
          | advance i answer now =>
              intro idleTimeout hcloses
              have hknows := h.knows
              rw [Reaper.closing_of_closes hcloses] at hknows
              exact ⟨hknows.1, fun ended hmem =>
                Nat.le_trans (hknows.2.2 ended hmem) (hclock now rfl)⟩
          | call call | die connection => trivial
      | cancel id | look j => trivial
  | _ => trivial

/-- A session with its connection, for as long as it takes from the first second on. -/
def connectSteps : List ReapedStep :=
  [.work (.session (.advance 0 (.connected ⟨"c", "f"⟩) ⟨1, 1⟩)),
    .work (.session (.advance 0 .ok ⟨2, 2⟩)), .work (.session (.advance 0 .ok ⟨3, 3⟩))]

/-- A pass of the reaper that finds the session idle since half an hour, with its close as the
operation at `op`. -/
def reapSteps (op : Nat) (now : Now) : List ReapedStep :=
  [.reapIdle 1800 30 now, .readActivity now, .lookForeground, .lookBackground now,
    .work (.session (.advance op .ok now)), .work (.session (.advance op .ok now)),
    .work (.session (.advance op .ok now)), .work (.session (.advance op .ok now)),
    .work (.session (.advance op .ok now)), .reaped]

def freshSession : Reaped :=
  created (.openWith .empty 1) (.created "s" "t" "t" "p" "m" ⟨0, 0⟩) 1 ⟨0, 0⟩

/-- An exec that has ended, and the reaper half an hour later. -/
theorem reaper_closes_idle_exec :
    ∃ moves t, machine.run freshSession moves = some t ∧ t.runtime.info.status = .closed ∧
      t.ended = [⟨true, 9⟩] ∧ machine.Meets ReapsIdle freshSession moves := by
  let moves : List ReapedStep := connectSteps ++
    [.work (.session (.call (.startExec "ls" false))),
      .work (.session (.advance 1 .ok ⟨4, 4⟩)), .work (.session (.advance 1 .ok ⟨5, 5⟩)),
      .work (.session (.advance 1 (.opened "e") ⟨6, 6⟩)),
      .work (.session (.advance 1 .ok ⟨7, 7⟩)), .work (.session (.advance 1 .ok ⟨8, 8⟩)),
      .output 1 .stdout [0x61] ⟨9, 9⟩,
      .work (.session (.advance 1 (.ended .completed (some 0)) ⟨9, 9⟩)),
      .work (.session (.advance 1 .ok ⟨10, 10⟩)), .work (.session (.advance 1 .ok ⟨11, 11⟩))] ++
    reapSteps 2 ⟨1800000000009, 1800000000009⟩
  have hall : ((machine.run freshSession moves).any fun t =>
      decide (t.runtime.info.status = .closed ∧ t.ended = [⟨true, 9⟩])) = true := by decide
  have hunraced : machine.Meets Unraced freshSession moves := by decide
  obtain ⟨t, hrun, ht⟩ := (Option.any_eq_true _ _).mp hall
  have ht := of_decide_eq_true ht
  exact ⟨moves, t, hrun, ht.1, ht.2, reaper_closes_idle hunraced hrun⟩

/-- A transfer that takes longer than the timeout loses its connection to the reaper. -/
theorem reaper_closes_transfer :
    ∃ moves t, machine.run freshSession moves = some t ∧ t.runtime.info.status = .closed ∧
      t.transfers = [⟨"c", "f"⟩] ∧ t.shared.dead = ["c"] ∧
      ¬ machine.Meets ReapsIdle freshSession moves := by
  let moves : List ReapedStep := connectSteps ++
    [.work (.session (.call .file)), .work (.session (.advance 1 .ok ⟨4, 4⟩)),
      .work (.session (.advance 1 .ok ⟨5, 5⟩)), .work (.session (.advance 1 .ok ⟨6, 6⟩))] ++
    reapSteps 2 ⟨1800000000006, 1800000000006⟩
  have hall : ((machine.run freshSession moves).any fun t =>
      decide (t.runtime.info.status = .closed ∧ t.transfers = [⟨"c", "f"⟩] ∧
        t.shared.dead = ["c"])) = true := by decide
  have hnot : ¬ machine.Meets ReapsIdle freshSession moves := by decide
  obtain ⟨t, hrun, ht⟩ := (Option.any_eq_true _ _).mp hall
  have ht := of_decide_eq_true ht
  exact ⟨moves, t, hrun, ht.1, ht.2.1, ht.2.2, hnot⟩

end Reaped
end AiSsh
