import AiSsh.ForegroundSlot

/-!
The daemon over one database. A start opens the store, marks the sessions whose end the
last daemon did not see, deletes what has expired, and then serves; a crash at any step
loses every session with its operations and tasks and leaves the tables. All sessions
write one store, and an identifier is handed out once.
-/

namespace AiSsh

open Library

inductive Stage
  | down
  | opened
  | recovered
  | serving
  deriving DecidableEq, Repr

structure Daemon where
  storage : Storage
  used : List String
  stage : Stage
  sessions : List Cancellable

/-- `cleanup` stands for the call of the start and for those of the reaper. A
`finaliseUnstored` is the end of a task whose `update_command` fails. -/
inductive DaemonStep
  | start (recordingLimitMib : Nat)
  | interruptUnfinished (now : DateTime)
  | cleanup (retentionDays : Nat) (now : DateTime)
  | crash
  | create (info : SessionInfo) (reconnectAttempts : Nat) (now : Now)
  | session (session : Nat) (move : CancellableStep)
  | finaliseUnstored (session op : Nat) (answer : Answer) (now : Now)
  | record (session : Nat) (commandId : Option String) (stream : StreamKind) (payload : Bytes)
      (now : Now)

def Cancellable.setShared (s : Cancellable) (shared : Shared) : Cancellable :=
  { s with session := { s.session with shared := shared } }

def Op.isRunExec : Op → Bool
  | .runExec _ _ => true
  | _ => false

namespace Daemon

/-- Before the first start over a database: every identifier in it was handed out. -/
def initial (db : Database) : Daemon :=
  ⟨⟨db, 0⟩, db.commands.map CommandInfo.id ++ db.sessions.map fun row => row.info.id, .down, []⟩

/-- A session as it sees the daemon's store. -/
def within (d : Daemon) (s : Cancellable) : Cancellable :=
  s.setShared { s.session.shared with storage := d.storage, used := d.used }

/-- The session at `k` has moved. -/
def put (d : Daemon) (k : Nat) (s : Cancellable) : Daemon :=
  { d with
    storage := s.session.shared.storage
    used := s.session.shared.used
    sessions := d.sessions.set k s }

def step (d : Daemon) : DaemonStep → Option Daemon
  | .start recordingLimitMib =>
      if d.stage = .down then
        some { d with storage := .openWith d.storage.db recordingLimitMib, stage := .opened }
      else none
  | .interruptUnfinished now =>
      if d.stage = .opened then
        some { d with storage := d.storage.interruptUnfinished now, stage := .recovered }
      else none
  | .cleanup retentionDays now =>
      if d.stage = .recovered ∨ d.stage = .serving then
        some { d with storage := d.storage.cleanup retentionDays now, stage := .serving }
      else none
  | .crash => some { d with stage := .down, sessions := [] }
  | .create info reconnectAttempts now =>
      if d.stage = .serving ∧ info.id ∉ d.used then
        some { d with
          storage := d.storage.upsertSession info
          used := info.id :: d.used
          sessions := d.sessions ++ [⟨.created d.storage info reconnectAttempts now, []⟩] }
      else none
  | .session k move =>
      match d.sessions[k]? with
      | some s => ((d.within s).step move).map (d.put k)
      | none => none
  | .finaliseUnstored k i answer now =>
      match d.sessions[k]? with
      | some s =>
          if s.session.ops[i]?.any Op.isRunExec then
            ((d.within s).step (.session (.advance i answer now))).map fun s' =>
              { d.put k s' with storage := d.storage }
          else none
      | none => none
  | .record k commandId stream payload now =>
      match d.sessions[k]? with
      | some s =>
          let shared := s.session.shared
          let recorded := AiSsh.record d.storage shared.runtime commandId stream payload now
          some { d with
            storage := recorded.storage
            sessions := d.sessions.set k (s.setShared { shared with runtime := recorded.runtime }) }
      | none => none

def machine : Machine Daemon DaemonStep := ⟨step⟩

/-- The operations and tasks of the current process. -/
def ops (d : Daemon) : List Op := d.sessions.flatMap fun s => s.session.ops

/-- The command rows. -/
def rows (d : Daemon) : List CommandInfo := d.storage.db.commands

end Daemon

namespace Op

/-- The command an operation or task belongs to, from the drawing of its identifier on. -/
def commandId : Op → Option String
  | .installExec command _ | .startedExec command | .runExec command _ => some command.id
  | .execDiscard id _ _ | .execBackground id | .execRelease id _ _ => some id
  | _ => none

/-- The command whose row an operation has inserted and a task has still to finalise. -/
def task : Op → Option String
  | .startedExec command | .runExec command _ => some command.id
  | _ => none

/-- What a step makes of the command rows and of the identifiers handed out. -/
inductive CommandMove (rows : List CommandInfo) (used : List String) (answer : Answer) :
    Op → List CommandInfo → List String → Op → Prop
  | quiet {op op' : Op} {used' : List String} (hop : op.commandId = none)
      (hop' : op'.commandId = none) (hused : ∀ id ∈ used, id ∈ used') :
      CommandMove rows used answer op rows used' op'
  | drawn {op : Op} {id : String} {command : CommandInfo} {background : Bool}
      (hop : op.commandId = none) (fresh : id ∉ used) (hid : command.id = id)
      (running : command.status = .running) :
      CommandMove rows used answer op rows (id :: used) (.installExec command background)
  | inserted {op' : Op} {command : CommandInfo} {background : Bool}
      (fresh : ∀ row ∈ rows, row.id ≠ command.id) (htask : op'.task = some command.id)
      (hid : op'.commandId = some command.id) :
      CommandMove rows used answer (.installExec command background) (rows ++ [command]) used op'
  | started {command : CommandInfo} :
      CommandMove rows used answer (.startedExec command) rows used (.runExec command false)
  | notStarted {command : CommandInfo} {error : ErrorPayload} (hanswer : answer ≠ .ok) :
      CommandMove rows used answer (.startedExec command) rows used (.returned (.error error))
  | finished {op' : Op} {command last : CommandInfo} {background : Bool}
      (hlast : last.id = command.id) (hstatus : last.status ≠ .running) (htask : op'.task = none)
      (hid : op'.commandId = some command.id)
      (hinstall : ∀ command background, op' ≠ .installExec command background) :
      CommandMove rows used answer (.runExec command background)
        (rows.map fun row => if row.id = command.id then last.update row else row) used op'
  | left {op op' : Op} {id : String} (hop : op.commandId = some id) (htask : op.task = none)
      (htask' : op'.task = none) (hid : op'.commandId = some id ∨ op'.commandId = none)
      (hinstall : ∀ command background, op' ≠ .installExec command background) :
      CommandMove rows used answer op rows used op'

end Op

theorem Shared.writeInfo_commands (s : Shared) (info : SessionInfo) (stored : Bool) :
    (s.writeInfo info stored).storage.db.commands = s.storage.db.commands := by
  cases stored with
  | false => rfl
  | true => exact s.storage.upsertSession_commands info

theorem Shared.writeOpenInfo_commands (s : Shared) (info : SessionInfo) (stored : Bool) :
    (s.writeOpenInfo info stored).storage.db.commands = s.storage.db.commands := by
  rw [Shared.writeOpenInfo]
  split
  · exact s.writeInfo_commands info stored
  · rfl

namespace Op

variable {s s' : Shared} {foregroundFree connectionFree : Bool} {answer : Answer} {now : Now}
  {op op' : Op}

theorem execNext_not_install (id : String) (background interrupted : Bool) (exit : Option UInt32)
    (command : CommandInfo) (foreground : Bool) :
    execNext id background interrupted exit ≠ .installExec command foreground := by
  cases background with
  | false => exact fun h => nomatch h
  | true => exact fun h => nomatch h

theorem execNext_commandId (id : String) (background interrupted : Bool) (exit : Option UInt32) :
    (execNext id background interrupted exit).commandId = some id ∧
      (execNext id background interrupted exit).task = none := by
  cases background with
  | false => exact ⟨rfl, rfl⟩
  | true => exact ⟨rfl, rfl⟩

theorem installExec_step {command : CommandInfo} {background : Bool}
    (h : (Op.installExec command background).step s foregroundFree connectionFree answer now =
      some (s', op')) :
    CommandMove s.storage.db.commands s.used answer (.installExec command background)
      s'.storage.db.commands s'.used op' := by
  simp only [step, stepInstall] at h
  split at h
  · rename_i storage hinsert
    obtain ⟨hfresh, -, rfl⟩ := Storage.insertCommand_ok hinsert
    have hfresh : ∀ row ∈ s.storage.db.commands, row.id ≠ command.id := by
      simpa [Database.command] using hfresh
    split at h
    · cases h
      exact .inserted hfresh rfl rfl
    · cases h
      exact .inserted hfresh rfl rfl
  · cases h
    exact .left rfl rfl rfl (.inr rfl) fun _ _ h => by cases h
  · cases h

theorem runExec_step {command : CommandInfo} {background : Bool}
    (h : (Op.runExec command background).step s foregroundFree connectionFree answer now =
      some (s', op')) :
    CommandMove s.storage.db.commands s.used answer (.runExec command background)
      s'.storage.db.commands s'.used op' := by
  simp only [step, stepRunExec] at h
  split at h
  · rename_i status exit
    split at h
    · cases h
    · rename_i hrunning
      rw [not_or] at hrunning
      cases h
      split
      · refine .finished rfl hrunning.1 rfl rfl ?_
        intro _ _ hinstall
        cases hinstall
      · exact .finished rfl hrunning.1 (execNext_commandId ..).2 (execNext_commandId ..).1
          (execNext_not_install _ _ _ _)
  · cases h

/-- The end of a task. -/
theorem Moves.runExec {command : CommandInfo} {background : Bool}
    (h : (Op.runExec command background).Moves s foregroundFree now answer s' op') :
    s'.used = s.used ∧ op'.task = none ∧ op'.commandId = some command.id ∧
      ∀ command background, op' ≠ .installExec command background := by
  cases h with
  | execInterrupted => exact ⟨rfl, rfl, rfl, fun _ _ h => nomatch h⟩
  | execEnded =>
      exact ⟨rfl, (execNext_commandId ..).2, (execNext_commandId ..).1,
        execNext_not_install _ _ _ _⟩

theorem commandMove_of_step
    (h : op.step s foregroundFree connectionFree answer now = some (s', op')) :
    CommandMove s.storage.db.commands s.used answer op s'.storage.db.commands s'.used op' := by
  have hmoves := moves_of_step h
  cases hmoves with
  | installedBackground | installedExec | notInserted => exact installExec_step h
  | execInterrupted | execEnded => exact runExec_step h
  | createConnected | dialled | ptyOpened =>
      exact .quiet rfl rfl fun _ h => List.mem_cons_of_mem _ h
  | createRefused | createStored | acquired | turnedAway | found | missed | refused | dialling
  | dialAgain | gaveUp | overtaken | stored | sftpOpened | openFailed | openDiscarded
  | installedPty | ptyEnded | ptyReleased | ptyAlreadyReleased | ptyDiscarded | shellTaken
  | shellNotOpen | shellClosed | foregroundEmpty | execCancelled | ptyTaken | writerClosed
  | backgroundCancelled | connectionTaken | notConnected | disconnected =>
      exact .quiet rfl rfl fun _ h => h
  | createReady | createFailed | startedPty | ptyNotStored | closed =>
      rw [Shared.writeInfo_commands]
      exact .quiet rfl rfl fun _ h => h
  | reconnected | reconnectFailed =>
      rw [Shared.writeOpenInfo_commands, Shared.writeOpenInfo_used]
      exact .quiet rfl rfl fun _ h => h
  | ptyFinished =>
      simp only [Shared.wake]
      rw [Shared.writeOpenInfo_commands, Shared.writeOpenInfo_used]
      exact .quiet rfl rfl fun _ h => h
  | execOpened fresh => exact .drawn rfl fresh rfl rfl
  | startedExec =>
      rw [Shared.writeInfo_commands]
      exact .started
  | execNotStored =>
      rw [Shared.writeInfo_commands]
      exact .notStarted fun h => by cases h
  | execDiscarded =>
      exact .left rfl rfl (execNext_commandId ..).2 (.inl (execNext_commandId ..).1)
        (execNext_not_install _ _ _ _)
  | backgroundLeft => exact .left rfl rfl rfl (.inr rfl) fun _ _ h => by cases h
  | execReleased | execAlreadyReleased =>
      exact .left rfl rfl rfl (.inr rfl) fun _ _ h => by cases h
  | execFinished =>
      simp only [Shared.wake]
      rw [Shared.writeOpenInfo_commands, Shared.writeOpenInfo_used]
      exact .quiet rfl rfl fun _ h => h

end Op

/-- The identifier and the status of a command row. -/
def CommandInfo.key (row : CommandInfo) : String × CommandStatus := (row.id, row.status)

theorem Database.updateCommand_keys (db : Database) (id : String)
    {set : CommandInfo → CommandInfo} (hset : ∀ row, (set row).key = row.key) :
    (db.updateCommand id set).commands.map CommandInfo.key = db.commands.map CommandInfo.key := by
  rw [updateCommand, List.map_map]
  apply List.map_congr_left
  intro row _
  simp only [Function.comp]
  split
  · exact hset row
  · rfl

theorem Storage.appendEvent_keys (s : Storage) (event : TerminalEvent) :
    (s.appendEvent event).storage.db.commands.map CommandInfo.key =
      s.db.commands.map CommandInfo.key := by
  have htruncated (db : Database) (id : String) :
      (db.updateCommand id CommandInfo.truncate).commands.map CommandInfo.key =
        db.commands.map CommandInfo.key :=
    db.updateCommand_keys id fun _ => rfl
  have hcounted (db : Database) (id : String) (bytes sequence : Nat) :
      (db.updateCommand id (CommandInfo.count bytes sequence)).commands.map CommandInfo.key =
        db.commands.map CommandInfo.key :=
    db.updateCommand_keys id fun _ => rfl
  rw [appendEvent]
  split
  · rfl
  · split
    · simp only [rejectEvent]
      split
      · simp
      · simp [htruncated]
    · split
      · rfl
      · rename_i db hinsert
        have hsame : db.commands = s.db.commands := by
          rw [(Database.insertEvent_ok hinsert).2.2.2]
        simp only [countEvent, countCommand, Database.updateSession_commands]
        split
        · rw [hsame]
        · rw [hcounted, hsame]

namespace Daemon

/-- What a step makes of the command rows, of the identifiers handed out, and of the
operations and tasks. -/
inductive Moves (d d' : Daemon) : DaemonStep → Prop
  | crashed (hrows : d'.rows = d.rows) (hused : d'.used = d.used) (hops : d'.ops = [])
      (hstage : d'.stage = .down) : Moves d d' .crash
  | kept {move : DaemonStep} {more : List Op}
      (hrows : (d'.rows.map CommandInfo.key).Sublist (d.rows.map CommandInfo.key))
      (hused : ∀ id ∈ d.used, id ∈ d'.used) (hops : d'.ops.Perm (more ++ d.ops))
      (hmore : ∀ op ∈ more, op.commandId = none)
      (hstage : d'.stage = .serving → d.stage = .serving ∨
        ∃ retentionDays now, move = .cleanup retentionDays now ∧ d.stage = .recovered ∧
          d'.rows = d.rows.filter fun row =>
            !d.storage.expires (now - retentionDays * Storage.day) row.sessionId) :
      Moves d d' move
  | advanced {k i : Nat} {answer : Answer} {now : Now} {s : Cancellable} {op op' : Op}
      {others : List Op} (hs : d.sessions[k]? = some s) (hop : s.session.ops[i]? = some op)
      (hbefore : d.ops.Perm (op :: others)) (hafter : d'.ops.Perm (op' :: others))
      (hstage : d'.stage = d.stage)
      (hmove : op.CommandMove d.rows d.used answer d'.rows d'.used op') :
      Moves d d' (.session k (.session (.advance i answer now)))
  | unstored {k i : Nat} {answer : Answer} {now : Now} {s : Cancellable} {op' : Op}
      {command : CommandInfo} {background : Bool} {others : List Op}
      (hs : d.sessions[k]? = some s)
      (hop : s.session.ops[i]? = some (.runExec command background))
      (hbefore : d.ops.Perm (.runExec command background :: others))
      (hafter : d'.ops.Perm (op' :: others)) (hstage : d'.stage = d.stage)
      (hrows : d'.rows = d.rows) (hused : d'.used = d.used) (htask : op'.task = none)
      (hid : op'.commandId = some command.id)
      (hinstall : ∀ command background, op' ≠ .installExec command background) :
      Moves d d' (.finaliseUnstored k i answer now)

/-- A step of a session that leaves the tables alone and at most adds an operation. -/
theorem kept_of_set {d d' : Daemon} {k : Nat} {s s' : Cancellable} {move : DaemonStep}
    {more : List Op} (hs : d.sessions[k]? = some s)
    (hsessions : d'.sessions = d.sessions.set k s')
    (hops : s'.session.ops.Perm (more ++ s.session.ops))
    (hmore : ∀ op ∈ more, op.commandId = none)
    (hrows : d'.rows.map CommandInfo.key = d.rows.map CommandInfo.key)
    (hused : d'.used = d.used) (hstage : d'.stage = d.stage) : Moves d d' move := by
  refine .kept (hrows ▸ List.Sublist.refl _) (fun id hid => hused ▸ hid) ?_ hmore
    fun h => .inl (hstage ▸ h)
  rw [ops]
  rw [hsessions]
  exact flatMap_set_more hs hops

theorem session_moves {d d' : Daemon} {k : Nat} {move : CancellableStep}
    (h : d.step (.session k move) = some d') : Moves d d' (.session k move) := by
  simp only [step] at h
  split at h
  · rename_i s hs
    obtain ⟨s', hstep, rfl⟩ := Option.map_eq_some_iff.mp h
    cases move with
    | cancel id =>
        cases hstep
        exact kept_of_set hs rfl (.refl ([] ++ _)) (by simp) rfl rfl rfl
    | look j =>
        obtain ⟨cancelled, -, hsession⟩ := Cancellable.look_session hstep
        have hsame : s'.session.ops.Perm ([] ++ s.session.ops) := by
          rw [hsession]
          exact .refl _
        refine kept_of_set hs rfl hsame (by simp) ?_ ?_ rfl
        · simp only [rows, put, hsession]
          rfl
        · simp only [put, hsession]
          rfl
    | session move =>
        obtain ⟨session, hsession, rfl⟩ := Option.map_eq_some_iff.mp hstep
        cases move with
        | call call =>
            cases hsession
            refine @kept_of_set _ _ _ _ _ _ [call.op] hs rfl List.perm_append_comm ?_ rfl rfl rfl
            intro op hop
            rw [List.mem_singleton.mp hop]
            cases call with
            | _ => rfl
        | die connection =>
            cases hsession
            exact kept_of_set hs rfl (.refl ([] ++ _)) (by simp) rfl rfl rfl
        | advance i answer now =>
            obtain ⟨op, op', others, hop, hbefore, hafter, hown⟩ := Lifecycle.step_own hsession
            obtain ⟨rest, hall, hall'⟩ := @flatMap_set_perm _ _
              (fun s : Cancellable => s.session.ops) _ _ _ { d.within s with session := session }
              _ _ _ hs hbefore hafter
            exact .advanced hs hop hall hall' rfl (Op.commandMove_of_step hown)
  · cases h

theorem unstored_moves {d d' : Daemon} {k i : Nat} {answer : Answer} {now : Now}
    (h : d.step (.finaliseUnstored k i answer now) = some d') :
    Moves d d' (.finaliseUnstored k i answer now) := by
  simp only [step] at h
  split at h
  · rename_i s hs
    split at h
    · rename_i htask
      obtain ⟨s', hstep, rfl⟩ := Option.map_eq_some_iff.mp h
      obtain ⟨session, hsession, rfl⟩ := Option.map_eq_some_iff.mp hstep
      obtain ⟨op, op', others, hop, hbefore, hafter, hown⟩ := Lifecycle.step_own hsession
      have hop : s.session.ops[i]? = some op := hop
      rw [hop] at htask
      obtain ⟨rest, hall, hall'⟩ := @flatMap_set_perm _ _
        (fun s : Cancellable => s.session.ops) _ _ _ { d.within s with session := session }
        _ _ _ hs hbefore hafter
      have hmoves := Op.moves_of_step hown
      cases op with
      | runExec command background =>
          obtain ⟨hused, htask', hid, hinstall⟩ := hmoves.runExec
          exact .unstored hs hop hall hall' rfl rfl hused htask' hid hinstall
      | _ => cases htask
    · cases h
  · cases h

theorem record_moves {d d' : Daemon} {k : Nat} {commandId : Option String} {stream : StreamKind}
    {payload : Bytes} {now : Now} (h : d.step (.record k commandId stream payload now) = some d') :
    Moves d d' (.record k commandId stream payload now) := by
  simp only [step] at h
  split at h
  · rename_i s hs
    cases h
    refine kept_of_set hs rfl (.refl ([] ++ _)) (by simp) ?_ rfl rfl
    rw [rows, record_storage]
    exact d.storage.appendEvent_keys _
  · cases h

/-- A step of the daemon itself that leaves its operations alone. -/
theorem kept_of_ops {d d' : Daemon} {move : DaemonStep}
    (hrows : (d'.rows.map CommandInfo.key).Sublist (d.rows.map CommandInfo.key))
    (hused : ∀ id ∈ d.used, id ∈ d'.used) (hops : d'.ops = d.ops)
    (hstage : d'.stage = .serving → d.stage = .serving ∨
      ∃ retentionDays now, move = .cleanup retentionDays now ∧ d.stage = .recovered ∧
        d'.rows = d.rows.filter fun row =>
          !d.storage.expires (now - retentionDays * Storage.day) row.sessionId) :
    Moves d d' move :=
  @Moves.kept d d' move [] hrows hused (hops ▸ .refl _) (fun _ h => nomatch h) hstage

theorem moves_of_step {d d' : Daemon} {move : DaemonStep} (h : d.step move = some d') :
    Moves d d' move := by
  cases move with
  | start recordingLimitMib =>
      simp only [step] at h
      split at h
      · cases h
        exact kept_of_ops (.refl _) (fun _ h => h) rfl fun h => nomatch h
      · cases h
  | interruptUnfinished now =>
      simp only [step] at h
      split at h
      · cases h
        exact kept_of_ops (.refl _) (fun _ h => h) rfl fun h => nomatch h
      · cases h
  | cleanup retentionDays now =>
      simp only [step] at h
      split at h
      · rename_i hstage
        cases h
        refine kept_of_ops (List.filter_sublist.map _) (fun _ h => h) rfl fun _ => ?_
        cases hstage with
        | inl hrecovered => exact .inr ⟨retentionDays, now, rfl, hrecovered, rfl⟩
        | inr hserving => exact .inl hserving
      · cases h
  | crash =>
      cases h
      exact .crashed rfl rfl rfl rfl
  | create info reconnectAttempts now =>
      simp only [step] at h
      split at h
      · rename_i hserving
        cases h
        refine @Moves.kept d _ _ [.createDial] ?_ (fun _ h => List.mem_cons_of_mem _ h) ?_ ?_
          fun _ => .inl hserving.1
        · rw [rows, Storage.upsertSession_commands]
          exact .refl _
        · simp only [ops, List.flatMap_append]
          exact List.perm_append_comm
        · intro op hop
          rw [List.mem_singleton.mp hop]
          rfl
      · cases h
  | session k move => exact session_moves h
  | finaliseUnstored k i answer now => exact unstored_moves h
  | record k commandId stream payload now => exact record_moves h

end Daemon
end AiSsh
