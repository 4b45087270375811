import AiSsh.SessionLifecycle

/-!
How an exec ends, read off its channel. `ExecChannel::next` passes on five kinds of
message and drops the rest, an exit signal among them; the loop of `run_exec` ends at
Close, or where the messages end, and takes an end without an exit status for a lost
transport. The messages here are those of a channel that nobody cancels and that does
not time out.
-/

namespace AiSsh

open Library

/-- What a server may send on the channel. -/
inductive ChannelMsg
  | data (data : Bytes)
  | extendedData (data : Bytes) (ext : UInt32)
  | eof
  | close
  | exitStatus (exitStatus : UInt32)
  | exitSignal (signalName : String) (coreDumped : Bool) (errorMessage langTag : String)
  | xonXoff (clientCanDo : Bool)
  | windowAdjusted (newSize : UInt32)
  | success
  | failure
  deriving DecidableEq, Repr

inductive ChannelEvent
  | data (data : Bytes)
  | extendedData (data : Bytes)
  | exitStatus (code : UInt32)
  | eof
  | close
  deriving DecidableEq, Repr

namespace ExecChannel

/-- `ExecChannel::next`, with the messages it leaves unread. -/
def next : List ChannelMsg → Option (ChannelEvent × List ChannelMsg)
  | [] => none
  | .data data :: messages => some (.data data, messages)
  | .extendedData data _ :: messages => some (.extendedData data, messages)
  | .exitStatus code :: messages => some (.exitStatus code, messages)
  | .eof :: messages => some (.eof, messages)
  | .close :: messages => some (.close, messages)
  | _ :: messages => next messages

theorem next_length {messages rest : List ChannelMsg} {event : ChannelEvent}
    (h : next messages = some (event, rest)) : rest.length < messages.length := by
  induction messages with
  | nil => cases h
  | cons message messages ih =>
      cases message with
      | data data | extendedData data ext | exitStatus code | eof | close =>
          cases h
          exact Nat.lt_succ_self _
      | exitSignal name core message lang | xonXoff flag | windowAdjusted size | success
      | failure => exact Nat.lt_succ_of_lt (ih h)

end ExecChannel

def commandStatusFromExit (exit : Option UInt32) : CommandStatus :=
  if exit = some 0 then .completed else .failed

/-- Classifies how a channel ended: its silence means that the transport went away. -/
def channelEndStatus : Option UInt32 → CommandStatus
  | some code => commandStatusFromExit (some code)
  | none => .interrupted

/-- What the loop of `run_exec` hands on: the chunks it recorded, and how it ended. -/
structure ExecEnd where
  recorded : List (StreamKind × Bytes)
  status : CommandStatus
  exit : Option UInt32
  deriving DecidableEq, Repr

def ExecEnd.record (stream : StreamKind) (data : Bytes) (last : ExecEnd) : ExecEnd :=
  { last with recorded := (stream, data) :: last.recorded }

/-- The loop of `run_exec`. -/
def execLoop (exit : Option UInt32) (messages : List ChannelMsg) : ExecEnd :=
  match _h : ExecChannel.next messages with
  | some (.data data, rest) => (execLoop exit rest).record .stdout data
  | some (.extendedData data, rest) => (execLoop exit rest).record .stderr data
  | some (.exitStatus code, rest) => execLoop (some code) rest
  | some (.eof, rest) => execLoop exit rest
  | some (.close, _) | none => ⟨[], channelEndStatus exit, exit⟩
termination_by messages.length
decreasing_by all_goals exact ExecChannel.next_length _h

def ExecEnd.answer (last : ExecEnd) : Answer := .ended last.status last.exit

/-- The messages before Close. -/
def beforeClose (messages : List ChannelMsg) : List ChannelMsg :=
  messages.takeWhile fun message => message != .close

def ChannelMsg.isStatus : ChannelMsg → Bool
  | .exitStatus _ => true
  | _ => false

def ChannelMsg.isSignal : ChannelMsg → Bool
  | .exitSignal _ _ _ _ => true
  | _ => false

def StatusReported (messages : List ChannelMsg) : Prop :=
  ∃ message ∈ beforeClose messages, message.isStatus = true

def SignalReported (messages : List ChannelMsg) : Prop :=
  ∃ message ∈ beforeClose messages, message.isSignal = true

/-- The server has said how the process ended. -/
def Reported (messages : List ChannelMsg) : Prop :=
  StatusReported messages ∨ SignalReported messages

theorem statusReported_cons {message : ChannelMsg} {messages : List ChannelMsg}
    (hclose : message ≠ .close) :
    StatusReported (message :: messages) ↔ message.isStatus = true ∨ StatusReported messages := by
  have hfront : beforeClose (message :: messages) = message :: beforeClose messages := by
    simp [beforeClose, hclose]
  simp [StatusReported, hfront]

theorem not_statusReported_close (messages : List ChannelMsg) :
    ¬StatusReported (.close :: messages) := by
  simp [StatusReported, beforeClose]

section Loop

variable (exit : Option UInt32) (messages : List ChannelMsg)

theorem execLoop_nil : execLoop exit [] = ⟨[], channelEndStatus exit, exit⟩ := by
  rw [execLoop]
  rfl

theorem execLoop_close :
    execLoop exit (.close :: messages) = ⟨[], channelEndStatus exit, exit⟩ := by
  rw [execLoop]
  rfl

theorem execLoop_data (data : Bytes) :
    execLoop exit (.data data :: messages) = (execLoop exit messages).record .stdout data := by
  rw [execLoop]
  rfl

theorem execLoop_extendedData (data : Bytes) (ext : UInt32) :
    execLoop exit (.extendedData data ext :: messages) =
      (execLoop exit messages).record .stderr data := by
  rw [execLoop]
  rfl

theorem execLoop_exitStatus (code : UInt32) :
    execLoop exit (.exitStatus code :: messages) = execLoop (some code) messages := by
  rw [execLoop]
  rfl

theorem execLoop_eof : execLoop exit (.eof :: messages) = execLoop exit messages := by
  rw [execLoop]
  rfl

/-- A message that `next` passes over. -/
theorem execLoop_skip {message : ChannelMsg}
    (h : ExecChannel.next (message :: messages) = ExecChannel.next messages) :
    execLoop exit (message :: messages) = execLoop exit messages := by
  have hloop (messages : List ChannelMsg) : execLoop exit messages =
      match ExecChannel.next messages with
      | some (.data data, rest) => (execLoop exit rest).record .stdout data
      | some (.extendedData data, rest) => (execLoop exit rest).record .stderr data
      | some (.exitStatus code, rest) => execLoop (some code) rest
      | some (.eof, rest) => execLoop exit rest
      | some (.close, _) | none => ⟨[], channelEndStatus exit, exit⟩ := by
    rw [execLoop]
    split
    all_goals simp only [*]
  rw [hloop, h, ← hloop]

end Loop

/-- The loop ends with an exit code exactly when it began with one or one was reported. -/
theorem execLoop_exit (exit : Option UInt32) (messages : List ChannelMsg) :
    (execLoop exit messages).exit = none ↔ exit = none ∧ ¬StatusReported messages := by
  induction messages generalizing exit with
  | nil => simp [execLoop_nil, StatusReported, beforeClose]
  | cons message messages ih =>
      cases message with
      | close =>
          rw [execLoop_close]
          exact (and_iff_left (not_statusReported_close messages)).symm
      | exitStatus code =>
          simp [execLoop_exitStatus, ih, statusReported_cons, ChannelMsg.isStatus]
      | data data =>
          rw [statusReported_cons (by simp), execLoop_data]
          simpa [ChannelMsg.isStatus, ExecEnd.record] using ih exit
      | extendedData data ext =>
          rw [statusReported_cons (by simp), execLoop_extendedData]
          simpa [ChannelMsg.isStatus, ExecEnd.record] using ih exit
      | eof =>
          rw [statusReported_cons (by simp), execLoop_eof]
          simpa [ChannelMsg.isStatus] using ih exit
      | exitSignal name core message lang | xonXoff flag | windowAdjusted size | success
      | failure =>
          rw [statusReported_cons (by simp), execLoop_skip exit messages rfl]
          simpa [ChannelMsg.isStatus] using ih exit

theorem execLoop_status (exit : Option UInt32) (messages : List ChannelMsg) :
    (execLoop exit messages).status = channelEndStatus (execLoop exit messages).exit := by
  fun_induction execLoop exit messages with
  | case1 exit messages data rest hnext ih => exact ih
  | case2 exit messages data rest hnext ih => exact ih
  | case3 exit messages code rest hnext ih => exact ih
  | case4 exit messages rest hnext ih => exact ih
  | case5 exit messages rest hnext => rfl
  | case6 exit messages hnext => rfl

theorem channelEndStatus_eq_interrupted {exit : Option UInt32} :
    channelEndStatus exit = .interrupted ↔ exit = none := by
  cases exit with
  | none => exact iff_of_true rfl rfl
  | some code =>
      refine iff_of_false ?_ (Option.some_ne_none code)
      simp only [channelEndStatus, commandStatusFromExit]
      split <;> simp

theorem execLoop_interrupted (messages : List ChannelMsg) :
    (execLoop none messages).status = .interrupted ↔ ¬StatusReported messages := by
  rw [execLoop_status, channelEndStatus_eq_interrupted, execLoop_exit]
  exact and_iff_right rfl

/-- What `run_exec` does after its loop. -/
def Op.Finishes (id : String) (interrupted : Bool) : Op → Prop
  | .execDiscard id' _ _ => id' = id ∧ interrupted = true
  | .execBackground id' => id' = id
  | .execRelease id' interrupted' _ => id' = id ∧ interrupted' = interrupted
  | .execInfo interrupted' _ => interrupted' = interrupted
  | .returned _ => True
  | _ => False

namespace Lifecycle

/-- The loop of the task at `i` ends as the messages make it end. -/
def Hears (messages : List ChannelMsg) (i : Nat) (s : Lifecycle) : LifecycleStep → Prop
  | .advance j answer _ => j = i → ∀ command background,
      s.ops[i]? = some (.runExec command background) → answer = (execLoop none messages).answer
  | _ => True

/-- A step of the task that does not treat its command as interrupted. -/
structure EndsUndisturbed (i : Nat) (id : String) (s s' : Lifecycle) : Prop where
  row : (s'.shared.storage.command id).map CommandInfo.status = some .interrupted →
    (s.shared.storage.command id).map CommandInfo.status = some .interrupted
  connected : ∀ background exit, s'.ops[i]? ≠ some (.execDiscard id background exit)
  connection : s'.shared.runtime.connection = s.shared.runtime.connection
  status : s'.shared.runtime.info.status = .disconnected →
    s.shared.runtime.info.status = .disconnected

/-- The step that leaves the loop ends the command as interrupted. -/
def EndsInterrupted (i : Nat) (id : String) (s s' : Lifecycle) : Prop :=
  ∀ command background, s.ops[i]? = some (.runExec command background) →
    (∃ background exit, s'.ops[i]? = some (.execDiscard id background exit)) ∧
      ∀ row, s'.shared.storage.command id = some row → row.status = .interrupted

/-- The task's steps treat its end as the server reported it. -/
def EndsAsReported (messages : List ChannelMsg) (i : Nat) (id : String) (s : Lifecycle)
    (move : LifecycleStep) : Prop :=
  ∀ answer now s', move = .advance i answer now → machine.step s move = some s' →
    (Reported messages → EndsUndisturbed i id s s') ∧
      (¬Reported messages → EndsInterrupted i id s s')

section Task

variable {messages : List ChannelMsg} {i : Nat} {id : String} {command : CommandInfo}
  {background : Bool} {answer : Answer} {now : Now} {shared shared' : Shared}
  {foregroundFree connectionFree : Bool} {op op' : Op}

/-- The step that leaves the loop. -/
theorem runExec_step
    (h : (Op.runExec command background).step shared foregroundFree connectionFree
      (execLoop none messages).answer now = some (shared', op')) :
    (shared'.storage.command command.id).map CommandInfo.status =
        (shared.storage.command command.id).map (fun _ => (execLoop none messages).status) ∧
      shared'.runtime.connection = shared.runtime.connection ∧
      shared'.runtime.info = shared.runtime.info ∧
      op' = if (execLoop none messages).status = .interrupted then
          .execDiscard command.id background (execLoop none messages).exit
        else Op.execNext command.id background false (execLoop none messages).exit := by
  simp only [Op.step, Op.stepRunExec, ExecEnd.answer] at h
  split at h
  · cases h
  · cases h
    refine ⟨?_, rfl, rfl, rfl⟩
    simp only [Storage.command, Storage.updateCommand_command, Option.map_map]
    refine Option.map_congr fun row hrow => ?_
    have hid : row.id = command.id := Database.command_id hrow
    simp [hid, CommandInfo.finished, CommandInfo.update]

theorem writeOpenInfo_command (s : Shared) (info : SessionInfo) (stored : Bool) :
    (s.writeOpenInfo info stored).storage.command id = s.storage.command id := by
  simp only [Shared.writeOpenInfo, Shared.writeInfo, Storage.command]
  split
  · split
    · exact Storage.upsertSession_command _ _ _
    · rfl
  · rfl

/-- What follows an end that is no interruption. -/
theorem finishes_step (h : op.Moves shared foregroundFree now answer shared' op')
    (hop : op.Finishes id false) :
    op'.Finishes id false ∧ shared'.storage.command id = shared.storage.command id ∧
      shared'.runtime.connection = shared.runtime.connection ∧
      (shared'.runtime.info.status = .disconnected →
        shared.runtime.info.status = .disconnected) := by
  cases h with
  | execDiscarded => cases hop.2
  | backgroundLeft => exact ⟨trivial, rfl, rfl, fun h => h⟩
  | execReleased free own => exact ⟨hop.2, rfl, rfl, fun h => h⟩
  | execAlreadyReleased other => exact ⟨hop.2, rfl, rfl, fun h => h⟩
  | execFinished =>
      cases hop
      refine ⟨trivial, writeOpenInfo_command _ _ _, ?_, ?_⟩
      · simp only [Shared.wake, Shared.writeOpenInfo]
        split
        · rfl
        · rfl
      · simp only [Shared.wake, Shared.writeOpenInfo]
        split
        · intro h
          cases h
        · exact fun h => h
  | _ => cases hop

variable {s s' t : Lifecycle} {moves : List LifecycleStep}

/-- An operation of a task that has left its loop stays one. -/
theorem finishing_step {interrupted : Bool} (hop : op.Finishes id interrupted)
    (h : op.Moves shared foregroundFree now answer shared' op') :
    op'.Finishes id interrupted := by
  cases h with
  | execDiscarded =>
      obtain ⟨rfl, rfl⟩ := hop
      simp only [Op.execNext]
      split
      · exact rfl
      · exact ⟨rfl, rfl⟩
  | backgroundLeft => exact trivial
  | execReleased free own => exact hop.2
  | execAlreadyReleased other => exact hop.2
  | execFinished => exact trivial
  | _ => cases hop

/-- The place of the task in a run that hears the messages. -/
def TaskAt (messages : List ChannelMsg) (i : Nat) (command : CommandInfo) (background : Bool)
    (s : Lifecycle) : Prop :=
  s.ops[i]? = some (.runExec command background) ∨
    ∃ op, s.ops[i]? = some op ∧
      op.Finishes command.id (decide ((execLoop none messages).status = .interrupted))

theorem taskAt_step (hat : TaskAt messages i command background s) {move : LifecycleStep}
    (hhears : Hears messages i s move) (h : s.step move = some s') :
    TaskAt messages i command background s' := by
  cases hat with
  | inl hloop =>
      cases step_at hloop h with
      | inl hother => exact .inl hother.2
      | inr hown =>
          obtain ⟨answer, now, op', rfl, hop', hstep⟩ := hown
          rw [hhears rfl command background hloop] at hstep
          obtain ⟨-, -, -, rfl⟩ := runExec_step hstep
          refine .inr ⟨_, hop', ?_⟩
          split
          · rename_i hstatus
            exact ⟨rfl, decide_eq_true hstatus⟩
          · rename_i hstatus
            rw [decide_eq_false hstatus, Op.execNext]
            split
            · exact rfl
            · exact ⟨rfl, rfl⟩
  | inr hfinishing =>
      obtain ⟨op, hop, hfinishes⟩ := hfinishing
      cases step_at hop h with
      | inl hother => exact .inr ⟨op, hother.2, hfinishes⟩
      | inr hown =>
          obtain ⟨answer, now, op', -, hop', hstep⟩ := hown
          exact .inr ⟨op', hop', finishing_step hfinishes (Op.moves_of_step hstep)⟩

theorem not_finishes_discard {exit : Option UInt32} {background : Bool} {id' : String}
    (h : op.Finishes id false) : op ≠ .execDiscard id' background exit := by
  rintro rfl
  cases h.2

/-- Where the condition holds, each of the task's steps is as it was reported. -/
theorem endsAsReported_of_condition
    (hcondition : SignalReported messages → StatusReported messages)
    (hat : TaskAt messages i command background s) {move : LifecycleStep}
    (hhears : Hears messages i s move) : EndsAsReported messages i command.id s move := by
  rintro answer now s' rfl h
  have h : s.step (.advance i answer now) = some s' := h
  have hstatus : Reported messages → (execLoop none messages).status ≠ .interrupted :=
    fun hreported => (execLoop_interrupted messages).not.mpr
      (not_not_intro (hreported.elim id hcondition))
  cases hat with
  | inl hloop =>
      obtain ⟨answer', now', op', heq, hop', hstep⟩ :=
        (step_at hloop h).resolve_left fun hother => hother.1 answer now rfl
      cases heq
      rw [hhears rfl command background hloop] at hstep
      obtain ⟨hrow, hconnection, hinfo, hnext⟩ := runExec_step hstep
      constructor
      · intro hreported
        rw [if_neg (hstatus hreported)] at hnext
        refine ⟨?_, ?_, hconnection, ?_⟩
        · rw [hrow]
          intro hinterrupted
          obtain ⟨row, -, heq⟩ := Option.map_eq_some_iff.mp hinterrupted
          exact absurd heq (hstatus hreported)
        · intro background' exit hdiscard
          rw [hop', hnext, Op.execNext] at hdiscard
          split at hdiscard
          · cases hdiscard
          · cases hdiscard
        · rw [hinfo]
          exact fun h => h
      · intro hsilent command' background' hloop'
        cases hloop.symm.trans hloop'
        have hinterrupted : (execLoop none messages).status = .interrupted :=
          (execLoop_interrupted messages).mpr fun hs => hsilent (.inl hs)
        rw [if_pos hinterrupted] at hnext
        refine ⟨⟨background, _, by rw [hop', hnext]⟩, ?_⟩
        intro row hrow'
        have := hrow.symm.trans (congrArg (Option.map CommandInfo.status) hrow')
        obtain ⟨old, -, heq⟩ := Option.map_eq_some_iff.mp this
        rw [← heq, hinterrupted]
  | inr hfinishing =>
      obtain ⟨op, hop, hfinishes⟩ := hfinishing
      obtain ⟨answer', now', op', heq, hop', hstep⟩ :=
        (step_at hop h).resolve_left fun hother => hother.1 answer now rfl
      constructor
      · intro hreported
        rw [decide_eq_false (hstatus hreported)] at hfinishes
        obtain ⟨hnext, hrow, hconnection, hsession⟩ :=
          finishes_step (Op.moves_of_step hstep) hfinishes
        refine ⟨fun h => hrow ▸ h, ?_, hconnection, hsession⟩
        intro background' exit hdiscard
        exact not_finishes_discard hnext (Option.some.inj (hop'.symm.trans hdiscard))
      · intro _ command' background' hloop'
        cases hop.symm.trans hloop'
        cases hfinishes

/-- Exactly when the end of an exec is treated as the server reported it, in every
interleaving: an exit signal alone is not heard. -/
theorem exec_ends_as_reported_iff
    (hstart : s.ops[i]? = some (.runExec command background))
    (hhears : machine.Meets (Hears messages i) s moves) (hrun : machine.run s moves = some t)
    (hended : ∀ command background, t.ops[i]? ≠ some (.runExec command background)) :
    machine.Meets (EndsAsReported messages i command.id) s moves ↔
      (SignalReported messages → StatusReported messages) := by
  constructor
  · intro hmeets hsignal
    have hpath : t.ops[i]? = some (.runExec command background) ∨ StatusReported messages := by
      refine machine.invariant_under
        (C := fun s move => Hears messages i s move ∧ EndsAsReported messages i command.id s move)
        (I := fun s => s.ops[i]? = some (.runExec command background) ∨ StatusReported messages)
        ?_ (.inl hstart) (machine.meets_and.mpr ⟨hhears, hmeets⟩) hrun
      rintro s move s' (hloop | hstatus) ⟨hhears, hends⟩ h
      · cases step_at hloop h with
        | inl hother => exact .inl hother.2
        | inr hown =>
            obtain ⟨answer, now, op', rfl, hop', hstep⟩ := hown
            rw [hhears rfl command background hloop] at hstep
            obtain ⟨-, -, -, hnext⟩ := runExec_step hstep
            refine .inr (by_contra fun hstatus => ?_)
            rw [if_pos ((execLoop_interrupted messages).mpr hstatus)] at hnext
            have hundisturbed := (hends answer now s' rfl h).1 (.inr hsignal)
            exact hundisturbed.connected background _ (hop'.trans (congrArg some hnext))
      · exact .inr hstatus
    exact hpath.resolve_left (hended command background)
  · intro hcondition
    exact machine.meets_of_invariant (I := TaskAt messages i command background)
      (fun _ _ _ hat hhears h => taskAt_step hat hhears h)
      (fun _ _ _ hat hhears _ => endsAsReported_of_condition hcondition hat hhears)
      (.inl hstart) hhears hrun

end Task

/-- A session whose foreground exec has just started. -/
def executing : Lifecycle :=
  let storage := (Storage.openWith .empty 1).upsertSession (.created "s" "t" "t" "p" "m" ⟨0, 0⟩)
  let command := CommandInfo.started "e" "s" "ls" ⟨0, 0⟩
  let runtime := SessionRuntime.new (.created "s" "t" "t" "p" "m" ⟨0, 0⟩) ⟨0, 0⟩
  ⟨⟨{ runtime with connection := some ⟨"c", "f"⟩, foreground := some (.exec "e") },
      { storage with db := { storage.db with commands := [command] } }, 1, [], [], ["e", "c"]⟩,
    [.runExec command false]⟩

/-- The process writes a byte and exits with status 0. -/
theorem exec_ends_as_reported_iff_exited :
    ∃ t, machine.run executing [.advance 0 (.ended .completed (some 0)) ⟨1, 1⟩,
        .advance 0 .ok ⟨2, 2⟩, .advance 0 .ok ⟨3, 3⟩] = some t ∧
      machine.Meets (EndsAsReported [.data [1], .exitStatus 0, .eof, .close] 0 "e") executing
        [.advance 0 (.ended .completed (some 0)) ⟨1, 1⟩, .advance 0 .ok ⟨2, 2⟩,
          .advance 0 .ok ⟨3, 3⟩] := by
  have hloop : execLoop none [.data [1], .exitStatus 0, .eof, .close] =
      ⟨[(.stdout, [1])], .completed, some 0⟩ := by
    simp [execLoop_data, execLoop_exitStatus, execLoop_eof, execLoop_close, ExecEnd.record,
      channelEndStatus, commandStatusFromExit]
  have hstart : executing.ops[0]? = some (.runExec (.started "e" "s" "ls" ⟨0, 0⟩) false) := rfl
  refine ⟨_, rfl, (exec_ends_as_reported_iff hstart ?_ rfl ?_).mpr ?_⟩
  · refine ⟨fun _ _ _ _ => (congrArg ExecEnd.answer hloop).symm, ?_⟩
    rintro _ ⟨⟩
    refine ⟨fun _ _ _ h => (by cases h), ?_⟩
    rintro _ ⟨⟩
    exact ⟨fun _ _ _ h => (by cases h), fun _ _ => trivial⟩
  · intro command background h
    cases h
  · exact fun _ => ⟨.exitStatus 0, by decide, rfl⟩

/-- A process that is killed on a live transport ends as interrupted, and the session
is taken for disconnected. -/
theorem killed_exec_is_interrupted :
    ∃ t, SignalReported [.exitSignal "KILL" false "" "", .close] ∧
      machine.run executing
        [.advance 0 (execLoop none [.exitSignal "KILL" false "" "", .close]).answer ⟨1, 1⟩,
          .advance 0 .ok ⟨2, 2⟩, .advance 0 .ok ⟨3, 3⟩, .advance 0 .ok ⟨4, 4⟩] = some t ∧
      (t.shared.storage.command "e").map CommandInfo.status = some .interrupted ∧
      t.shared.runtime.connection = none ∧ t.shared.runtime.info.status = .disconnected := by
  have hloop : execLoop none [.exitSignal "KILL" false "" "", .close] =
      ⟨[], .interrupted, none⟩ := by
    rw [execLoop_skip _ _ rfl, execLoop_close]
    rfl
  rw [hloop]
  exact ⟨_, ⟨.exitSignal "KILL" false "" "", by decide, rfl⟩, rfl, rfl, rfl, rfl⟩

end Lifecycle
end AiSsh
