import AiSsh.SessionLifecycle

/-!
What `close` leaves behind. Each operation asks once whether the session is closed,
before it dials or before its last write; the steps of `create` after the dial, the
store of `connection_for` and the steps of `start_exec` and `shell_open` from the
opening of their channel on do not ask again. The session stays closed as long as
none of these steps is taken.
-/

namespace AiSsh

open Library

/-- The status is Closed and the slot holds no live connection. -/
def Shared.Over (s : Shared) : Prop :=
  s.runtime.info.status = .closed ∧ s.liveConnection = none

/-- An exec or a PTY is started: its channel opens, or it takes its place. -/
def Op.starts : Op → Answer → Bool
  | .opening _ _, .opened _ => true
  | .installExec _ _, .ok => true
  | .installPty _, _ => true
  | _, _ => false

/-- The steps that pass over a session closed in the meantime. -/
def Op.Overrides (s : Shared) (answer : Answer) : Op → Prop
  | .createReady _ | .createFailed _ | .startedExec _ | .startedPty _ => True
  | .createStore connection | .store _ connection => s.isClosed connection = false
  | op => op.starts answer = true

namespace Shared

theorem liveConnection_eq_none {s : Shared} :
    s.liveConnection = none ↔
      ∀ connection, s.runtime.connection = some connection → s.isClosed connection = true := by
  simp [liveConnection, Option.filter_eq_none_iff]

theorem over_setConnection {s : Shared} (h : s.Over) (connection : Option SshConnection) :
    (s.setConnection connection).Over ↔
      ∀ c, connection = some c → s.isClosed c = true := by
  rw [Over]
  rw [liveConnection_eq_none]
  exact and_iff_right h.1

theorem over_writeInfo {s : Shared} (h : s.Over) (info : SessionInfo) (stored : Bool) :
    (s.writeInfo info stored).Over ↔ info.status = .closed :=
  and_iff_left h.2

theorem writeOpenInfo_over {s : Shared} (h : s.Over) (info : SessionInfo) (stored : Bool) :
    s.writeOpenInfo info stored = s :=
  if_neg (not_not_intro h.1)

theorem isClosed_die {s : Shared} {connection : SshConnection} (h : s.isClosed connection = true)
    (id : String) : isClosed { s with dead := id :: s.dead } connection = true := by
  simp only [isClosed, List.contains_cons] at h ⊢
  rw [h, Bool.or_true]

theorem Over.die {s : Shared} (h : s.Over) (connection : String) :
    Over { s with dead := connection :: s.dead } := by
  refine ⟨h.1, liveConnection_eq_none.mpr fun c hc => ?_⟩
  exact isClosed_die (liveConnection_eq_none.mp h.2 c hc) connection

end Shared

/-- From a closed session a step leads to a closed session and starts nothing exactly
when it is none of the steps that do not ask. -/
theorem Op.Moves.over_iff {s s' : Shared} {foregroundFree : Bool} {answer : Answer} {now : Now}
    {op op' : Op} (h : op.Moves s foregroundFree now answer s' op') (hover : s.Over) :
    s'.Over ∧ ¬op.starts answer = true ↔ ¬op.Overrides s answer := by
  have hkeep : s.Over ∧ ¬false = true ↔ ¬false = true := and_iff_right hover
  cases h with
  | createStored | stored | openDiscarded | execDiscarded | ptyDiscarded | connectionTaken =>
      simp [Shared.over_setConnection hover, Op.starts, Op.Overrides]
  | createReady | createFailed | startedExec | startedPty | execNotStored | ptyNotStored =>
      simp [Shared.over_writeInfo hover, Op.Overrides, SessionInfo.connected,
        SessionInfo.connectFailed, SessionInfo.execStarted, SessionInfo.ptyOpened]
  | closed => simp [Shared.over_writeInfo hover, Op.starts, Op.Overrides, SessionInfo.closed]
  | execOpened | ptyOpened | installedBackground | installedExec | installedPty =>
      simp [Op.starts, Op.Overrides]
  | reconnected | reconnectFailed | execFinished | ptyFinished =>
      rw [Shared.writeOpenInfo_over hover]
      exact hkeep
  | overtaken live => cases hover.2.symm.trans live
  | disconnected => exact and_iff_right (hover.die _)
  | _ => exact hkeep

/-- The next step of the operation may start an exec or a PTY. -/
def Op.CanStart (s : Shared) : Op → Prop
  | .opening purpose connection => purpose ≠ .sftp ∧ s.isClosed connection = false
  | .installExec _ _ | .installPty _ => True
  | _ => False

/-- How far an operation gets that is turned away. -/
def Op.TurnedAway (purpose : Purpose) (op : Op) : Prop :=
  op = .acquire purpose ∨ op = .look purpose ∨ op = .check purpose ∨
    ∃ error, op = .returned (.error error)

section Late

variable {s s' : Shared} {foregroundFree connectionFree : Bool} {answer : Answer} {now : Now}
  {op op' : Op}

theorem Op.canStart_of_starts
    (h : op.step s foregroundFree connectionFree answer now = some (s', op'))
    (hstarts : op.starts answer = true) : op.CanStart s := by
  cases op with
  | opening purpose connection =>
      cases answer with
      | opened id =>
          cases purpose with
          | sftp => simp [step, stepConnect] at h
          | exec _ _ | pty =>
              refine ⟨by simp, ?_⟩
              cases hclosed : s.isClosed connection with
              | false => rfl
              | true => simp [step, stepConnect, hclosed] at h
      | ok | connected _ | ended _ _ | failed _ => cases hstarts
  | installExec _ _ | installPty _ => trivial
  | _ => cases hstarts

/-- On a session that is over and stays it, only what could start before a step can start
after it. -/
theorem Op.canStart_of_step (hs : s.Over) (hs' : s'.Over)
    (h : op.step s foregroundFree connectionFree answer now = some (s', op'))
    (hcan : op'.CanStart s') : op.CanStart s := by
  cases moves_of_step h with
  | found live | overtaken live => cases hs.2.symm.trans live
  | stored =>
      have hclosed := (Shared.over_setConnection hs _).mp hs' _ rfl
      cases hclosed.symm.trans hcan.2
  | execOpened | ptyOpened => exact canStart_of_starts h rfl
  | installedBackground | installedExec | notInserted | installedPty => trivial
  | execEnded | execDiscarded =>
      rw [execNext] at hcan
      split at hcan
      · exact hcan.elim
      · exact hcan.elim
  | _ => exact hcan.elim

theorem Op.Moves.isClosed_of (h : op.Moves s foregroundFree now answer s' op')
    {connection : SshConnection} (hclosed : s.isClosed connection = true) :
    s'.isClosed connection = true := by
  have hwrite (info : SessionInfo) (stored : Bool) :
      (s.writeOpenInfo info stored).isClosed connection = true := by
    rw [Shared.writeOpenInfo]
    split
    · exact hclosed
    · exact hclosed
  cases h with
  | reconnected | reconnectFailed | execFinished | ptyFinished => exact hwrite _ _
  | disconnected => exact Shared.isClosed_die hclosed _
  | _ => exact hclosed

theorem Op.Moves.stays_turnedAway {purpose : Purpose}
    (h : op.Moves s foregroundFree now answer s' op') (hs : s.Over)
    (haway : op.TurnedAway purpose) : op'.TurnedAway purpose := by
  rcases haway with rfl | rfl | rfl | ⟨error, rfl⟩
  · cases h with
    | acquired => exact .inr (.inl rfl)
    | turnedAway => exact .inr (.inr (.inr ⟨_, rfl⟩))
  · cases h with
    | found live => cases hs.2.symm.trans live
    | missed => exact .inr (.inr (.inl rfl))
  · cases h with
    | refused => exact .inr (.inr (.inr ⟨_, rfl⟩))
    | dialling opened => exact absurd hs.1 opened
  · cases h

end Late

namespace Lifecycle

def Starts (s : Lifecycle) : LifecycleStep → Prop
  | .advance i answer _ => ∃ op, s.ops[i]? = some op ∧ op.starts answer = true
  | _ => False

def Overrides (s : Lifecycle) : LifecycleStep → Prop
  | .advance i answer _ => ∃ op, s.ops[i]? = some op ∧ op.Overrides s.shared answer
  | _ => False

theorem step_over_iff {s s' : Lifecycle} {move : LifecycleStep} (hover : s.shared.Over)
    (h : s.step move = some s') :
    s'.shared.Over ∧ ¬s.Starts move ↔ ¬s.Overrides move := by
  cases move with
  | call call =>
      cases h
      exact and_iff_right hover
  | die connection =>
      cases h
      exact and_iff_right (hover.die connection)
  | advance i answer now =>
      obtain ⟨op, op', others, hop, hadvance⟩ := step_advance h
      simpa [Starts, Overrides, hop] using hadvance.moves.over_iff hover

/-- After `close` has written Closed the session stays closed, its slot stays without a
live connection and nothing is started on it, exactly when the slot held no live
connection at that moment and no later step passes over the closed session. -/
theorem closed_is_absorbing_iff {s s' t : Lifecycle} {i : Nat} {answer : Answer} {now : Now}
    {moves : List LifecycleStep} (hclose : s.ops[i]? = some .closeInfo)
    (hstep : machine.step s (.advance i answer now) = some s')
    (hrun : machine.run s' moves = some t) :
    machine.Meets (fun s move => s.shared.Over ∧ ¬s.Starts move) s' moves ∧ t.shared.Over ↔
      s.shared.liveConnection = none ∧
        machine.Meets (fun s move => ¬s.Overrides move) s' moves := by
  rw [machine.meets_and_iff (fun _ _ _ => step_over_iff) hrun]
  refine and_congr_left fun _ => ?_
  obtain ⟨op, op', others, hop, hadvance⟩ := step_advance hstep
  cases hclose.symm.trans hop
  have hmoves := hadvance.moves
  generalize s'.shared = shared at hmoves ⊢
  cases hmoves with
  | closed => exact and_iff_right rfl

section Late

variable {s s' : Lifecycle} {move : LifecycleStep} {i : Nat} {op : Op}

theorem isClosed_of_step (h : s.step move = some s') {connection : SshConnection}
    (hclosed : s.shared.isClosed connection = true) : s'.shared.isClosed connection = true := by
  cases move with
  | call call =>
      cases h
      exact hclosed
  | die connection =>
      cases h
      exact Shared.isClosed_die hclosed connection
  | advance i answer now =>
      obtain ⟨op, op', others, -, hadvance⟩ := step_advance h
      exact hadvance.moves.isClosed_of hclosed

/-- A step of another operation opens no way. -/
theorem canStart_before (h : s.step move = some s') (hcan : op.CanStart s'.shared) :
    op.CanStart s.shared := by
  cases op with
  | opening purpose connection =>
      refine ⟨hcan.1, Bool.eq_false_iff.mpr fun hclosed => ?_⟩
      cases (isClosed_of_step h hclosed).symm.trans hcan.2
  | _ => exact hcan

/-- A call that arrives cannot start anything yet. -/
theorem not_canStart_of_new (hnone : s.ops[i]? = none) (h : s.step move = some s')
    (hop : s'.ops[i]? = some op) : ¬op.CanStart s'.shared := by
  cases move with
  | call call =>
      cases h
      rw [List.getElem?_append_right (List.getElem?_eq_none_iff.mp hnone)] at hop
      rw [List.mem_singleton.mp (List.mem_of_getElem? hop)]
      cases call with
      | startExec _ _ | shellOpen | file | shellClose | close => exact id
  | die connection =>
      cases h
      cases hnone.symm.trans hop
  | advance j answer now =>
      obtain ⟨op, op', others, -, hbefore, hafter, -⟩ := step_own h
      have hlength := (hbefore.length_eq.trans (List.length_cons ..)).trans
        (hafter.length_eq.trans (List.length_cons ..)).symm
      rw [List.getElem?_eq_none_iff, hlength, ← List.getElem?_eq_none_iff] at hnone
      cases hnone.symm.trans hop

/-- An operation called on a session that is over gets as far as the check, and is refused
there. -/
theorem late_call_refused {s t : Lifecycle} {call : Call} {purpose : Purpose}
    {moves : List LifecycleStep} (hcall : call.op = .acquire purpose)
    (hover : machine.Meets (fun s _ => s.shared.Over) s (.call call :: moves))
    (hrun : machine.run s (.call call :: moves) = some t) :
    ∃ op, t.ops[s.ops.length]? = some op ∧ op.TurnedAway purpose := by
  obtain ⟨called, hcalled, hlater⟩ := machine.run_cons_some.mp hrun
  have hplace : called.ops[s.ops.length]? = some (.acquire purpose) := by
    cases hcalled
    rw [hcall, List.getElem?_concat_length]
  refine machine.invariant_under (I := fun m => ∃ op, m.ops[s.ops.length]? = some op ∧
    op.TurnedAway purpose) (fun m move m' hop hm hstep => ?_) ⟨_, hplace, .inl rfl⟩
    (hover.2 called hcalled) hlater
  obtain ⟨op, hop, haway⟩ := hop
  rcases step_at hop hstep with ⟨-, hsame⟩ | ⟨answer, now, op', -, hop', hown⟩
  · exact ⟨op, hsame, haway⟩
  · exact ⟨op', hop', (Op.moves_of_step hown).stays_turnedAway hm haway⟩

/-- What starts on a session that is over and stays it was about to start when the session
ended: its channel was to be opened on a connection that stands, or was open. -/
theorem starts_were_under_way {s m m' : Lifecycle} {moves : List LifecycleStep} {i : Nat}
    {answer : Answer} {now : Now} (hover : machine.Meets (fun s _ => s.shared.Over) s moves)
    (hm : m.shared.Over) (hrun : machine.run s moves = some m)
    (hstep : machine.step m (.advance i answer now) = some m')
    (hstarts : m.Starts (.advance i answer now)) :
    ∃ op, s.ops[i]? = some op ∧ op.CanStart s.shared := by
  by_contra hnone
  have hidle : ∀ op, m.ops[i]? = some op → ¬op.CanStart m.shared := by
    refine machine.invariant_between (P := fun s => s.shared.Over)
      (I := fun s => ∀ op, s.ops[i]? = some op → ¬op.CanStart s.shared)
      (fun s move s' hidle hs hs' hstep => ?_) (fun op hop hcan => hnone ⟨op, hop, hcan⟩) hover hm
      hrun
    cases hop : s.ops[i]? with
    | none => exact fun op' hop' => not_canStart_of_new hop hstep hop'
    | some op =>
        intro op' hop' hcan
        rcases step_at hop hstep with ⟨-, hsame⟩ | ⟨answer, now, op'', -, hnext, hown⟩
        · cases hsame.symm.trans hop'
          exact hidle op hop (canStart_before hstep hcan)
        · cases hnext.symm.trans hop'
          exact hidle op hop (Op.canStart_of_step hs hs' hown hcan)
  obtain ⟨op, hop, hstart⟩ := hstarts
  obtain ⟨op', op'', -, hop', -, -, hown⟩ := step_own hstep
  cases hop.symm.trans hop'
  exact hidle op hop (Op.canStart_of_starts hown hstart)

end Late

/-- A session whose `close` is about to write Closed. -/
def closing : Lifecycle :=
  ⟨⟨.new (.created "s" "t" "t" "p" "m" ⟨0, 0⟩) ⟨0, 0⟩, .openWith .empty 1, 1, [], [], []⟩,
    [.closeInfo]⟩

/-- A foreground exec that comes after Closed is refused. -/
theorem closed_is_absorbing_iff_execRefused :
    ∃ s t moves,
      machine.step closing (.advance 0 .ok ⟨1, 1⟩) = some s ∧ machine.run s moves = some t ∧
      (machine.Meets (fun s move => s.shared.Over ∧ ¬s.Starts move) s moves ∧ t.shared.Over ↔
        closing.shared.liveConnection = none ∧
          machine.Meets (fun s move => ¬s.Overrides move) s moves) := by
  let moves : List LifecycleStep :=
    [.call (.startExec "ls" false), .advance 1 .ok ⟨2, 2⟩, .advance 1 .ok ⟨3, 3⟩,
      .advance 1 .ok ⟨4, 4⟩]
  have hall : ((machine.step closing (.advance 0 .ok ⟨1, 1⟩)).any fun s =>
      (machine.run s moves).isSome) = true := by decide
  obtain ⟨s, hstep, hsome⟩ := (Option.any_eq_true _ _).mp hall
  obtain ⟨t, hrun⟩ := Option.isSome_iff_exists.mp hsome
  exact ⟨s, t, moves, hstep, hrun, closed_is_absorbing_iff rfl hstep hrun⟩

/-- `close` runs while `create` is dialling: the session is Closed, then Ready with a
live connection, and an exec is started on it. -/
theorem close_is_overridden :
    ∃ moves i answer now s s' later m start t,
      machine.run (created (.openWith .empty 1) (.created "s" "t" "t" "p" "m" ⟨0, 0⟩) 1 ⟨0, 0⟩)
        moves = some s ∧
      s.ops[i]? = some .closeInfo ∧ machine.step s (.advance i answer now) = some s' ∧
      s'.shared.runtime.info.status = .closed ∧ machine.run s' later = some m ∧
      m.shared.runtime.info.status = .ready ∧ m.shared.liveConnection.isSome = true ∧
      m.Starts start ∧ machine.step m start = some t := by
  let moves : List LifecycleStep :=
    [.call .close, .advance 1 .ok ⟨1, 1⟩, .advance 1 .ok ⟨2, 2⟩, .advance 1 .ok ⟨3, 3⟩]
  let later : List LifecycleStep :=
    [.advance 0 (.connected ⟨"c", "f"⟩) ⟨5, 5⟩, .advance 0 .ok ⟨6, 6⟩, .advance 0 .ok ⟨7, 7⟩,
      .call (.startExec "ls" false), .advance 2 .ok ⟨8, 8⟩, .advance 2 .ok ⟨9, 9⟩]
  exact ⟨moves, 1, .ok, ⟨4, 4⟩, _, _, later, _, .advance 2 (.opened "e") ⟨10, 10⟩, _,
    rfl, rfl, rfl, rfl, rfl, rfl, rfl, ⟨_, rfl, rfl⟩, rfl⟩

end Lifecycle
end AiSsh
