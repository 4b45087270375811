import AiSsh.ForegroundSlot

/-!
The status and the foreground slot. The slot is filled under the foreground lock and
the info record is written after the lock is released, by the operation that filled
the slot and by the task that emptied it. A task that ends, or a dial that fails,
writes the record without a look at the slot. The two agree wherever no operation
stands between its two writes, provided that each of these writes finds the slot
empty or taken by an operation that will still write, and that `shell_close` never
finds an exec.
-/

namespace AiSsh

open Library

/-- What the status and the current command say about the slot. -/
structure SessionInfo.Agrees (info : SessionInfo) (slot : Option Foreground) : Prop where
  exec : info.status = .execRunning ↔ ∃ id, slot = some (.exec id)
  pty : info.status = .ptyOpen ↔ ∃ id, slot = some (.pty id)
  command : info.currentCommand = none ↔ slot = none

namespace SessionInfo

theorem Agrees.of_none {info : SessionInfo} (hexec : info.status ≠ .execRunning)
    (hpty : info.status ≠ .ptyOpen) (hcommand : info.currentCommand = none) :
    info.Agrees none where
  exec := iff_of_false hexec nofun
  pty := iff_of_false hpty nofun
  command := iff_of_true hcommand rfl

theorem execStarted_agrees (info : SessionInfo) (command id : String) (now : Now) :
    (info.execStarted command now).Agrees (some (.exec id)) where
  exec := iff_of_true rfl ⟨id, rfl⟩
  pty := iff_of_false nofun nofun
  command := iff_of_false nofun nofun

theorem ptyOpened_agrees (info : SessionInfo) (id : String) (now : Now) :
    (info.ptyOpened now).Agrees (some (.pty id)) where
  exec := iff_of_false nofun nofun
  pty := iff_of_true rfl ⟨id, rfl⟩
  command := iff_of_false nofun nofun

theorem execFinished_agrees (info : SessionInfo) (interrupted : Bool) (exit : Option UInt32)
    (now : Now) : (info.execFinished interrupted exit now).Agrees none := by
  cases interrupted with
  | false => exact .of_none nofun nofun rfl
  | true => exact .of_none nofun nofun rfl

theorem ptyFinished_agrees (info : SessionInfo) (intentional : Bool) (now : Now) :
    (info.ptyFinished intentional now).Agrees none := by
  cases intentional with
  | false => exact .of_none nofun nofun rfl
  | true => exact .of_none nofun nofun rfl

theorem reconnectFailed_agrees (info : SessionInfo) (now : Now) :
    (info.reconnectFailed now).Agrees none :=
  .of_none nofun nofun rfl

/-- A reconnect leaves the status of live work alone. -/
theorem reconnected_live {info : SessionInfo} {status : SessionStatus}
    (hlive : status = .execRunning ∨ status = .ptyOpen) (fingerprint : String) (now : Now) :
    (info.reconnected fingerprint now).status = status ↔ info.status = status := by
  simp only [SessionInfo.reconnected]
  split
  · rename_i hdown
    rcases hlive with rfl | rfl
    · rcases hdown with h | h | h <;> simp [h]
    · rcases hdown with h | h | h <;> simp [h]
  · exact Iff.rfl

theorem Agrees.reconnected {info : SessionInfo} {slot : Option Foreground}
    (h : info.Agrees slot) (fingerprint : String) (now : Now) :
    (info.reconnected fingerprint now).Agrees slot where
  exec := (reconnected_live (.inl rfl) fingerprint now).trans h.exec
  pty := (reconnected_live (.inr rfl) fingerprint now).trans h.pty
  command := h.command

end SessionInfo

namespace Op

/-- Between the write of the slot and the write of the info record. The slot of a PTY
that `shell_close` has taken was written for the task that still runs. -/
def unsettled (slot : Option Foreground) : Op → Bool
  | .startedExec _ | .startedPty _ | .execInfo _ _ | .ptyDiscard | .ptyInfo _ => true
  | .runPty id | .ptyRelease id => slot != some (.pty id)
  | _ => false

/-- What an operation still does about a record that is not right for the slot. -/
def Settles (op : Op) : Option Foreground → Prop
  | none => op.unsettled none = true
  | some f => op.installs = some f

/-- The steps that write the info record without a look at the slot. -/
def writesInfo : Op → Bool
  | .startedExec _ | .startedPty _ | .execInfo _ _ | .ptyInfo _ | .dialFailed _ _ => true
  | _ => false

/-- The steps of `create` and `close`. -/
def outside : Op → Bool
  | .createDial | .createStore _ | .createReady _ | .createFailed _ | .closeForeground
  | .closeWriter | .closeBackground | .closeConnection | .closeDisconnect _ | .closeInfo => true
  | _ => false

theorem Moves.startedExec_foreground {s s' : Shared} {foregroundFree : Bool} {answer : Answer}
    {now : Now} {op op' : Op} (h : op.Moves s foregroundFree now answer s' op')
    {command : CommandInfo} (hop : op' = .startedExec command) :
    s'.runtime.foreground = some (.exec command.id) := by
  cases h with
  | installedExec =>
      cases hop
      rfl
  | execEnded | execDiscarded =>
      simp only [execNext] at hop
      split at hop <;> cases hop
  | _ => cases hop

theorem Moves.inside {s s' : Shared} {foregroundFree : Bool} {answer : Answer} {now : Now}
    {op op' : Op} (h : op.Moves s foregroundFree now answer s' op')
    (hin : op.outside = false) : op'.outside = false := by
  cases h with
  | execEnded | execDiscarded =>
      simp only [execNext]
      split
      · rfl
      · rfl
  | foregroundEmpty | execCancelled | ptyTaken | writerClosed | backgroundCancelled
  | connectionTaken | notConnected | disconnected | createConnected | createRefused
  | createStored => cases hin
  | _ => rfl

theorem Moves.opened {s s' : Shared} {foregroundFree : Bool} {answer : Answer} {now : Now}
    {op op' : Op} (h : op.Moves s foregroundFree now answer s' op')
    (hin : op.outside = false) (hopen : s.runtime.info.status ≠ .closed) :
    s'.runtime.info.status ≠ .closed := by
  cases h with
  | createReady | createFailed | closed => cases hin
  | startedExec | execNotStored | startedPty | ptyNotStored =>
      intro h
      cases h
  | reconnected =>
      rw [Shared.writeOpenInfo_info hopen]
      simp only [SessionInfo.reconnected]
      split
      · intro h
        cases h
      · exact hopen
  | reconnectFailed =>
      rw [Shared.writeOpenInfo_info hopen]
      intro h
      cases h
  | execFinished | ptyFinished =>
      simp only [Shared.wake, Shared.writeOpenInfo_info hopen, SessionInfo.execFinished,
        SessionInfo.ptyFinished]
      split
      · intro h
        cases h
      · intro h
        cases h
  | _ => exact hopen

theorem unsettled_of_ptyTask {op : Op} {id : String} (h : op.ptyTask = some id) :
    op.unsettled none = true := by
  cases op with
  | startedPty _ | runPty _ | ptyRelease _ => rfl
  | _ => cases h

theorem Settles.unsettled {op : Op} {slot : Option Foreground} (h : op.Settles slot) :
    op.unsettled slot = true := by
  cases slot with
  | none => exact h
  | some f =>
      cases op with
      | startedExec _ | startedPty _ => rfl
      | _ => cases h

end Op

namespace Lifecycle

variable {s s' : Lifecycle} {move : LifecycleStep}

def info (s : Lifecycle) : SessionInfo := s.shared.runtime.info

/-- No operation and no task stands between its two writes. -/
def Quiescent (s : Lifecycle) : Prop := ∀ op ∈ s.ops, op.unsettled s.slot = false

/-- The slot is empty, or what fills it has still to be written to the info record. -/
def Awaited (s : Lifecycle) : Prop :=
  ∀ f ∈ s.slot, ∃ op ∈ s.ops, op.installs = some f

def execInSlot (s : Lifecycle) : Bool :=
  match s.slot with
  | some (.exec _) => true
  | _ => false

theorem not_execInSlot (h : s.execInSlot = false) (id : String) :
    s.slot ≠ some (.exec id) := by
  intro hslot
  simp [execInSlot, hslot] at h

/-- A session that stays open and whose storage answers. -/
def InScope (s : Lifecycle) : LifecycleStep → Prop
  | .call call => call ≠ .close
  | .advance i answer _ => ∀ op ∈ s.ops[i]?, op.installs ≠ none → answer = .ok
  | .die _ => True

/-- A write of the info record finds the slot empty or awaited, and `shell_close` does
not find an exec. -/
def Undisturbed (s : Lifecycle) : LifecycleStep → Prop
  | .advance i _ _ => ∀ op ∈ s.ops[i]?,
      (op.writesInfo = true → s.Awaited) ∧ (op = .shellClose → s.execInSlot = false)
  | _ => True

instance (s : Lifecycle) : Decidable s.Quiescent :=
  inferInstanceAs (Decidable (∀ op ∈ s.ops, op.unsettled s.slot = false))

instance (s : Lifecycle) : Decidable s.Awaited :=
  inferInstanceAs (Decidable (∀ f ∈ s.slot, ∃ op ∈ s.ops, op.installs = some f))

instance (s : Lifecycle) : DecidablePred s.InScope
  | .call call => inferInstanceAs (Decidable (call ≠ .close))
  | .advance i answer _ =>
      inferInstanceAs (Decidable (∀ op ∈ s.ops[i]?, op.installs ≠ none → answer = .ok))
  | .die _ => isTrue trivial

instance (s : Lifecycle) : DecidablePred s.Undisturbed
  | .advance i _ _ =>
      inferInstanceAs (Decidable (∀ op ∈ s.ops[i]?,
        (op.writesInfo = true → s.Awaited) ∧ (op = .shellClose → s.execInSlot = false)))
  | .call _ | .die _ => isTrue trivial

/-- An open session with nothing under way. -/
structure Resting (s : Lifecycle) : Prop where
  returned : ∀ op ∈ s.ops, ∃ result, op = .returned result
  empty : s.slot = none
  opened : s.info.status ≠ .closed
  agrees : s.info.Agrees none

/-- Who may hold the lock, the slot and the identifiers. -/
structure Kept (s : Lifecycle) : Prop where
  exclusive : s.ops.countP Op.holdsForeground ≤ 1
  reserved : ∀ op ∈ s.ops, op.reserves = true → s.slot = none
  running : ∀ command, .startedExec command ∈ s.ops → s.slot = some (.exec command.id)
  attended : ∀ id, s.slot = some (.pty id) → ∃ op ∈ s.ops, op.ptyTask = some id
  distinct : (s.ops.filterMap Op.execTask).Nodup
  handed : ∀ id ∈ s.ops.filterMap Op.execTask, id ∈ s.shared.used
  inside : ∀ op ∈ s.ops, op.outside = false
  opened : s.info.status ≠ .closed

/-- The record is right, or an operation that will set it right is under way. -/
def Settling (s : Lifecycle) : Prop :=
  s.info.Agrees s.slot ∨ ∃ op ∈ s.ops, op.Settles s.slot

section Advance

variable {op op' : Op} {others : List Op} {answer : Answer} {now : Now}

theorem Kept.locked (h : Kept s) : Locked s := ⟨h.exclusive, h.reserved⟩

/-- Nobody else takes the exec out of the slot before its start is written. -/
theorem Kept.running_advance (h : Kept s) (hadvance : Advances s s' op op' others answer now)
    (hshell : op = .shellClose → s.execInSlot = false) :
    ∀ command, .startedExec command ∈ s'.ops → s'.slot = some (.exec command.id) := by
  have hmem : op ∈ s.ops := hadvance.mem_before.mpr (.inl rfl)
  intro command hstarted
  cases hadvance.mem_after.mp hstarted with
  | inl hop => exact hadvance.moves.startedExec_foreground hop.symm
  | inr hstarted =>
      have hslot := h.running command (hadvance.mem_before.mpr (.inr hstarted))
      rcases hadvance.moves.foreground with hsame | ⟨-, htaken⟩ | ⟨hop, -⟩
      · exact hsame.trans hslot
      · rcases htaken with rfl | rfl | ⟨id, interrupted, exit, rfl, hown⟩ | ⟨id, rfl, hown⟩
        · exact absurd hslot (not_execInSlot (hshell rfl) _)
        · cases h.inside _ hmem
        · cases hslot.symm.trans hown
          have hdistinct := (hadvance.before.filterMap Op.execTask).nodup_iff.mp h.distinct
          rw [List.filterMap_cons_some (f := Op.execTask) rfl, List.nodup_cons] at hdistinct
          have htwice : command.id ∈ others.filterMap Op.execTask :=
            List.mem_filterMap.mpr ⟨_, hstarted, rfl⟩
          exact absurd htwice hdistinct.1
        · cases hslot.symm.trans hown
      · cases hslot.symm.trans (h.reserved op hmem hop)

theorem Kept.attended_advance (h : Kept s) (hadvance : Advances s s' op op' others answer now)
    (hstored : op.installs ≠ none → answer = .ok) :
    ∀ id, s'.slot = some (.pty id) → ∃ x ∈ s'.ops, x.ptyTask = some id := by
  intro id hslot
  rcases hadvance.moves.foreground with hsame | ⟨hnone, -⟩ | ⟨-, -, f, hinstalls, hf⟩
  · obtain ⟨x, hx, htask⟩ := h.attended id (hsame.symm.trans hslot)
    rcases hadvance.mem_before.mp hx with rfl | hx
    · exact ⟨op', hadvance.mem_after.mpr (.inl rfl), hadvance.moves.ptyTask hstored htask hslot⟩
    · exact ⟨x, hadvance.mem_after.mpr (.inr hx), htask⟩
  · cases hnone.symm.trans hslot
  · cases hf.symm.trans hslot
    exact ⟨op', hadvance.mem_after.mpr (.inl rfl), Op.ptyTask_of_installs hinstalls⟩

/-- The identifiers of the execs stay apart: a new one was not handed out before. -/
theorem Kept.distinct_advance (h : Kept s) (hadvance : Advances s s' op op' others answer now) :
    (s'.ops.filterMap Op.execTask).Nodup ∧
      ∀ id ∈ s'.ops.filterMap Op.execTask, id ∈ s'.shared.used :=
  nodup_names_move hadvance.before hadvance.after (fun _ hid => hadvance.moves.used hid)
    (fun _ htask => hadvance.moves.execTask htask) h.distinct h.handed

theorem Kept.advance (h : Kept s) (hadvance : Advances s s' op op' others answer now)
    (hshell : op = .shellClose → s.execInSlot = false)
    (hstored : op.installs ≠ none → answer = .ok) : Kept s' where
  exclusive := h.locked.exclusive_advance hadvance
  reserved := h.locked.reserved_advance hadvance
  running := h.running_advance hadvance hshell
  attended := h.attended_advance hadvance hstored
  distinct := (h.distinct_advance hadvance).1
  handed := (h.distinct_advance hadvance).2
  inside := by
    intro x hx
    rcases hadvance.mem_after.mp hx with rfl | hx
    · exact hadvance.moves.inside (h.inside op (hadvance.mem_before.mpr (.inl rfl)))
    · exact h.inside x (hadvance.mem_before.mpr (.inr hx))
  opened := hadvance.moves.opened (h.inside op (hadvance.mem_before.mpr (.inl rfl))) h.opened

theorem Settling.of_agrees (h : Settling s) (hadvance : Advances s s' op op' others answer now)
    (hslot : s'.slot = s.slot) (hinfo : s.info.Agrees s.slot → s'.info.Agrees s.slot)
    (hinstalls : op.installs = none)
    (hunsettled : op.unsettled none = true → op'.unsettled none = true) :
    Settling s' := by
  rw [Settling]
  rw [hslot]
  rcases h with hagrees | ⟨x, hx, hsettles⟩
  · exact .inl (hinfo hagrees)
  · right
    rcases hadvance.mem_before.mp hx with rfl | hx
    · refine ⟨op', hadvance.mem_after.mpr (.inl rfl), ?_⟩
      cases hs : s.slot with
      | none =>
          rw [hs] at hsettles
          exact hunsettled hsettles
      | some f =>
          rw [hs] at hsettles
          cases hinstalls.symm.trans hsettles
    · exact ⟨x, hadvance.mem_after.mpr (.inr hx), hsettles⟩

/-- A record for the empty slot is right, or the slot's own record is still to come. -/
theorem Settling.of_none (hadvance : Advances s s' op op' others answer now)
    (hslot : s'.slot = s.slot) (hinfo : s'.info.Agrees none) (hawaited : s.Awaited)
    (hinstalls : op.installs = none) : Settling s' := by
  rw [Settling]
  rw [hslot]
  cases hs : s.slot with
  | none => exact .inl hinfo
  | some f =>
      obtain ⟨x, hx, hsettles⟩ := hawaited f hs
      rcases hadvance.mem_before.mp hx with rfl | hx
      · cases hinstalls.symm.trans hsettles
      · exact .inr ⟨x, hadvance.mem_after.mpr (.inr hx), hsettles⟩

theorem Settling.advance (h : Settling s) (hkept : Kept s)
    (hadvance : Advances s s' op op' others answer now)
    (hawaited : op.writesInfo = true → s.Awaited)
    (hshell : op = .shellClose → s.execInSlot = false)
    (hstored : op.installs ≠ none → answer = .ok) : Settling s' := by
  have hmem : op ∈ s.ops := hadvance.mem_before.mpr (.inl rfl)
  have hin := hkept.inside op hmem
  obtain ⟨shared, ops⟩ := s'
  have hmoves : op.Moves s.shared s.foregroundFree now answer shared op' := hadvance.moves
  have hlast : op' ∈ ops := hadvance.mem_after.mpr (.inl rfl)
  cases hmoves with
  | createReady | createFailed | closed | execCancelled | ptyTaken => cases hin
  | execNotStored | ptyNotStored => cases hstored (Option.some_ne_none _)
  | reconnected =>
      refine h.of_agrees hadvance (Shared.writeOpenInfo_foreground ..) ?_ rfl
        fun hunsettled => by cases hunsettled
      intro hagrees
      simp only [info, Shared.writeOpenInfo_info hkept.opened]
      exact hagrees.reconnected _ now
  | reconnectFailed =>
      refine .of_none hadvance (Shared.writeOpenInfo_foreground ..) ?_ (hawaited rfl) rfl
      simp only [info, Shared.writeOpenInfo_info hkept.opened]
      exact SessionInfo.reconnectFailed_agrees _ now
  | execFinished =>
      refine .of_none hadvance (Shared.writeOpenInfo_foreground ..) ?_ (hawaited rfl) rfl
      simp only [info, Shared.wake, Shared.writeOpenInfo_info hkept.opened]
      exact SessionInfo.execFinished_agrees _ _ _ now
  | ptyFinished =>
      refine .of_none hadvance (Shared.writeOpenInfo_foreground ..) ?_ (hawaited rfl) rfl
      simp only [info, Shared.wake, Shared.writeOpenInfo_info hkept.opened]
      exact SessionInfo.ptyFinished_agrees _ _ now
  | startedExec =>
      have hslot := hkept.running _ hmem
      left
      show SessionInfo.Agrees _ s.slot
      rw [hslot]
      exact SessionInfo.execStarted_agrees ..
  | startedPty =>
      show SessionInfo.Agrees _ s.slot ∨ ∃ x ∈ ops, x.Settles s.slot
      cases hs : s.slot with
      | none => exact .inr ⟨_, hlast, rfl⟩
      | some f =>
          obtain ⟨x, hx, hsettles⟩ := hawaited rfl f hs
          rcases hadvance.mem_before.mp hx with rfl | hx
          · cases hsettles
            exact .inl (SessionInfo.ptyOpened_agrees ..)
          · exact .inr ⟨x, hadvance.mem_after.mpr (.inr hx), hsettles⟩
  | installedExec | installedPty => exact .inr ⟨_, hlast, rfl⟩
  | execReleased | ptyReleased => exact .inr ⟨_, hlast, rfl⟩
  | shellTaken _ own =>
      obtain ⟨x, hx, htask⟩ := hkept.attended _ own
      rcases hadvance.mem_before.mp hx with rfl | hx
      · cases htask
      · exact .inr ⟨x, hadvance.mem_after.mpr (.inr hx), Op.unsettled_of_ptyTask htask⟩
  | shellNotOpen _ other =>
      have hslot : s.slot = none := by
        cases hs : s.slot with
        | none => rfl
        | some f =>
            cases f with
            | exec id => exact absurd hs (not_execInSlot (hshell rfl) id)
            | pty id => exact absurd hs (other id)
      exact h.of_agrees hadvance hslot.symm (fun hagrees => hagrees) rfl
        fun hunsettled => by cases hunsettled
  | ptyEnded => exact h.of_agrees hadvance rfl (fun hagrees => hagrees) rfl fun h => h
  | ptyAlreadyReleased | ptyDiscarded =>
      exact h.of_agrees hadvance rfl (fun hagrees => hagrees) rfl fun _ => rfl
  | _ =>
      exact h.of_agrees hadvance rfl (fun hagrees => hagrees) rfl
        fun hunsettled => by cases hunsettled

end Advance

theorem Kept.call (h : Kept s) {call : Call} (hcall : call ≠ .close) :
    Kept { s with ops := s.ops ++ [call.op] } := by
  have hholds : call.op.holdsForeground = false := by
    cases call with
    | _ => rfl
  have hreserves : call.op.reserves = false := by
    cases call with
    | _ => rfl
  have htask : call.op.execTask = none := by
    cases call with
    | _ => rfl
  have hinside : call.op.outside = false := by
    cases call with
    | close => exact absurd rfl hcall
    | _ => rfl
  have hmem {x : Op} (hx : x ∈ s.ops ++ [call.op]) : x ∈ s.ops ∨ x = call.op := by
    simpa using hx
  have htasks : (s.ops ++ [call.op]).filterMap Op.execTask = s.ops.filterMap Op.execTask := by
    simp [htask]
  refine ⟨?_, ?_, ?_, ?_, ?_, ?_, ?_, h.opened⟩
  · simpa [List.countP_append, hholds] using h.exclusive
  · intro x hx hx'
    rcases hmem hx with hx | rfl
    · exact h.reserved x hx hx'
    · cases hreserves.symm.trans hx'
  · intro command hx
    cases hmem hx with
    | inl hx => exact h.running command hx
    | inr hx => cases call <;> cases hx
  · intro id hslot
    obtain ⟨x, hx, htask⟩ := h.attended id hslot
    exact ⟨x, List.mem_append_left _ hx, htask⟩
  · rw [htasks]
    exact h.distinct
  · rw [htasks]
    exact h.handed
  · intro x hx
    rcases hmem hx with hx | rfl
    · exact h.inside x hx
    · exact hinside

theorem Kept.step (h : Kept s) (hscope : s.InScope move) (hundisturbed : s.Undisturbed move)
    (hstep : s.step move = some s') : Kept s' := by
  cases move with
  | call call =>
      cases hstep
      exact h.call hscope
  | die connection =>
      cases hstep
      exact { h with }
  | advance i answer now =>
      obtain ⟨op, op', others, hop, hadvance⟩ := step_advance hstep
      exact h.advance hadvance (hundisturbed op hop).2 (hscope op hop)

theorem Settling.step (h : Settling s) (hkept : Kept s) (hscope : s.InScope move)
    (hundisturbed : s.Undisturbed move) (hstep : s.step move = some s') : Settling s' := by
  cases move with
  | call call =>
      cases hstep
      refine h.imp (fun hagrees => hagrees) ?_
      rintro ⟨x, hx, hsettles⟩
      exact ⟨x, List.mem_append_left _ hx, hsettles⟩
  | die connection =>
      cases hstep
      exact h
  | advance i answer now =>
      obtain ⟨op, op', others, hop, hadvance⟩ := step_advance hstep
      exact h.advance hkept hadvance (hundisturbed op hop).1 (hundisturbed op hop).2
        (hscope op hop)

theorem Resting.kept (h : Resting s) : Kept s := by
  have hholds : s.ops.countP Op.holdsForeground = 0 := by
    rw [List.countP_eq_zero]
    intro x hx
    obtain ⟨result, rfl⟩ := h.returned x hx
    exact nofun
  have htasks : s.ops.filterMap Op.execTask = [] := by
    rw [List.filterMap_eq_nil_iff]
    intro x hx
    obtain ⟨result, rfl⟩ := h.returned x hx
    rfl
  refine ⟨by omega, ?_, ?_, ?_, by simp [htasks], by simp [htasks], ?_,
    h.opened⟩
  · intro x hx hreserves
    obtain ⟨result, rfl⟩ := h.returned x hx
    cases hreserves
  · intro command hx
    obtain ⟨result, hresult⟩ := h.returned _ hx
    cases hresult
  · intro id hslot
    cases h.empty.symm.trans hslot
  · intro x hx
    obtain ⟨result, rfl⟩ := h.returned x hx
    rfl

/-- In every quiescent state of a run whose writes are undisturbed the status and the
current command agree with the foreground slot. -/
theorem status_agrees_with_slot {s t : Lifecycle} {moves : List LifecycleStep}
    (hrest : s.Resting)
    (hmeets : machine.Meets (fun s move => s.InScope move ∧ s.Undisturbed move) s moves)
    (hrun : machine.run s moves = some t) (hquiescent : t.Quiescent) :
    t.shared.runtime.info.Agrees t.shared.runtime.foreground := by
  have hsettling : t.Kept ∧ t.Settling := by
    refine machine.invariant_under (I := fun s => s.Kept ∧ s.Settling) ?_
      ⟨hrest.kept, .inl (hrest.empty ▸ hrest.agrees)⟩ hmeets hrun
    rintro s move s' ⟨hkept, hsettling⟩ ⟨hscope, hundisturbed⟩ hstep
    exact ⟨hkept.step hscope hundisturbed hstep,
      hsettling.step hkept hscope hundisturbed hstep⟩
  rcases hsettling.2 with hagrees | ⟨op, hop, hsettles⟩
  · exact hagrees
  · exact absurd hsettles.unsettled (by simp [hquiescent op hop])

/-- The session once `create` has returned. -/
def ready : Lifecycle :=
  ⟨⟨{ SessionRuntime.new
        ((SessionInfo.created "s" "t" "t" "p" "m" ⟨0, 0⟩).connected "f" ⟨1, 1⟩) ⟨0, 0⟩ with
      connection := some ⟨"c", "f"⟩ },
      .openWith .empty 1, 1, [], [], ["c"]⟩, [.returned (.ok ())]⟩

theorem ready_resting : ready.Resting where
  returned := by
    intro op hop
    exact ⟨_, List.mem_singleton.mp hop⟩
  empty := rfl
  opened := nofun
  agrees := .of_none nofun nofun rfl

/-- A PTY is opened and ends by itself, then a foreground exec runs. -/
theorem status_agrees_with_slot_oneAtATime :
    ∃ moves t, machine.run ready moves = some t ∧
      t.shared.runtime.foreground = some (.exec "e") ∧
      t.shared.runtime.info.Agrees t.shared.runtime.foreground := by
  let moves : List LifecycleStep :=
    [.call .shellOpen, .advance 1 .ok ⟨2, 2⟩, .advance 1 .ok ⟨3, 3⟩,
      .advance 1 (.opened "p") ⟨4, 4⟩, .advance 1 .ok ⟨5, 5⟩, .advance 1 .ok ⟨6, 6⟩,
      .advance 1 .ok ⟨7, 7⟩, .advance 1 .ok ⟨8, 8⟩, .advance 1 .ok ⟨9, 9⟩,
      .advance 1 .ok ⟨10, 10⟩, .call (.startExec "ls" false), .advance 2 .ok ⟨11, 11⟩,
      .advance 2 .ok ⟨12, 12⟩, .advance 2 .ok ⟨13, 13⟩, .advance 2 (.connected ⟨"d", "f"⟩) ⟨14, 14⟩,
      .advance 2 .ok ⟨15, 15⟩, .advance 2 .ok ⟨16, 16⟩, .advance 2 (.opened "e") ⟨17, 17⟩,
      .advance 2 .ok ⟨18, 18⟩, .advance 2 .ok ⟨19, 19⟩]
  have hall : ((machine.run ready moves).any fun t =>
      decide (t.Quiescent ∧ t.shared.runtime.foreground = some (.exec "e"))) = true := by decide
  have hmeets : machine.Meets (fun s move => s.InScope move ∧ s.Undisturbed move) ready moves := by
    decide
  obtain ⟨t, hrun, ht⟩ := (Option.any_eq_true _ _).mp hall
  have ht := of_decide_eq_true ht
  exact ⟨moves, t, hrun, ht.2, status_agrees_with_slot ready_resting hmeets hrun ht.1⟩

/-- The end of a PTY that `shell_close` has taken out of the slot makes the session
Idle under a running exec. -/
theorem late_pty_end_hides_exec :
    ready.Resting ∧ ∃ moves t,
      machine.Meets (fun s move => s.InScope move) ready moves ∧
      machine.run ready moves = some t ∧ t.Quiescent ∧
      t.shared.runtime.foreground = some (.exec "e") ∧
      t.shared.runtime.info.status = .idle ∧
      ¬t.shared.runtime.info.Agrees t.shared.runtime.foreground := by
  let moves : List LifecycleStep :=
    [.call .shellOpen, .advance 1 .ok ⟨2, 2⟩, .advance 1 .ok ⟨3, 3⟩,
      .advance 1 (.opened "p") ⟨4, 4⟩, .advance 1 .ok ⟨5, 5⟩, .advance 1 .ok ⟨6, 6⟩,
      .call .shellClose, .advance 2 .ok ⟨7, 7⟩, .advance 2 .ok ⟨8, 8⟩,
      .call (.startExec "ls" false), .advance 3 .ok ⟨9, 9⟩, .advance 3 .ok ⟨10, 10⟩,
      .advance 3 (.opened "e") ⟨11, 11⟩, .advance 3 .ok ⟨12, 12⟩, .advance 3 .ok ⟨13, 13⟩,
      .advance 1 .ok ⟨14, 14⟩, .advance 1 .ok ⟨15, 15⟩, .advance 1 .ok ⟨16, 16⟩]
  have hall : ((machine.run ready moves).any fun t =>
      decide (t.Quiescent ∧ t.shared.runtime.foreground = some (.exec "e") ∧
        t.shared.runtime.info.status = .idle)) = true := by decide
  have hmeets : machine.Meets (fun s move => s.InScope move) ready moves := by decide
  obtain ⟨t, hrun, ht⟩ := (Option.any_eq_true _ _).mp hall
  obtain ⟨hquiescent, hslot, hstatus⟩ := of_decide_eq_true ht
  refine ⟨ready_resting, moves, t, hmeets, hrun, hquiescent, hslot, hstatus, ?_⟩
  intro hagrees
  cases hstatus.symm.trans (hagrees.exec.mpr ⟨"e", hslot⟩)

end Lifecycle
end AiSsh
