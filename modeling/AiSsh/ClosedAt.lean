import AiSsh.DaemonSessions
import AiSsh.EndedSessions

/-!
`closed_at` and the status of a session, when the operations on a session are executed one
after the other. Only the tasks of commands and shells run beside an operation. The two
fields are written together by a failed `create` and by `close`; a reconnect writes the status
alone, and it does not pass over a session whose `create` has failed.
-/

namespace AiSsh

open Library

namespace Op

/-- The tasks that `start_exec` and `shell_open` leave behind, and what has returned. -/
def isTask : Op → Bool
  | .runExec _ _ | .execDiscard _ _ _ | .execBackground _ | .execRelease _ _ _ | .execInfo _ _
  | .runPty _ | .ptyRelease _ | .ptyDiscard | .ptyInfo _ | .returned _ => true
  | _ => false

def creates : Op → Bool
  | .createDial | .createStore _ | .createReady _ | .createFailed _ => true
  | _ => false

/-- The statuses a session can have while the operation is at this step. -/
def allows : Op → SessionStatus → Bool
  | .createDial, status | .createStore _, status | .createReady _, status
  | .createFailed _, status => status == .connecting
  | .dial _ _, status | .dialed _ _, status | .dialFailed _ _, status =>
      status != .connecting && status != .closed
  | .store _ _, status | .opening _ _, status | .openFailed _ _, status
  | .installExec _ _, status | .installPty _, status | .startedExec _, status
  | .startedPty _, status => status != .connecting && !status.hasEnded
  | .runExec _ _, status | .execDiscard _ _ _, status | .execBackground _, status
  | .execRelease _ _ _, status | .execInfo _ _, status | .runPty _, status
  | .ptyRelease _, status | .ptyDiscard, status | .ptyInfo _, status =>
      status != .connecting && status != .failed
  | .returned _, _ => true
  | _, status => status != .connecting

/-- The steps at which the slot is empty. -/
def finds : Op → Bool
  | .createDial | .createFailed _ | .closeDisconnect _ | .closeInfo => true
  | _ => false

structure Fits (s : Shared) (op : Op) : Prop where
  status : op.allows s.runtime.info.status = true
  slot : op.finds = true → s.runtime.connection = none

/-- The outcome of a reconnect is about to be written. -/
def endsDial : Op → Bool
  | .dialed _ _ | .dialFailed _ _ => true
  | _ => false

end Op

namespace SessionInfo

/-- `closed_at` is set exactly in a session that has ended. -/
def Marked (info : SessionInfo) : Prop := info.closedAt.isSome = info.status.hasEnded

end SessionInfo

/-- A session is marked, and an ended one holds no connection. -/
structure Shared.Marked (s : Shared) : Prop where
  info : s.runtime.info.Marked
  slot : s.runtime.info.status.hasEnded = true → s.runtime.connection = none

namespace Op

variable {s s' : Shared} {foregroundFree : Bool} {answer : Answer} {now : Now} {op op' : Op}

theorem Moves.isTask (h : op.Moves s foregroundFree now answer s' op')
    (htask : op.isTask = true) : op'.isTask = true := by
  cases h with
  | execInterrupted | backgroundLeft | execReleased | execAlreadyReleased | execFinished
  | ptyEnded | ptyReleased | ptyAlreadyReleased | ptyDiscarded | ptyFinished => rfl
  | execEnded =>
      rename_i id background finished exit
      cases background <;> rfl
  | execDiscarded =>
      rename_i background exit id
      cases background <;> rfl
  | _ => cases htask

theorem not_finds_task (htask : op.isTask = true) : op.finds = false := by
  cases op with
  | createDial | createFailed _ | closeDisconnect _ | closeInfo => cases htask
  | _ => rfl

theorem allows_task {status : SessionStatus} (htask : op.isTask = true)
    (hconnecting : status ≠ .connecting) (hfailed : status ≠ .failed) :
    op.allows status = true := by
  cases op with
  | runExec _ _ | execDiscard _ _ _ | execBackground _ | execRelease _ _ _ | execInfo _ _
  | runPty _ | ptyRelease _ | ptyDiscard | ptyInfo _ => simp [allows.eq_def, hconnecting, hfailed]
  | returned _ => rfl
  | _ => cases htask

/-- A session that is neither new nor ended is at any step an operation can be at. -/
theorem allows_open {status status' : SessionStatus} (h : op.allows status = true)
    (hold : status ≠ .connecting) (hnew : status' ≠ .connecting)
    (hopen : status'.hasEnded = false) : op.allows status' = true := by
  have hclosed : status' ≠ .closed := fun h => by simp [h, SessionStatus.hasEnded] at hopen
  have hfailed : status' ≠ .failed := fun h => by simp [h, SessionStatus.hasEnded] at hopen
  cases op with
  | createDial | createStore _ | createReady _ | createFailed _ => simp [allows.eq_def, hold] at h
  | returned _ => rfl
  | _ => simp [allows.eq_def, hnew, hclosed, hfailed, hopen]

theorem Fits.returned (s : Shared) (result : Except ErrorPayload Unit) :
    (Op.returned result).Fits s := ⟨rfl, fun h => by cases h⟩

theorem fits_execNext (h : ptyDiscard.allows s.runtime.info.status = true) (id : String)
    (background interrupted : Bool) (exit : Option UInt32) :
    (execNext id background interrupted exit).Fits s := by
  cases background with
  | false => exact ⟨h, fun h => by cases h⟩
  | true => exact ⟨h, fun h => by cases h⟩

/-- A write that gives an open session another status. -/
theorem marked_writeInfo {info : SessionInfo} (stored : Bool) (hmarked : s.Marked)
    (hopen : s.runtime.info.status.hasEnded = false) (hstatus : info.status.hasEnded = false)
    (hclosedAt : info.closedAt = s.runtime.info.closedAt) : (s.writeInfo info stored).Marked where
  info := by
    have hmarks : info.closedAt.isSome = s.runtime.info.status.hasEnded :=
      hclosedAt ▸ hmarked.info
    exact hmarks.trans (hopen.trans hstatus.symm)
  slot h := by cases hstatus.symm.trans h

/-- A write that leaves a closed session alone and opens every other. -/
theorem marked_writeOpenInfo {info : SessionInfo} (stored : Bool) (hmarked : s.Marked)
    (hfailed : s.runtime.info.status ≠ .failed) (hstatus : info.status.hasEnded = false)
    (hclosedAt : info.closedAt = s.runtime.info.closedAt) :
    (s.writeOpenInfo info stored).Marked := by
  rw [Shared.writeOpenInfo]
  split
  · rename_i hclosed
    refine marked_writeInfo stored hmarked ?_ hstatus hclosedAt
    cases hs : s.runtime.info.status <;> simp_all [SessionStatus.hasEnded]
  · exact hmarked

theorem marked_wake (h : s.Marked) : s.wake.Marked := ⟨h.info, h.slot⟩

theorem reconnected_connecting {info : SessionInfo} (fingerprint : String)
    (h : info.status ≠ .connecting) : (info.reconnected fingerprint now).status ≠ .connecting := by
  rw [SessionInfo.reconnected]
  dsimp only
  split
  · exact fun h => by cases h
  · exact h

theorem reconnected_open {info : SessionInfo} (fingerprint : String)
    (h : info.status.hasEnded = false) :
    (info.reconnected fingerprint now).status.hasEnded = false := by
  rw [SessionInfo.reconnected]
  dsimp only
  split
  · rfl
  · exact h

theorem execFinished_status (info : SessionInfo) (interrupted : Bool) (exit : Option UInt32) :
    (info.execFinished interrupted exit now).status ≠ .connecting ∧
      (info.execFinished interrupted exit now).status.hasEnded = false := by
  cases interrupted with
  | false => exact ⟨fun h => (by cases h), rfl⟩
  | true => exact ⟨fun h => (by cases h), rfl⟩

theorem ptyFinished_status (info : SessionInfo) (intentional : Bool) :
    (info.ptyFinished intentional now).status ≠ .connecting ∧
      (info.ptyFinished intentional now).status.hasEnded = false := by
  cases intentional with
  | false => exact ⟨fun h => (by cases h), rfl⟩
  | true => exact ⟨fun h => (by cases h), rfl⟩

theorem notConnected_step {connectionFree : Bool}
    (h : closeConnection.step s foregroundFree connectionFree answer now = some (s', closeInfo)) :
    s'.runtime.connection = none := by
  simp only [step, stepClose] at h
  split at h
  · split at h
    · cases h
    · rename_i hnone
      cases h
      exact hnone
  · cases h

/-- One step of an operation on a marked session. -/
theorem marked_of_step {connectionFree : Bool}
    (hstep : op.step s foregroundFree connectionFree answer now = some (s', op'))
    (hfits : op.Fits s) (hmarked : s.Marked)
    (hdial : op.endsDial = true → s.runtime.info.status ≠ .failed) :
    s'.Marked ∧ op'.Fits s' := by
  have hstatus := hfits.status
  have h := moves_of_step hstep
  cases h with
  | acquired | missed | dialled | dialAgain | gaveUp | openFailed | execOpened | ptyOpened
  | installedExec | installedPty | execInterrupted | ptyEnded | ptyReleased | ptyAlreadyReleased
  | execReleased | execAlreadyReleased | shellTaken | foregroundEmpty | execCancelled | ptyTaken
  | writerClosed | backgroundCancelled | overtaken | createConnected =>
      exact ⟨⟨hmarked.info, hmarked.slot⟩, hstatus, fun h => by cases h⟩
  | turnedAway | refused | sftpOpened | notInserted | backgroundLeft | shellNotOpen
  | shellClosed =>
      exact ⟨⟨hmarked.info, hmarked.slot⟩, Fits.returned _ _⟩
  | createRefused => exact ⟨hmarked, hstatus, fun _ => hfits.slot rfl⟩
  | disconnected => exact ⟨⟨hmarked.info, hmarked.slot⟩, hstatus, fun _ => hfits.slot rfl⟩
  | execEnded =>
      refine ⟨⟨hmarked.info, hmarked.slot⟩, ?_⟩
      apply fits_execNext
      exact hstatus
  | openDiscarded => exact ⟨⟨hmarked.info, fun _ => rfl⟩, Fits.returned _ _⟩
  | execDiscarded =>
      refine ⟨⟨hmarked.info, fun _ => rfl⟩, ?_⟩
      apply fits_execNext
      exact hstatus
  | ptyDiscarded | connectionTaken => exact ⟨⟨hmarked.info, fun _ => rfl⟩, hstatus, fun _ => rfl⟩
  | notConnected => exact ⟨hmarked, hstatus, fun _ => notConnected_step hstep⟩
  | createStored | stored =>
      refine ⟨⟨hmarked.info, fun h => ?_⟩, hstatus, fun h => by cases h⟩
      simp [allows.eq_def, SessionStatus.hasEnded] at hstatus
      simp [Shared.setConnection, SessionStatus.hasEnded, hstatus] at h
  | found live =>
      refine ⟨hmarked, ?_, fun h => by cases h⟩
      have hopen : s.runtime.info.status.hasEnded = false := by
        cases hended : s.runtime.info.status.hasEnded with
        | false => rfl
        | true => simp [Shared.liveConnection, hmarked.slot hended] at live
      simpa [allows.eq_def, hopen] using hstatus
  | dialling opened =>
      refine ⟨hmarked, ?_, fun h => by cases h⟩
      simpa [allows.eq_def, opened] using hstatus
  | installedBackground =>
      refine ⟨⟨hmarked.info, hmarked.slot⟩, ?_, fun h => by cases h⟩
      cases hs : s.runtime.info.status <;>
        simp_all [allows.eq_def, SessionStatus.hasEnded, Shared.setBackground]
  | createReady =>
      have hnew : s.runtime.info.status = .connecting := by simpa [allows.eq_def] using hstatus
      exact ⟨marked_writeInfo _ hmarked (by rw [hnew]; rfl) rfl rfl, Fits.returned _ _⟩
  | createFailed => exact ⟨⟨rfl, fun _ => hfits.slot rfl⟩, Fits.returned _ _⟩
  | reconnected =>
      rename_i purpose connection stored
      have hclosed : s.runtime.info.status ≠ .closed := by simp_all [allows.eq_def]
      have hopen : s.runtime.info.status.hasEnded = false := by
        have := hdial rfl
        cases hs : s.runtime.info.status <;> simp_all [SessionStatus.hasEnded]
      have hopen' := @reconnected_open now _ connection.fingerprint hopen
      have hconnecting' : (s.runtime.info.reconnected connection.fingerprint now).status ≠
          .connecting := reconnected_connecting _ (by simp_all [allows.eq_def])
      refine ⟨marked_writeOpenInfo _ hmarked (hdial rfl) hopen' rfl, ?_, fun h => by cases h⟩
      rw [Shared.writeOpenInfo_info hclosed]
      simp [allows.eq_def, hconnecting', hopen']
  | reconnectFailed =>
      exact ⟨marked_writeOpenInfo _ hmarked (hdial rfl) rfl rfl, Fits.returned _ _⟩
  | startedExec | startedPty =>
      have hopen : s.runtime.info.status.hasEnded = false := by simp_all [allows.eq_def]
      exact ⟨marked_writeInfo _ hmarked hopen rfl rfl, rfl, fun h => by cases h⟩
  | execNotStored | ptyNotStored =>
      have hopen : s.runtime.info.status.hasEnded = false := by simp_all [allows.eq_def]
      exact ⟨marked_writeInfo _ hmarked hopen rfl rfl, Fits.returned _ _⟩
  | execFinished =>
      rename_i interrupted exit stored
      have hfailed : s.runtime.info.status ≠ .failed := by simp_all [allows.eq_def]
      have hopen := (@execFinished_status now s.runtime.info interrupted exit).2
      exact ⟨marked_wake (marked_writeOpenInfo _ hmarked hfailed hopen rfl), Fits.returned _ _⟩
  | ptyFinished =>
      rename_i intentional stored
      have hfailed : s.runtime.info.status ≠ .failed := by simp_all [allows.eq_def]
      have hopen := (@ptyFinished_status now s.runtime.info intentional).2
      exact ⟨marked_wake (marked_writeOpenInfo _ hmarked hfailed hopen rfl), Fits.returned _ _⟩
  | closed => exact ⟨⟨rfl, fun _ => hfits.slot rfl⟩, Fits.returned _ _⟩

theorem fits_task (htask : op.isTask = true) (hconnecting : s.runtime.info.status ≠ .connecting)
    (hfailed : s.runtime.info.status ≠ .failed) : op.Fits s := by
  refine ⟨allows_task htask hconnecting hfailed, fun h => ?_⟩
  rw [not_finds_task htask] at h
  cases h

/-- A step that leaves the record alone, or a write to it that opens the session. -/
theorem fits_writeOpenInfo {info : SessionInfo} (stored : Bool) {x : Op} (hx : x.Fits s)
    (hconnecting : s.runtime.info.status ≠ .connecting) (hnew : info.status ≠ .connecting)
    (hopen : info.status.hasEnded = false) : x.Fits (s.writeOpenInfo info stored) := by
  rw [Shared.writeOpenInfo]
  split
  · exact ⟨allows_open hx.status hconnecting hnew hopen, hx.slot⟩
  · exact hx

/-- One step of an operation leaves the others at steps the session allows, when they are
tasks or it is one. -/
theorem Moves.fits_others (h : op.Moves s foregroundFree now answer s' op') (hfits : op.Fits s)
    {x : Op} (hx : x.Fits s) (htask : op.isTask = true ∨ x.isTask = true)
    (hdial : op.endsDial = true → s.runtime.info.status ≠ .failed) : x.Fits s' := by
  have hstatus := hfits.status
  cases h with
  | createStored | stored =>
      have htask : x.isTask = true := htask.resolve_left (fun h => by cases h)
      refine ⟨hx.status, fun h => ?_⟩
      rw [not_finds_task htask] at h
      cases h
  | openDiscarded | execDiscarded | ptyDiscarded | connectionTaken =>
      exact ⟨hx.status, fun _ => rfl⟩
  | createReady | startedExec | startedPty | execNotStored | ptyNotStored | closed =>
      have htask : x.isTask = true := htask.resolve_left (fun h => by cases h)
      exact fits_task htask (fun h => by cases h) (fun h => by cases h)
  | createFailed =>
      have htask : x.isTask = true := htask.resolve_left (fun h => by cases h)
      have hnew : s.runtime.info.status = .connecting := by simpa [allows.eq_def] using hstatus
      have hallows := hx.status
      rw [hnew] at hallows
      cases x with
      | returned result => exact Fits.returned _ _
      | runExec _ _ | execDiscard _ _ _ | execBackground _ | execRelease _ _ _ | execInfo _ _
      | runPty _ | ptyRelease _ | ptyDiscard | ptyInfo _ => cases hallows
      | _ => cases htask
  | reconnected =>
      rename_i purpose connection stored
      have hopen : s.runtime.info.status.hasEnded = false := by
        have := hdial rfl
        cases hs : s.runtime.info.status <;> simp_all [SessionStatus.hasEnded, allows.eq_def]
      have hold : s.runtime.info.status ≠ .connecting := by simp_all [allows.eq_def]
      exact fits_writeOpenInfo stored hx hold (reconnected_connecting _ hold)
        (reconnected_open _ hopen)
  | reconnectFailed =>
      rename_i purpose error stored
      have hold : s.runtime.info.status ≠ .connecting := by simp_all [allows.eq_def]
      exact fits_writeOpenInfo stored hx hold (fun h => by cases h) rfl
  | execFinished =>
      rename_i interrupted exit stored
      have hold : s.runtime.info.status ≠ .connecting := by simp_all [allows.eq_def]
      have hnew := @execFinished_status now s.runtime.info interrupted exit
      have hwritten := fits_writeOpenInfo stored hx hold hnew.1 hnew.2
      exact ⟨hwritten.status, hwritten.slot⟩
  | ptyFinished =>
      rename_i intentional stored
      have hold : s.runtime.info.status ≠ .connecting := by simp_all [allows.eq_def]
      have hnew := @ptyFinished_status now s.runtime.info intentional
      have hwritten := fits_writeOpenInfo stored hx hold hnew.1 hnew.2
      exact ⟨hwritten.status, hwritten.slot⟩
  | _ => exact ⟨hx.status, hx.slot⟩

theorem writeOpenInfo_connecting {info : SessionInfo} (stored : Bool)
    (hold : s.runtime.info.status ≠ .connecting) (hnew : info.status ≠ .connecting) :
    (s.writeOpenInfo info stored).runtime.info.status ≠ .connecting := by
  rw [Shared.writeOpenInfo]
  split
  · exact hnew
  · exact hold

/-- A session that is still new after a step was new before, and its `create` goes on. -/
theorem Moves.creates (h : op.Moves s foregroundFree now answer s' op') (hfits : op.Fits s)
    (hnew : s'.runtime.info.status = .connecting) :
    s.runtime.info.status = .connecting ∧ (op.creates = true → op'.creates = true) := by
  have hstatus := hfits.status
  cases h with
  | createConnected | createRefused | createStored => exact ⟨hnew, fun _ => rfl⟩
  | createReady | createFailed | startedExec | startedPty | execNotStored | ptyNotStored
  | closed => cases hnew
  | reconnected =>
      have hold : s.runtime.info.status ≠ .connecting := by simp_all [allows.eq_def]
      exact absurd hnew (writeOpenInfo_connecting _ hold (reconnected_connecting _ hold))
  | reconnectFailed =>
      have hold : s.runtime.info.status ≠ .connecting := by simp_all [allows.eq_def]
      exact absurd hnew (writeOpenInfo_connecting _ hold fun h => by cases h)
  | execFinished =>
      have hold : s.runtime.info.status ≠ .connecting := by simp_all [allows.eq_def]
      exact absurd hnew (writeOpenInfo_connecting _ hold (execFinished_status _ _ _).1)
  | ptyFinished =>
      have hold : s.runtime.info.status ≠ .connecting := by simp_all [allows.eq_def]
      exact absurd hnew (writeOpenInfo_connecting _ hold (ptyFinished_status _ _).1)
  | _ => exact ⟨hnew, fun h => by cases h⟩

/-- The outcome of a reconnect of a session whose `create` has failed. -/
theorem Moves.revives (h : op.Moves s foregroundFree now answer s' op')
    (hdial : op.endsDial = true) (hfailed : s.runtime.info.status = .failed)
    (hclosedAt : s.runtime.info.closedAt.isSome = true) : ¬s'.runtime.info.Marked := by
  have hclosed : s.runtime.info.status ≠ .closed := fun h => by cases hfailed.symm.trans h
  cases h with
  | reconnected | reconnectFailed =>
      rw [Shared.writeOpenInfo_info hclosed]
      simp [SessionInfo.Marked, SessionInfo.reconnected, SessionInfo.reconnectFailed, hfailed,
        hclosedAt, SessionStatus.hasEnded]
  | _ => cases hdial

end Op

/-- What holds of a session whose operations are executed one after the other. -/
structure Lifecycle.Sane (s : Lifecycle) : Prop where
  marked : s.shared.Marked
  fits : ∀ op ∈ s.ops, op.Fits s.shared
  alone : s.ops.countP (fun op => !op.isTask) ≤ 1
  creating : s.shared.runtime.info.status = .connecting → ∃ op ∈ s.ops, op.creates = true

namespace Lifecycle

variable {s s' : Lifecycle}

/-- The session as far as its invariant reads it. -/
theorem Sane.of_same (h : s.Sane) (hinfo : s'.shared.runtime.info = s.shared.runtime.info)
    (hslot : s'.shared.runtime.connection = s.shared.runtime.connection) (hops : s'.ops = s.ops) :
    s'.Sane where
  marked := ⟨hinfo ▸ h.marked.info, hinfo ▸ hslot ▸ h.marked.slot⟩
  fits op hop := by
    have hfits := h.fits op (hops ▸ hop)
    exact ⟨hinfo ▸ hfits.status, hslot ▸ hfits.slot⟩
  alone := hops ▸ h.alone
  creating := hinfo ▸ hops ▸ h.creating

theorem sane_created (storage : Storage) (id targetId targetName purpose clientName : String)
    (reconnectAttempts : Nat) (now : Now) :
    (created storage (.created id targetId targetName purpose clientName now) reconnectAttempts
      now).Sane where
  marked := ⟨rfl, fun h => by cases h⟩
  fits op hop := by
    rw [List.mem_singleton.mp hop]
    exact ⟨rfl, fun _ => rfl⟩
  alone := Nat.le_refl 1
  creating _ := ⟨.createDial, List.mem_singleton_self _, rfl⟩

/-- A request that reaches the session when no other operation is under way. -/
theorem Sane.call (h : s.Sane) (hturn : s.ops.all Op.isTask = true) (call : Call) :
    Sane { s with ops := s.ops ++ [call.op] } := by
  have htasks := List.all_eq_true.mp hturn
  have hold : s.shared.runtime.info.status ≠ .connecting := by
    intro hnew
    obtain ⟨op, hop, hcreates⟩ := h.creating hnew
    have htask := htasks op hop
    cases op with
    | createDial | createStore _ | createReady _ | createFailed _ => cases htask
    | _ => cases hcreates
  have hfits : call.op.Fits s.shared := by
    cases call with
    | startExec command background | shellOpen | file | shellClose | close =>
        exact ⟨bne_iff_ne.mpr hold, fun h => by cases h⟩
  constructor
  · exact h.marked
  · intro op hop
    cases List.mem_append.mp hop with
    | inl hmem => exact h.fits op hmem
    | inr hmem => exact List.mem_singleton.mp hmem ▸ hfits
  · have hnone : s.ops.countP (fun op => !op.isTask) = 0 :=
      List.countP_eq_zero.mpr fun op hop => by simp [htasks op hop]
    have hcall : [call.op].countP (fun op => !op.isTask) ≤ 1 := List.countP_le_length
    rw [List.countP_append, hnone]
    omega
  · exact fun hnew => absurd hnew hold

/-- One operation takes a step, and it is no reconnect of a failed session. -/
theorem Sane.advance (h : s.Sane) {i : Nat} {answer : Answer} {now : Now}
    (hstep : s.step (.advance i answer now) = some s')
    (hdial : ∀ op ∈ s.ops[i]?, op.endsDial = true → s.shared.runtime.info.status ≠ .failed) :
    s'.Sane := by
  obtain ⟨op, op', others, hop, hbefore, hafter, hown⟩ := step_own hstep
  have hmoves := Op.moves_of_step hown
  have hmem : op ∈ s.ops := List.mem_of_getElem? hop
  obtain ⟨hmarked, hfits'⟩ := Op.marked_of_step hown (h.fits op hmem) h.marked (hdial op hop)
  have halone : (op :: others).countP (fun op => !op.isTask) ≤ 1 :=
    hbefore.countP_eq _ ▸ h.alone
  rw [List.countP_cons] at halone
  constructor
  · exact hmarked
  · intro x hx
    cases List.mem_cons.mp (hafter.mem_iff.mp hx) with
    | inl hsame => exact hsame ▸ hfits'
    | inr hmem' =>
        have hx : x ∈ s.ops := hbefore.mem_iff.mpr (List.mem_cons_of_mem _ hmem')
        refine hmoves.fits_others (h.fits op hmem) (h.fits x hx) ?_ (hdial op hop)
        cases hop : op.isTask with
        | true => exact .inl rfl
        | false =>
            simp only [hop, Bool.not_false, if_true] at halone
            have hnone : others.countP (fun op => !op.isTask) = 0 := by omega
            have := List.countP_eq_zero.mp hnone x hmem'
            exact .inr (by simpa using this)
  · rw [hafter.countP_eq, List.countP_cons]
    cases hop : op.isTask with
    | true =>
        simp only [hmoves.isTask hop, Bool.not_true, Bool.false_eq_true, if_false]
        simp only [hop, Bool.not_true, Bool.false_eq_true, if_false] at halone
        exact halone
    | false =>
        simp only [hop, Bool.not_false, if_true] at halone
        have hone : (if (!op'.isTask) = true then 1 else 0) ≤ 1 := by split <;> omega
        omega
  · intro hnew
    obtain ⟨hold, hcreates⟩ := hmoves.creates (h.fits op hmem) hnew
    obtain ⟨x, hx, hxcreates⟩ := h.creating hold
    cases List.mem_cons.mp (hbefore.mem_iff.mp hx) with
    | inl hsame =>
        exact ⟨op', hafter.mem_iff.mpr List.mem_cons_self, hcreates (hsame ▸ hxcreates)⟩
    | inr hmem' => exact ⟨x, hafter.mem_iff.mpr (List.mem_cons_of_mem _ hmem'), hxcreates⟩

end Lifecycle

namespace Daemon

/-- A request comes when no other operation of its session is under way. -/
def inTurn (d : Daemon) : DaemonStep → Bool
  | .session k (.session (.call _)) => d.sessions[k]?.all fun s => s.session.ops.all Op.isTask
  | move => move.buildsRecord

/-- No outcome of a reconnect is written to a session whose `create` has failed. -/
def LeavesFailed (d : Daemon) : DaemonStep → Prop
  | .session k (.session (.advance i _ _)) => ∀ s ∈ d.sessions[k]?, ∀ op ∈ s.session.ops[i]?,
      op.endsDial = true → s.info.status ≠ .failed
  | _ => True

def Sane (d : Daemon) : Prop := ∀ s ∈ d.sessions, s.session.Sane

variable {d d' : Daemon}

theorem Sane.set (h : d.Sane) {k : Nat} {s : Cancellable}
    (hsessions : d'.sessions = d.sessions.set k s) (hs : s.session.Sane) : d'.Sane := by
  intro x hx
  rw [hsessions] at hx
  cases List.mem_or_eq_of_mem_set hx with
  | inl hmem => exact h x hmem
  | inr hsame => exact hsame ▸ hs

/-- The store and the identifiers that a session sees are not read by its invariant. -/
theorem Sane.within (h : d.Sane) {k : Nat} {s : Cancellable} (hs : d.sessions[k]? = some s) :
    (d.within s).session.Sane :=
  (h s (List.mem_of_getElem? hs)).of_same rfl rfl rfl

theorem Sane.step (h : d.Sane) {move : DaemonStep} (hturn : d.inTurn move = true)
    (hleaves : d.LeavesFailed move) (hstep : d.step move = some d') : d'.Sane := by
  cases turns_of_step hstep with
  | kept hsessions =>
      intro s hs
      exact h s (hsessions ▸ hs)
  | crashed hsessions =>
      intro s hs
      rw [hsessions] at hs
      cases hs
  | @created info attempts now hnew hused hsessions =>
      intro s hs
      rw [hsessions] at hs
      cases List.mem_append.mp hs with
      | inl hmem => exact h s hmem
      | inr hmem =>
          rw [List.mem_singleton.mp hmem]
          have hrecord : DaemonStep.buildsRecord (.create info attempts now) = true := hturn
          rw [DaemonStep.buildsRecord, beq_iff_eq] at hrecord
          rw [hrecord]
          exact Lifecycle.sane_created ..
  | called hs hsessions hcall =>
      rename_i k call s s'
      refine h.set hsessions ?_
      have htasks : s.session.ops.all Op.isTask = true := by simpa [inTurn, hs] using hturn
      rw [← Option.some.inj hcall]
      exact (h.within hs).call htasks call
  | touched hs hsessions hinfo hslot hops =>
      exact h.set hsessions ((h _ (List.mem_of_getElem? hs)).of_same hinfo hslot hops)
  | advanced hs hop hsessions hmove hown =>
      rename_i k i answer now s s' op
      refine h.set hsessions ((h.within hs).advance hown ?_)
      intro x hx hdial
      have hx : s.session.ops[i]? = some x := hx
      cases hop.symm.trans hx
      cases hmove with
      | inl hmove =>
          subst hmove
          exact hleaves s hs op hop hdial
      | inr hrun =>
          cases op with
          | runExec command background => cases hdial
          | _ => cases hrun

/-- Every session of the daemon is marked. -/
def Marked (d : Daemon) : Prop := ∀ s ∈ d.sessions, s.info.Marked

theorem Sane.marks (h : d.Sane) : d.Marked := fun s hs => (h s hs).marked.info

/-- After a step the sessions are marked only if it has left the failed ones alone. -/
theorem Sane.leavesFailed (h : d.Sane) {move : DaemonStep} (hstep : d.step move = some d')
    (hmarked : d'.Marked) : d.LeavesFailed move := by
  cases move with
  | session k move =>
      cases move with
      | session move =>
          cases move with
          | advance i answer now =>
              intro s hs op hop hdial hfailed
              obtain ⟨x, s', y, op', hx, hy, hsessions, -, hown⟩ := session_advance hstep
              cases hs.symm.trans hx
              cases hop.symm.trans hy
              have hlt := (List.getElem?_eq_some_iff.mp hs).1
              have hmem : s' ∈ d'.sessions := by
                rw [hsessions]
                exact List.mem_set hlt s'
              have hmarks : s.info.Marked := (h s (List.mem_of_getElem? hs)).marked.info
              have hclosedAt : s.info.closedAt.isSome = true :=
                hmarks.trans (congrArg SessionStatus.hasEnded hfailed)
              exact (Op.moves_of_step hown).revives hdial hfailed hclosedAt (hmarked s' hmem)
          | call _ | die _ => trivial
      | cancel _ | look _ => trivial
  | _ => trivial

end Daemon

namespace Reaping

/-- The step of the daemon that a step asks for. The reaper closes a session by a request of
its own. -/
def request (s : Reaping) : ReapingStep → Option DaemonStep
  | .daemon move => some move
  | .reapIdle _ retentionDays now => some (.cleanup retentionDays now.utc)
  | .lookBackground => some (.session s.session (.session (.call .close)))
  | _ => none

def inTurn (s : Reaping) (move : ReapingStep) : Bool := (s.request move).all s.daemon.inTurn

def LeavesFailed (s : Reaping) (move : ReapingStep) : Prop :=
  ∀ move' ∈ s.request move, s.daemon.LeavesFailed move'

/-- The operations on a session are executed one after the other. -/
def sequential : Machine Reaping ReapingStep := machine.guard inTurn

variable {s t : Reaping} {move : ReapingStep}

theorem stepDaemon_daemon {move : DaemonStep} (h : s.stepDaemon move = some t) :
    s.daemon.step move = some t.daemon := by
  rw [stepDaemon] at h
  split at h
  · cases h
  · obtain ⟨d, hstep, rfl⟩ := Option.map_eq_some_iff.mp h
    rw [hstep]
    split <;> rfl

/-- What a step is for the daemon. -/
theorem request_of_step (h : s.step move = some t) :
    t.daemon = s.daemon ∨ ∃ move', s.request move = some move' ∧
      s.daemon.step move' = some t.daemon := by
  cases move with
  | daemon move => exact .inr ⟨move, rfl, stepDaemon_daemon h⟩
  | reapIdle idleTimeoutSeconds retentionDays now =>
      simp only [step] at h
      split at h
      · obtain ⟨d, hstep, rfl⟩ := Option.map_eq_some_iff.mp h
        exact .inr ⟨_, rfl, hstep⟩
      · cases h
  | lookBackground =>
      simp only [step] at h
      split at h
      · split at h
        · obtain ⟨d, hstep, rfl⟩ := Option.map_eq_some_iff.mp h
          exact .inr ⟨_, rfl, hstep⟩
        · cases h
          exact .inl rfl
      · cases h
  | readActivity k now | lookForeground | reaped | finished =>
      simp only [step] at h
      repeat' split at h
      all_goals cases h
      all_goals exact .inl rfl

/-- A property of the daemon that its steps keep under `C`, and that only such a step can
lead to, holds along a run exactly when all the steps meet `C`. -/
theorem meets_iff_of_daemon {p : Reaping → ReapingStep → Bool} {P R : Daemon → Prop}
    {C : Daemon → DaemonStep → Prop} (hR : ∀ d, P d → R d)
    (hkeep : ∀ s move d, P s.daemon → p s move = true → ∀ move' ∈ s.request move,
      C s.daemon move' → s.daemon.step move' = some d → P d)
    (hneed : ∀ d move d', P d → d.step move = some d' → R d' → C d move)
    (hquiet : ∀ d k call, C d (.session k (.session (.call call))))
    (hcleanup : ∀ d retentionDays now, C d (.cleanup retentionDays now))
    (hs : P s.daemon) {moves : List ReapingStep}
    (hrun : (machine.guard p).run s moves = some t) :
    (machine.guard p).Meets (fun s _ => R s.daemon) s moves ∧ R t.daemon ↔
      (machine.guard p).Meets (fun s move => ∀ move' ∈ s.request move, C s.daemon move')
        s moves := by
  have hiff := @Machine.meets_iff_of_keeps _ _ (machine.guard p) (fun s => P s.daemon)
    (fun s => R s.daemon) (fun _ _ => True)
    (fun s move => ∀ move' ∈ s.request move, C s.daemon move') (fun s h => hR _ h) ?_ ?_ s t moves
    hs hrun
  · simpa only [and_true] using hiff
  · intro s move t h hC hstep
    obtain ⟨hp, hstep⟩ := machine.guard_step hstep
    refine ⟨?_, trivial⟩
    cases request_of_step hstep with
    | inl hsame => exact hsame ▸ h
    | inr hmoved =>
        obtain ⟨move', hrequest, hstep'⟩ := hmoved
        exact hkeep s move _ h hp move' hrequest (hC move' hrequest) hstep'
  · intro s move t h hstep hmarked move' hrequest
    obtain ⟨-, hstep⟩ := machine.guard_step hstep
    cases move with
    | daemon move =>
        cases hrequest
        exact hneed _ _ _ h (stepDaemon_daemon hstep) hmarked
    | lookBackground =>
        cases hrequest
        exact hquiet _ _ _
    | reapIdle _ _ _ =>
        cases hrequest
        exact hcleanup _ _ _
    | readActivity _ _ | lookForeground | reaped | finished => cases hrequest

/-- In every state of a run `closed_at` is set exactly in the sessions that report Closed or
Failed, when and only when no reconnect of a failed session is written. -/
theorem closed_at_marks_ended_iff {db : Database} {moves : List ReapingStep}
    (hrun : sequential.run (initial db) moves = some t) :
    sequential.Meets (fun s _ => s.daemon.Marked) (initial db) moves ∧ t.daemon.Marked ↔
      sequential.Meets LeavesFailed (initial db) moves := by
  refine meets_iff_of_daemon (P := Daemon.Sane) (R := Daemon.Marked) (C := Daemon.LeavesFailed)
    (fun d h => h.marks) ?_ (fun d move d' h hstep hmarked => h.leavesFailed hstep hmarked)
    (fun _ _ _ => trivial) (fun _ _ _ => trivial) (fun s hs => by cases hs) hrun
  intro s move d h hturn move' hrequest hleaves hstep
  refine h.step ?_ hleaves hstep
  rw [inTurn, hrequest] at hturn
  exact hturn

/-- A session is connected and closed. -/
theorem closed_at_marks_ended_iff_closed : ∃ moves t,
    sequential.run (initial .empty) moves = some t ∧ t.endings.1 = [(.closed, some 4)] ∧
      (sequential.Meets (fun s _ => s.daemon.Marked) (initial .empty) moves ∧ t.daemon.Marked ↔
        sequential.Meets LeavesFailed (initial .empty) moves) := by
  let moves : List ReapingStep := connectedSteps ++
    .daemon (.session 0 (.session (.call .close))) :: advances 1 5 ⟨4, 4⟩
  have hall : ((sequential.run (initial .empty) moves).any fun t =>
      decide (t.endings.1 = [(.closed, some 4)])) = true := by decide
  obtain ⟨t, hrun, ht⟩ := (Option.any_eq_true _ _).mp hall
  exact ⟨moves, t, hrun, of_decide_eq_true ht, closed_at_marks_ended_iff hrun⟩

/-- The dial of `create` fails, and the dial of the exec that follows does not. -/
def revivedSteps : List ReapingStep :=
  connectedSteps.take 4 ++
    [.daemon (.session 0 (.session (.advance 0 (.failed sessionBusy) ⟨1, 1⟩))),
      .daemon (.session 0 (.session (.advance 0 .ok ⟨2, 2⟩))),
      .daemon (.session 0 (.session (.call (.startExec "ls" false))))] ++
    advances 1 3 ⟨3, 3⟩ ++
    [.daemon (.session 0 (.session (.advance 1 (.connected ⟨"c", "f"⟩) ⟨4, 4⟩))),
      .daemon (.session 0 (.session (.advance 1 .ok ⟨5, 5⟩)))]

/-- A session is ready and carries the time at which it failed. -/
theorem failed_create_is_revived : ∃ t,
    sequential.run (initial .empty) revivedSteps = some t ∧ t.endings.1 = [(.ready, some 2)] ∧
      ¬t.daemon.Marked := by
  have hall : ((sequential.run (initial .empty) revivedSteps).any fun t =>
      decide (t.endings.1 = [(.ready, some 2)]) &&
        t.daemon.sessions.any fun s => s.info.closedAt.isSome != s.info.status.hasEnded) =
      true := by
    decide
  obtain ⟨t, hrun, ht⟩ := (Option.any_eq_true _ _).mp hall
  obtain ⟨hendings, hmarks⟩ := Bool.and_eq_true_iff.mp ht
  refine ⟨t, hrun, of_decide_eq_true hendings, fun hmarked => ?_⟩
  obtain ⟨s, hs, hne⟩ := List.any_eq_true.mp hmarks
  exact bne_iff_ne.mp hne (hmarked s hs)

end Reaping

end AiSsh
