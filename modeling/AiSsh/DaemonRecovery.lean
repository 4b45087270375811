import AiSsh.RunningCommands

/-!
Recovery and the running commands. Recovery marks the sessions that the last daemon left
unfinished and leaves the command rows as they are: a row that was running when the daemon
went down is still running when the next one serves.
-/

namespace AiSsh

open Library

def Foreground.isExec : Foreground → Bool
  | .exec _ => true
  | .pty _ => false

/-- The look of `command_cancel` that is to find the exec. -/
def CancelOp.finding (id : String) (background : Bool) : CancelOp :=
  if background then .background id else .foreground id

/-- The exec is told to stop, or is where `command_cancel` looks for it. -/
def Shared.Finds (s : Shared) (id : String) (background : Bool) : Prop :=
  id ∈ s.cancelled ∨
    if background then id ∈ s.runtime.background else s.runtime.foreground = some (.exec id)

theorem Shared.Finds.cancel {s : Shared} {id : String} {background : Bool}
    (h : s.Finds id background) : id ∈ s.cancelled ∨
      (CancelOp.finding id background).step s true = some (s.cancel id, .returned) := by
  cases h with
  | inl hcancelled => exact .inl hcancelled
  | inr hplace =>
      right
      cases background with
      | false =>
          have hplace : s.runtime.foreground = some (.exec id) := hplace
          simp [CancelOp.finding, CancelOp.step, hplace]
      | true =>
          have hplace : id ∈ s.runtime.background := hplace
          simp [CancelOp.finding, CancelOp.step, hplace]

theorem Shared.Finds.mono {s s' : Shared} {id : String} {background : Bool}
    (h : s.Finds id background) (hcancelled : ∀ id ∈ s.cancelled, id ∈ s'.cancelled)
    (hforeground : s'.runtime.foreground = s.runtime.foreground)
    (hbackground : s'.runtime.background = s.runtime.background) : s'.Finds id background := by
  cases h with
  | inl h => exact .inl (hcancelled id h)
  | inr h =>
      right
      rw [hforeground, hbackground]
      exact h

namespace Op

variable {s s' : Shared} {foregroundFree connectionFree : Bool} {answer : Answer} {now : Now}
  {op op' : Op} {id : String} {background : Bool}

/-- Where `command_cancel` is to find an exec: the identifier and whether it runs in the
background. -/
def entry : Op → Option (String × Bool)
  | .startedExec command => some (command.id, false)
  | .runExec command background => some (command.id, background)
  | _ => none

theorem commandId_of_entry (h : op.entry = some (id, background)) : op.commandId = some id := by
  cases op with
  | startedExec command | runExec command foreground =>
      cases h
      rfl
  | _ => cases h

theorem writeOpenInfo_same (s : Shared) (info : SessionInfo) (stored : Bool) :
    (s.writeOpenInfo info stored).cancelled = s.cancelled ∧
      (s.writeOpenInfo info stored).runtime.background = s.runtime.background := by
  rw [Shared.writeOpenInfo]
  split
  · exact ⟨rfl, rfl⟩
  · exact ⟨rfl, rfl⟩

/-- `close` cancels the exec that it takes out of the slot. -/
theorem finds_closeForeground (h : s.Finds id background)
    (hstep : closeForeground.step s foregroundFree connectionFree answer now = some (s', op')) :
    s'.Finds id background := by
  simp only [step, stepClose] at hstep
  split at hstep
  · split at hstep
    · cases hstep
      exact h
    · rename_i other hslot
      cases hstep
      cases h with
      | inl h => exact .inl (List.mem_cons_of_mem _ h)
      | inr h =>
          cases background with
          | false =>
              have h : s.runtime.foreground = some (.exec id) := h
              cases hslot.symm.trans h
              exact .inl List.mem_cons_self
          | true => exact .inr h
    · rename_i other hslot
      cases hstep
      cases h with
      | inl h => exact .inl h
      | inr h =>
          cases background with
          | false => cases hslot.symm.trans h
          | true => exact .inr h
  · cases hstep

/-- A step of another operation leaves an exec where `command_cancel` looks for it. -/
theorem finds_step (h : s.Finds id background)
    (hstep : op.step s foregroundFree connectionFree answer now = some (s', op'))
    (hreserved : op.reserves = true → s.runtime.foreground = none)
    (hclose : op = .shellClose → s.runtime.foreground ≠ some (.exec id))
    (hother : op.commandId ≠ some id) : s'.Finds id background := by
  have hmoves := moves_of_step hstep
  cases hmoves with
  | reconnected | reconnectFailed =>
      exact h.mono (by simp [writeOpenInfo_same]) (by simp) (by simp [writeOpenInfo_same])
  | execFinished | ptyFinished =>
      exact h.mono (by simp [Shared.wake, writeOpenInfo_same]) (by simp [Shared.wake])
        (by simp [Shared.wake, writeOpenInfo_same])
  | foregroundEmpty | execCancelled | ptyTaken => exact finds_closeForeground h hstep
  | installedBackground =>
      cases h with
      | inl h => exact .inl h
      | inr h =>
          cases background with
          | false => exact .inr h
          | true => exact .inr (List.mem_append_left _ h)
  | installedExec | installedPty =>
      cases h with
      | inl h => exact .inl h
      | inr h =>
          cases background with
          | false => cases (hreserved rfl).symm.trans h
          | true => exact .inr h
  | backgroundLeft =>
      cases h with
      | inl h => exact .inl h
      | inr h =>
          cases background with
          | false => exact .inr h
          | true =>
              have hne : id ≠ _ := fun hsame => hother (congrArg some hsame.symm)
              exact .inr (List.mem_filter.mpr ⟨h, by simpa using hne⟩)
  | execReleased free own =>
      cases h with
      | inl h => exact .inl h
      | inr h =>
          cases background with
          | false =>
              cases own.symm.trans h
              exact absurd rfl hother
          | true => exact .inr h
  | ptyReleased free own | shellTaken free own =>
      cases h with
      | inl h => exact .inl h
      | inr h =>
          cases background with
          | false => cases own.symm.trans h
          | true => exact .inr h
  | shellNotOpen =>
      cases h with
      | inl h => exact .inl h
      | inr h =>
          cases background with
          | false => exact absurd h (hclose rfl)
          | true => exact .inr h
  | backgroundCancelled =>
      cases h with
      | inl h => exact .inl (List.mem_append_right _ h)
      | inr h =>
          cases background with
          | false => exact .inr h
          | true => exact .inl (List.mem_append_left _ h)
  | _ => exact h

/-- An exec is where `command_cancel` looks for it from its start on. -/
theorem finds_own
    (hstep : op.step s foregroundFree connectionFree answer now = some (s', op'))
    (hentry : op'.entry = some (id, background))
    (hown : ∀ background, op.entry = some (id, background) → s.Finds id background) :
    s'.Finds id background := by
  have hmoves := moves_of_step hstep
  cases hmoves with
  | installedBackground =>
      cases hentry
      exact .inr (List.mem_append_right _ List.mem_cons_self)
  | installedExec =>
      cases hentry
      exact .inr rfl
  | startedExec =>
      cases hentry
      exact hown false rfl
  | execEnded | execDiscarded =>
      simp only [execNext] at hentry
      split at hentry
      · cases hentry
      · cases hentry
  | _ => cases hentry

end Op

namespace Lifecycle

variable {s s' : Lifecycle} {move : LifecycleStep}

/-- Every exec under way is where `command_cancel` looks for it. -/
def Findable (s : Lifecycle) : Prop :=
  ∀ op ∈ s.ops, ∀ id background, op.entry = some (id, background) → s.shared.Finds id background

/-- A `shell_close` finds no exec in the slot. -/
def ClosesShell (s : Lifecycle) : LifecycleStep → Prop
  | .advance i _ _ => s.ops[i]? = some .shellClose → s.slot.any Foreground.isExec = false
  | _ => True

instance (s : Lifecycle) : DecidablePred s.ClosesShell
  | .advance i _ _ =>
      inferInstanceAs (Decidable (s.ops[i]? = some .shellClose →
        s.slot.any Foreground.isExec = false))
  | .call _ | .die _ => isTrue trivial

theorem Findable.step (h : s.Findable) (hlocked : s.Locked)
    (hdistinct : (s.ops.filterMap Op.commandId).Nodup) (hcloses : s.ClosesShell move)
    (hstep : s.step move = some s') : s'.Findable := by
  cases move with
  | call call =>
      cases hstep
      intro op hop id background hentry
      cases List.mem_append.mp hop with
      | inl hop => exact h op hop id background hentry
      | inr hop =>
          rw [List.mem_singleton.mp hop] at hentry
          cases call with
          | _ => cases hentry
  | die connection =>
      cases hstep
      exact fun op hop id background hentry => h op hop id background hentry
  | advance i answer now =>
      obtain ⟨op, op', others, hop, hbefore, hafter, hown⟩ := step_own hstep
      intro x hx id background hentry
      cases List.mem_cons.mp (hafter.mem_iff.mp hx) with
      | inl hx =>
          subst hx
          refine Op.finds_own hown hentry fun background hsame => ?_
          exact h op (List.mem_of_getElem? hop) id background hsame
      | inr hx =>
          have hx' : x ∈ s.ops := hbefore.mem_iff.mpr (List.mem_cons_of_mem _ hx)
          refine Op.finds_step (h x hx' id background hentry) hown ?_ ?_ ?_
          · exact hlocked.reserved op (List.mem_of_getElem? hop)
          · intro hclose hslot
            have hnone := hcloses (hclose ▸ hop)
            rw [slot, hslot] at hnone
            cases hnone
          · intro hid
            have hnames := (hbefore.filterMap Op.commandId).nodup_iff.mp hdistinct
            rw [List.filterMap_cons_some hid, List.nodup_cons] at hnames
            exact hnames.1 (List.mem_filterMap.mpr ⟨x, hx, Op.commandId_of_entry hentry⟩)

theorem created_findable (storage : Storage) (info : SessionInfo) (attempts : Nat) (now : Now) :
    Findable (created storage info attempts now) := by
  intro op hop id background hentry
  rw [List.mem_singleton.mp hop] at hentry
  cases hentry

end Lifecycle

namespace Daemon

variable {d d' : Daemon} {move : DaemonStep}

/-- The sessions keep their execs findable. -/
def Findable (d : Daemon) : Prop := ∀ s ∈ d.sessions, s.session.Locked ∧ s.session.Findable

theorem session_distinct (h : Tracked d.rows d.used d.ops) {s : Cancellable}
    (hs : s ∈ d.sessions) : (s.session.ops.filterMap Op.commandId).Nodup := by
  have hpart : s.session.ops.Sublist d.ops := by
    rw [ops, List.flatMap_def]
    exact List.sublist_flatten_of_mem (List.mem_map_of_mem hs)
  exact h.distinct.sublist (hpart.filterMap _)

/-- The `shell_close` calls find no exec in the slot. -/
def ClosesShells (d : Daemon) : DaemonStep → Prop
  | .session k (.session move) => ∀ s ∈ d.sessions[k]?, s.session.ClosesShell move
  | _ => True

instance (d : Daemon) : DecidablePred d.ClosesShells
  | .session k (.session move) =>
      inferInstanceAs (Decidable (∀ s ∈ d.sessions[k]?, s.session.ClosesShell move))
  | .session _ (.cancel _) | .session _ (.look _) | .start _ | .interruptUnfinished _
  | .cleanup _ _ | .crash | .create _ _ _ | .finaliseUnstored _ _ _ _ | .record _ _ _ _ _ =>
      isTrue trivial

theorem findable_set {k : Nat} {s' : Cancellable} (h : d.Findable)
    (hsessions : d'.sessions = d.sessions.set k s')
    (hsession : s'.session.Locked ∧ s'.session.Findable) : d'.Findable := by
  intro x hx
  rw [hsessions] at hx
  cases List.mem_or_eq_of_mem_set hx with
  | inl hx => exact h x hx
  | inr hx => exact hx ▸ hsession

theorem findable_session {k : Nat} {s s' : Cancellable} {move : CancellableStep}
    (h : d.Findable) (htracked : Tracked d.rows d.used d.ops) (hs : d.sessions[k]? = some s)
    (hcloses : ∀ move', move = .session move' → s.session.ClosesShell move')
    (hstep : (d.within s).step move = some s') : s'.session.Locked ∧ s'.session.Findable := by
  have hmem := List.mem_of_getElem? hs
  obtain ⟨hlocked, hfindable⟩ := h s hmem
  have hlocked : (d.within s).session.Locked := ⟨hlocked.exclusive, hlocked.reserved⟩
  have hfindable : (d.within s).session.Findable := hfindable
  cases move with
  | cancel id =>
      cases hstep
      exact ⟨hlocked, hfindable⟩
  | look j =>
      obtain ⟨cancelled, hmore, hsession⟩ := Cancellable.look_session hstep
      rw [hsession]
      refine ⟨⟨hlocked.exclusive, hlocked.reserved⟩, fun op hop id background hentry => ?_⟩
      exact (hfindable op hop id background hentry).mono hmore rfl rfl
  | session move =>
      obtain ⟨session, hsession, rfl⟩ := Option.map_eq_some_iff.mp hstep
      exact ⟨hlocked.step hsession,
        hfindable.step hlocked (session_distinct htracked (s := s) hmem) (hcloses move rfl)
          hsession⟩

theorem Findable.step (h : d.Findable) (htracked : Tracked d.rows d.used d.ops)
    (hcloses : d.ClosesShells move) (hstep : d.step move = some d') : d'.Findable := by
  cases move with
  | start recordingLimitMib | interruptUnfinished now | cleanup retentionDays now =>
      simp only [Daemon.step] at hstep
      split at hstep
      · cases hstep
        exact h
      · cases hstep
  | crash =>
      cases hstep
      intro _ hlost
      cases hlost
  | create info reconnectAttempts now =>
      simp only [Daemon.step] at hstep
      split at hstep
      · cases hstep
        intro x hx
        cases List.mem_append.mp hx with
        | inl hx => exact h x hx
        | inr hx =>
            rw [List.mem_singleton.mp hx]
            exact ⟨Lifecycle.created_locked _ _ _ _, Lifecycle.created_findable _ _ _ _⟩
      · cases hstep
  | session k move =>
      simp only [Daemon.step] at hstep
      split at hstep
      · rename_i s hs
        obtain ⟨s', hsession, rfl⟩ := Option.map_eq_some_iff.mp hstep
        refine findable_set h rfl (findable_session h htracked hs ?_ hsession)
        rintro move' rfl
        exact hcloses s hs
      · cases hstep
  | finaliseUnstored k i answer now =>
      simp only [Daemon.step] at hstep
      split at hstep
      · rename_i s hs
        split at hstep
        · rename_i htask
          obtain ⟨s', hsession, rfl⟩ := Option.map_eq_some_iff.mp hstep
          refine findable_set h rfl (findable_session h htracked hs ?_ hsession)
          rintro move' hmove
          cases hmove
          intro hclose
          rw [hclose] at htask
          cases htask
        · cases hstep
      · cases hstep
  | record k commandId stream payload now =>
      simp only [Daemon.step] at hstep
      split at hstep
      · rename_i s hs
        cases hstep
        obtain ⟨hlocked, hfindable⟩ := h s (List.mem_of_getElem? hs)
        have hsame := record_runtime d.storage s.session.shared.runtime commandId stream payload now
        refine findable_set h rfl ⟨⟨hlocked.exclusive, ?_⟩, ?_⟩
        · intro op hop hreserves
          exact hsame.foreground.trans (hlocked.reserved op hop hreserves)
        · intro op hop id background hentry
          exact (hfindable op hop id background hentry).mono (fun _ h => h) hsame.foreground
            hsame.background
      · cases hstep

end Daemon

namespace Op

/-- The last step of a `start_exec` in the foreground, after its row is inserted. -/
def isStartedExec : Op → Bool
  | .startedExec _ => true
  | _ => false

end Op

namespace Daemon

variable {d d' : Daemon} {move : DaemonStep}

/-- No step leaves a running row without its task: a start of the daemon finds running rows
only in sessions that it deletes, a `start_exec` writes its session's row, and a task that
ends writes its own. -/
def KeepsTasks (d : Daemon) : DaemonStep → Prop
  | .cleanup retentionDays now => d.stage = .recovered → ∀ row ∈ d.rows, row.status = .running →
      d.storage.expires (now - retentionDays * Storage.day) row.sessionId = true
  | .session k (.session (.advance i answer _)) =>
      ∀ s ∈ d.sessions[k]?, ∀ op ∈ s.session.ops[i]?, op.isStartedExec = true → answer = .ok
  | .finaliseUnstored k i _ _ =>
      ∀ s ∈ d.sessions[k]?, ∀ op ∈ s.session.ops[i]?, ∀ row ∈ d.rows, op.task ≠ some row.id
  | _ => True

instance (d : Daemon) : DecidablePred d.KeepsTasks
  | .cleanup retentionDays now => inferInstanceAs (Decidable (d.stage = .recovered →
      ∀ row ∈ d.rows, row.status = .running →
        d.storage.expires (now - retentionDays * Storage.day) row.sessionId = true))
  | .session k (.session (.advance i answer _)) => inferInstanceAs (Decidable
      (∀ s ∈ d.sessions[k]?, ∀ op ∈ s.session.ops[i]?, op.isStartedExec = true → answer = .ok))
  | .finaliseUnstored k i _ _ => inferInstanceAs (Decidable
      (∀ s ∈ d.sessions[k]?, ∀ op ∈ s.session.ops[i]?, ∀ row ∈ d.rows, op.task ≠ some row.id))
  | .session _ (.session (.call _)) | .session _ (.session (.die _)) | .session _ (.cancel _)
  | .session _ (.look _) | .start _ | .interruptUnfinished _ | .crash | .create _ _ _
  | .record _ _ _ _ _ => isTrue trivial

/-- No step leaves a running row without its task, or its task where `command_cancel` does not
look for it. -/
def Covered (d : Daemon) (move : DaemonStep) : Prop := d.KeepsTasks move ∧ d.ClosesShells move

instance (d : Daemon) : DecidablePred d.Covered :=
  fun move => inferInstanceAs (Decidable (d.KeepsTasks move ∧ d.ClosesShells move))

/-- A daemon over an empty database whose only session runs an exec. -/
def execRunning : List DaemonStep :=
  [.start 1, .interruptUnfinished 0, .cleanup 30 0,
    .create (.created "s" "t" "t" "p" "m" ⟨0, 0⟩) 1 ⟨0, 0⟩,
    .session 0 (.session (.advance 0 (.connected ⟨"c", "f"⟩) ⟨1, 1⟩)),
    .session 0 (.session (.advance 0 .ok ⟨2, 2⟩)), .session 0 (.session (.advance 0 .ok ⟨3, 3⟩)),
    .session 0 (.session (.call (.startExec "ls" false))),
    .session 0 (.session (.advance 1 .ok ⟨4, 4⟩)), .session 0 (.session (.advance 1 .ok ⟨5, 5⟩)),
    .session 0 (.session (.advance 1 (.opened "e") ⟨6, 6⟩)),
    .session 0 (.session (.advance 1 .ok ⟨7, 7⟩)), .session 0 (.session (.advance 1 .ok ⟨8, 8⟩))]

end Daemon
end AiSsh
