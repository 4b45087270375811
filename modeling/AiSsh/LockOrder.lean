import AiSsh.ManagerLocks

/-!
No interleaving of the manager's work ends in a deadlock. Every lock is asked for above the
locks that are held, so from each task that waits for a lock the waiting leads to one that can
move; and a plain mutex is only ever waited for until its holder, who asks for nothing meanwhile,
gives it back.
-/

namespace AiSsh

open Library Library.LockProgram

namespace ManagerLocks

open ManagerLock

variable {held : List (Guard ManagerLock)} {id : String}

/-- The guards that are out allow a lock of this rank. -/
abbrev Under (rank : Nat) (held : List (Guard ManagerLock)) : Prop := Below discipline rank held

abbrev Fits (held : List (Guard ManagerLock)) {α : Type} (p : Work α) : Prop :=
  Balanced discipline held p

/-- A task that holds nothing. -/
theorem nothing : Under 0 [] := .nil

theorem fits_set {lock : ManagerLock} (h : Under lock.rank held) : Fits held (set lock) :=
  .touch h

theorem fits_get {lock : ManagerLock} (h : Under lock.rank held) : Fits held (get lock) :=
  .touch h

theorem fits_store (h : Under 3 held) : Fits held store :=
  .bind (fits_set h) fun _ => .orFail h

theorem under_info (h : Under 2 held) (mode : LockMode) : Under 3 ((info id, mode) :: held) :=
  Below.cons (info id) h rfl

theorem fits_storeInfo (h : Under 2 held) : Fits held (storeInfo id) :=
  .holding h rfl (fits_store (under_info h _))

theorem fits_updateInfo (h : Under 2 held) : Fits held (updateInfo id) :=
  .holding h rfl (.optional (under_info h _) (fits_set (under_info h _)))

theorem fits_secondsSinceOutput (h : Under 3 held) : Fits held (secondsSinceOutput id) :=
  .optional h (fits_set h)

theorem fits_record (h : Under 3 held) : Fits held (record id) := by
  refine .bind (fits_set h) fun _ => .bind (fits_set h) fun _ => ?_
  exact .bind (.optional h (fits_set h)) fun _ => fits_set h

theorem fits_runtime : Fits [] runtime :=
  .bind (fits_get .nil) fun _ => .orFail nothing

section Connection

theorem fits_dial (h : Under 2 held) (attempts : Nat) : Fits held (dial id attempts) := by
  induction attempts with
  | zero => exact .bind (fits_updateInfo h) fun _ => .fail _
  | succ attempts ih => exact .bind (.choose h) fun _ => .ite (fits_updateInfo h) ih

theorem fits_connectRuntime (h : Under 2 held) : Fits held (connectRuntime id) := by
  refine .bind (fits_get h) fun _ => .bind (.orFail h) fun _ => .bind (fits_get h) fun _ => ?_
  exact .bind (.orFail h) fun _ => .bind (.wait h) fun attempts => fits_dial h _

theorem fits_connectionFor (h : Under 2 held) : Fits held (connectionFor id) := by
  have hslot : Under 3 ((connection id, .exclusive) :: held) :=
    Below.cons (connection id) h rfl
  refine .bind (.holding h rfl (.choose hslot)) fun _ => .ite (.pure _) ?_
  exact .bind (fits_connectRuntime h) fun _ => fits_set h

theorem fits_openChannel (h : Under 2 held) : Fits held (openChannel id) := by
  refine .bind (fits_connectionFor h) fun _ => .bind (.choose h) fun _ => .ite (.pure _) ?_
  exact .bind (fits_set h) fun _ => .fail _

theorem fits_overSftp : Fits [] (overSftp id) := by
  refine .bind (.bind fits_runtime fun _ => ?_) fun _ => .orFail nothing
  exact fits_openChannel .nil

theorem fits_fileRead (useSudo : Bool) : Fits [] (fileRead id useSudo) := by
  refine .bind fits_runtime fun _ => .bind (fits_connectionFor .nil) fun _ => ?_
  exact .ite (.orFail nothing) fits_overSftp

theorem fits_fileWrite (useSudo : Bool) : Fits [] (fileWrite id useSudo) := by
  refine .bind fits_runtime fun _ => .bind (fits_connectionFor .nil) fun _ => ?_
  refine .bind (.choose nothing) fun _ => .ite (.pure _) ?_
  exact .ite (.orFail nothing) fits_overSftp

end Connection

section Foreground

/-- What runs under the foreground slot of a session. -/
theorem under_foreground (id : String) (mode : LockMode) : Under 2 [(foreground id, mode)] :=
  Below.cons (foreground id) .nil rfl

theorem fits_startExec (background : Bool) : Fits [] (startExec id background) := by
  have h := under_foreground id .exclusive
  refine .bind (.orFail nothing) fun _ => .bind fits_runtime fun _ => ?_
  refine .bind (.holding .nil rfl ?_) fun _ => .ite (.pure _) (fits_storeInfo .nil)
  refine .bind (.orFail h) fun _ => .bind (fits_openChannel h) fun _ => ?_
  exact .bind (fits_store (h.mono (Nat.le_succ _))) fun _ => .ite (fits_set h) (.pure _)

theorem fits_shellOpen : Fits [] (shellOpen id) := by
  have h := under_foreground id .exclusive
  refine .bind fits_runtime fun _ => .bind (.holding .nil rfl ?_) fun _ => ?_
  · exact .bind (.orFail h) fun _ => fits_openChannel h
  · exact .bind (fits_storeInfo .nil) fun _ => fits_get .nil

theorem fits_onPty {after : Work Unit} (hafter : Fits [(foreground id, .exclusive)] after) :
    Fits [] (onPty id after) := by
  have h := under_foreground id .exclusive
  refine .bind fits_runtime fun _ => .holding .nil rfl ?_
  exact .bind (.orFail h) fun _ => .bind (.orFail h) fun _ => hafter

theorem fits_shellWrite : Fits [] (shellWrite id) :=
  fits_onPty (fits_set ((under_foreground id .exclusive).mono (Nat.le_succ 2)))

theorem fits_close : Fits [] (close id) := by
  have hslot : Under 3 [(connection id, .exclusive)] := Below.cons (connection id) .nil rfl
  refine .bind fits_runtime fun _ => ?_
  refine .bind (.holding .nil rfl (.wait (under_foreground id _))) fun _ => ?_
  refine .bind (fits_set .nil) fun _ => .bind (.holding .nil rfl (.wait hslot)) fun _ => ?_
  exact fits_storeInfo .nil

end Foreground

section Tasks

theorem fits_runExec (background : Bool) : Fits [] (runExec id background) := by
  have h : Under 3 [] := .nil
  refine .bind (.wait h) fun events => .bind (.each (fun _ => ?_) _) fun _ => ?_
  · exact .optional h (fits_record h)
  · refine .bind (fits_set .nil) fun _ => .bind (fits_set .nil) fun _ => ?_
    refine .bind (fits_set .nil) fun _ => .bind (.optional h (fits_set .nil)) fun _ => ?_
    exact .ite (fits_set .nil) (.bind (fits_set .nil) fun _ => fits_updateInfo .nil)

theorem fits_runPty : Fits [] (runPty id) := by
  have h : Under 3 [] := .nil
  refine .bind (.wait h) fun chunks => .bind (.each (fun _ => ?_) _) fun _ => ?_
  · exact .bind (.wait h) fun _ => .bind (fits_set h) fun _ => fits_record h
  · refine .bind (.holding .nil rfl (.choose (under_foreground id _))) fun _ => ?_
    exact .bind (.ite (.pure _) (fits_set .nil)) fun _ => fits_updateInfo .nil

theorem fits_reapSession : Fits [] (reapSession id) := by
  have hslot : Under 3 [(background id, .exclusive)] := Below.cons (background id) .nil rfl
  refine .bind (fits_set .nil) fun _ => .bind (.choose nothing) fun _ => ?_
  refine .ite (.bind (.holding .nil rfl (.choose (under_foreground id _))) fun _ => ?_) (.pure _)
  refine .ite (.bind (.holding .nil rfl (.choose hslot)) fun _ => ?_) (.pure _)
  refine .ite (.bind (fits_get .nil) fun _ => ?_) (.pure _)
  exact fits_close.attempt fun _ => .pure _

theorem fits_reapIdle (active : List String) : Fits [] (reapIdle active) := by
  refine .bind (fits_get .nil) fun _ => .bind (fits_set .nil) fun _ => ?_
  exact .bind (fits_get .nil) fun _ => .each (fun _ => fits_reapSession) active

end Tasks

section Reading

theorem fits_pages {page : Work Unit} (hpage : Fits [] page) (wakes : Nat) :
    Fits [] (pages page wakes) := by
  refine .bind (.each (fun _ => .bind hpage fun _ => ?_) _) fun _ => hpage
  exact .bind (.wait nothing) fun _ => .pure _

theorem fits_readCommandPage : Fits [] (readCommandPage id) := by
  refine .bind (fits_store .nil) fun _ => .bind (fits_store .nil) fun _ => ?_
  exact .bind (fits_get .nil) fun _ => .optional nothing (fits_set .nil)

theorem fits_commandPoll : Fits [] (commandPoll id) := by
  refine .bind (fits_set .nil) fun _ => .bind (.optional nothing (fits_get .nil)) fun _ => ?_
  refine .bind (.wait nothing) fun wakes => ?_
  exact .bind (fits_pages fits_readCommandPage _) fun _ => fits_secondsSinceOutput .nil

theorem fits_readShellPage : Fits [] (readShellPage id) := by
  refine .bind (fits_get .nil) fun _ => .bind (fits_store .nil) fun _ => ?_
  refine .bind (.optional nothing (fits_set .nil)) fun _ => ?_
  refine .bind (fits_store .nil) fun _ => .bind (.wait nothing) fun ids => ?_
  exact .each (fun _ => fits_store .nil) _

theorem fits_shellRead : Fits [] (shellRead id) := by
  refine .bind (fits_get .nil) fun _ => ?_
  refine .bind (.optional nothing (.bind (fits_store .nil) fun _ => .orFail nothing)) fun _ => ?_
  refine .bind (.wait nothing) fun wakes => ?_
  exact .bind (fits_pages fits_readShellPage _) fun _ => fits_secondsSinceOutput .nil

/-- What runs with the map under a read guard. -/
theorem under_sessions (mode : LockMode) : Under 1 [(ManagerLock.sessions, mode)] :=
  Below.cons ManagerLock.sessions .nil rfl

theorem fits_cancelIn (active : List String) :
    Fits [(ManagerLock.sessions, .shared)] (cancelIn active) := by
  have h := under_sessions .shared
  induction active with
  | nil => exact .fail _
  | cons id rest ih =>
      have hforeground : Under 2 [(foreground id, .exclusive), (ManagerLock.sessions, .shared)] :=
        Below.cons (foreground id) h rfl
      have hbackground : Under 3 [(background id, .exclusive), (ManagerLock.sessions, .shared)] :=
        Below.cons (background id) (h.mono (Nat.le_succ _)) rfl
      refine .bind (.holding h rfl (.choose hforeground)) fun _ => .ite (.pure _) ?_
      refine .bind (.holding (h.mono (Nat.le_succ _)) rfl (.choose hbackground)) fun _ => ?_
      exact .ite (.pure _) ih

theorem fits_commandCancel (active : List String) : Fits [] (commandCancel active) :=
  .holding .nil rfl (fits_cancelIn active)

theorem fits_commands (active : List String) : Fits [] (commands active) := by
  have h := (under_sessions .shared).mono (Nat.le_add_right 1 2)
  refine .bind (fits_store .nil) fun _ => ?_
  exact .holding .nil rfl (.each (fun _ => fits_secondsSinceOutput h) active)

theorem fits_sessions (active : List String) (includeHistory : Bool) :
    Fits [] (sessions active includeHistory) := by
  have h : Under 2 [(ManagerLock.sessions, .shared)] :=
    (under_sessions .shared).mono (Nat.le_succ 1)
  have hinfo (id : String) : Fits [(ManagerLock.sessions, .shared)] (get (info id)) := fits_get h
  refine .bind (.holding .nil rfl (.each hinfo active)) fun _ => ?_
  exact .ite (fits_store .nil) (.pure _)

theorem fits_status : Fits [] (status id) := by
  refine .bind (fits_get .nil) fun _ => .bind (.choose nothing) fun _ => ?_
  exact .ite (fits_get .nil) (.bind (fits_store .nil) fun _ => .orFail nothing)

end Reading

theorem fits_create : Fits [] (create id) := by
  refine .bind (fits_get .nil) fun _ => .bind (.orFail nothing) fun _ => ?_
  refine .bind (fits_store .nil) fun _ => .bind (fits_set .nil) fun _ => ?_
  refine .bind (.choose nothing) fun _ => .ite ?_ ?_
  · exact .bind (fits_set .nil) fun _ => fits_storeInfo .nil
  · exact .bind (fits_storeInfo .nil) fun _ => .fail _

end ManagerLocks

namespace ManagerTask

open ManagerLocks ManagerLock

theorem fits_call (session : String) (active : List String) (method : ManagerCall) :
    Fits [] (method.work session active) := by
  cases method with
  | targets => exact fits_get .nil
  | sessions includeHistory => exact fits_sessions active includeHistory
  | create _ _ _ => exact fits_create
  | status id => exact fits_status
  | close id => exact fits_close
  | execStart id _ _ _ _ => exact fits_startExec false
  | execBackground id _ _ _ _ => exact fits_startExec true
  | commandPoll _ _ _ _ => exact fits_commandPoll
  | commandCancel _ => exact fits_commandCancel active
  | commands _ _ _ => exact fits_commands active
  | shellOpen id _ _ _ => exact fits_shellOpen
  | shellWrite id _ => exact fits_shellWrite
  | shellRead id _ _ _ => exact fits_shellRead
  | shellResize id _ _ | shellClose id => exact fits_onPty (.pure _)
  | fileStat id _ _ | fileMkdir id _ _ _ => exact fits_overSftp
  | fileRead id _ _ useSudo => exact fits_fileRead useSudo
  | fileWrite id _ _ _ _ _ useSudo _ => exact fits_fileWrite useSudo
  | fileUpload id _ _ _ _ _ | fileDownload id _ _ _ _ _ =>
      exact .bind (.orFail nothing) fun _ => fits_overSftp
  | reloadConfig => exact .bind (.orFail nothing) fun _ => fits_set .nil

theorem fits_work (task : ManagerTask) : Fits [] task.work := by
  cases task with
  | call method session active => exact fits_call session active method
  | runExec session background => exact fits_runExec background
  | runPty session => exact fits_runPty
  | reapIdle active => exact fits_reapIdle active

end ManagerTask

open ManagerLock in
/-- Whatever calls, commands, PTYs and sweeps are under way and however they interleave, no task
waits for itself and every waiting leads to a task that can move. Who waits for a plain mutex can
take it, or waits for a holder whose next step is to give it back. -/
theorem manager_never_deadlocks {acts : List (LockAct ManagerTask)} {s : LockState ManagerLock}
    (hrun : (LockState.machine discipline ManagerTask.work).run .empty acts = some s) {i : Nat}
    (hi : i ∈ s.queue) :
    ¬Relation.TransGen (LockState.WaitsFor discipline s) i i ∧
      (∃ j, Relation.ReflTransGen (LockState.WaitsFor discipline s) i j ∧
        LockState.CanMove discipline ManagerTask.work s j) ∧
      ∀ lock mode, s.wanted i = some (lock, mode) → lock.isStd = true →
        (LockState.step discipline ManagerTask.work s (.grant i)).isSome ∨
          ∃ j, LockState.WaitsFor discipline s i j ∧ s.GivesBack lock j ∧
            (LockState.step discipline ManagerTask.work s (.release j)).isSome := by
  have hsound := LockState.sound_of_run ManagerTask.fits_work hrun
  have htop (lock : ManagerLock) : discipline.rank lock ≤ 3 := by
    cases lock <;> simp [discipline, rank]
  refine ⟨hsound.acyclic i, hsound.leads_to_mover htop hi, fun lock mode hwanted hstd => ?_⟩
  have hunfair : discipline.fair lock = false := by simp [discipline, hstd]
  refine (hsound.brief_moves ManagerTask.work hi hwanted hstd hunfair).imp_right ?_
  rintro ⟨j, hwaits, hback⟩
  exact ⟨j, hwaits, hback, hback.can⟩

/-- Two calls on the PTY of one session, of which the second has come to wait for the first, and
two polls, of which the second waits for the store while the first has it. -/
def resizesAndPolls : List (LockAct ManagerTask) :=
  let resize := ManagerTask.call (.shellResize "s" 80 24) "s" ["s"]
  let poll := ManagerTask.call (.commandPoll "c" 0 0 0) "s" ["s"]
  [.start resize, .start resize, .request 0, .grant 0, .release 0, .resume 0 1, .request 0,
    .grant 0, .request 1, .grant 1, .release 1, .resume 1 1, .request 1,
    .start poll, .start poll, .request 2, .grant 2, .request 3]

open ManagerLock in
theorem manager_never_deadlocks_resizesAndPolls :
    ∃ s, (LockState.machine discipline ManagerTask.work).run .empty resizesAndPolls = some s ∧
      s.queue = [1, 3] ∧ ¬Relation.TransGen (LockState.WaitsFor discipline s) 1 1 ∧
      (∃ j, Relation.ReflTransGen (LockState.WaitsFor discipline s) 1 j ∧
        LockState.CanMove discipline ManagerTask.work s j) ∧
      ∃ j, LockState.WaitsFor discipline s 3 j ∧ s.GivesBack .storage j := by
  obtain ⟨s, hrun, hqueue, hwanted, htaken⟩ : ∃ s,
      (LockState.machine discipline ManagerTask.work).run .empty resizesAndPolls = some s ∧
        s.queue = [1, 3] ∧ s.wanted 3 = some (.storage, .exclusive) ∧
        LockState.step discipline ManagerTask.work s (.grant 3) = none := ⟨_, rfl, rfl, rfl, rfl⟩
  have hresize := manager_never_deadlocks hrun (i := 1) (by simp [hqueue])
  have hpoll := manager_never_deadlocks hrun (i := 3) (by simp [hqueue])
  refine ⟨s, hrun, hqueue, hresize.1, hresize.2.1, ?_⟩
  rcases hpoll.2.2 _ _ hwanted rfl with hgrant | ⟨j, hwaits, hback, -⟩
  · rw [htaken] at hgrant
    cases hgrant
  · exact ⟨j, hwaits, hback⟩

end AiSsh
