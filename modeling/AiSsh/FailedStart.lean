import AiSsh.ForegroundSlot

/-!
A start that fails. `start_exec` and `shell_open` change nothing of the session's work
before they take their place in the slot or in the background map; the row write of a
foreground start comes after that and may still fail.
-/

namespace AiSsh

open Library

/-- The command rows that are running. -/
def Storage.running (s : Storage) : List CommandInfo :=
  s.db.commands.filter fun row => row.status == .running

/-- The slot, the background map and the running rows are the same. -/
structure Shared.SameWork (s s' : Shared) : Prop where
  foreground : s'.runtime.foreground = s.runtime.foreground
  background : s'.runtime.background = s.runtime.background
  running : s'.storage.running = s.storage.running

namespace Op

/-- A start that has not taken its place: it is under way or has failed. -/
def Starting : Op → Prop
  | .acquire p | .look p | .check p | .dial p _ | .dialed p _ | .dialFailed p _ | .store p _
  | .opening p _ | .openFailed _ p => p ≠ .sftp
  | .installExec _ _ | .installPty _ | .returned (.error _) => True
  | _ => False

/-- A start that has taken its place, and the task it spawns. -/
def Started : Op → Prop
  | .startedExec _ | .startedPty _ | .runExec _ _ | .execDiscard _ _ _ | .execBackground _
  | .execRelease _ _ _ | .execInfo _ _ | .runPty _ | .ptyRelease _ | .ptyDiscard | .ptyInfo _
  | .returned (.ok _) => True
  | _ => False

theorem execNext_started (id : String) (background interrupted : Bool) (exit : Option UInt32) :
    (execNext id background interrupted exit).Started := by
  cases background with
  | false => exact trivial
  | true => exact trivial

end Op

theorem Shared.SameWork.refl (s : Shared) : s.SameWork s := ⟨rfl, rfl, rfl⟩

theorem Shared.SameWork.trans {s s' s'' : Shared} (h : s.SameWork s') (h' : s'.SameWork s'') :
    s.SameWork s'' :=
  ⟨h'.foreground.trans h.foreground, h'.background.trans h.background,
    h'.running.trans h.running⟩

theorem Storage.upsertSession_running (s : Storage) (info : SessionInfo) :
    (s.upsertSession info).running = s.running := by
  rw [Storage.upsertSession]
  split
  · rfl
  · rfl

theorem Shared.sameWork_writeOpenInfo (s : Shared) (info : SessionInfo) (stored : Bool) :
    s.SameWork (s.writeOpenInfo info stored) := by
  rw [Shared.writeOpenInfo, Shared.writeInfo]
  split
  · cases stored with
    | false => exact ⟨rfl, rfl, rfl⟩
    | true => exact ⟨rfl, rfl, s.storage.upsertSession_running info⟩
  · exact .refl s

namespace Op

variable {s s' : Shared} {foregroundFree : Bool} {answer : Answer} {now : Now} {op op' : Op}

/-- A start stays as it is, takes a place in the background map, or takes the slot. -/
theorem Moves.starting (h : op.Moves s foregroundFree now answer s' op') (hop : op.Starting) :
    op'.Starting ∧ s.SameWork s' ∨
      op'.Started ∧ op'.installs = none ∧ s'.runtime.background ≠ s.runtime.background ∨
      op'.Started ∧ op'.installs ≠ none ∧ op.reserves = true ∧
        s'.runtime.foreground ≠ none := by
  cases h with
  | acquired | found | missed | dialling | dialAgain | gaveUp | overtaken | openFailed =>
      exact .inl ⟨hop, .refl _⟩
  | dialled | stored => exact .inl ⟨hop, ⟨rfl, rfl, rfl⟩⟩
  | reconnected => exact .inl ⟨hop, s.sameWork_writeOpenInfo _ _⟩
  | reconnectFailed => exact .inl ⟨trivial, s.sameWork_writeOpenInfo _ _⟩
  | turnedAway | refused | notInserted => exact .inl ⟨trivial, .refl _⟩
  | openDiscarded => exact .inl ⟨trivial, ⟨rfl, rfl, rfl⟩⟩
  | execOpened | ptyOpened => exact .inl ⟨trivial, ⟨rfl, rfl, rfl⟩⟩
  | installedBackground =>
      refine .inr (.inl ⟨trivial, rfl, ?_⟩)
      exact fun hsame => List.cons_ne_nil _ _ (List.append_right_eq_self.mp hsame)
  | installedExec =>
      exact .inr (.inr ⟨trivial, Option.some_ne_none _, rfl, Option.some_ne_none _⟩)
  | installedPty =>
      exact .inr (.inr ⟨trivial, Option.some_ne_none _, rfl, Option.some_ne_none _⟩)
  | sftpOpened => exact absurd rfl hop
  | _ => cases hop

/-- A start that has taken its place goes on, unless its row write fails. -/
theorem Moves.started (h : op.Moves s foregroundFree now answer s' op') (hop : op.Started) :
    op'.Started ∧ op'.installs = none ∨
      op.installs ≠ none ∧ answer ≠ .ok ∧ (∃ error, op' = .returned (.error error)) ∧
        s'.runtime.foreground = s.runtime.foreground := by
  cases h with
  | execEnded | execDiscarded =>
      refine .inl ⟨execNext_started _ _ _ _, ?_⟩
      simp only [execNext]
      split
      · rfl
      · rfl
  | execNotStored =>
      exact .inr ⟨Option.some_ne_none _, fun h => (by cases h), ⟨_, rfl⟩, rfl⟩
  | ptyNotStored =>
      exact .inr ⟨Option.some_ne_none _, fun h => (by cases h), ⟨_, rfl⟩, rfl⟩
  | startedExec | startedPty | execInterrupted | backgroundLeft | execReleased
  | execAlreadyReleased | execFinished | ptyEnded | ptyReleased | ptyAlreadyReleased
  | ptyDiscarded | ptyFinished => exact .inl ⟨trivial, rfl⟩
  | _ => cases hop

/-- A row write that fails. -/
theorem Moves.not_stored (h : op.Moves s foregroundFree now answer s' op')
    (hinstalls : op.installs ≠ none) (hanswer : answer ≠ .ok) :
    (∃ error, op' = .returned (.error error)) ∧
      s'.runtime.foreground = s.runtime.foreground := by
  cases h with
  | execNotStored => exact ⟨⟨_, rfl⟩, rfl⟩
  | ptyNotStored => exact ⟨⟨_, rfl⟩, rfl⟩
  | startedExec | startedPty => exact absurd rfl hanswer
  | _ => exact absurd rfl hinstalls

end Op

namespace Lifecycle

/-- A step of the operation at `i` leaves the session's work alone. -/
def KeepsWork (i : Nat) (s : Lifecycle) (move : LifecycleStep) : Prop :=
  ∀ answer now s', move = .advance i answer now → machine.step s move = some s' →
    s.shared.SameWork s'.shared

/-- The row write of the start at `i` succeeds. -/
def RowWritten (i : Nat) (s : Lifecycle) : LifecycleStep → Prop
  | .advance j answer _ => j = i → ∀ op ∈ s.ops[i]?, op.installs ≠ none → answer = .ok
  | _ => True

instance (i : Nat) (s : Lifecycle) : DecidablePred (RowWritten i s)
  | .advance j answer _ => inferInstanceAs
      (Decidable (j = i → ∀ op ∈ s.ops[i]?, op.installs ≠ none → answer = .ok))
  | .call _ | .die _ => isTrue trivial

def By (i : Nat) (move : LifecycleStep) : Prop := ∃ answer now, move = .advance i answer now

section Start

variable {s s' t : Lifecycle} {i : Nat} {move : LifecycleStep} {moves : List LifecycleStep}

/-- A step that is not the start's leaves the start where it is. -/
theorem own_step {op : Op} (hop : s.ops[i]? = some op) (hstep : s.step move = some s') :
    ¬By i move ∧ s'.ops[i]? = some op ∨
      By i move ∧ ∃ answer now op', move = .advance i answer now ∧ s'.ops[i]? = some op' ∧
        op.Moves s.shared s.foregroundFree now answer s'.shared op' := by
  cases step_at hop hstep with
  | inl hother => exact .inl ⟨fun ⟨answer, now, h⟩ => hother.1 answer now h, hother.2⟩
  | inr hown =>
      obtain ⟨answer, now, op', rfl, hop', hstep⟩ := hown
      exact .inr ⟨⟨answer, now, rfl⟩, answer, now, op', rfl, hop', Op.moves_of_step hstep⟩

/-- The place of a start in a run. -/
def StartAt (i : Nat) (P : Op → Prop) (s : Lifecycle) : Prop := ∃ op, s.ops[i]? = some op ∧ P op

theorem startAt_step (h : StartAt i (fun op => op.Starting ∨ op.Started) s)
    (hstep : s.step move = some s') : StartAt i (fun op => op.Starting ∨ op.Started) s' := by
  obtain ⟨op, hop, hphase⟩ := h
  rcases own_step hop hstep with ⟨-, hop'⟩ | ⟨-, answer, now, op', -, hop', hmoves⟩
  · exact ⟨op, hop', hphase⟩
  · refine ⟨op', hop', ?_⟩
    cases hphase with
    | inl hstarting =>
        rcases hmoves.starting hstarting with ⟨h, -⟩ | ⟨h, -⟩ | ⟨h, -⟩
        · exact .inl h
        · exact .inr h
        · exact .inr h
    | inr hstarted =>
        rcases hmoves.started hstarted with ⟨h, -⟩ | ⟨-, -, ⟨error, rfl⟩, -⟩
        · exact .inr h
        · exact .inl trivial

theorem not_starting_of_started {op : Op} (h : op.Started) (h' : op.Starting) : False := by
  cases op with
  | returned result =>
      cases result with
      | ok _ => cases h'
      | error _ => cases h
  | _ => first | exact h | exact h'

theorem installs_none_of_starting {op : Op} (h : op.Starting) : op.installs = none := by
  cases op with
  | startedExec command | startedPty id => cases h
  | _ => rfl

/-- While the row writes succeed, a start that ends in an error has changed nothing. -/
theorem keepsWork_of_rowWritten {error : ErrorPayload}
    (hphase : StartAt i (fun op => op.Starting ∨ op.Started) s)
    (hwritten : machine.Meets (RowWritten i) s moves) (hrun : machine.run s moves = some t)
    (hfailed : t.ops[i]? = some (.returned (.error error))) :
    machine.Meets (KeepsWork i) s moves := by
  refine (machine.meets_of_back (I := StartAt i fun op => op.Starting ∨ op.Started)
    (K := StartAt i Op.Starting) (fun _ _ _ h _ hstep => startAt_step h hstep) ?_ hphase
    hwritten hrun ⟨_, hfailed, trivial⟩).2
  rintro s move s' ⟨op, hop, hphase⟩ hwritten hstep ⟨last, hlast, hstarting⟩
  rcases own_step hop hstep with ⟨hother, hop'⟩ | ⟨-, answer, now, op', hmove, hop', hmoves⟩
  · cases hop'.symm.trans hlast
    exact ⟨⟨op, hop, hstarting⟩, fun answer now _ hmove => absurd ⟨answer, now, hmove⟩ hother⟩
  · cases hop'.symm.trans hlast
    cases hphase with
    | inl hbefore =>
        refine ⟨⟨op, hop, hbefore⟩, ?_⟩
        intro _ _ s'' _ hstep''
        cases hstep.symm.trans hstep''
        rcases hmoves.starting hbefore with ⟨-, hsame⟩ | ⟨h, -⟩ | ⟨h, -⟩
        · exact hsame
        · exact (not_starting_of_started h hstarting).elim
        · exact (not_starting_of_started h hstarting).elim
    | inr hstarted =>
        rcases hmoves.started hstarted with ⟨h, -⟩ | ⟨hinstalls, hanswer, -⟩
        · exact (not_starting_of_started h hstarting).elim
        · rw [hmove] at hwritten
          exact absurd (hwritten rfl op hop hinstalls) hanswer

/-- A start all of whose steps leave the session's work alone has not taken its place. -/
theorem starting_of_keepsWork (hlocked : s.Locked) (h : StartAt i Op.Starting s)
    (hkeeps : KeepsWork i s move) (hstep : s.step move = some s') : StartAt i Op.Starting s' := by
  obtain ⟨op, hop, hstarting⟩ := h
  rcases own_step hop hstep with ⟨-, hop'⟩ | ⟨-, answer, now, op', hmove, hop', hmoves⟩
  · exact ⟨op, hop', hstarting⟩
  · have hsame := hkeeps answer now s' hmove hstep
    rcases hmoves.starting hstarting with ⟨h, -⟩ | ⟨-, -, hbackground⟩ | ⟨-, -, hreserves, hslot⟩
    · exact ⟨op', hop', h⟩
    · exact absurd hsame.background hbackground
    · have hnone : s.slot = none := hlocked.reserved op (List.mem_of_getElem? hop) hreserves
      exact absurd (hsame.foreground.trans hnone) hslot

theorem rowWritten_of_starting (h : StartAt i Op.Starting s) : RowWritten i s move := by
  obtain ⟨op, hop, hstarting⟩ := h
  cases move with
  | advance j answer now =>
      intro _ op' hop' hinstalls
      cases hop.symm.trans hop'
      exact absurd (installs_none_of_starting hstarting) hinstalls
  | call call => trivial
  | die connection => trivial

/-- How far a start that runs alone from `s` has come. -/
inductive Alone (i : Nat) (s s' : Lifecycle) : Prop
  | starting (place : StartAt i Op.Starting s') (same : s.shared.SameWork s'.shared)
  | installed (op : Op) (place : s'.ops[i]? = some op) (started : op.Started)
      (installs : op.installs ≠ none) (before : s.slot = none) (after : s'.slot ≠ none)
  | failed (error : ErrorPayload) (place : s'.ops[i]? = some (.returned (.error error)))
      (before : s.slot = none) (after : s'.slot ≠ none)
  | running (op : Op) (place : s'.ops[i]? = some op) (started : op.Started)
      (installs : op.installs = none)

theorem alone_step {start : Lifecycle} (hlocked : s.Locked) (h : Alone i start s)
    (hby : By i move) (hstep : s.step move = some s') : Alone i start s' := by
  have hown {op : Op} (hop : s.ops[i]? = some op) :=
    (own_step hop hstep).resolve_left fun hother => hother.1 hby
  cases h with
  | starting place same =>
      obtain ⟨op, hop, hstarting⟩ := place
      obtain ⟨-, answer, now, op', -, hop', hmoves⟩ := hown hop
      rcases hmoves.starting hstarting with
        ⟨h, hsame⟩ | ⟨h, hinstalls, -⟩ | ⟨h, hinstalls, hreserves, hslot⟩
      · exact .starting ⟨op', hop', h⟩ (same.trans hsame)
      · exact .running op' hop' h hinstalls
      · refine .installed op' hop' h hinstalls ?_ hslot
        exact same.foreground.symm.trans
          (hlocked.reserved op (List.mem_of_getElem? hop) hreserves)
  | installed op place started installs before after =>
      obtain ⟨-, answer, now, op', -, hop', hmoves⟩ := hown place
      rcases hmoves.started started with ⟨h, hinstalls⟩ | ⟨-, -, ⟨error, rfl⟩, hslot⟩
      · exact .running op' hop' h hinstalls
      · exact .failed error hop' before fun hnone => after (hslot.symm.trans hnone)
  | failed error place before after =>
      obtain ⟨-, answer, now, op', -, hop', hmoves⟩ := hown place
      cases hmoves
  | running op place started installs =>
      obtain ⟨-, answer, now, op', -, hop', hmoves⟩ := hown place
      rcases hmoves.started started with ⟨h, hinstalls⟩ | ⟨hinstalls, -⟩
      · exact .running op' hop' h hinstalls
      · exact absurd installs hinstalls

/-- A start whose row write fails leaves its place filled. -/
theorem rowWritten_of_sameWork (hlocked : s.Locked)
    (hplace : StartAt i Op.Starting s) (halone : ∀ move ∈ moves, By i move)
    (hrun : machine.run s moves = some t) (hsame : s.shared.SameWork t.shared) :
    machine.Meets (RowWritten i) s moves := by
  have hend : s.slot = none → t.slot = none := hsame.foreground.trans
  refine (machine.meets_of_back (I := fun s' => s'.Locked ∧ Alone i s s')
    (K := fun s' => ∀ error, s'.ops[i]? = some (.returned (.error error)) → s.slot = none →
      s'.slot = none) ?_ ?_ ⟨hlocked, .starting hplace (.refl _)⟩
    (machine.meets_of_forall_mem halone) hrun fun _ _ => hend).2
  · rintro s' move s'' ⟨hlocked, hphase⟩ hby hstep
    exact ⟨hlocked.step hstep, alone_step hlocked hphase hby hstep⟩
  · rintro s' move s'' ⟨hlocked, hphase⟩ hby hstep hback
    refine ⟨?_, ?_⟩
    · intro error hplace
      obtain ⟨-, answer, now, op', -, -, hmoves⟩ :=
        (own_step hplace hstep).resolve_left fun hother => hother.1 hby
      cases hmoves
    · obtain ⟨answer, now, rfl⟩ := hby
      have hstep : s'.step (.advance i answer now) = some s'' := hstep
      intro _ op hop hinstalls
      by_contra hanswer
      cases hphase with
      | starting place same =>
          have hwritten : RowWritten i s' (.advance i answer now) := rowWritten_of_starting place
          exact hanswer (hwritten rfl op hop hinstalls)
      | installed op place started installs before after =>
          cases hop.symm.trans place
          obtain ⟨-, answer', now', op', hmove', hop', hmoves⟩ :=
            (own_step hop hstep).resolve_left fun hother => hother.1 ⟨answer, now, rfl⟩
          cases hmove'
          obtain ⟨⟨error, rfl⟩, hslot⟩ := hmoves.not_stored hinstalls hanswer
          exact after (hslot.symm.trans (hback error hop' before))
      | failed error place before after =>
          cases hop.symm.trans place
          exact hinstalls rfl
      | running op place started installs =>
          cases hop.symm.trans place
          exact hinstalls installs

theorem sameWork_of_keepsWork (halone : ∀ move ∈ moves, By i move)
    (hkeeps : machine.Meets (KeepsWork i) s moves) (hrun : machine.run s moves = some t) :
    s.shared.SameWork t.shared := by
  refine machine.invariant_under (I := fun s' => s.shared.SameWork s'.shared) ?_ (.refl _)
    (machine.meets_and.mpr ⟨hkeeps, machine.meets_of_forall_mem halone⟩) hrun
  rintro s' move s'' hsame ⟨hkeeps, answer, now, hmove⟩ hstep
  exact hsame.trans (hkeeps answer now s'' hmove hstep)

end Start

end Lifecycle

def Call.isStart : Call → Bool
  | .startExec _ _ | .shellOpen => true
  | _ => false

theorem Call.starting {call : Call} (h : call.isStart = true) : call.op.Starting := by
  cases call with
  | startExec command background => exact fun h => by cases h
  | shellOpen => exact fun h => by cases h
  | _ => cases h

namespace Lifecycle

/-- A start that fails, alone or among other operations, leaves the slot, the background
map and the running rows alone exactly when it is not its row write that fails. -/
theorem failed_start_keeps_work_iff {storage : Storage} {info : SessionInfo} {attempts : Nat}
    {first : Now} {before moves : List LifecycleStep} {s t : Lifecycle} {i : Nat} {call : Call}
    {error : ErrorPayload}
    (hreach : machine.run (created storage info attempts first) before = some s)
    (hcall : s.ops[i]? = some call.op) (hstart : call.isStart = true)
    (hrun : machine.run s moves = some t)
    (hfailed : t.ops[i]? = some (.returned (.error error))) :
    (machine.Meets (KeepsWork i) s moves ↔ machine.Meets (RowWritten i) s moves) ∧
      ((∀ move ∈ moves, By i move) →
        (s.shared.SameWork t.shared ↔ machine.Meets (RowWritten i) s moves)) := by
  have hlocked : s.Locked :=
    machine.invariant (fun _ _ _ h hstep => h.step hstep)
      (created_locked storage info attempts first) hreach
  have hplace : StartAt i Op.Starting s := ⟨call.op, hcall, Call.starting hstart⟩
  have hphase : StartAt i (fun op => op.Starting ∨ op.Started) s :=
    ⟨call.op, hcall, .inl (Call.starting hstart)⟩
  refine ⟨⟨fun hkeeps => ?_, fun hwritten => keepsWork_of_rowWritten hphase hwritten hrun hfailed⟩,
    fun halone => ⟨rowWritten_of_sameWork hlocked hplace halone hrun, fun hwritten => ?_⟩⟩
  · exact machine.meets_of_invariant (I := fun s => s.Locked ∧ StartAt i Op.Starting s)
      (fun _ _ _ h hkeeps hstep => ⟨h.1.step hstep, starting_of_keepsWork h.1 h.2 hkeeps hstep⟩)
      (fun _ _ _ h _ _ => rowWritten_of_starting h.2) ⟨hlocked, hplace⟩ hkeeps hrun
  · exact sameWork_of_keepsWork halone (keepsWork_of_rowWritten hphase hwritten hrun hfailed) hrun

/-- A session that `create` has connected, with a start called on it. -/
def startCalled (call : Call) : List LifecycleStep :=
  [.advance 0 (.connected ⟨"c", "f"⟩) ⟨1, 1⟩, .advance 0 .ok ⟨2, 2⟩, .advance 0 .ok ⟨3, 3⟩,
    .call call]

/-- `shell_open` whose channel does not open. -/
theorem failed_start_keeps_work_iff_unopened :
    ∃ s t moves, machine.run
        (created (.openWith .empty 1) (.created "s" "t" "t" "p" "m" ⟨0, 0⟩) 1 ⟨0, 0⟩)
        (startCalled .shellOpen) = some s ∧ machine.run s moves = some t ∧
      t.ops[1]? = some (.returned (.error (.new "SSH_ERROR" "refused"))) ∧
      s.shared.SameWork t.shared := by
  let start : Lifecycle :=
    created (.openWith .empty 1) (.created "s" "t" "t" "p" "m" ⟨0, 0⟩) 1 ⟨0, 0⟩
  let moves : List LifecycleStep :=
    [.advance 1 .ok ⟨4, 4⟩, .advance 1 .ok ⟨5, 5⟩,
      .advance 1 (.failed (.new "SSH_ERROR" "refused")) ⟨6, 6⟩, .advance 1 .ok ⟨7, 7⟩]
  have hall : ((machine.run start (startCalled .shellOpen)).any fun s =>
      decide (s.ops[1]? = some Call.shellOpen.op ∧ machine.Meets (RowWritten 1) s moves) &&
        (machine.run s moves).any fun t => decide (t.ops[1]? =
          some (.returned (.error (.new "SSH_ERROR" "refused"))))) = true := by decide
  obtain ⟨s, hreach, hs⟩ := (Option.any_eq_true _ _).mp hall
  obtain ⟨hs, ht⟩ := Bool.and_eq_true_iff.mp hs
  obtain ⟨t, hrun, hfailed⟩ := (Option.any_eq_true _ _).mp ht
  obtain ⟨hcall, hwritten⟩ := of_decide_eq_true hs
  have hfailed := of_decide_eq_true hfailed
  refine ⟨s, t, moves, hreach, hrun, hfailed, ?_⟩
  refine ((failed_start_keeps_work_iff hreach hcall rfl hrun hfailed).2 ?_).mpr hwritten
  simp [moves, By]

/-- The row write of a foreground exec fails: the call returns its error, every operation
has returned, and the slot and a running row stay behind. -/
theorem failed_row_write_leaves_exec :
    ∃ s t moves, machine.run
        (created (.openWith .empty 1) (.created "s" "t" "t" "p" "m" ⟨0, 0⟩) 1 ⟨0, 0⟩)
        (startCalled (.startExec "ls" false)) = some s ∧ machine.run s moves = some t ∧
      t.ops = [.returned (.ok ()), .returned (.error (.new "INTERNAL" "disk full"))] ∧
      s.slot = none ∧ t.slot = some (.exec "e") ∧ s.shared.storage.running = [] ∧
      t.shared.storage.running.map CommandInfo.id = ["e"] := by
  let moves : List LifecycleStep :=
    [.advance 1 .ok ⟨4, 4⟩, .advance 1 .ok ⟨5, 5⟩, .advance 1 (.opened "e") ⟨6, 6⟩,
      .advance 1 .ok ⟨7, 7⟩, .advance 1 (.failed (.new "INTERNAL" "disk full")) ⟨8, 8⟩]
  exact ⟨_, _, moves, rfl, rfl, rfl, rfl, rfl, rfl, rfl⟩

end Lifecycle
end AiSsh
