import AiSsh.Library.Pool
import AiSsh.SessionLifecycle

/-!
The foreground slot and its lock. One operation at a time holds the lock, and an
operation that is about to fill the slot has found it empty under the lock. What fills
the slot belongs to the operation that put it there and then to the task this one
spawned; `shell_close` and `close` may take it away from both.
-/

namespace AiSsh

open Library

namespace Op

/-- What an operation has put in the slot and not yet in the info record. -/
def installs : Op → Option Foreground
  | .startedExec command => some (.exec command.id)
  | .startedPty id => some (.pty id)
  | _ => none

/-- The PTY an operation or task belongs to, until its end is decided. -/
def ptyTask : Op → Option String
  | .startedPty id | .runPty id | .ptyRelease id => some id
  | _ => none

/-- The foreground exec an operation or task belongs to, until it leaves the slot. -/
def execTask : Op → Option String
  | .installExec command background | .runExec command background =>
      if background then none else some command.id
  | .execDiscard id background _ => if background then none else some id
  | .startedExec command => some command.id
  | .execRelease id _ _ => some id
  | _ => none

@[simp] theorem execNext_execTask (id : String) (background interrupted : Bool)
    (exit : Option UInt32) : (execNext id background interrupted exit).execTask =
      if background then none else some id := by
  cases background with
  | false => rfl
  | true => rfl

/-- An operation that has found the slot empty and holds its lock to fill it. -/
def reserves : Op → Bool
  | .look p | .check p | .dial p _ | .dialed p _ | .dialFailed p _ | .store p _ | .opening p _
  | .openFailed _ p => p.takesForeground
  | .installExec _ background => !background
  | .installPty _ => true
  | _ => false

/-- What a step makes of the slot. -/
theorem Moves.foreground {s s' : Shared} {foregroundFree : Bool} {answer : Answer} {now : Now}
    {op op' : Op} (h : op.Moves s foregroundFree now answer s' op') :
    s'.runtime.foreground = s.runtime.foreground ∨
      s'.runtime.foreground = none ∧ (op = .shellClose ∨ op = .closeForeground ∨
        (∃ id interrupted exit, op = .execRelease id interrupted exit ∧
          s.runtime.foreground = some (.exec id)) ∨
        ∃ id, op = .ptyRelease id ∧ s.runtime.foreground = some (.pty id)) ∨
      op.reserves = true ∧ op'.reserves = false ∧ ∃ f, op'.installs = some f ∧
        s'.runtime.foreground = some f := by
  cases h with
  | reconnected | reconnectFailed | execFinished | ptyFinished =>
      exact .inl (Shared.writeOpenInfo_foreground ..)
  | execReleased _ own => exact .inr (.inl ⟨rfl, .inr (.inr (.inl ⟨_, _, _, rfl, own⟩))⟩)
  | ptyReleased _ own => exact .inr (.inl ⟨rfl, .inr (.inr (.inr ⟨_, rfl, own⟩))⟩)
  | shellTaken | shellNotOpen => exact .inr (.inl ⟨rfl, .inl rfl⟩)
  | installedExec | installedPty => exact .inr (.inr ⟨rfl, rfl, _, rfl, rfl⟩)
  | execCancelled | ptyTaken => exact .inr (.inl ⟨rfl, .inr (.inl rfl)⟩)
  | _ => exact .inl rfl

theorem Moves.holdsForeground {s s' : Shared} {foregroundFree : Bool} {answer : Answer}
    {now : Now} {op op' : Op} (h : op.Moves s foregroundFree now answer s' op')
    (hholds : op'.holdsForeground = true) :
    op.holdsForeground = true ∨ foregroundFree = true := by
  cases h with
  | acquired free _ => exact .inr (free (by simpa [Op.holdsForeground] using hholds))
  | shellTaken free _ => exact .inr free
  | ptyTaken free => exact .inr free
  | execEnded | execDiscarded =>
      simp only [execNext] at hholds
      split at hholds <;> cases hholds
  | found | missed | dialling | dialled | dialAgain | gaveUp | reconnected | overtaken | stored
  | openFailed => exact .inl hholds
  | execOpened | ptyOpened => exact .inl rfl
  | _ => cases hholds

theorem Moves.reserves {s s' : Shared} {foregroundFree : Bool} {answer : Answer}
    {now : Now} {op op' : Op} (h : op.Moves s foregroundFree now answer s' op')
    (hreserves : op'.reserves = true) :
    op.reserves = true ∨ s'.runtime.foreground = none := by
  cases h with
  | acquired _ empty => exact .inr (empty hreserves)
  | execEnded | execDiscarded =>
      simp only [execNext] at hreserves
      split at hreserves <;> cases hreserves
  | found | missed | dialling | dialled | dialAgain | gaveUp | reconnected | overtaken | stored
  | openFailed | execOpened => exact .inl hreserves
  | ptyOpened => exact .inl rfl
  | _ => cases hreserves

theorem Moves.execTask {s s' : Shared} {foregroundFree : Bool} {answer : Answer}
    {now : Now} {op op' : Op} (h : op.Moves s foregroundFree now answer s' op') {id : String}
    (htask : op'.execTask = some id) :
    op.execTask = some id ∨ op.execTask = none ∧ id ∉ s.used ∧ id ∈ s'.used := by
  cases h with
  | execOpened fresh =>
      simp only [Op.execTask] at htask
      split at htask
      · cases htask
      · cases htask
        exact .inr ⟨rfl, fresh, List.mem_cons_self⟩
  | execEnded | execDiscarded =>
      rw [execNext_execTask] at htask
      exact .inl htask
  | installedExec | startedExec | execInterrupted => exact .inl htask
  | _ => cases htask

theorem Moves.ptyTask {s s' : Shared} {foregroundFree : Bool} {answer : Answer} {now : Now}
    {op op' : Op} (h : op.Moves s foregroundFree now answer s' op') {id : String}
    (hstored : op.installs ≠ none → answer = .ok) (htask : op.ptyTask = some id)
    (hslot : s'.runtime.foreground = some (.pty id)) : op'.ptyTask = some id := by
  cases h with
  | startedPty | ptyEnded => exact htask
  | ptyNotStored => cases hstored nofun
  | ptyReleased => cases hslot
  | ptyAlreadyReleased other =>
      cases htask
      exact absurd hslot other
  | _ => cases htask

theorem Moves.used {s s' : Shared} {foregroundFree : Bool} {answer : Answer} {now : Now}
    {op op' : Op} (h : op.Moves s foregroundFree now answer s' op') {id : String}
    (hid : id ∈ s.used) : id ∈ s'.used := by
  cases h with
  | createConnected | dialled | execOpened | ptyOpened => exact List.mem_cons_of_mem _ hid
  | reconnected | reconnectFailed | execFinished | ptyFinished =>
      simpa [Shared.wake] using hid
  | _ => exact hid

theorem not_sftp_of_takesForeground {p : Purpose} (h : p.takesForeground = true) :
    (p == .sftp) = false := by
  cases p with
  | sftp => cases h
  | _ => rfl

theorem holdsForeground_of_reserves {op : Op} (h : op.reserves = true) :
    op.holdsForeground = true := by
  cases op with
  | look p | check p | dial p _ | dialed p _ | dialFailed p _ | store p _ | opening p _
  | openFailed _ p => exact congrArg not (not_sftp_of_takesForeground h)
  | installExec _ _ | installPty _ => rfl
  | _ => cases h

theorem ptyTask_of_installs {op : Op} {id : String} (h : op.installs = some (.pty id)) :
    op.ptyTask = some id := by
  cases op with
  | startedPty =>
      cases h
      rfl
  | _ => cases h

/-- What an operation or task has in the slot, until it gives it up itself. -/
def owner : Op → Option Foreground
  | .startedExec command => some (.exec command.id)
  | .runExec command background => if background then none else some (.exec command.id)
  | .execDiscard id background _ => if background then none else some (.exec id)
  | .execRelease id _ _ => some (.exec id)
  | .startedPty id | .runPty id | .ptyRelease id => some (.pty id)
  | _ => none

/-- What a task that is about to finalise may take out of the slot. -/
def releases : Op → Option Foreground
  | .execRelease id _ _ => some (.exec id)
  | .ptyRelease id => some (.pty id)
  | _ => none

theorem owner_of_installs {op : Op} {f : Foreground} (h : op.installs = some f) :
    op.owner = some f := by
  cases op with
  | startedExec _ | startedPty _ => exact h
  | _ => cases h

@[simp] theorem execNext_owner (id : String) (background interrupted : Bool)
    (exit : Option UInt32) : (execNext id background interrupted exit).owner =
      if background then none else some (.exec id) := by
  cases background with
  | false => rfl
  | true => rfl

/-- A step leaves the slot's content with its owner. -/
theorem Moves.owner {s s' : Shared} {foregroundFree : Bool} {answer : Answer} {now : Now}
    {op op' : Op} (h : op.Moves s foregroundFree now answer s' op') {f : Foreground}
    (hstored : op.installs ≠ none → answer = .ok) (howner : op.owner = some f)
    (hslot : s'.runtime.foreground = some f) : op'.owner = some f := by
  cases h with
  | startedExec | startedPty | ptyEnded | execInterrupted => exact howner
  | execNotStored => cases hstored (Option.some_ne_none _)
  | ptyNotStored => cases hstored (Option.some_ne_none _)
  | execEnded | execDiscarded =>
      rw [execNext_owner]
      exact howner
  | execReleased | ptyReleased => cases hslot
  | execAlreadyReleased other | ptyAlreadyReleased other =>
      cases howner
      exact absurd hslot other
  | _ => cases howner

end Op

namespace Lifecycle

variable {s s' : Lifecycle}

def slot (s : Lifecycle) : Option Foreground := s.shared.runtime.foreground

/-- Who may hold the foreground lock, and what holds while it is held. -/
structure Locked (s : Lifecycle) : Prop where
  exclusive : s.ops.countP Op.holdsForeground ≤ 1
  reserved : ∀ op ∈ s.ops, op.reserves = true → s.slot = none

section Advance

variable {op op' : Op} {others : List Op} {answer : Answer} {now : Now}

theorem Locked.exclusive_advance (h : Locked s)
    (hadvance : Advances s s' op op' others answer now) :
    s'.ops.countP Op.holdsForeground ≤ 1 := by
  have hbefore := h.exclusive
  rw [hadvance.before.countP_eq, List.countP_cons] at hbefore
  rw [hadvance.after.countP_eq, List.countP_cons]
  by_cases hholds : op'.holdsForeground = true
  · rcases hadvance.moves.holdsForeground hholds with hop | hfree
    · simpa [hop, hholds] using hbefore
    · have hnone : others.countP Op.holdsForeground = 0 := by
        rw [List.countP_eq_zero]
        intro x hx
        simpa using List.all_eq_true.mp hfree x (hadvance.mem_before.mpr (.inr hx))
      simp [hnone, hholds]
  · rw [if_neg hholds]
    omega

theorem Locked.alone (h : Locked s) (hadvance : Advances s s' op op' others answer now)
    (hop : op.reserves = true) {x : Op} (hx : x ∈ others) : x.reserves = false := by
  by_contra hreserves
  have hcount := h.exclusive
  rw [hadvance.before.countP_eq, List.countP_cons_of_pos (Op.holdsForeground_of_reserves hop)]
    at hcount
  have hpos : 0 < others.countP Op.holdsForeground :=
    List.countP_pos_iff.mpr
      ⟨x, hx, Op.holdsForeground_of_reserves ((Bool.not_eq_false _).mp hreserves)⟩
  omega

theorem Locked.reserved_advance (h : Locked s) (hadvance : Advances s s' op op' others answer now) :
    ∀ x ∈ s'.ops, x.reserves = true → s'.slot = none := by
  intro x hx hreserves
  rcases hadvance.moves.foreground with hsame | ⟨hnone, -⟩ | ⟨hop, hop', -⟩
  · rcases hadvance.mem_after.mp hx with rfl | hx
    · rcases hadvance.moves.reserves hreserves with hop | hnone
      · exact hsame.trans (h.reserved op (hadvance.mem_before.mpr (.inl rfl)) hop)
      · exact hnone
    · exact hsame.trans (h.reserved x (hadvance.mem_before.mpr (.inr hx)) hreserves)
  · exact hnone
  · rcases hadvance.mem_after.mp hx with rfl | hx
    · exact absurd hreserves (by simp [hop'])
    · exact absurd hreserves (by simp [h.alone hadvance hop hx])

theorem Locked.advance (h : Locked s) (hadvance : Advances s s' op op' others answer now) :
    Locked s' :=
  ⟨h.exclusive_advance hadvance, h.reserved_advance hadvance⟩

/-- A task that finalises leaves the slot alone unless its own identifier is in it. -/
theorem slot_of_releases (hadvance : Advances s s' op op' others answer now) {f : Foreground}
    (hop : op.releases = some f) : s'.slot = s.slot ∨ s.slot = some f := by
  cases hadvance.moves.foreground with
  | inl hsame => exact .inl hsame
  | inr hchanged =>
      right
      rcases hchanged with ⟨-, rfl | rfl | ⟨id, interrupted, exit, rfl, hown⟩ | ⟨id, rfl, hown⟩⟩ |
        ⟨hreserves, -⟩
      · cases hop
      · cases hop
      · cases hop
        exact hown
      · cases hop
        exact hown
      · cases op with
        | execRelease id interrupted exit | ptyRelease id => cases hreserves
        | _ => cases hop

/-- What is in the slot does not change into something else. -/
theorem Locked.slot_eq (h : Locked s) (hadvance : Advances s s' op op' others answer now)
    {f f' : Foreground} (hf : s.slot = some f) (hf' : s'.slot = some f') : f = f' := by
  rcases hadvance.moves.foreground with hsame | ⟨hnone, -⟩ | ⟨hop, -⟩
  · exact Option.some.inj (hf.symm.trans (hsame.symm.trans hf'))
  · cases hnone.symm.trans hf'
  · cases hf.symm.trans (h.reserved op (hadvance.mem_before.mpr (.inl rfl)) hop)

end Advance

/-- What fills the slot belongs to an operation under way. -/
def Owned (s : Lifecycle) : Prop := ∀ f, s.slot = some f → ∃ op ∈ s.ops, op.owner = some f

/-- The record write of a start is answered by the storage. -/
def Stored (s : Lifecycle) : LifecycleStep → Prop
  | .advance i answer _ => ∀ op ∈ s.ops[i]?, op.installs ≠ none → answer = .ok
  | _ => True

instance (s : Lifecycle) : DecidablePred s.Stored
  | .advance i answer _ =>
      inferInstanceAs (Decidable (∀ op ∈ s.ops[i]?, op.installs ≠ none → answer = .ok))
  | .call _ | .die _ => isTrue trivial

variable {move : LifecycleStep}

theorem Owned.step (h : Owned s) (hstored : s.Stored move) (hstep : s.step move = some s') :
    Owned s' := by
  cases move with
  | call call =>
      cases hstep
      intro f hf
      obtain ⟨op, hop, howner⟩ := h f hf
      exact ⟨op, List.mem_append_left _ hop, howner⟩
  | die connection =>
      cases hstep
      exact h
  | advance i answer now =>
      obtain ⟨op, op', others, hop, hadvance⟩ := step_advance hstep
      have hlast : op' ∈ s'.ops := hadvance.mem_after.mpr (.inl rfl)
      intro f hf
      rcases hadvance.moves.foreground with hsame | ⟨hnone, -⟩ | ⟨-, -, f', hinstalls, hf'⟩
      · obtain ⟨x, hx, howner⟩ := h f (hsame.symm.trans hf)
        cases hadvance.mem_before.mp hx with
        | inl hx =>
            subst hx
            exact ⟨op', hlast, hadvance.moves.owner (hstored x hop) howner hf⟩
        | inr hx => exact ⟨x, hadvance.mem_after.mpr (.inr hx), howner⟩
      · cases hnone.symm.trans hf
      · cases hf'.symm.trans hf
        exact ⟨op', hlast, Op.owner_of_installs hinstalls⟩

theorem Locked.step (h : Locked s) (hstep : s.step move = some s') : Locked s' := by
  cases move with
  | call call =>
      cases hstep
      have hholds : call.op.holdsForeground = false := by
        cases call with
        | _ => rfl
      have hreserves : call.op.reserves = false := by
        cases call with
        | _ => rfl
      refine ⟨by simpa [List.countP_append, hholds] using h.exclusive, ?_⟩
      intro x hx hx'
      cases List.mem_append.mp hx with
      | inl hx => exact h.reserved x hx hx'
      | inr hx =>
          rw [List.mem_singleton.mp hx, hreserves] at hx'
          cases hx'
  | die connection =>
      cases hstep
      exact ⟨h.exclusive, h.reserved⟩
  | advance i answer now =>
      obtain ⟨op, op', others, hop, hadvance⟩ := step_advance hstep
      exact h.advance hadvance

theorem created_locked (storage : Storage) (info : SessionInfo) (attempts : Nat) (now : Now) :
    Locked (created storage info attempts now) := by
  refine ⟨Nat.zero_le 1, ?_⟩
  intro op hop hreserves
  rw [List.mem_singleton.mp hop] at hreserves
  cases hreserves

theorem created_owned (storage : Storage) (info : SessionInfo) (attempts : Nat) (now : Now) :
    Owned (created storage info attempts now) := by
  intro f hf
  cases hf

/-- A step does what the slot asks of it: a task that finalises takes only its own
identifier out of the slot, and the slot passes from one content to another through
empty. -/
structure SlotStep (s s' : Lifecycle) (move : LifecycleStep) : Prop where
  own : ∀ i answer now op f, move = .advance i answer now → s.ops[i]? = some op →
    op.releases = some f → s'.slot = s.slot ∨ s.slot = some f
  throughEmpty : ∀ f f', s.slot = some f → s'.slot = some f' → f = f'

theorem Locked.slotStep (h : Locked s) (hstep : s.step move = some s') : SlotStep s s' move where
  own := by
    rintro i answer now op f rfl hop hreleases
    obtain ⟨other, op', others, hother, hadvance⟩ := step_advance hstep
    cases hop.symm.trans hother
    exact slot_of_releases hadvance hreleases
  throughEmpty := by
    intro f f' hf hf'
    cases move with
    | call call =>
        cases hstep
        exact Option.some.inj (hf.symm.trans hf')
    | die connection =>
        cases hstep
        exact Option.some.inj (hf.symm.trans hf')
    | advance i answer now =>
        obtain ⟨op, op', others, hop, hadvance⟩ := step_advance hstep
        exact h.slot_eq hadvance hf hf'

end Lifecycle

/-- `command_cancel` at one session: a look at the slot under its lock, then one at the
background map. A call that finds nothing goes on to the other sessions. -/
inductive CancelOp
  | foreground (commandId : String)
  | background (commandId : String)
  | passed
  | returned
  deriving DecidableEq, Repr

def Shared.cancel (s : Shared) (commandId : String) : Shared :=
  { s with cancelled := commandId :: s.cancelled }

def CancelOp.step (s : Shared) (foregroundFree : Bool) : CancelOp → Option (Shared × CancelOp)
  | .foreground id =>
      if foregroundFree then
        if s.runtime.foreground = some (.exec id) then some (s.cancel id, .returned)
        else some (s, .background id)
      else none
  | .background id =>
      if s.runtime.background.contains id then some (s.cancel id, .returned)
      else some (s, .passed)
  | .passed | .returned => none

/-- A session and the `command_cancel` calls that look at it. -/
structure Cancellable where
  session : Lifecycle
  cancels : List CancelOp

inductive CancellableStep
  | session (move : LifecycleStep)
  | cancel (commandId : String)
  | look (cancel : Nat)
  deriving DecidableEq, Repr

namespace Cancellable

def step (s : Cancellable) : CancellableStep → Option Cancellable
  | .session move => (s.session.step move).map fun session => { s with session := session }
  | .cancel id => some { s with cancels := s.cancels ++ [.foreground id] }
  | .look j => do
      let cancel ← s.cancels[j]?
      let (shared, cancel) ← cancel.step s.session.shared s.session.foregroundFree
      return ⟨{ s.session with shared := shared }, s.cancels.set j cancel⟩

def machine : Machine Cancellable CancellableStep := ⟨step⟩

/-- The storage calls of the starts succeed. -/
def Stored (s : Cancellable) : CancellableStep → Prop
  | .session move => s.session.Stored move
  | _ => True

instance (s : Cancellable) : DecidablePred s.Stored
  | .session move => inferInstanceAs (Decidable (s.session.Stored move))
  | .cancel _ | .look _ => isTrue trivial

/-- A `command_cancel` only adds to the cancelled execs. -/
theorem look_session {s s' : Cancellable} {j : Nat} (h : s.step (.look j) = some s') :
    ∃ cancelled, (∀ id ∈ s.session.shared.cancelled, id ∈ cancelled) ∧
      s'.session =
        { s.session with shared := { s.session.shared with cancelled := cancelled } } := by
  simp only [step, Option.bind_eq_bind, Option.bind_eq_some_iff] at h
  obtain ⟨cancel, -, ⟨shared, cancel'⟩, hstep, h⟩ := h
  cases h
  cases cancel with
  | foreground id =>
      simp only [CancelOp.step] at hstep
      split at hstep
      · split at hstep
        · cases hstep
          exact ⟨_, fun _ h => List.mem_cons_of_mem _ h, rfl⟩
        · cases hstep
          exact ⟨_, fun _ h => h, rfl⟩
      · cases hstep
  | background id =>
      simp only [CancelOp.step] at hstep
      split at hstep
      · cases hstep
        exact ⟨_, fun _ h => List.mem_cons_of_mem _ h, rfl⟩
      · cases hstep
        exact ⟨_, fun _ h => h, rfl⟩
  | passed | returned => cases hstep

theorem look_keeps {s s' : Cancellable} {j : Nat} (h : s.step (.look j) = some s') :
    s'.session.slot = s.session.slot ∧ s'.session.ops = s.session.ops := by
  obtain ⟨cancelled, -, hsession⟩ := look_session h
  rw [hsession]
  exact ⟨rfl, rfl⟩

/-- What a step does to the slot. -/
def SlotStep (s s' : Cancellable) : CancellableStep → Prop
  | .session move => s.session.SlotStep s'.session move
  | _ => s'.session.slot = s.session.slot

/-- Nothing stays in the slot that no operation will take out. -/
structure Attended (s : Cancellable) : Prop where
  owned : s.session.Owned
  released : (∀ op ∈ s.session.ops, ∃ result, op = .returned result) → s.session.slot = none

theorem attended_of_owned {s : Cancellable} (h : s.session.Owned) : s.Attended where
  owned := h
  released := by
    intro hreturned
    cases hslot : s.session.slot with
    | none => rfl
    | some f =>
        obtain ⟨op, hop, howner⟩ := h f hslot
        obtain ⟨result, rfl⟩ := hreturned op hop
        cases howner

theorem kept_step {s s' : Cancellable} {move : CancellableStep}
    (h : s.session.Locked ∧ s.session.Owned) (hstored : s.Stored move)
    (hstep : s.step move = some s') :
    (s'.session.Locked ∧ s'.session.Owned) ∧ s.SlotStep s' move := by
  obtain ⟨hlocked, howned⟩ := h
  cases move with
  | session move =>
      obtain ⟨session, hsession, rfl⟩ := Option.map_eq_some_iff.mp hstep
      exact ⟨⟨hlocked.step hsession, howned.step hstored hsession⟩, hlocked.slotStep hsession⟩
  | cancel id =>
      cases hstep
      exact ⟨⟨hlocked, howned⟩, rfl⟩
  | look j =>
      obtain ⟨hslot, hops⟩ := look_keeps hstep
      refine ⟨⟨⟨?_, ?_⟩, ?_⟩, hslot⟩
      · rw [hops]
        exact hlocked.exclusive
      · rw [hops, hslot]
        exact hlocked.reserved
      · rw [Lifecycle.Owned]
        rw [hops, hslot]
        exact howned

/-- In every interleaving the slot is exclusive: a finalising task takes out only its own
identifier, a content is followed by another through empty only, and in every state
reached what is in the slot belongs to an operation that has not returned or a task that
has not finalised. -/
theorem foreground_slot_exclusive {storage : Storage} {info : SessionInfo} {attempts : Nat}
    {now : Now} {moves : List CancellableStep} {t : Cancellable}
    (hstored : machine.Meets Stored ⟨.created storage info attempts now, []⟩ moves)
    (hrun : machine.run ⟨.created storage info attempts now, []⟩ moves = some t) :
    machine.Meets (fun s move => ∀ s', machine.step s move = some s' → s.SlotStep s' move)
        ⟨.created storage info attempts now, []⟩ moves ∧
      t.Attended := by
  have hstart : (Lifecycle.created storage info attempts now).Locked ∧
      (Lifecycle.created storage info attempts now).Owned :=
    ⟨Lifecycle.created_locked _ _ _ _, Lifecycle.created_owned _ _ _ _⟩
  constructor
  · exact machine.meets_of_invariant (I := fun s => s.session.Locked ∧ s.session.Owned)
      (fun _ _ _ h hstored hstep => (kept_step h hstored hstep).1)
      (fun _ _ _ h hstored _ _ hstep => (kept_step h hstored hstep).2) hstart hstored hrun
  · have hend : t.session.Locked ∧ t.session.Owned :=
      machine.invariant_under (I := fun s => s.session.Locked ∧ s.session.Owned)
        (fun _ _ _ h hstored hstep => (kept_step h hstored hstep).1) hstart hstored hrun
    exact attended_of_owned hend.2

/-- A foreground exec is started and `command_cancel` finds it. -/
theorem foreground_slot_exclusive_cancelled :
    ∃ moves t, machine.run
        ⟨.created (.openWith .empty 1) (.created "s" "t" "t" "p" "m" ⟨0, 0⟩) 1 ⟨0, 0⟩, []⟩ moves =
          some t ∧
      t.cancels = [.returned] ∧ t.session.slot = some (.exec "e") ∧ t.Attended := by
  let start : Cancellable :=
    ⟨.created (.openWith .empty 1) (.created "s" "t" "t" "p" "m" ⟨0, 0⟩) 1 ⟨0, 0⟩, []⟩
  let moves : List CancellableStep :=
    [.session (.advance 0 (.connected ⟨"c", "f"⟩) ⟨1, 1⟩), .session (.advance 0 .ok ⟨2, 2⟩),
      .session (.advance 0 .ok ⟨3, 3⟩), .session (.call (.startExec "ls" false)),
      .session (.advance 1 .ok ⟨4, 4⟩), .session (.advance 1 .ok ⟨5, 5⟩),
      .session (.advance 1 (.opened "e") ⟨6, 6⟩), .session (.advance 1 .ok ⟨7, 7⟩),
      .session (.advance 1 .ok ⟨8, 8⟩), .cancel "e", .look 0]
  have hall : ((machine.run start moves).any fun t =>
      decide (t.cancels = [.returned] ∧ t.session.slot = some (.exec "e"))) = true := by decide
  have hstored : machine.Meets Stored start moves := by decide
  obtain ⟨t, hrun, ht⟩ := (Option.any_eq_true _ _).mp hall
  have ht := of_decide_eq_true ht
  exact ⟨moves, t, hrun, ht.1, ht.2, (foreground_slot_exclusive hstored hrun).2⟩

end Cancellable
end AiSsh
