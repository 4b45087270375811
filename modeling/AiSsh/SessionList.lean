import AiSsh.ClosedAt
import AiSsh.Library.Keyed
import AiSsh.StoredTime

/-!
The listing of the sessions. The active ones are those of the map, whatever their status;
the history adds the stored ones that are not in the map. `create` puts a session into the
map before it dials, and no operation takes it out again.
-/

namespace AiSsh

open Library

/-- The record as `status` and `sessions` return it. -/
def SessionRuntime.shown (runtime : SessionRuntime) : SessionInfo :=
  { runtime.info with recordingTruncated := runtime.recordingTruncated }

def Cancellable.shown (s : Cancellable) : SessionInfo := s.session.shared.runtime.shown

def SessionInfo.notOlder (a b : SessionInfo) : Bool := decide (b.createdAt ≤ a.createdAt)

/-- `sessions`, with the map read in the order of `active`. -/
def listSessions (active : List Cancellable) (storage : Storage) (includeHistory : Bool) :
    List SessionInfo :=
  let result := active.map Cancellable.shown
  (if includeHistory then addNew SessionInfo.id result storage.sessions else result).mergeSort
    SessionInfo.notOlder

namespace Daemon

/-- The listing with history: every session of the map or the store, once, newest first,
and those of the map as they are there. -/
structure ListsAll (d : Daemon) (list : List SessionInfo) : Prop where
  once : (list.map SessionInfo.id).Nodup
  known : ∀ id, id ∈ list.map SessionInfo.id ↔
    (∃ s ∈ d.sessions, s.info.id = id) ∨ ∃ row ∈ d.storage.db.sessions, row.info.id = id
  newest : list.Pairwise fun a b => b.createdAt ≤ a.createdAt
  live : ∀ s ∈ d.sessions, s.shown ∈ list
  stored : ∀ info ∈ list,
    (∃ s ∈ d.sessions, s.shown = info) ∨ ∃ row ∈ d.storage.db.sessions, row.info = info

/-- The listing without history: the sessions that have not ended, once each. -/
structure ListsActive (d : Daemon) (list : List SessionInfo) : Prop where
  once : (list.map SessionInfo.id).Nodup
  active : ∀ info, info ∈ list ↔
    ∃ s ∈ d.sessions, s.shown = info ∧ info.status.hasEnded = false

/-- The listings part the active sessions from the others, and the map holds active ones
only. -/
structure PartsSessions (d : Daemon) : Prop where
  all : ∀ active, active.Perm d.sessions → d.ListsAll (listSessions active d.storage true)
  active : ∀ active, active.Perm d.sessions →
    d.ListsActive (listSessions active d.storage false)
  kept : ∀ s ∈ d.sessions, s.info.status.hasEnded = false

/-- The keys of the map, and where they come from. -/
structure Keyed (d : Daemon) : Prop where
  once : (d.sessions.map fun s => s.info.id).Nodup
  used : ∀ s ∈ d.sessions, s.info.id ∈ d.used

variable {d d' : Daemon} {active : List Cancellable}

theorem pairwise_newest (list : List SessionInfo) :
    (list.mergeSort SessionInfo.notOlder).Pairwise fun a b => b.createdAt ≤ a.createdAt := by
  have hsorted := List.pairwise_mergeSort
    (fun a b c (hab : SessionInfo.notOlder a b = true) (hbc : SessionInfo.notOlder b c = true) =>
      decide_eq_true (Int.le_trans (of_decide_eq_true hbc) (of_decide_eq_true hab)))
    (fun a b => by simpa [SessionInfo.notOlder] using Int.le_total b.createdAt a.createdAt) list
  exact hsorted.imp fun h => of_decide_eq_true h

theorem ids_shown (active : List Cancellable) :
    (active.map Cancellable.shown).map SessionInfo.id = active.map fun s => s.info.id := by
  rw [List.map_map]
  rfl

theorem ids_nodup (h : d.Keyed) (hactive : active.Perm d.sessions) :
    ((active.map Cancellable.shown).map SessionInfo.id).Nodup := by
  rw [ids_shown]
  exact (hactive.map _).nodup_iff.mpr h.once

theorem mem_sessions_ids {s : Storage} {id : String} :
    id ∈ s.sessions.map SessionInfo.id ↔ ∃ row ∈ s.db.sessions, row.info.id = id := by
  have hperm : s.sessions.Perm (s.db.sessions.map SessionRow.info) := List.mergeSort_perm _ _
  rw [(hperm.map _).mem_iff]
  simp

theorem Keyed.listsAll (h : d.Keyed) (hactive : active.Perm d.sessions) :
    d.ListsAll (listSessions active d.storage true) := by
  have hperm : (listSessions active d.storage true).Perm
      (addNew SessionInfo.id (active.map Cancellable.shown) d.storage.sessions) :=
    List.mergeSort_perm _ _
  constructor
  · exact (hperm.map _).nodup_iff.mpr (nodup_addNew (ids_nodup h hactive))
  · intro id
    rw [(hperm.map _).mem_iff, mem_keys_addNew, mem_sessions_ids, ids_shown,
      (hactive.map _).mem_iff, List.mem_map]
  · exact pairwise_newest _
  · intro s hs
    rw [hperm.mem_iff]
    exact known_subset_addNew (List.mem_map_of_mem (hactive.mem_iff.mpr hs))
  · intro info hinfo
    cases mem_addNew (hperm.mem_iff.mp hinfo) with
    | inl hlive =>
        obtain ⟨s, hs, hshown⟩ := List.mem_map.mp hlive
        exact .inl ⟨s, hactive.mem_iff.mp hs, hshown⟩
    | inr hstored =>
        have hrows : d.storage.sessions.Perm (d.storage.db.sessions.map SessionRow.info) :=
          List.mergeSort_perm _ _
        exact .inr (List.mem_map.mp (hrows.mem_iff.mp hstored))

theorem Keyed.listsActive (h : d.Keyed) (hactive : active.Perm d.sessions)
    (hopen : ∀ s ∈ d.sessions, s.info.status.hasEnded = false) :
    d.ListsActive (listSessions active d.storage false) := by
  have hperm : (listSessions active d.storage false).Perm (active.map Cancellable.shown) :=
    List.mergeSort_perm _ _
  constructor
  · exact (hperm.map _).nodup_iff.mpr (ids_nodup h hactive)
  · intro info
    rw [hperm.mem_iff, List.mem_map]
    constructor
    · intro hmem
      obtain ⟨s, hs, hshown⟩ := hmem
      have hs := hactive.mem_iff.mp hs
      exact ⟨s, hs, hshown, hshown ▸ hopen s hs⟩
    · intro hmem
      obtain ⟨s, hs, hshown, -⟩ := hmem
      exact ⟨s, hactive.mem_iff.mpr hs, hshown⟩

end Daemon

namespace Op

/-- The writes that end a session. -/
def endsSession : Op → Bool
  | .createFailed _ | .closeInfo => true
  | _ => false

variable {s s' : Shared} {foregroundFree : Bool} {answer : Answer} {now : Now} {op op' : Op}

theorem Moves.info_id (h : op.Moves s foregroundFree now answer s' op') :
    s'.runtime.info.id = s.runtime.info.id := by
  cases h with
  | reconnected | reconnectFailed | execFinished | ptyFinished =>
      simp only [Shared.wake, Shared.writeOpenInfo]
      split
      · rfl
      · rfl
  | _ => rfl

theorem writeOpenInfo_open {info : SessionInfo} (stored : Bool)
    (hold : s.runtime.info.status.hasEnded = false) (hnew : info.status.hasEnded = false) :
    (s.writeOpenInfo info stored).runtime.info.status.hasEnded = false := by
  rw [Shared.writeOpenInfo]
  split
  · exact hnew
  · exact hold

/-- A session ends with the failure of its `create` or with a `close`. -/
theorem Moves.endsSession (h : op.Moves s foregroundFree now answer s' op')
    (hopen : s.runtime.info.status.hasEnded = false) :
    s'.runtime.info.status.hasEnded = op.endsSession := by
  cases h with
  | createReady | createFailed | startedExec | startedPty | execNotStored | ptyNotStored
  | closed => rfl
  | reconnected => exact writeOpenInfo_open _ hopen (reconnected_open _ hopen)
  | reconnectFailed => exact writeOpenInfo_open _ hopen rfl
  | execFinished => exact writeOpenInfo_open _ hopen (execFinished_status _ _ _).2
  | ptyFinished => exact writeOpenInfo_open _ hopen (ptyFinished_status _ _).2
  | _ => exact hopen

end Op

namespace Daemon

variable {d d' : Daemon}

/-- No session ends. -/
def EndsNone (d : Daemon) : DaemonStep → Prop
  | .session k (.session (.advance i _ _)) => ∀ s ∈ d.sessions[k]?, ∀ op ∈ s.session.ops[i]?,
      op.endsSession = false
  | _ => True

theorem keyed_set {k : Nat} {s s' : Cancellable} (h : d.Keyed) (hs : d.sessions[k]? = some s)
    (hsessions : d'.sessions = d.sessions.set k s') (hid : s'.info.id = s.info.id)
    (hused : ∀ id ∈ d.used, id ∈ d'.used) : d'.Keyed where
  once := by
    have hsame : (d.sessions.set k s').map (fun s => s.info.id) =
        d.sessions.map fun s => s.info.id := by
      obtain ⟨hlt, rfl⟩ := List.getElem?_eq_some_iff.mp hs
      rw [List.map_set, hid, ← List.map_set, List.set_getElem_self]
    rw [hsessions, hsame]
    exact h.once
  used := by
    intro x hx
    rw [hsessions] at hx
    cases List.mem_or_eq_of_mem_set hx with
    | inl hmem => exact hused _ (h.used x hmem)
    | inr hsame =>
        rw [hsame, hid]
        exact hused _ (h.used s (List.mem_of_getElem? hs))

/-- The map holds sessions that have not ended. -/
def AllOpen (d : Daemon) : Prop := ∀ s ∈ d.sessions, s.info.status.hasEnded = false

theorem allOpen_set {k : Nat} {s' : Cancellable} (h : d.AllOpen)
    (hsessions : d'.sessions = d.sessions.set k s') (hs : s'.info.status.hasEnded = false) :
    d'.AllOpen := by
  intro x hx
  rw [hsessions] at hx
  cases List.mem_or_eq_of_mem_set hx with
  | inl hmem => exact h x hmem
  | inr hsame => exact hsame ▸ hs

theorem parts_iff (h : d.Keyed) : d.PartsSessions ↔ d.AllOpen :=
  ⟨fun hparts => hparts.kept, fun hopen =>
    ⟨fun _ hactive => h.listsAll hactive, fun _ hactive => h.listsActive hactive hopen, hopen⟩⟩

theorem Keyed.step (h : d.Keyed) {move : DaemonStep} (hstep : d.step move = some d') :
    d'.Keyed := by
  have hused : ∀ id ∈ d.used, id ∈ d'.used := fun id hid => used_of_step hstep hid
  cases turns_of_step hstep with
  | kept hsessions =>
      exact ⟨hsessions ▸ h.once, fun s hs => hused _ (h.used s (hsessions ▸ hs))⟩
  | crashed hsessions =>
      refine ⟨by simp [hsessions], fun s hs => ?_⟩
      rw [hsessions] at hs
      cases hs
  | @created info attempts now hnew hnew' hsessions =>
      refine ⟨?_, fun s hs => ?_⟩
      · rw [hsessions, List.map_append, List.map_singleton, ← List.concat_eq_append]
        refine (List.nodup_concat _ _).mpr ⟨fun hmem => ?_, h.once⟩
        obtain ⟨s, hs, hid⟩ := List.mem_map.mp hmem
        have hold := h.used s hs
        rw [hid] at hold
        exact hnew hold
      · rw [hsessions] at hs
        cases List.mem_append.mp hs with
        | inl hmem => exact hused _ (h.used s hmem)
        | inr hmem =>
            rw [List.mem_singleton.mp hmem]
            exact hnew'
  | called hs hsessions hcall =>
      refine keyed_set h hs hsessions ?_ hused
      rw [Cancellable.info, ← Option.some.inj hcall]
      rfl
  | touched hs hsessions hinfo hslot hops =>
      refine keyed_set h hs hsessions ?_ hused
      rw [Cancellable.info, hinfo]
      rfl
  | advanced hs hop hsessions hmove hown =>
      obtain ⟨op, op', others, hop, -, -, hown⟩ := Lifecycle.step_own hown
      exact keyed_set h hs hsessions (Op.moves_of_step hown).info_id hused

theorem AllOpen.step (h : d.AllOpen) {move : DaemonStep} (hrecord : move.buildsRecord = true)
    (hends : d.EndsNone move) (hstep : d.step move = some d') : d'.AllOpen := by
  cases turns_of_step hstep with
  | kept hsessions => exact fun s hs => h s (hsessions ▸ hs)
  | crashed hsessions =>
      intro s hs
      rw [hsessions] at hs
      cases hs
  | created hnew hused hsessions =>
      intro s hs
      rw [hsessions] at hs
      cases List.mem_append.mp hs with
      | inl hmem => exact h s hmem
      | inr hmem =>
          rw [DaemonStep.buildsRecord, beq_iff_eq] at hrecord
          rw [List.mem_singleton.mp hmem, hrecord]
          rfl
  | called hs hsessions hcall =>
      refine allOpen_set h hsessions ?_
      rename_i k call s s'
      have hopen : s.info.status.hasEnded = false := h s (List.mem_of_getElem? hs)
      rw [Cancellable.info, ← Option.some.inj hcall]
      exact hopen
  | touched hs hsessions hinfo hslot hops =>
      refine allOpen_set h hsessions ?_
      rw [Cancellable.info, hinfo]
      exact h _ (List.mem_of_getElem? hs)
  | advanced hs hop hsessions hmove hown =>
      rename_i k i answer now s s' op
      obtain ⟨x, x', others, hx, -, -, hown⟩ := Lifecycle.step_own hown
      have hx : s.session.ops[i]? = some x := hx
      cases hop.symm.trans hx
      have hended := (Op.moves_of_step hown).endsSession (h s (List.mem_of_getElem? hs))
      refine allOpen_set h hsessions (hended.trans ?_)
      cases hmove with
      | inl hmove =>
          subst hmove
          exact hends s hs op hop
      | inr hrun =>
          cases op with
          | runExec command background => rfl
          | _ => cases hrun

/-- After a step the map holds open sessions only if it has ended none. -/
theorem AllOpen.endsNone (h : d.AllOpen) {move : DaemonStep} (hstep : d.step move = some d')
    (hopen : d'.AllOpen) : d.EndsNone move := by
  cases move with
  | session k move =>
      cases move with
      | session move =>
          cases move with
          | advance i answer now =>
              intro s hs op hop
              obtain ⟨x, s', y, op', hx, hy, hsessions, -, hown⟩ := session_advance hstep
              cases hs.symm.trans hx
              cases hop.symm.trans hy
              have hmem : s' ∈ d'.sessions := by
                rw [hsessions]
                exact List.mem_set (List.getElem?_eq_some_iff.mp hs).1 s'
              have hended := (Op.moves_of_step hown).endsSession (h s (List.mem_of_getElem? hs))
              exact hended.symm.trans (hopen s' hmem)
          | call _ | die _ => trivial
      | cancel _ | look _ => trivial
  | _ => trivial

end Daemon

namespace Reaping

/-- `create` starts from the record it builds. -/
def buildsRecord (s : Reaping) (move : ReapingStep) : Bool :=
  (s.request move).all DaemonStep.buildsRecord

def EndsNone (s : Reaping) (move : ReapingStep) : Prop :=
  ∀ move' ∈ s.request move, s.daemon.EndsNone move'

/-- The daemon with its reaper, in any interleaving. -/
def serving : Machine Reaping ReapingStep := machine.guard buildsRecord

variable {t : Reaping}

/-- In every state of a run the listings part the sessions, when and only when none ends. -/
theorem sessions_parted_iff {db : Database} {moves : List ReapingStep}
    (hrun : serving.run (initial db) moves = some t) :
    serving.Meets (fun s _ => s.daemon.PartsSessions) (initial db) moves ∧
        t.daemon.PartsSessions ↔
      serving.Meets EndsNone (initial db) moves := by
  refine meets_iff_of_daemon (P := fun d => d.Keyed ∧ d.AllOpen) (R := Daemon.PartsSessions)
    (C := Daemon.EndsNone) (fun d h => (Daemon.parts_iff h.1).mpr h.2) ?_ ?_
    (fun _ _ _ => trivial) (fun _ _ _ => trivial) ?_ hrun
  · intro s move d h hbuilds move' hrequest hends hstep
    rw [buildsRecord, hrequest] at hbuilds
    exact ⟨h.1.step hstep, h.2.step hbuilds hends hstep⟩
  · intro d move d' h hstep hparts
    exact h.2.endsNone hstep ((Daemon.parts_iff (h.1.step hstep)).mp hparts)
  · exact ⟨⟨List.nodup_nil, fun s hs => by cases hs⟩, fun s hs => by cases hs⟩

/-- The listing with history is right in every state of every run. -/
theorem listsAll_of_run {db : Database} {moves : List ReapingStep}
    (hrun : serving.run (initial db) moves = some t) (active : List Cancellable)
    (hactive : active.Perm t.daemon.sessions) :
    t.daemon.ListsAll (listSessions active t.daemon.storage true) := by
  have hkeyed : t.daemon.Keyed := by
    have hinitial : (initial db).daemon.Keyed := ⟨List.nodup_nil, fun s hs => by cases hs⟩
    refine serving.invariant (I := fun s => s.daemon.Keyed) ?_ hinitial hrun
    intro s move s' h hstep
    obtain ⟨-, hstep⟩ := machine.guard_step hstep
    cases request_of_step hstep with
    | inl hsame => exact hsame ▸ h
    | inr hmoved =>
        obtain ⟨move', -, hstep'⟩ := hmoved
        exact h.step hstep'
  exact hkeyed.listsAll hactive

/-- A session is created and connected. -/
theorem sessions_parted_iff_connected : ∃ t,
    serving.run (initial .empty) connectedSteps = some t ∧
      (serving.Meets (fun s _ => s.daemon.PartsSessions) (initial .empty) connectedSteps ∧
          t.daemon.PartsSessions ↔
        serving.Meets EndsNone (initial .empty) connectedSteps) := by
  have hsome : (serving.run (initial .empty) connectedSteps).isSome = true := by decide
  obtain ⟨t, hrun⟩ := Option.isSome_iff_exists.mp hsome
  exact ⟨t, hrun, sessions_parted_iff hrun⟩

/-- A session that its client has closed is listed as an active one. -/
theorem closed_session_is_listed : ∃ moves t,
    serving.run (initial .empty) moves = some t ∧
      (listSessions t.daemon.sessions t.daemon.storage false).map SessionInfo.status = [.closed] ∧
      ¬t.daemon.PartsSessions := by
  let moves : List ReapingStep := connectedSteps ++
    .daemon (.session 0 (.session (.call .close))) :: advances 1 5 ⟨4, 4⟩
  have hall : ((serving.run (initial .empty) moves).any fun t =>
      decide (t.daemon.sessions.map (fun s => s.shown.status) = [.closed])) = true := by decide
  obtain ⟨t, hrun, ht⟩ := (Option.any_eq_true _ _).mp hall
  have hclosed := of_decide_eq_true ht
  refine ⟨moves, t, hrun, ?_, fun hparts => ?_⟩
  · have hsame : (t.daemon.sessions.map Cancellable.shown).map SessionInfo.status = [.closed] := by
      rw [List.map_map]
      exact hclosed
    have hperm : (listSessions t.daemon.sessions t.daemon.storage false).Perm
        (t.daemon.sessions.map Cancellable.shown) := List.mergeSort_perm _ _
    have hmap := hperm.map SessionInfo.status
    rw [hsame] at hmap
    exact List.perm_singleton.mp hmap
  · cases hsessions : t.daemon.sessions with
    | nil =>
        rw [hsessions] at hclosed
        cases hclosed
    | cons s rest =>
        rw [hsessions, List.map_cons] at hclosed
        have hended : s.info.status = .closed := (List.cons.inj hclosed).1
        have hopen := hparts.kept s (hsessions ▸ List.mem_cons_self)
        rw [hended] at hopen
        cases hopen

end Reaping
end AiSsh
