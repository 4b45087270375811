import AiSsh.Library.Generations
import AiSsh.Daemon

/-!
Who empties the connection slot. `discard_connection` is called for the connection that an
operation has failed on, and takes whatever the slot holds. The session carries a history that
the daemon does not keep: the connections that the slot has held, and for each operation the
one it got, with how many there had been by then.
-/

namespace AiSsh

open Library

namespace Op

/-- The steps of `discard_connection`. -/
def discards : Op → Bool
  | .openFailed _ _ | .execDiscard _ _ _ | .ptyDiscard => true
  | _ => false

/-- From the connection on until a discard is past. -/
def works : Op → Bool
  | .opening _ _ | .openFailed _ _ | .installExec _ _ | .installPty _ | .startedExec _
  | .startedPty _ | .runExec _ _ | .execDiscard _ _ _ | .runPty _ | .ptyRelease _
  | .ptyDiscard => true
  | _ => false

/-- A connection on its way into the slot. -/
def carries : Op → Option SshConnection
  | .createStore connection | .dialed _ connection | .store _ connection => some connection
  | _ => none

/-- What a step puts into the slot. -/
def puts (s : Shared) : Op → Option SshConnection
  | .createStore connection => some connection
  | .store _ connection => if s.liveConnection.isNone then some connection else none
  | _ => none

/-- The connection that an operation has just been given. -/
def obtains : Op → Option SshConnection
  | .opening _ connection => some connection
  | _ => none

end Op

structure Sourced where
  session : Lifecycle
  uses : List (Option (SshConnection × Nat))
  held : List SshConnection

namespace Sourced

def slot (s : Sourced) : Option SshConnection := s.session.shared.runtime.connection

/-- The operation that a step moves on. -/
def moving (s : Sourced) : LifecycleStep → Option Op
  | .advance i _ _ => s.session.ops[i]?
  | _ => none

def step (s : Sourced) (move : LifecycleStep) : Option Sourced :=
  (s.session.step move).map fun session =>
    match move with
    | .call _ => { s with session := session, uses := s.uses ++ [none] }
    | .die _ => { s with session := session }
    | .advance i _ _ =>
        let held := ((s.moving move).bind (Op.puts s.session.shared)).toList ++ s.held
        { session := session
          uses :=
            match session.ops[i]?.bind Op.obtains with
            | some connection => s.uses.set i (some (connection, held.length))
            | none => s.uses
          held := held }

def machine : Machine Sourced LifecycleStep := ⟨step⟩

def created (storage : Storage) (info : SessionInfo) (reconnectAttempts : Nat) (now : Now) :
    Sourced :=
  ⟨.created storage info reconnectAttempts now, [none], []⟩

/-- The connection that the operation at `i` works on, with its stamp. -/
def use (s : Sourced) (i : Nat) : Option (SshConnection × Nat) := s.uses[i]?.join

/-- What a discard takes out of the slot is the connection that the operation has failed on. -/
def TakesOwn (s : Sourced) : LifecycleStep → Prop
  | .advance i _ _ => ∀ op ∈ s.session.ops[i]?, op.discards = true →
      ∀ connection ∈ s.slot, (s.use i).map Prod.fst = some connection
  | _ => True

/-- A discard comes before the slot has got another connection than the operation, or finds
the slot empty. -/
def InTime (s : Sourced) : LifecycleStep → Prop
  | .advance i _ _ => ∀ op ∈ s.session.ops[i]?, op.discards = true →
      s.slot = none ∨ (s.use i).map Prod.snd = some s.held.length
  | _ => True

instance (s : Sourced) : DecidablePred s.TakesOwn
  | .advance i _ _ => inferInstanceAs (Decidable (∀ op ∈ s.session.ops[i]?, op.discards = true →
      ∀ connection ∈ s.slot, (s.use i).map Prod.fst = some connection))
  | .call _ | .die _ => isTrue trivial

instance (s : Sourced) : DecidablePred s.InTime
  | .advance i _ _ => inferInstanceAs (Decidable (∀ op ∈ s.session.ops[i]?, op.discards = true →
      s.slot = none ∨ (s.use i).map Prod.snd = some s.held.length))
  | .call _ | .die _ => isTrue trivial

end Sourced

namespace Op

variable {s s' : Shared} {foregroundFree connectionFree : Bool} {answer : Answer} {now : Now}
  {op op' : Op}

@[simp] theorem execNext_works (id : String) (background interrupted : Bool)
    (exit : Option UInt32) : (execNext id background interrupted exit).works = false := by
  cases background with
  | false => rfl
  | true => rfl

@[simp] theorem execNext_carries (id : String) (background interrupted : Bool)
    (exit : Option UInt32) : (execNext id background interrupted exit).carries = none := by
  cases background with
  | false => rfl
  | true => rfl

@[simp] theorem execNext_obtains (id : String) (background interrupted : Bool)
    (exit : Option UInt32) : (execNext id background interrupted exit).obtains = none := by
  cases background with
  | false => rfl
  | true => rfl

theorem liveConnection_slot {connection : SshConnection} (h : s.liveConnection = some connection) :
    s.runtime.connection = some connection := (Option.filter_eq_some_iff.mp h).1

/-- An operation gets the connection that the slot holds. -/
theorem Moves.obtains {connection : SshConnection}
    (h : op.Moves s foregroundFree now answer s' op') (hop' : op'.obtains = some connection) :
    s'.runtime.connection = some connection := by
  cases h with
  | found live | overtaken live =>
      cases hop'
      exact liveConnection_slot live
  | stored =>
      cases hop'
      rfl
  | execEnded | execDiscarded =>
      rw [execNext_obtains] at hop'
      cases hop'
  | _ => cases hop'

theorem Moves.works (h : op.Moves s foregroundFree now answer s' op') (hop' : op'.works = true) :
    op.works = true ∨ op'.obtains.isSome = true := by
  cases h with
  | found | overtaken | stored => exact .inr rfl
  | execOpened | ptyOpened | openFailed | installedBackground | installedExec | installedPty
  | startedExec | startedPty | execInterrupted | ptyEnded | ptyReleased => exact .inl rfl
  | execEnded | execDiscarded =>
      rw [execNext_works] at hop'
      cases hop'
  | _ => cases hop'

/-- The slot changes by what is put into it and by what empties it. -/
theorem Moves.connection (h : op.Moves s foregroundFree now answer s' op') :
    match op.puts s with
    | some connection => s'.runtime.connection = some connection
    | none => s'.runtime.connection = s.runtime.connection ∨ s'.runtime.connection = none := by
  cases h with
  | createStored => rfl
  | overtaken live =>
      rw [puts, live]
      exact .inl rfl
  | stored dead =>
      rw [puts, dead]
      rfl
  | openDiscarded | execDiscarded | ptyDiscarded | connectionTaken => exact .inr rfl
  | reconnected | reconnectFailed | execFinished | ptyFinished =>
      left
      simp only [Shared.wake, Shared.writeOpenInfo]
      split
      · rfl
      · rfl
  | _ => exact .inl rfl

/-- What is put into the slot is no longer on its way. -/
theorem Moves.arrives {connection : SshConnection}
    (h : op.Moves s foregroundFree now answer s' op') (hputs : op.puts s = some connection) :
    op.carries = some connection ∧ op'.carries = none := by
  cases h with
  | createStored =>
      cases hputs
      exact ⟨rfl, rfl⟩
  | overtaken live =>
      rw [puts, live] at hputs
      cases hputs
  | stored dead =>
      rw [puts, dead] at hputs
      cases hputs
      exact ⟨rfl, rfl⟩
  | _ => cases hputs

/-- A connection on its way has just been dialled, or was on its way before. -/
theorem carries_of_step {connection : SshConnection}
    (h : op.step s foregroundFree connectionFree answer now = some (s', op'))
    (hop' : op'.carries = some connection) :
    op.carries = some connection ∧ op.puts s = none ∨
      op.carries = none ∧ connection.id ∉ s.used ∧ connection.id ∈ s'.used := by
  have hmoves := moves_of_step h
  cases hmoves with
  | createConnected | dialled =>
      cases hop'
      simp only [step, stepCreate, stepConnect] at h
      split at h
      · cases h
      · rename_i hfresh
        exact .inr ⟨rfl, by simpa using hfresh, List.mem_cons_self⟩
  | reconnected => exact .inl ⟨hop', rfl⟩
  | execEnded | execDiscarded =>
      rw [execNext_carries] at hop'
      cases hop'
  | _ => cases hop'

end Op

namespace Sourced

variable {s t : Sourced} {move : LifecycleStep}

/-- The connections that the slot has held and those on their way are all different. -/
structure Apart (s : Sourced) : Prop where
  distinct : ((s.held ++ s.session.ops.filterMap Op.carries).map SshConnection.id).Nodup
  handed : ∀ connection ∈ s.held ++ s.session.ops.filterMap Op.carries,
    connection.id ∈ s.session.shared.used

/-- The slot holds what it was given last, and an operation works on what it has got. -/
structure Stamped (s : Sourced) : Prop where
  slot : ∀ connection ∈ s.slot, s.held.head? = some connection
  length : s.uses.length = s.session.ops.length
  uses : ∀ (i : Nat) (op : Op), s.session.ops[i]? = some op → op.works = true →
    ∃ connection n, s.uses[i]? = some (some (connection, n)) ∧
      stamped s.held n = some connection

theorem carried_perm {ops others : List Op} {op : Op} (h : ops.Perm (op :: others)) :
    (ops.filterMap Op.carries).Perm (op.carries.toList ++ others.filterMap Op.carries) := by
  have hall := h.filterMap Op.carries
  cases hop : op.carries with
  | none =>
      rw [List.filterMap_cons_none hop] at hall
      exact hall
  | some connection =>
      rw [List.filterMap_cons_some hop] at hall
      exact hall

/-- Connections that are named apart, and by names already drawn. -/
def Drawn (used : List String) (connections : List SshConnection) : Prop :=
  (connections.map SshConnection.id).Nodup ∧ ∀ connection ∈ connections, connection.id ∈ used

theorem Drawn.perm {used : List String} {connections connections' : List SshConnection}
    (h : Drawn used connections) (hperm : connections'.Perm connections) :
    Drawn used connections' :=
  ⟨(hperm.map _).nodup_iff.mpr h.1, fun c hc => h.2 c (hperm.mem_iff.mp hc)⟩

theorem Drawn.sublist {used used' : List String} {connections connections' : List SshConnection}
    (h : Drawn used connections) (hused : ∀ id ∈ used, id ∈ used')
    (hsublist : connections'.Sublist connections) : Drawn used' connections' :=
  ⟨h.1.sublist (hsublist.map _), fun c hc => hused _ (h.2 c (hsublist.subset hc))⟩

theorem Drawn.cons {used used' : List String} {connections : List SshConnection}
    {connection : SshConnection} (h : Drawn used connections) (hused : ∀ id ∈ used, id ∈ used')
    (hfresh : connection.id ∉ used) (hnew : connection.id ∈ used') :
    Drawn used' (connection :: connections) := by
  refine ⟨?_, fun c hc => ?_⟩
  · rw [List.map_cons, List.nodup_cons]
    refine ⟨fun hmem => ?_, h.1⟩
    obtain ⟨c, hc, hsame⟩ := List.mem_map.mp hmem
    exact hfresh (hsame ▸ h.2 c hc)
  · cases List.mem_cons.mp hc with
    | inl hc => exact hc ▸ hnew
    | inr hc => exact hused _ (h.2 c hc)

theorem Apart.advance {op op' : Op} {others : List Op} {answer : Answer} {now : Now}
    (h : s.Apart) (hbefore : s.session.ops.Perm (op :: others))
    (hafter : t.session.ops.Perm (op' :: others))
    (hstep : op.step s.session.shared s.session.foregroundFree s.session.connectionFree answer
      now = some (t.session.shared, op'))
    (hheld : t.held = (op.puts s.session.shared).toList ++ s.held) : t.Apart := by
  have hmoves := Op.moves_of_step hstep
  have hused : ∀ id ∈ s.session.shared.used, id ∈ t.session.shared.used :=
    fun _ hid => hmoves.used hid
  have hold : Drawn s.session.shared.used
      (s.held ++ (op.carries.toList ++ others.filterMap Op.carries)) :=
    Drawn.perm ⟨h.distinct, h.handed⟩ ((carried_perm hbefore).symm.append_left _)
  have hnew : Drawn t.session.shared.used
      (t.held ++ (op'.carries.toList ++ others.filterMap Op.carries)) := by
    cases hputs : op.puts s.session.shared with
    | some connection =>
        obtain ⟨hcarries, hcarries'⟩ := hmoves.arrives hputs
        rw [hheld, hputs, hcarries']
        rw [hcarries] at hold
        exact (hold.perm List.perm_middle.symm).sublist hused (.refl _)
    | none =>
        rw [hheld, hputs]
        cases hcarries' : op'.carries with
        | none => exact hold.sublist hused ((List.sublist_append_right _ _).append_left _)
        | some connection =>
            cases Op.carries_of_step hstep hcarries' with
            | inl hkept =>
                rw [hkept.1] at hold
                exact hold.sublist hused (.refl _)
            | inr hdialled =>
                rw [hdialled.1] at hold
                exact (hold.cons hused hdialled.2.1 hdialled.2.2).perm List.perm_middle
  have hall := hnew.perm ((carried_perm hafter).append_left _)
  exact ⟨hall.1, hall.2⟩

theorem stamped_prepend {held : List SshConnection} {n : Nat} {connection : SshConnection}
    (more : Option SshConnection) (h : stamped held n = some connection) :
    stamped (more.toList ++ held) n = some connection := by
  cases more with
  | none => exact h
  | some newest => exact stamped_cons h

/-- The slot holds what it was given last. -/
theorem newest_advance {op op' : Op} {answer : Answer} {now : Now}
    (hslot : ∀ connection ∈ s.slot, s.held.head? = some connection)
    (hmoves : op.Moves s.session.shared s.session.foregroundFree now answer t.session.shared op')
    (hheld : t.held = (op.puts s.session.shared).toList ++ s.held) :
    ∀ connection ∈ t.slot, t.held.head? = some connection := by
  intro connection hconnection
  have hchange := hmoves.connection
  rw [hheld]
  cases hputs : op.puts s.session.shared with
  | some newest =>
      rw [hputs] at hchange
      cases hchange.symm.trans hconnection
      rfl
  | none =>
      rw [hputs] at hchange
      cases hchange with
      | inl hsame => exact hslot connection (hsame.symm.trans hconnection)
      | inr hnone => cases hnone.symm.trans hconnection

theorem Stamped.advance {i : Nat} {answer : Answer} {now : Now} (h : s.Stamped)
    (hstep : s.step (.advance i answer now) = some t) : t.Stamped := by
  obtain ⟨session, hsession, ht⟩ := Option.map_eq_some_iff.mp hstep
  simp only [Lifecycle.step, Option.bind_eq_bind, Option.bind_eq_some_iff] at hsession
  obtain ⟨op, hop, ⟨shared, op'⟩, hown, hsession⟩ := hsession
  cases hsession
  have hmoves := Op.moves_of_step hown
  obtain ⟨hlt, -⟩ := List.getElem?_eq_some_iff.mp hop
  have hlt' : i < s.uses.length := h.length ▸ hlt
  have hnow : (s.session.ops.set i op')[i]? = some op' := List.getElem?_set_self hlt
  have hheld : t.held = (op.puts s.session.shared).toList ++ s.held := by
    rw [← ht]
    simp only [moving, hop, Option.bind_some]
  have hsession : t.session = ⟨shared, s.session.ops.set i op'⟩ := by rw [← ht]
  have huses : t.uses = match op'.obtains with
      | some connection => s.uses.set i (some (connection, t.held.length))
      | none => s.uses := by
    rw [hheld, ← ht]
    simp only [hnow, Option.bind_some, moving, hop]
  have hslot := @newest_advance s t op op' answer now h.slot (by rw [hsession]; exact hmoves) hheld
  refine ⟨hslot, ?_, ?_⟩
  · rw [huses, hsession, List.length_set]
    split
    · rw [List.length_set, h.length]
    · exact h.length
  · intro j x hx hworks
    rw [hsession] at hx
    by_cases hij : i = j
    · subst hij
      cases hnow.symm.trans hx
      rw [huses]
      cases hobtains : op'.obtains with
      | some connection =>
          refine ⟨connection, t.held.length, List.getElem?_set_self hlt', ?_⟩
          rw [stamped_length]
          refine hslot connection ?_
          rw [Sourced.slot, hsession]
          exact hmoves.obtains hobtains
      | none =>
          cases hmoves.works hworks with
          | inl hop' =>
              obtain ⟨connection, n, huse, hstamp⟩ := h.uses i op hop hop'
              exact ⟨connection, n, huse, hheld ▸ stamped_prepend _ hstamp⟩
          | inr hsome =>
              rw [hobtains] at hsome
              cases hsome
    · have hx : s.session.ops[j]? = some x := (List.getElem?_set_ne hij).symm.trans hx
      obtain ⟨connection, n, huse, hstamp⟩ := h.uses j x hx hworks
      refine ⟨connection, n, ?_, hheld ▸ stamped_prepend _ hstamp⟩
      rw [huses]
      split
      · rw [List.getElem?_set_ne hij, huse]
      · exact huse

structure Tracked (s : Sourced) : Prop where
  apart : s.Apart
  stamps : s.Stamped

theorem Tracked.step (h : s.Tracked) (hstep : s.step move = some t) : t.Tracked := by
  cases move with
  | call call =>
      obtain ⟨session, hsession, rfl⟩ := Option.map_eq_some_iff.mp hstep
      cases hsession
      have hcarries : call.op.carries = none := by
        cases call with
        | _ => rfl
      have hworks : call.op.works = false := by
        cases call with
        | _ => rfl
      refine ⟨⟨?_, ?_⟩, h.stamps.slot, ?_, ?_⟩
      · simpa [List.filterMap_append, hcarries] using h.apart.distinct
      · simpa [List.filterMap_append, hcarries] using h.apart.handed
      · simp only [List.length_append, List.length_singleton, h.stamps.length]
      · intro i op hop hop'
        dsimp only at hop
        by_cases hlt : i < s.session.ops.length
        · rw [List.getElem?_append_left hlt] at hop
          obtain ⟨connection, n, huse, hstamp⟩ := h.stamps.uses i op hop hop'
          refine ⟨connection, n, ?_, hstamp⟩
          rw [List.getElem?_append_left (h.stamps.length ▸ hlt), huse]
        · rw [List.getElem?_append_right (Nat.le_of_not_lt hlt)] at hop
          rw [List.mem_singleton.mp (List.mem_of_getElem? hop), hworks] at hop'
          cases hop'
  | die connection =>
      obtain ⟨session, hsession, rfl⟩ := Option.map_eq_some_iff.mp hstep
      cases hsession
      exact ⟨⟨h.apart.distinct, h.apart.handed⟩, h.stamps.slot, h.stamps.length, h.stamps.uses⟩
  | advance i answer now =>
      refine ⟨?_, h.stamps.advance hstep⟩
      obtain ⟨session, hsession, rfl⟩ := Option.map_eq_some_iff.mp hstep
      obtain ⟨op, op', others, hop, hbefore, hafter, hown⟩ := Lifecycle.step_own hsession
      refine h.apart.advance hbefore hafter hown ?_
      simp only [moving, hop, Option.bind_some]

theorem created_tracked (storage : Storage) (info : SessionInfo) (attempts : Nat) (now : Now) :
    (created storage info attempts now).Tracked := by
  refine ⟨⟨List.nodup_nil, fun _ h => ?_⟩, fun _ h => ?_, rfl, ?_⟩
  · cases h
  · cases h
  intro i op hop hworks
  rw [List.mem_singleton.mp (List.mem_of_getElem? hop)] at hworks
  cases hworks

/-- An operation that fails works on the slot's content exactly when it has the newest stamp. -/
theorem Tracked.own_iff (h : s.Tracked) {i : Nat} {op : Op} {connection : SshConnection}
    (hop : s.session.ops[i]? = some op) (hdiscards : op.discards = true)
    (hslot : s.slot = some connection) :
    (s.use i).map Prod.fst = some connection ↔ (s.use i).map Prod.snd = some s.held.length := by
  have hworks : op.works = true := by
    cases op with
    | openFailed _ _ | execDiscard _ _ _ | ptyDiscard => rfl
    | _ => cases hdiscards
  obtain ⟨own, n, huse, hstamp⟩ := h.stamps.uses i op hop hworks
  have hnewest := h.stamps.slot connection hslot
  have huse : s.use i = some (own, n) := by rw [use, huse, Option.join_some]
  rw [huse, Option.map_some, Option.map_some, Option.some.injEq, Option.some.injEq]
  constructor
  · intro hsame
    subst hsame
    have hall := List.Nodup.of_map _ h.apart.distinct
    exact eq_length_of_stamped (List.nodup_append.mp hall).1 hstamp hnewest
  · intro hnew
    subst hnew
    rw [stamped_length, hnewest] at hstamp
    exact (Option.some.inj hstamp).symm

theorem Tracked.takesOwn_iff (h : s.Tracked) (move : LifecycleStep) :
    s.TakesOwn move ↔ s.InTime move := by
  cases move with
  | call call | die connection => exact Iff.rfl
  | advance i answer now =>
      refine forall_congr' fun op => forall_congr' fun hop => forall_congr' fun hdiscards => ?_
      cases hslot : s.slot with
      | none => exact ⟨fun _ => .inl rfl, fun _ _ h => by cases h⟩
      | some connection =>
          rw [or_iff_right (Option.some_ne_none connection),
            ← h.own_iff hop hdiscards hslot]
          refine ⟨fun h => h connection rfl, fun h other hsame => ?_⟩
          cases hsame
          exact h

/-- In a run of a session every discard takes the connection its operation has failed on, or
nothing, exactly when none comes after another connection has been put into the slot that is
still there. -/
theorem discards_take_own_iff {storage : Storage} {info : SessionInfo} {attempts : Nat}
    {now : Now} {moves : List LifecycleStep}
    (hrun : machine.run (created storage info attempts now) moves = some t) :
    machine.Meets TakesOwn (created storage info attempts now) moves ↔
      machine.Meets InTime (created storage info attempts now) moves := by
  have hstep : ∀ (C D : Sourced → LifecycleStep → Prop),
      (∀ s move, s.Tracked → C s move → D s move) →
        machine.Meets C (created storage info attempts now) moves →
          machine.Meets D (created storage info attempts now) moves := by
    intro C D himp hmeets
    exact machine.meets_of_invariant (I := Tracked) (fun _ _ _ h _ hstep => h.step hstep)
      (fun s move _ h hC _ => himp s move h hC) (created_tracked storage info attempts now)
      hmeets hrun
  exact ⟨hstep _ _ fun s move h => (h.takesOwn_iff move).mp,
    hstep _ _ fun s move h => (h.takesOwn_iff move).mpr⟩

/-- `count` steps of the operation at `op` that are answered without an error. -/
def goes (op count : Nat) : List LifecycleStep := List.replicate count (.advance op .ok ⟨0, 0⟩)

/-- A session with its connection, a command in its background and one in the foreground. -/
def runningSteps : List LifecycleStep :=
  .advance 0 (.connected ⟨"c", "f"⟩) ⟨0, 0⟩ :: goes 0 2 ++
    .call (.startExec "make" true) :: goes 1 2 ++ .advance 1 (.opened "e") ⟨0, 0⟩ :: goes 1 1 ++
    .call (.startExec "ls" false) :: goes 2 2 ++ .advance 2 (.opened "f") ⟨0, 0⟩ :: goes 2 2

def fresh : Sourced :=
  created (.openWith .empty 1) (.created "s" "t" "t" "p" "m" ⟨0, 0⟩) 1 ⟨0, 0⟩

/-- The transport goes, and the foreground command learns of it. -/
def lostSteps : List LifecycleStep :=
  .die "c" :: .advance 2 (.ended .interrupted none) ⟨0, 0⟩ :: goes 2 1

/-- Both commands learn of the loss before anything dials again. -/
theorem discards_take_own_iff_lost : ∃ moves t, machine.run fresh moves = some t ∧
    t.held = [⟨"c", "f"⟩] ∧ t.slot = none ∧ machine.Meets TakesOwn fresh moves := by
  let moves : List LifecycleStep :=
    runningSteps ++ lostSteps ++ .advance 1 (.ended .interrupted none) ⟨0, 0⟩ :: goes 1 1
  have hall : ((machine.run fresh moves).any fun t =>
      decide (t.held = [⟨"c", "f"⟩] ∧ t.slot = none)) = true := by decide
  have htime : machine.Meets InTime fresh moves := by decide
  obtain ⟨t, hrun, ht⟩ := (Option.any_eq_true _ _).mp hall
  have ht := of_decide_eq_true ht
  exact ⟨moves, t, hrun, ht.1, ht.2, (discards_take_own_iff hrun).mpr htime⟩

/-- The background command learns of the loss after the session has dialled again, and takes
the new connection, which stands, out of the slot. -/
theorem discard_takes_other : ∃ moves s t,
    machine.run fresh moves = some s ∧ s.use 1 = some (⟨"c", "f"⟩, 1) ∧
      s.session.ops[1]? = some (.execDiscard "e" true none) ∧
      s.session.shared.liveConnection = some ⟨"d", "f"⟩ ∧
      machine.step s (.advance 1 .ok ⟨0, 0⟩) = some t ∧ t.slot = none ∧
      ¬ s.TakesOwn (.advance 1 .ok ⟨0, 0⟩) := by
  let moves : List LifecycleStep := runningSteps ++ lostSteps ++ goes 2 2 ++
    .call (.startExec "pwd" false) :: goes 3 3 ++ .advance 3 (.connected ⟨"d", "f"⟩) ⟨0, 0⟩ ::
    goes 3 2 ++ .advance 3 (.opened "g") ⟨0, 0⟩ :: goes 3 2 ++
    [.advance 1 (.ended .interrupted none) ⟨0, 0⟩]
  have hall : ((machine.run fresh moves).any fun s =>
      decide (s.use 1 = some (⟨"c", "f"⟩, 1) ∧
        s.session.ops[1]? = some (.execDiscard "e" true none) ∧
        s.session.shared.liveConnection = some ⟨"d", "f"⟩ ∧
        ¬ s.TakesOwn (.advance 1 .ok ⟨0, 0⟩)) &&
      (machine.step s (.advance 1 .ok ⟨0, 0⟩)).any fun t => decide (t.slot = none)) = true := by
    decide
  obtain ⟨s, hrun, hs⟩ := (Option.any_eq_true _ _).mp hall
  obtain ⟨hs, hall⟩ := Bool.and_eq_true_iff.mp hs
  obtain ⟨huse, hop, hlive, hnot⟩ := of_decide_eq_true hs
  obtain ⟨t, hstep, ht⟩ := (Option.any_eq_true _ _).mp hall
  exact ⟨moves, s, t, hrun, huse, hop, hlive, hstep, of_decide_eq_true ht, hnot⟩

end Sourced
end AiSsh
