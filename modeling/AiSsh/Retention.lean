import AiSsh.Daemon
import AiSsh.SessionPage

/-!
The retention period against running work. `cleanup` goes by the age and the stored status of
a row. A session is stored as disconnected when its foreground loses the transport, and as
closed when its close is through; in both cases background commands may still be running under
the row.
-/

namespace AiSsh

open Library

namespace Op

/-- A task, or a start that has inserted its row, that writes output under its session. -/
def records : Op → Bool
  | .startedExec _ | .runExec _ _ | .runPty _ => true
  | _ => false

/-- The command under which a task records what its channel gives it. -/
def recordsFor : Op → Option (Option String)
  | .runExec command _ => some (some command.id)
  | .runPty _ => some none
  | _ => none

/-- The rows of a task are stored. -/
structure Filed (storage : Storage) (sessionId : String) (op : Op) : Prop where
  session : op.records = true → (storage.db.session sessionId).isSome = true
  command : ∀ id, op.task = some id →
    ∃ row, storage.db.command id = some row ∧ row.sessionId = sessionId

end Op

/-- An error of `append_event` for want of a row. -/
def StorageError.isMissingRow : StorageError → Bool
  | .database .queryReturnedNoRows | .database .foreignKeyViolation => true
  | _ => false

def Cancellable.sessionId (s : Cancellable) : String := s.session.shared.runtime.sessionId

namespace Daemon

/-- Every running task has its session row, and a poll finds the row of every running
command. -/
structure Retains (d : Daemon) : Prop where
  session : ∀ s ∈ d.sessions, ∀ op ∈ s.session.ops, op.records = true →
    (d.storage.db.session s.sessionId).isSome = true
  command : ∀ s ∈ d.sessions, ∀ op ∈ s.session.ops, ∀ id, op.task = some id →
    ∃ row, loadCommand d.storage id = .ok row ∧ row.sessionId = s.sessionId

/-- What a running task records does not fail for want of a row. -/
def Appends (d : Daemon) : DaemonStep → Prop
  | .record k commandId stream payload now =>
      ∀ s ∈ d.sessions[k]?, (∃ op ∈ s.session.ops, op.recordsFor = some commandId) →
        ∀ error, (record d.storage s.session.shared.runtime commandId stream payload now).result =
          .error error → error.isMissingRow = false
  | _ => True

/-- No session with a running task is older than the retention period and stored as closed,
failed, disconnected or interrupted. -/
def SparesWork (d : Daemon) : DaemonStep → Prop
  | .cleanup retentionDays now =>
      ∀ s ∈ d.sessions, ∀ op ∈ s.session.ops, op.records = true →
        ∀ row ∈ d.storage.db.sessions, row.info.id = s.sessionId →
          row.expired (now - retentionDays * Storage.day) = false
  | _ => True

instance (d : Daemon) : DecidablePred d.SparesWork
  | .cleanup retentionDays now =>
      inferInstanceAs (Decidable (∀ s ∈ d.sessions, ∀ op ∈ s.session.ops, op.records = true →
        ∀ row ∈ d.storage.db.sessions, row.info.id = s.sessionId →
          row.expired (now - retentionDays * Storage.day) = false))
  | .start _ | .interruptUnfinished _ | .crash | .create _ _ _ | .session _ _
  | .finaliseUnstored _ _ _ _ | .record _ _ _ _ _ => isTrue trivial

end Daemon

/-- Rows stay as an operation or a record leaves them: none is deleted, and keys stay keys. -/
structure Storage.Extends (s s' : Storage) : Prop where
  unique : (s.db.sessions.map fun row => row.info.id).Nodup →
    (s'.db.sessions.map fun row => row.info.id).Nodup
  session : ∀ id, (s.db.session id).isSome = true → (s'.db.session id).isSome = true
  command : ∀ id row, s.db.command id = some row →
    ∃ row', s'.db.command id = some row' ∧ row'.sessionId = row.sessionId

namespace Storage

theorem Extends.refl (s : Storage) : s.Extends s :=
  ⟨fun h => h, fun _ h => h, fun _ row h => ⟨row, h, rfl⟩⟩

theorem Extends.trans {s s' s'' : Storage} (h : s.Extends s') (h' : s'.Extends s'') :
    s.Extends s'' where
  unique := fun hunique => h'.unique (h.unique hunique)
  session := fun id hid => h'.session id (h.session id hid)
  command := by
    intro id row hrow
    obtain ⟨row', hrow', hsame⟩ := h.command id row hrow
    obtain ⟨row'', hrow'', hsame'⟩ := h'.command id row' hrow'
    exact ⟨row'', hrow'', hsame'.trans hsame⟩

theorem ids_updateSession (db : Database) (id : String) {set : SessionRow → SessionRow}
    (hset : ∀ row, (set row).info.id = row.info.id) :
    ((db.updateSession id set).sessions.map fun row => row.info.id) =
      db.sessions.map fun row => row.info.id := by
  rw [Database.updateSession, List.map_map]
  apply List.map_congr_left
  intro row _
  simp only [Function.comp]
  split
  · exact hset row
  · rfl

theorem extends_updateSession (s : Storage) (id : String) {set : SessionRow → SessionRow}
    (hset : ∀ row, (set row).info.id = row.info.id) :
    s.Extends { s with db := s.db.updateSession id set } where
  unique := by
    intro hunique
    rw [ids_updateSession s.db id hset]
    exact hunique
  session := by
    intro other hother
    rw [Database.updateSession_session s.db id set hset, Option.isSome_map]
    exact hother
  command := fun _ row hrow => ⟨row, hrow, rfl⟩

theorem extends_updateCommand (s : Storage) (id : String) {set : CommandInfo → CommandInfo}
    (hid : ∀ row, (set row).id = row.id) (hset : ∀ row, (set row).sessionId = row.sessionId) :
    s.Extends { s with db := s.db.updateCommand id set } where
  unique := fun hunique => hunique
  session := fun _ h => h
  command := by
    intro other row hrow
    refine ⟨if row.id = id then set row else row, ?_, ?_⟩
    · rw [Database.updateCommand_command s.db id set hid, hrow]
      rfl
    · split
      · exact hset row
      · rfl

theorem extends_upsertSession (s : Storage) (info : SessionInfo) :
    s.Extends (s.upsertSession info) where
  unique := by
    intro hunique
    rw [upsertSession]
    split
    · have hids := @ids_updateSession s.db info.id (SessionRow.upsert info) fun _ => rfl
      dsimp only
      rw [hids]
      exact hunique
    · rename_i hnew
      rw [List.map_append, List.nodup_append]
      refine ⟨hunique, List.nodup_singleton _, ?_⟩
      intro id hid other hother hsame
      obtain ⟨row, hrow, rfl⟩ := List.mem_map.mp hid
      rw [List.mem_singleton.mp hother] at hsame
      refine hnew (List.find?_isSome.mpr ⟨row, hrow, ?_⟩)
      exact beq_iff_eq.mpr hsame
  session := s.upsertSession_isSome info
  command := by
    intro id row hrow
    exact ⟨row, (s.upsertSession_command info id).trans hrow, rfl⟩

theorem upsertSession_there (s : Storage) (info : SessionInfo) :
    ((s.upsertSession info).db.session info.id).isSome = true := by
  cases hrow : s.db.session info.id with
  | none => rw [upsertSession_insert hrow, Option.isSome_some]
  | some row => exact s.upsertSession_isSome info info.id (by rw [hrow, Option.isSome_some])

theorem extends_insertCommand {s s' : Storage} {command : CommandInfo}
    (h : s.insertCommand command = .ok s') : s.Extends s' where
  unique := by
    obtain ⟨-, -, rfl⟩ := insertCommand_ok h
    exact fun h => h
  session := by
    obtain ⟨-, -, rfl⟩ := insertCommand_ok h
    exact fun _ h => h
  command := by
    intro id row hrow
    obtain ⟨-, -, rfl⟩ := insertCommand_ok h
    refine ⟨row, ?_, rfl⟩
    rw [Database.command] at hrow ⊢
    rw [List.find?_append, hrow]
    rfl

theorem extends_appendEvent (s : Storage) (event : TerminalEvent) :
    s.Extends (s.appendEvent event).storage := by
  rw [appendEvent]
  split
  · exact .refl s
  · split
    · have hsessions : s.Extends
          { s with db := s.db.updateSession event.sessionId SessionRow.truncate } :=
        s.extends_updateSession _ fun _ => rfl
      simp only [rejectEvent]
      split
      · exact hsessions
      · exact hsessions.trans (extends_updateCommand _ _ (fun _ => rfl) fun _ => rfl)
    · split
      · exact .refl s
      · rename_i db hinsert
        have hinserted : s.Extends { s with db := db } := by
          obtain ⟨-, -, -, rfl⟩ := Database.insertEvent_ok hinsert
          exact ⟨fun h => h, fun _ h => h, fun _ row h => ⟨row, h, rfl⟩⟩
        have hcounted : s.Extends { s with db := countCommand db event } := by
          rw [countCommand]
          split
          · exact hinserted
          · exact hinserted.trans (extends_updateCommand _ _ (fun _ => rfl) fun _ => rfl)
        exact hcounted.trans (extends_updateSession _ _ fun _ => rfl)

theorem extends_interruptUnfinished (s : Storage) (now : DateTime) :
    s.Extends (s.interruptUnfinished now) where
  unique := by
    intro hunique
    rw [interruptUnfinished, List.map_map]
    have hsame : ((fun row : SessionRow => row.info.id) ∘ fun row =>
        if row.info.status.isOver then row else row.interrupt now) = fun row => row.info.id := by
      funext row
      simp only [Function.comp]
      split
      · rfl
      · rfl
    rw [hsame]
    exact hunique
  session := by
    intro id hid
    obtain ⟨row, hrow, hsame⟩ := List.find?_isSome.mp hid
    refine List.find?_isSome.mpr ⟨_, List.mem_map_of_mem hrow, ?_⟩
    split
    · exact hsame
    · exact hsame
  command := fun _ row hrow => ⟨row, hrow, rfl⟩

end Storage

theorem Shared.extends_writeInfo (s : Shared) (info : SessionInfo) (stored : Bool) :
    s.storage.Extends (s.writeInfo info stored).storage := by
  cases stored with
  | false => exact .refl _
  | true => exact s.storage.extends_upsertSession info

theorem Shared.extends_writeOpenInfo (s : Shared) (info : SessionInfo) (stored : Bool) :
    s.storage.Extends (s.writeOpenInfo info stored).storage := by
  rw [Shared.writeOpenInfo]
  split
  · exact s.extends_writeInfo info stored
  · exact .refl _

/-- What is found is found again among what is kept. -/
theorem find?_filter_of_kept {α : Type} {p q : α → Bool} {l : List α} {a : α}
    (h : l.find? p = some a) (hq : q a = true) : (l.filter q).find? p = some a := by
  induction l with
  | nil => cases h
  | cons b l ih =>
      cases hp : p b with
      | true =>
          rw [List.find?_cons_of_pos hp] at h
          cases h
          rw [List.filter_cons_of_pos hq, List.find?_cons_of_pos hp]
      | false =>
          have hb : ¬p b = true := by simp [hp]
          rw [List.find?_cons_of_neg hb] at h
          by_cases hkept : q b = true
          · rw [List.filter_cons_of_pos hkept, List.find?_cons_of_neg hb]
            exact ih h
          · rw [List.filter_cons_of_neg hkept]
            exact ih h

/-- The identifier a session has in its record is its own. -/
def Shared.Named (s : Shared) : Prop := s.runtime.info.id = s.runtime.sessionId

namespace Op

variable {s s' : Shared} {foregroundFree connectionFree : Bool} {answer : Answer} {now : Now}
  {op op' : Op}

theorem Moves.named (h : op.Moves s foregroundFree now answer s' op') (hnamed : s.Named) :
    s'.Named ∧ s'.runtime.sessionId = s.runtime.sessionId := by
  cases h with
  | reconnected | reconnectFailed | execFinished | ptyFinished =>
      simp only [Shared.wake, Shared.writeOpenInfo]
      split
      · exact ⟨hnamed, rfl⟩
      · exact ⟨hnamed, rfl⟩
  | _ => exact ⟨hnamed, rfl⟩

theorem installExec_extends {command : CommandInfo} {background : Bool}
    (h : (installExec command background).step s foregroundFree connectionFree answer now =
      some (s', op')) :
    s.storage.Extends s'.storage ∧ (op'.records = true →
      s.storage.insertCommand command = .ok s'.storage ∧ op'.task = some command.id) := by
  simp only [step, stepInstall] at h
  split at h
  · rename_i storage hinsert
    split at h
    · cases h
      exact ⟨Storage.extends_insertCommand hinsert, fun _ => ⟨hinsert, rfl⟩⟩
    · cases h
      exact ⟨Storage.extends_insertCommand hinsert, fun _ => ⟨hinsert, rfl⟩⟩
  · cases h
    exact ⟨.refl _, fun h => by cases h⟩
  · cases h

theorem runExec_extends {command : CommandInfo} {background : Bool}
    (h : (runExec command background).step s foregroundFree connectionFree answer now =
      some (s', op')) : s.storage.Extends s'.storage := by
  simp only [step, stepRunExec] at h
  split at h
  · split at h
    · cases h
    · cases h
      exact s.storage.extends_updateCommand _ (fun _ => rfl) fun _ => rfl
  · cases h

theorem extends_of_step
    (h : op.step s foregroundFree connectionFree answer now = some (s', op')) :
    s.storage.Extends s'.storage := by
  have hmoves := moves_of_step h
  cases hmoves with
  | installedBackground | installedExec | notInserted => exact (installExec_extends h).1
  | execInterrupted | execEnded => exact runExec_extends h
  | createReady | createFailed | startedExec | execNotStored | startedPty | ptyNotStored
  | closed => exact s.extends_writeInfo _ _
  | reconnected | reconnectFailed | execFinished | ptyFinished =>
      exact s.extends_writeOpenInfo _ _
  | _ => exact .refl _

theorem execNext_records (id : String) (background interrupted : Bool) (exit : Option UInt32) :
    (execNext id background interrupted exit).records = false := by
  cases background with
  | false => rfl
  | true => rfl

theorem records_of_task {id : String} (h : op.task = some id) : op.records = true := by
  cases op with
  | startedExec command | runExec command background => rfl
  | _ => cases h

theorem Filed.of_not_records {storage : Storage} {sessionId : String}
    (h : op.records = false) : op.Filed storage sessionId where
  session := fun hrecords => by cases h.symm.trans hrecords
  command := fun _ htask => by cases h.symm.trans (records_of_task htask)

theorem Filed.mono {storage storage' : Storage} {sessionId : String}
    (h : op.Filed storage sessionId) (hextends : storage.Extends storage') :
    op.Filed storage' sessionId where
  session := fun hrecords => hextends.session _ (h.session hrecords)
  command := by
    intro id htask
    obtain ⟨row, hrow, hsame⟩ := h.command id htask
    obtain ⟨row', hrow', hsame'⟩ := hextends.command id row hrow
    exact ⟨row', hrow', hsame'.trans hsame⟩

/-- A step leaves a task with its rows. -/
theorem Filed.step (h : op.Filed s.storage s.runtime.sessionId) (hnamed : s.Named)
    (hinstall : ∀ command background, op = .installExec command background →
      command.sessionId = s.runtime.sessionId)
    (hstep : op.step s foregroundFree connectionFree answer now = some (s', op')) :
    op'.Filed s'.storage s.runtime.sessionId := by
  have hextends := extends_of_step hstep
  have hmoves := moves_of_step hstep
  cases hmoves with
  | installedBackground | installedExec =>
      obtain ⟨hinsert, -⟩ := (installExec_extends hstep).2 rfl
      have hsession := hinstall _ _ rfl
      refine ⟨fun _ => ?_, fun id htask => ?_⟩
      · rw [← hsession]
        exact hextends.session _ (Storage.insertCommand_ok hinsert).2.1
      · cases htask
        refine ⟨_, ?_, hsession⟩
        rw [Storage.insertCommand_command hinsert, if_pos rfl]
  | startedExec => exact Filed.mono ⟨fun _ => h.session rfl, h.command⟩ hextends
  | startedPty =>
      refine ⟨fun _ => ?_, fun id htask => by cases htask⟩
      have hthere := Storage.upsertSession_there s.storage (s.runtime.info.ptyOpened now)
      exact hnamed ▸ hthere
  | execEnded | execDiscarded => exact .of_not_records (execNext_records ..)
  | _ => exact .of_not_records rfl

theorem Moves.runExec_records {command : CommandInfo} {background : Bool}
    (h : (Op.runExec command background).Moves s foregroundFree now answer s' op') :
    op'.records = false := by
  cases h with
  | execInterrupted => rfl
  | execEnded => exact execNext_records ..

theorem Moves.installing {command : CommandInfo} {background : Bool}
    (h : op.Moves s foregroundFree now answer s' (.installExec command background)) :
    command.sessionId = s.runtime.sessionId := by
  generalize hop' : Op.installExec command background = op' at h
  cases h with
  | execOpened fresh =>
      cases hop'
      rfl
  | execEnded | execDiscarded => exact absurd hop'.symm (execNext_not_install _ _ _ _ _ _)
  | _ => cases hop'

end Op

/-- What holds of a session under the store of the daemon: its record has its identifier, a
row about to be inserted is its own, and its tasks have their rows. -/
structure Cancellable.Filed (s : Cancellable) (storage : Storage) : Prop where
  named : s.session.shared.Named
  installing : ∀ command background, Op.installExec command background ∈ s.session.ops →
    command.sessionId = s.sessionId
  tasks : ∀ op ∈ s.session.ops, op.Filed storage s.sessionId

namespace Cancellable.Filed

variable {s s' : Cancellable} {storage storage' : Storage}

theorem mono (h : s.Filed storage) (hextends : storage.Extends storage') : s.Filed storage' :=
  ⟨h.named, h.installing, fun op hop => (h.tasks op hop).mono hextends⟩

/-- A session whose operations stay, or come without a row. -/
theorem kept {more : List Op} (h : s.Filed storage) (hextends : storage.Extends storage')
    (hinfo : s'.session.shared.runtime.info = s.session.shared.runtime.info)
    (hid : s'.sessionId = s.sessionId) (hops : s'.session.ops = s.session.ops ++ more)
    (hmore : ∀ op ∈ more, op.records = false ∧ op.commandId = none) : s'.Filed storage' where
  named := by
    have hnamed := h.named
    rw [Shared.Named] at hnamed ⊢
    rw [hinfo, hnamed]
    exact hid.symm
  installing := by
    intro command background hop
    rw [hops] at hop
    cases List.mem_append.mp hop with
    | inl hop => exact (h.installing command background hop).trans hid.symm
    | inr hop => cases (hmore _ hop).2
  tasks := by
    intro op hop
    rw [hops] at hop
    rw [hid]
    cases List.mem_append.mp hop with
    | inl hop => exact (h.tasks op hop).mono hextends
    | inr hop => exact .of_not_records (hmore _ hop).1

theorem unmoved (h : s.Filed storage) (hextends : storage.Extends storage')
    (hinfo : s'.session.shared.runtime.info = s.session.shared.runtime.info)
    (hid : s'.sessionId = s.sessionId) (hops : s'.session.ops = s.session.ops) :
    s'.Filed storage' := by
  refine h.kept hextends hinfo hid (hops.trans (List.append_nil _).symm) ?_
  intro op hop
  cases hop

/-- A session of which one operation moves on. -/
theorem moved {op op' : Op} {others : List Op} (h : s.Filed storage)
    (hextends : storage.Extends storage') (hnamed : s'.session.shared.Named)
    (hid : s'.sessionId = s.sessionId) (hbefore : s.session.ops.Perm (op :: others))
    (hafter : s'.session.ops.Perm (op' :: others))
    (hinstall : ∀ command background, op' = .installExec command background →
      command.sessionId = s.sessionId)
    (htask : op'.Filed storage' s.sessionId) : s'.Filed storage' where
  named := hnamed
  installing := by
    intro command background hop
    rw [hid]
    cases List.mem_cons.mp (hafter.mem_iff.mp hop) with
    | inl hop => exact hinstall command background hop.symm
    | inr hop =>
        exact h.installing command background
          (hbefore.mem_iff.mpr (List.mem_cons_of_mem _ hop))
  tasks := by
    intro x hx
    rw [hid]
    cases List.mem_cons.mp (hafter.mem_iff.mp hx) with
    | inl hx => exact hx ▸ htask
    | inr hx => exact (h.tasks x (hbefore.mem_iff.mpr (List.mem_cons_of_mem _ hx))).mono hextends

end Cancellable.Filed

namespace Daemon

variable {d d' : Daemon}

/-- The sessions with the store, whose session rows have distinct keys. -/
structure Filed (d : Daemon) : Prop where
  unique : (d.storage.db.sessions.map fun row => row.info.id).Nodup
  sessions : ∀ s ∈ d.sessions, s.Filed d.storage

theorem Filed.retains (h : d.Filed) : d.Retains where
  session := fun s hs op hop => ((h.sessions s hs).tasks op hop).session
  command := by
    intro s hs op hop id htask
    obtain ⟨row, hrow, hsame⟩ := ((h.sessions s hs).tasks op hop).command id htask
    refine ⟨row, ?_, hsame⟩
    simp only [loadCommand, Storage.command, hrow]

theorem Filed.set {k : Nat} {s' : Cancellable} (h : d.Filed)
    (hextends : d.storage.Extends d'.storage) (hsessions : d'.sessions = d.sessions.set k s')
    (hfiled : s'.Filed d'.storage) : d'.Filed where
  unique := hextends.unique h.unique
  sessions := by
    intro s hs
    rw [hsessions] at hs
    cases List.mem_or_eq_of_mem_set hs with
    | inl hs => exact (h.sessions s hs).mono hextends
    | inr hs => exact hs ▸ hfiled

theorem session_filed {s : Cancellable} (h : s.Filed d.storage) {session : Lifecycle} {i : Nat}
    {answer : Answer} {now : Now}
    (hstep : (d.within s).session.step (.advance i answer now) = some session) :
    d.storage.Extends session.shared.storage ∧
      ({ d.within s with session := session } : Cancellable).Filed session.shared.storage := by
  obtain ⟨op, op', others, hop, hbefore, hafter, hown⟩ := Lifecycle.step_own hstep
  have hextends : d.storage.Extends session.shared.storage := Op.extends_of_step hown
  have hmoves := Op.moves_of_step hown
  have hmem : op ∈ s.session.ops := List.mem_of_getElem? hop
  obtain ⟨hnamed, hid⟩ := hmoves.named h.named
  refine ⟨hextends, h.moved hextends hnamed hid hbefore hafter ?_ ?_⟩
  · intro command background hop'
    subst hop'
    exact hmoves.installing
  · refine @Op.Filed.step (d.within s).session.shared _ _ _ _ _ op op' (h.tasks op hmem) h.named ?_
      hown
    intro command background hsame
    subst hsame
    exact h.installing command background hmem

theorem Filed.session {k : Nat} {move : CancellableStep} (h : d.Filed)
    (hstep : d.step (.session k move) = some d') : d'.Filed := by
  simp only [step] at hstep
  split at hstep
  · rename_i s hs
    obtain ⟨s', hmoved, rfl⟩ := Option.map_eq_some_iff.mp hstep
    have hfiled := h.sessions s (List.mem_of_getElem? hs)
    cases move with
    | cancel id =>
        cases hmoved
        exact h.set (.refl _) rfl (hfiled.unmoved (.refl _) rfl rfl rfl)
    | look j =>
        obtain ⟨cancelled, -, hsession⟩ := Cancellable.look_session hmoved
        have hstorage : s'.session.shared.storage = d.storage := by
          rw [hsession]
          rfl
        have hextends : d.storage.Extends s'.session.shared.storage := hstorage ▸ .refl _
        refine h.set hextends rfl (hfiled.unmoved hextends ?_ ?_ ?_)
        · rw [hsession]
          rfl
        · rw [Cancellable.sessionId]
          rw [hsession]
          rfl
        · rw [hsession]
          rfl
    | session move =>
        obtain ⟨session, hsession, rfl⟩ := Option.map_eq_some_iff.mp hmoved
        cases move with
        | call call =>
            cases hsession
            refine h.set (.refl _) rfl (hfiled.kept (.refl _) rfl rfl rfl ?_)
            intro op hop
            rw [List.mem_singleton.mp hop]
            cases call with
            | _ => exact ⟨rfl, rfl⟩
        | die connection =>
            cases hsession
            exact h.set (.refl _) rfl (hfiled.unmoved (.refl _) rfl rfl rfl)
        | advance i answer now =>
            obtain ⟨hextends, hmoved⟩ := session_filed hfiled hsession
            exact h.set hextends rfl hmoved
  · cases hstep

/-- The end of a task that is not written to its row. -/
theorem Filed.finaliseUnstored {k i : Nat} {answer : Answer} {now : Now} (h : d.Filed)
    (hstep : d.step (.finaliseUnstored k i answer now) = some d') : d'.Filed := by
  simp only [step] at hstep
  split at hstep
  · rename_i s hs
    split at hstep
    · rename_i htask
      obtain ⟨s', hmoved, rfl⟩ := Option.map_eq_some_iff.mp hstep
      obtain ⟨session, hsession, rfl⟩ := Option.map_eq_some_iff.mp hmoved
      have hfiled := h.sessions s (List.mem_of_getElem? hs)
      obtain ⟨op, op', others, hop, hbefore, hafter, hown⟩ := Lifecycle.step_own hsession
      have hop : s.session.ops[i]? = some op := hop
      rw [hop] at htask
      have hmoves := Op.moves_of_step hown
      obtain ⟨hnamed, hid⟩ := hmoves.named hfiled.named
      have hend : op'.records = false ∧ ∀ command background,
          op' ≠ .installExec command background := by
        cases op with
        | runExec command background => exact ⟨hmoves.runExec_records, hmoves.runExec.2.2.2⟩
        | _ => cases htask
      refine h.set (.refl _) rfl
        (hfiled.moved (.refl _) hnamed hid hbefore hafter ?_ (.of_not_records hend.1))
      intro command background hsame
      exact absurd hsame (hend.2 command background)
    · cases hstep
  · cases hstep

theorem Filed.create {info : SessionInfo} {attempts : Nat} {now : Now} (h : d.Filed)
    (hstep : d.step (.create info attempts now) = some d') : d'.Filed := by
  simp only [step] at hstep
  split at hstep
  · cases hstep
    have hextends := d.storage.extends_upsertSession info
    refine ⟨hextends.unique h.unique, fun s hs => ?_⟩
    cases List.mem_append.mp hs with
    | inl hs => exact (h.sessions s hs).mono hextends
    | inr hs =>
        rw [List.mem_singleton.mp hs]
        refine ⟨rfl, fun command background hop => ?_, fun op hop => ?_⟩
        · cases List.mem_singleton.mp hop
        · rw [List.mem_singleton.mp hop]
          exact .of_not_records rfl
  · cases hstep

theorem Filed.record {k : Nat} {commandId : Option String} {stream : StreamKind}
    {payload : Bytes} {now : Now} (h : d.Filed)
    (hstep : d.step (.record k commandId stream payload now) = some d') : d'.Filed := by
  simp only [step] at hstep
  split at hstep
  · rename_i s hs
    cases hstep
    have hfiled := h.sessions s (List.mem_of_getElem? hs)
    have hextends : d.storage.Extends (AiSsh.record d.storage s.session.shared.runtime commandId
        stream payload now).storage := by
      rw [record_storage]
      exact d.storage.extends_appendEvent _
    have hsame := record_runtime d.storage s.session.shared.runtime commandId stream payload now
    exact h.set hextends rfl (hfiled.unmoved hextends hsame.info hsame.sessionId rfl)
  · cases hstep

theorem Filed.cleanup {retentionDays : Nat} {now : DateTime} (h : d.Filed)
    (hspares : d.SparesWork (.cleanup retentionDays now))
    (hsessions : d'.sessions = d.sessions)
    (hstorage : d'.storage = d.storage.cleanup retentionDays now) : d'.Filed where
  unique := by
    rw [hstorage]
    exact h.unique.sublist (List.filter_sublist.map _)
  sessions := by
    intro s hs
    rw [hsessions] at hs
    have hfiled := h.sessions s hs
    refine ⟨hfiled.named, hfiled.installing, fun op hop => ⟨fun hrecords => ?_, fun id htask => ?_⟩⟩
    · obtain ⟨row, hrow⟩ := Option.isSome_iff_exists.mp ((hfiled.tasks op hop).session hrecords)
      have hkept := hspares s hs op hop hrecords row (List.mem_of_find?_eq_some hrow)
        (Database.session_id hrow)
      rw [hstorage, Option.isSome_iff_exists]
      exact ⟨row, find?_filter_of_kept hrow (by rw [hkept]; rfl)⟩
    · obtain ⟨row, hrow, hsame⟩ := (hfiled.tasks op hop).command id htask
      refine ⟨row, ?_, hsame⟩
      rw [hstorage]
      refine find?_filter_of_kept hrow ?_
      rw [hsame, Bool.not_eq_true', Storage.expires, List.any_eq_false]
      intro other hother hexpires
      obtain ⟨hexpired, hother'⟩ := Bool.and_eq_true_iff.mp hexpires
      have hkept := hspares s hs op hop (Op.records_of_task htask) other hother
        (beq_iff_eq.mp hother')
      cases hkept.symm.trans hexpired

/-- With its rows stored an event is turned away for its number alone. -/
theorem appendEvent_rows {storage : Storage} {event : TerminalEvent}
    (hsession : (storage.db.session event.sessionId).isSome = true)
    (hcommand : ∀ id ∈ event.commandId, (storage.db.command id).isSome = true)
    {error : StorageError} (h : (storage.appendEvent event).result = .error error) :
    error.isMissingRow = false := by
  obtain ⟨row, hrow⟩ := Option.isSome_iff_exists.mp hsession
  simp only [Storage.appendEvent, hrow] at h
  split at h
  · cases h
  · split at h
    · rename_i error' hinsert
      cases h
      rw [Database.insertEvent] at hinsert
      split at hinsert
      · rename_i hmissing
        cases hmissing with
        | inl hnone =>
            rw [hrow] at hnone
            cases hnone
        | inr hnone =>
            obtain ⟨id, hid, hnone⟩ := (Option.any_eq_true _ _).mp hnone
            have hthere := hcommand id hid
            rw [Option.isNone_iff_eq_none.mp hnone] at hthere
            cases hthere
      · split at hinsert
        · cases hinsert
          rfl
        · cases hinsert
    · cases h

theorem Filed.appends (h : d.Filed) (move : DaemonStep) : d.Appends move := by
  cases move with
  | record k commandId stream payload now =>
      intro s hs hrecords error herror
      obtain ⟨op, hop, hfor⟩ := hrecords
      have hfiled := (h.sessions s (List.mem_of_getElem? hs)).tasks op hop
      rw [record_result] at herror
      refine appendEvent_rows ?_ ?_ herror
      · refine hfiled.session ?_
        cases op with
        | runExec command background | runPty id => rfl
        | _ => cases hfor
      · intro id hid
        cases op with
        | runExec command background =>
            cases hfor
            cases hid
            obtain ⟨row, hrow, -⟩ := hfiled.command command.id rfl
            rw [hrow]
            rfl
        | runPty _ =>
            cases hfor
            cases hid
        | _ => cases hfor
  | _ => trivial

theorem Filed.step {move : DaemonStep} (h : d.Filed) (hspares : d.SparesWork move)
    (hstep : d.step move = some d') : d'.Filed := by
  cases move with
  | start recordingLimitMib =>
      simp only [Daemon.step] at hstep
      split at hstep
      · cases hstep
        exact ⟨h.unique, fun s hs => (h.sessions s hs).mono ⟨fun h => h, fun _ h => h,
          fun _ row hrow => ⟨row, hrow, rfl⟩⟩⟩
      · cases hstep
  | interruptUnfinished now =>
      simp only [Daemon.step] at hstep
      split at hstep
      · cases hstep
        have hextends := d.storage.extends_interruptUnfinished now
        exact ⟨hextends.unique h.unique, fun s hs => (h.sessions s hs).mono hextends⟩
      · cases hstep
  | cleanup retentionDays now =>
      simp only [Daemon.step] at hstep
      split at hstep
      · cases hstep
        exact h.cleanup hspares rfl rfl
      · cases hstep
  | crash =>
      cases hstep
      exact ⟨h.unique, fun s hs => by cases hs⟩
  | create info reconnectAttempts now => exact h.create hstep
  | session k move => exact h.session hstep
  | finaliseUnstored k i answer now => exact h.finaliseUnstored hstep
  | record k commandId stream payload now => exact h.record hstep

/-- A step that leaves every task its rows has spared the running work. -/
theorem Filed.spares {move : DaemonStep} (h : d.Filed) (hstep : d.step move = some d')
    (hretains : d'.Retains) : d.SparesWork move := by
  cases move with
  | cleanup retentionDays now =>
      simp only [Daemon.step] at hstep
      split at hstep
      · cases hstep
        intro s hs op hop hrecords row hrow hid
        obtain ⟨row', hrow'⟩ := Option.isSome_iff_exists.mp (hretains.session s hs op hop hrecords)
        obtain ⟨hold, hkept⟩ := List.mem_filter.mp (List.mem_of_find?_eq_some hrow')
        have hsame := List.inj_on_of_nodup_map h.unique hrow hold
          (hid.trans (Database.session_id hrow').symm)
        rw [hsame]
        simpa using hkept
      · cases hstep
  | _ => trivial

/-- Every task keeps its rows throughout a run, a record does not fail for want of one, and a
poll finds the command that runs, exactly when no `cleanup` comes upon a running task in a
session that is old enough and stored as over. -/
theorem retains_running_work_iff {db : Database} {moves : List DaemonStep} {d : Daemon}
    (hunique : (db.sessions.map fun row => row.info.id).Nodup)
    (hrun : machine.run (initial db) moves = some d) :
    machine.Meets (fun d move => d.Retains ∧ d.Appends move) (initial db) moves ∧ d.Retains ↔
      machine.Meets SparesWork (initial db) moves :=
  machine.meets_iff_of_keeps (P := Filed) (fun _ h => h.retains)
    (fun _ move _ h hspares hstep => ⟨h.step hspares hstep, h.appends move⟩)
    (fun _ _ _ h hstep hretains => h.spares hstep hretains)
    ⟨hunique, fun s hs => by cases hs⟩ hrun

/-- A session of the first second with a command that runs in its background. -/
def backgroundSteps : List DaemonStep :=
  [.start 1, .interruptUnfinished 0, .cleanup 30 0,
    .create (.created "s" "t" "t" "p" "m" ⟨0, 0⟩) 1 ⟨0, 0⟩,
    .session 0 (.session (.advance 0 (.connected ⟨"c", "f"⟩) ⟨1, 1⟩)),
    .session 0 (.session (.advance 0 .ok ⟨2, 2⟩)), .session 0 (.session (.advance 0 .ok ⟨3, 3⟩)),
    .session 0 (.session (.call (.startExec "make" true))),
    .session 0 (.session (.advance 1 .ok ⟨4, 4⟩)), .session 0 (.session (.advance 1 .ok ⟨5, 5⟩)),
    .session 0 (.session (.advance 1 (.opened "e") ⟨6, 6⟩)),
    .session 0 (.session (.advance 1 .ok ⟨7, 7⟩))]

/-- A PTY of the same session that the remote side ends. -/
def shellEndedSteps : List DaemonStep :=
  [.session 0 (.session (.call .shellOpen)), .session 0 (.session (.advance 2 .ok ⟨8, 8⟩)),
    .session 0 (.session (.advance 2 .ok ⟨9, 9⟩)),
    .session 0 (.session (.advance 2 (.opened "p") ⟨10, 10⟩)),
    .session 0 (.session (.advance 2 .ok ⟨11, 11⟩)),
    .session 0 (.session (.advance 2 .ok ⟨12, 12⟩)),
    .session 0 (.session (.advance 2 .ok ⟨13, 13⟩)),
    .session 0 (.session (.advance 2 .ok ⟨14, 14⟩)),
    .session 0 (.session (.advance 2 .ok ⟨15, 15⟩)),
    .session 0 (.session (.advance 2 .ok ⟨16, 16⟩))]

/-- The commands with a task. -/
def tasks (d : Daemon) : List String := d.ops.filterMap Op.task

/-- Forty days on, in a session that is stored as ready. -/
theorem retains_running_work_iff_background : ∃ moves d,
    machine.run (initial .empty) moves = some d ∧ d.tasks = ["e"] ∧
      machine.Meets (fun d move => d.Retains ∧ d.Appends move) (initial .empty) moves ∧
      d.Retains := by
  let moves : List DaemonStep := backgroundSteps ++
    [.cleanup 30 3456000000000000, .record 0 (some "e") .stdout [0x61] ⟨3456000000000001, 17⟩]
  have hall : ((machine.run (initial .empty) moves).any fun d =>
      decide (d.tasks = ["e"])) = true := by decide
  have hspares : machine.Meets SparesWork (initial .empty) moves := by decide
  have hempty : (Database.empty.sessions.map fun row => row.info.id).Nodup := List.nodup_nil
  obtain ⟨d, hrun, htasks⟩ := (Option.any_eq_true _ _).mp hall
  exact ⟨moves, d, hrun, of_decide_eq_true htasks,
    (retains_running_work_iff hempty hrun).mpr hspares⟩

/-- A PTY has ended and left its session stored as disconnected. Forty days on `cleanup` deletes
the session under the command that still runs. -/
theorem cleanup_deletes_running_work : ∃ moves d d' s error,
    machine.run (initial .empty) moves = some d ∧ d.tasks = ["e"] ∧ d.rows.map CommandInfo.key =
      [("e", .running)] ∧
      machine.step d (.cleanup 30 3456000000000000) = some d' ∧ d'.tasks = ["e"] ∧
      d'.storage.db.sessions = [] ∧ d'.rows = [] ∧ d'.sessions[0]? = some s ∧
      (record d'.storage s.session.shared.runtime (some "e") .stdout [0x61] ⟨17, 17⟩).result =
        .error (.database .queryReturnedNoRows) ∧
      loadCommand d'.storage "e" = .error error ∧ error.code = "COMMAND_NOT_FOUND" := by
  let moves : List DaemonStep := backgroundSteps ++ shellEndedSteps
  have hall : ((machine.run (initial .empty) moves).any fun d =>
      decide (d.tasks = ["e"] ∧ d.rows.map CommandInfo.key = [("e", .running)]) &&
      (machine.step d (.cleanup 30 3456000000000000)).any fun d' =>
        decide (d'.tasks = ["e"] ∧ d'.storage.db.sessions = [] ∧ d'.rows = []) &&
        d'.sessions[0]?.any fun s => decide (s.sessionId = "s")) = true := by decide
  obtain ⟨d, hrun, hall⟩ := (Option.any_eq_true _ _).mp hall
  obtain ⟨hd, hall⟩ := Bool.and_eq_true_iff.mp hall
  obtain ⟨htasks, hrows⟩ := of_decide_eq_true hd
  obtain ⟨d', hstep, hall⟩ := (Option.any_eq_true _ _).mp hall
  obtain ⟨hd', hall⟩ := Bool.and_eq_true_iff.mp hall
  obtain ⟨htasks', hsessions', hrows'⟩ := of_decide_eq_true hd'
  obtain ⟨s, hs, hid⟩ := (Option.any_eq_true _ _).mp hall
  have hnone : d'.storage.command "e" = none := by
    have hcommands : d'.storage.db.commands = [] := hrows'
    simp only [Storage.command, Database.command, hcommands, List.find?_nil]
  have hload : ∃ error, loadCommand d'.storage "e" = .error error ∧
      error.code = "COMMAND_NOT_FOUND" := by
    simp only [loadCommand, hnone]
    exact ⟨_, rfl, rfl⟩
  obtain ⟨error, hload, hcode⟩ := hload
  refine ⟨moves, d, d', s, error, hrun, htasks, hrows, hstep, htasks', hsessions', hrows', hs, ?_,
    hload, hcode⟩
  rw [record_result]
  simp only [Storage.appendEvent, Database.session, hsessions', List.find?_nil]

end Daemon
end AiSsh
