import AiSsh.PageProgress
import AiSsh.ShellRead

/-!
The statuses a session page lists. `read_shell_page` reads the rows of the commands last,
after the events they are shown with; `command_poll` reads its row first. A command that
records an event and ends in between is listed as finished next to a page that ends
before its last event. Where no command ends with an event the page has missed, a page
without more that lists a command as finished has all of it.
-/

namespace AiSsh

open Library

namespace Storage

/-- A fold that keeps what it has or takes the next row ends with one of the rows. -/
theorem foldl_mem {step : Option CommandInfo → CommandInfo → Option CommandInfo}
    (hstep : ∀ latest row, step latest row = latest ∨ step latest row = some row)
    {rows : List CommandInfo} {latest : Option CommandInfo} {result : CommandInfo}
    (h : rows.foldl step latest = some result) : latest = some result ∨ result ∈ rows := by
  induction rows generalizing latest with
  | nil => exact .inl h
  | cons row rows ih =>
      cases ih h with
      | inr hmem => exact .inr (List.mem_cons_of_mem row hmem)
      | inl hlatest =>
          cases hstep latest row with
          | inl hkept => exact .inl (hkept.symm.trans hlatest)
          | inr htaken =>
              rw [htaken, Option.some.injEq] at hlatest
              exact .inr (hlatest ▸ List.mem_cons_self)

theorem latestCommandForSession_mem {s : Storage} {sessionId : String} {command : CommandInfo}
    (h : s.latestCommandForSession sessionId = some command) :
    command ∈ s.db.commands ∧ command.sessionId = sessionId := by
  rw [latestCommandForSession] at h
  have hfound := foldl_mem (fun latest row => ?_) h
  · cases hfound with
    | inl hnone => cases hnone
    | inr hmem => simpa using List.mem_filter.mp hmem
  · cases latest with
    | none => exact .inr rfl
    | some best =>
        simp only [Option.some.injEq]
        split
        · exact .inr rfl
        · exact .inl rfl

end Storage

namespace Database

/-- `commands.id` is a primary key. -/
def CommandKeys (db : Database) : Prop := (db.commands.map CommandInfo.id).Nodup

theorem CommandKeys.updateCommand {db : Database} (h : db.CommandKeys) (id : String)
    (set : CommandInfo → CommandInfo) (hset : ∀ row, (set row).id = row.id) :
    (db.updateCommand id set).CommandKeys := by
  have hids : (db.updateCommand id set).commands.map CommandInfo.id =
      db.commands.map CommandInfo.id := by
    simp only [Database.updateCommand, List.map_map]
    refine List.map_congr_left fun row _ => ?_
    simp only [Function.comp_apply]
    split
    · exact hset row
    · rfl
  rw [CommandKeys]
  rw [hids]
  exact h

/-- A row that is found is the row under its id. -/
theorem CommandKeys.command_eq {db : Database} (h : db.CommandKeys) {row : CommandInfo}
    (hrow : row ∈ db.commands) : db.command row.id = some row := by
  obtain ⟨found, hfound⟩ := Option.isSome_iff_exists.mp (mem_command_isSome hrow)
  have hsame := List.inj_on_of_nodup_map h (command_mem hfound) hrow (command_id hfound)
  rw [hfound, hsame]

end Database

/-- A listed row is the row of a command of the page, or of the session's newest one. -/
theorem mem_shellCommands {storage : Storage} {sessionId : String} {events : List TerminalEvent}
    {command : CommandInfo} (h : command ∈ shellCommands storage sessionId events) :
    storage.db.command command.id = some command ∧
      ((∃ event ∈ events, event.commandId = some command.id) ∨
        ∃ latest, storage.latestCommandForSession sessionId = some latest ∧
          latest.id = command.id) := by
  simp only [shellCommands, List.mem_filterMap, List.mem_insertionSort, List.mem_dedup,
    List.mem_append, Option.mem_toList, Option.map_eq_some_iff] at h
  obtain ⟨id, hid, hrow⟩ := h
  obtain rfl : command.id = id := Database.command_id hrow
  refine ⟨hrow, hid.imp (fun ⟨event, he, hc⟩ => ⟨event, he, hc⟩) fun ⟨latest, hl, hc⟩ => ?_⟩
  exact ⟨latest, hl, hc⟩

namespace Recorders

theorem Steps.commandKeys {s s' : Recorders} {move : RecorderStep} (h : Steps s move s')
    (hkeys : s.storage.db.CommandKeys) : s'.storage.db.CommandKeys := by
  cases h with
  | startExec hinsert =>
      obtain ⟨hfresh, -, rfl⟩ := Storage.insertCommand_ok hinsert
      rw [Database.CommandKeys]
      simp only [List.map_append, List.map_cons, List.map_nil]
      refine List.nodup_append.mpr ⟨hkeys, by simp, ?_⟩
      intro a ha b hb hsame
      obtain ⟨row, hrow, rfl⟩ := List.mem_map.mp ha
      have hfound := Database.mem_command_isSome hrow
      rw [hsame, List.mem_singleton.mp hb, hfresh] at hfound
      cases hfound
  | openPty | draw _ | keep _ | announce _ | wake _ _ => exact hkeys
  | reject _ =>
      rw [Storage.rejectEvent]
      split
      · exact hkeys
      · exact Database.CommandKeys.updateCommand hkeys _ CommandInfo.truncate fun _ => rfl
  | accept _ hinsert =>
      obtain ⟨-, -, -, rfl⟩ := Database.insertEvent_ok hinsert
      simp only [Storage.countEvent, Storage.countCommand]
      split
      · exact hkeys
      · exact Database.CommandKeys.updateCommand hkeys _ (CommandInfo.count _ _) fun _ => rfl
  | update _ _ => exact hkeys.updateCommand _ (CommandInfo.update _) fun _ => rfl

/-- Nothing of the command is stored or live beyond the cursor. -/
def Ends (s : Recorders) (id : String) (cursor : Nat) : Prop :=
  (∀ event ∈ s.storage.db.events, event.commandId = some id → event.sequence ≤ cursor) ∧
    ∀ event ∈ s.runtime.liveEvents, event.commandId = some id → event.sequence ≤ cursor

theorem update_some {s s' : Recorders} {task : Nat} {status : CommandStatus}
    {exit : Option UInt32} {now : Now} (h : s.step (.update task status exit now) = some s') :
    ∃ command outputBytes, s.tasks[task]? = some ⟨some command, .idle⟩ ∧
      s'.storage = s.storage.updateCommand
        (command.finished status exit s.runtime.sequence outputBytes now) := by
  simp only [step, update, Option.bind_eq_bind, Option.bind_eq_some_iff] at h
  obtain ⟨⟨recorded, phase⟩, htask, _, hguard, command, hcommand, h⟩ := h
  simp only [guard_some] at hguard hcommand
  obtain ⟨rfl, -⟩ := hguard
  subst hcommand
  cases h
  exact ⟨command, _, htask, rfl⟩

/-- A command that is settled after a step was settled before, or its task wrote the row. -/
theorem settled_back {s s' : Recorders} {move : RecorderStep} (hstep : s.step move = some s')
    {id sessionId : String} (hs : s'.Settled id sessionId) :
    s.Settled id sessionId ∨
      ∃ task status exit now recorder, move = .update task status exit now ∧
        s.tasks[task]? = some recorder ∧ recorder.commandId = some id := by
  have hmap {set : CommandInfo → CommandInfo}
      (hcommand : s'.storage.db.command id = (s.storage.db.command id).map set)
      (hset : ∀ row, (set row).sessionId = row.sessionId ∧ (set row).status = row.status) :
      s.Settled id sessionId := by
    obtain ⟨row, hrow, hr, hstatus⟩ := hs
    obtain ⟨old, hold, rfl⟩ := Option.map_eq_some_iff.mp (hcommand ▸ hrow)
    exact ⟨old, hold, (hset old).1 ▸ hr, (hset old).2 ▸ hstatus⟩
  cases steps_of_step hstep with
  | startExec hinsert =>
      obtain ⟨row, hrow, hr, hstatus⟩ := hs
      rw [Storage.insertCommand_command hinsert id] at hrow
      split at hrow
      · cases hrow
        exact absurd rfl hstatus
      · exact .inl ⟨row, hrow, hr, hstatus⟩
  | openPty | draw _ | keep _ | announce _ | wake _ _ => exact .inl hs
  | reject _ =>
      refine .inl (hmap (Storage.rejectEvent_command _ _ id) fun row => ?_)
      split <;> exact ⟨rfl, rfl⟩
  | accept _ hinsert =>
      refine .inl (hmap (Storage.acceptEvent_command hinsert id) fun row => ?_)
      split <;> exact ⟨rfl, rfl⟩
  | @update task status exit now _ _ _ _ _ _ =>
      obtain ⟨command, outputBytes, htask, hstorage⟩ := update_some hstep
      by_cases hid : command.id = id
      · exact .inr ⟨task, status, exit, now, _, rfl, htask, congrArg some hid⟩
      · obtain ⟨row, hrow, hr, hsettled⟩ := hs
        rw [hstorage, Storage.updateCommand_command] at hrow
        obtain ⟨old, hold, rfl⟩ := Option.map_eq_some_iff.mp hrow
        have hother : ¬ old.id = (command.finished status exit s.runtime.sequence outputBytes
            now).id := fun h => hid (h.symm.trans (Database.command_id hold))
        rw [if_neg hother] at hr hsettled
        exact .inl ⟨old, hold, hr, hsettled⟩

end Recorders

namespace ShellRead

/-- The page so far holds all of the command that there is. -/
def Covers (s : Recorders) (p : ShellRead) (id : String) : Prop :=
  match p.phase with
  | .readLive stored =>
      stored.2 = false → ∀ event ∈ s.storage.db.events, event.commandId = some id →
        p.after < event.sequence → event ∈ stored.1
  | .readCommands events more =>
      more = false → s.Ends id (nextCursor TerminalEvent.sequence p.after events)
  | .subscribe | .readEvents | .waiting | .answered _ => True

/-- A command that ends while a page is put together leaves nothing the page has missed. -/
def EndsCovered (q : Recorders × ShellRead) : RecorderStep ⊕ PollStep → Prop
  | .inl (.update task _ _ _) =>
      match q.1.tasks[task]?.bind Recorder.commandId with
      | some id => q.2.Covers q.1 id
      | none => True
  | _ => True

instance decidableCovers (s : Recorders) (p : ShellRead) (id : String) :
    Decidable (p.Covers s id) := by
  simp only [Covers, Recorders.Ends]
  cases p.phase <;> infer_instance

instance decidableEndsCovered (q : Recorders × ShellRead) :
    DecidablePred (EndsCovered q) := by
  intro move
  simp only [EndsCovered]
  split
  · split <;> infer_instance
  · infer_instance

/-- A page without more that lists a command as finished has all of it, and no task is left
that could record more. -/
def Consistent (s : Recorders) (p : ShellRead) : Prop :=
  ∀ response, p.phase = .answered (.ok response) → response.hasMore = false →
    ∀ command ∈ response.commands, command.status ≠ .running →
      s.Ends command.id response.nextSequence ∧
        ∀ recorder ∈ s.tasks, recorder.commandId = some command.id → recorder.recording = false

/-- The events of a page belong to commands of its session. -/
def OwnCommands (s : Recorders) (p : ShellRead) (events : List TerminalEvent) : Prop :=
  ∀ event ∈ events, ∀ id, event.commandId = some id → s.RowIs id p.sessionId fun _ => True

/-- What a read under way knows of the commands that have ended. -/
def Following (s : Recorders) (p : ShellRead) : Prop :=
  match p.phase with
  | .readLive stored =>
      Sound TerminalEvent.sequence (fun _ => True) p.after stored.1 ∧ p.OwnCommands s stored.1 ∧
        ∀ id, s.Settled id p.sessionId → p.Covers s id
  | .readCommands events _ =>
      p.OwnCommands s events ∧ ∀ id, s.Settled id p.sessionId → p.Covers s id
  | .answered (.ok response) =>
      response.hasMore = false → ∀ command ∈ response.commands, command.status ≠ .running →
        s.Settled command.id p.sessionId ∧ s.Ends command.id response.nextSequence
  | .subscribe | .readEvents | .waiting | .answered (.error _) => True

theorem OwnCommands.move {s s' : Recorders} {p : ShellRead} {events : List TerminalEvent}
    (h : OwnCommands s p events) {move : RecorderStep} (hstep : Recorders.Steps s move s') :
    OwnCommands s' p events := by
  intro event he id hid
  obtain ⟨row, hrow, hr, -⟩ := h event he id hid
  obtain ⟨row', hrow', hr'⟩ := hstep.row hrow
  exact ⟨row', hrow', hr'.trans hr, trivial⟩

/-- A settled command that is covered stays covered. -/
theorem Covers.move {s s' : Recorders} {p : ShellRead} {id : String} (hcovers : Covers s p id)
    {sessionId : String} (hs : s.Settled id sessionId) (h : s.Wellformed) {move : RecorderStep}
    (hstep : Recorders.Steps s move s') : Covers s' p id := by
  obtain ⟨-, hevents, -, hlive⟩ := hstep.settled h hs
  rw [Covers] at hcovers ⊢
  cases hphase : p.phase with
  | readLive stored =>
      simp only [hphase] at hcovers
      exact fun hmore event he hc => hcovers hmore event ((hevents event hc).mp he) hc
  | readCommands events more =>
      simp only [hphase] at hcovers
      intro hmore
      obtain ⟨hstored, hl⟩ := hcovers hmore
      exact ⟨fun event he hc => hstored event ((hevents event hc).mp he) hc,
        fun event he hc => hl event (hlive event he hc) hc⟩
  | subscribe | readEvents | waiting | answered _ => trivial

/-- An update moves no event. -/
theorem Covers.update {s s' : Recorders} {p : ShellRead} {id : String} (h : Covers s p id)
    {task : Nat} {status : CommandStatus} {exit : Option UInt32} {now : Now}
    (hstep : Recorders.Steps s (.update task status exit now) s') : Covers s' p id := by
  cases hstep with
  | update _ _ => exact h

theorem settled_covered {s s' : Recorders} {p : ShellRead} (hwell : s.Wellformed)
    (h : ∀ id, s.Settled id p.sessionId → p.Covers s id) {move : RecorderStep}
    (hstep : s.step move = some s') (hends : EndsCovered (s, p) (.inl move)) :
    ∀ id, s'.Settled id p.sessionId → p.Covers s' id := by
  intro id hs
  have hsteps := Recorders.steps_of_step hstep
  rcases Recorders.settled_back hstep hs with hbefore | ⟨task, status, exit, now, recorder, rfl,
    htask, hid⟩
  · exact (h id hbefore).move hbefore hwell hsteps
  · simp only [EndsCovered, htask, Option.bind_some, hid] at hends
    exact hends.update hsteps

theorem Following.move {s s' : Recorders} {p : ShellRead} (h : Following s p)
    (hwell : s.Wellformed) {move : RecorderStep} (hstep : s.step move = some s')
    (hends : EndsCovered (s, p) (.inl move)) : Following s' p := by
  have hsteps := Recorders.steps_of_step hstep
  rw [Following] at h ⊢
  cases hphase : p.phase with
  | readLive stored =>
      simp only [hphase] at h
      exact ⟨h.1, h.2.1.move hsteps, settled_covered hwell h.2.2 hstep hends⟩
  | readCommands events more =>
      simp only [hphase] at h
      exact ⟨h.1.move hsteps, settled_covered hwell h.2 hstep hends⟩
  | answered response =>
      cases response with
      | error error => trivial
      | ok response =>
          simp only [hphase] at h
          intro hmore command hcommand hstatus
          obtain ⟨hsettled, hstored, hl⟩ := h hmore command hcommand hstatus
          obtain ⟨hsettled', hevents, -, hlive⟩ := hsteps.settled hwell hsettled
          exact ⟨hsettled', fun event he hc => hstored event ((hevents event hc).mp he) hc,
            fun event he hc => hl event (hlive event he hc) hc⟩
  | subscribe | readEvents | waiting => trivial

/-- A database page of the session, read now. -/
theorem following_events {s : Recorders} {p : ShellRead} (hwell : s.Wellformed)
    (howners : s.storage.db.EventOwners) :
    Following s { p with
      phase := .readLive (s.storage.eventsForSession p.sessionId p.after p.limit) } := by
  have hfront := s.storage.events_prefix .sessionId p.sessionId p.after p.limit
  have hall := Storage.ascending_eventRows hwell.schema.uniqueSequences howners .sessionId
    p.sessionId p.after
  have hmem {event : TerminalEvent}
      (he : event ∈ (s.storage.eventsForSession p.sessionId p.after p.limit).1) :=
    Storage.mem_eventRows.mp (hfront.subset he)
  refine ⟨⟨hall.sublist _ hfront.sublist, fun event he => (hmem he).2.2, fun _ _ => trivial⟩,
    fun event he id hid => ?_, fun id hs hmore event he hid hafter => ?_⟩
  · obtain ⟨row, hrow, hown⟩ := howners event (hmem he).1 id hid
    have hselected := (hmem he).2.1
    simp only [EventColumn.selects, beq_iff_eq] at hselected
    exact ⟨row, hrow, hown.trans hselected, trivial⟩
  · have hselected : event.sessionId = p.sessionId := by
      obtain ⟨row, hrow, hr, -⟩ := hs
      obtain ⟨row', hrow', hown⟩ := howners event he id hid
      cases hrow.symm.trans hrow'
      exact hown.symm.trans hr
    have hrows : event ∈ s.storage.eventRows .sessionId p.sessionId p.after :=
      Storage.mem_eventRows.mpr ⟨he, by simp [EventColumn.selects, hselected], hafter⟩
    rw [← Storage.events_all hmore] at hrows
    exact hrows

/-- The live tail on top of a page that covers a command makes a page that ends with it. -/
theorem covers_live {s : Recorders} {p : ShellRead} (hwell : s.Wellformed)
    {stored : List TerminalEvent × Bool}
    (hsound : Sound TerminalEvent.sequence (fun _ => True) p.after stored.1) {id : String}
    (hs : s.Settled id p.sessionId)
    (hcovers : stored.2 = false → ∀ event ∈ s.storage.db.events, event.commandId = some id →
      p.after < event.sequence → event ∈ stored.1)
    (hmore : (readLiveShell [s.runtime] stored p.sessionId p.after p.limit).2 = false) :
    s.Ends id (nextCursor TerminalEvent.sequence p.after
      (readLiveShell [s.runtime] stored p.sessionId p.after p.limit).1) := by
  unfold readLiveShell at hmore ⊢
  cases hruntime : findRuntime [s.runtime] p.sessionId with
  | some runtime =>
      obtain ⟨rfl, -⟩ := findRuntime_singleton.mp hruntime
      simp only [hruntime] at hmore ⊢
      obtain ⟨hwhole, hpage⟩ := appendLive_all hmore
      rw [hpage]
      have hbeyond : p.after ≤ nextCursor TerminalEvent.sequence p.after
          (sortByKey TerminalEvent.sequence
            (stored.1 ++ s.runtime.liveEvents.filter (liveSelects p.after none))) := by
        refine cursor_le_nextCursor _ fun event he => ?_
        cases List.mem_append.mp ((mem_sortByKey _).mp he) with
        | inl hrow => exact hsound.beyond event hrow
        | inr hlive => exact (mem_liveSelects.mp hlive).2.1
      refine ⟨fun event he hid => ?_, fun event he hid => ?_⟩
      · by_cases hafter : p.after < event.sequence
        · exact le_nextCursor_sortByKey _
            (List.mem_append_left _ (hcovers hwhole event he hid hafter))
        · exact Nat.le_trans (Nat.le_of_not_lt hafter) hbeyond
      · by_cases hafter : p.after < event.sequence
        · exact le_nextCursor_sortByKey _
            (List.mem_append_right _ (mem_liveSelects.mpr ⟨he, hafter, nofun⟩))
        · exact Nat.le_trans (Nat.le_of_not_lt hafter) hbeyond
  | none =>
      simp only [hruntime] at hmore ⊢
      refine ⟨fun event he hid => ?_, fun event he hid => ?_⟩
      · by_cases hafter : p.after < event.sequence
        · exact le_nextCursor _ hsound.ascending (hcovers hmore event he hid hafter)
        · exact Nat.le_trans (Nat.le_of_not_lt hafter) (hsound.cursor_le _)
      · -- the live tail holds events of this session's commands only
        obtain ⟨row, hrow, hr⟩ := hwell.liveOwn event he id hid
        obtain ⟨row', hrow', hr', -⟩ := hs
        cases hrow.symm.trans hrow'
        rw [findRuntime_singleton.mpr ⟨rfl, hr.symm.trans hr'⟩] at hruntime
        cases hruntime

theorem ownCommands_live {s : Recorders} {p : ShellRead} (hwell : s.Wellformed)
    {stored : List TerminalEvent × Bool} (hown : p.OwnCommands s stored.1) :
    p.OwnCommands s (readLiveShell [s.runtime] stored p.sessionId p.after p.limit).1 := by
  unfold readLiveShell
  cases hruntime : findRuntime [s.runtime] p.sessionId with
  | none => exact hown
  | some runtime =>
      obtain ⟨rfl, hid⟩ := findRuntime_singleton.mp hruntime
      intro event he id hc
      cases mem_appendLive_parts he with
      | inl hrow => exact hown event hrow id hc
      | inr hlive =>
          obtain ⟨row, hrow, hr⟩ := hwell.liveOwn event hlive id hc
          exact ⟨row, hrow, hr.trans hid, trivial⟩

/-- Every listed row is of the session. -/
theorem listed_own {s : Recorders} {p : ShellRead} (hkeys : s.storage.db.CommandKeys)
    {events : List TerminalEvent} (hown : p.OwnCommands s events) {command : CommandInfo}
    (h : command ∈ shellCommands s.storage p.sessionId events) :
    s.storage.db.command command.id = some command ∧ command.sessionId = p.sessionId := by
  obtain ⟨hrow, ⟨event, he, hid⟩ | ⟨latest, hlatest, hid⟩⟩ := mem_shellCommands h
  · obtain ⟨row, hrow', hr, -⟩ := hown event he _ hid
    cases hrow.symm.trans hrow'
    exact ⟨hrow, hr⟩
  · obtain ⟨hmem, hr⟩ := Storage.latestCommandForSession_mem hlatest
    have hfound := hkeys.command_eq hmem
    rw [hid, hrow] at hfound
    cases hfound
    exact ⟨hrow, hr⟩

theorem Following.look {s : Recorders} {p p' : ShellRead} (h : Following s p)
    (hwell : s.Wellformed) (howners : s.storage.db.EventOwners)
    (hkeys : s.storage.db.CommandKeys) {step : PollStep} (hlook : Looks s p step p') :
    Following s p' := by
  cases hlook with
  | subscribe _ _ | stored _ | unknown _ | block _ | changed _ _ | expire _ => trivial
  | events _ => exact following_events hwell howners
  | live hphase =>
      simp only [Following, hphase] at h
      refine ⟨ownCommands_live hwell h.2.1, fun id hs hmore => ?_⟩
      have hcovers := h.2.2 id hs
      simp only [Covers, hphase] at hcovers
      exact covers_live hwell h.1 hs hcovers hmore
  | answer hphase _ =>
      simp only [Following, hphase] at h
      intro hmore command hcommand hstatus
      obtain ⟨hrow, hr⟩ := listed_own hkeys h.1 hcommand
      have hsettled : s.Settled command.id p.sessionId := ⟨command, hrow, hr, hstatus⟩
      have hcovers := h.2 command.id hsettled
      simp only [Covers, hphase] at hcovers
      refine ⟨hsettled, ?_⟩
      rw [respondShell, eventsResponse_nextSequence]
      exact hcovers hmore

/-- In every run in which commands end covered by the pages under way, every answer without
more is consistent with the statuses it lists, then and in every later state. -/
theorem final_statuses_are_consistent {db : Database} {limit : Nat} {info : SessionInfo}
    {now : Now} {sessionId : String} {after maxBytes waitSeconds : Nat} {started : Now}
    {moves : List (RecorderStep ⊕ PollStep)} {s : Recorders} {p : ShellRead}
    (hschema : db.Schema) (howners : db.EventOwners) (hkeys : db.CommandKeys)
    (hrun : shellReadMachine.run (.created ⟨db, limit⟩ info now,
      .start sessionId after maxBytes waitSeconds started) moves = some (s, p))
    (hends : shellReadMachine.Meets EndsCovered (.created ⟨db, limit⟩ info now,
      .start sessionId after maxBytes waitSeconds started) moves) : Consistent s p := by
  have hinit : (Recorders.created ⟨db, limit⟩ info now).storage.db.EventOwners ∧
      (Recorders.created ⟨db, limit⟩ info now).storage.db.CommandKeys := by
    refine ⟨Recorders.eventOwners_created howners, ?_⟩
    rw [Database.CommandKeys, Recorders.created]
    rw [Storage.upsertSession_commands]
    exact hkeys
  have hinv : s.Wellformed ∧ s.storage.db.EventOwners ∧ s.storage.db.CommandKeys ∧
      Following s p := by
    refine Recorders.machine.observed_invariant_under ShellRead.look
      (I := fun s p => s.Wellformed ∧ s.storage.db.EventOwners ∧ s.storage.db.CommandKeys ∧
        Following s p) ?_ ?_
      (p := (_, .start sessionId after maxBytes waitSeconds started))
      ⟨Recorders.wellformed_created hschema, hinit.1, hinit.2, trivial⟩ hends hrun
    · intro s p move s' hknown hends hstep
      obtain ⟨hwell, howners, hkeys, hfollowing⟩ := hknown
      have hsteps := Recorders.steps_of_step hstep
      exact ⟨hwell.steps hsteps, hsteps.eventOwners hwell howners, hsteps.commandKeys hkeys,
        hfollowing.move hwell hstep hends⟩
    · intro s p step p' hknown _ hlook
      obtain ⟨hwell, howners, hkeys, hfollowing⟩ := hknown
      exact ⟨hwell, howners, hkeys, hfollowing.look hwell howners hkeys (looks_of_look hlook)⟩
  obtain ⟨hwell, -, -, hfollowing⟩ := hinv
  intro response hanswered hmore command hcommand hstatus
  simp only [Following, hanswered] at hfollowing
  obtain ⟨hsettled, hended⟩ := hfollowing hmore command hcommand hstatus
  exact ⟨hended, fun recorder hr hid => hsettled.recording hwell hr hid⟩

/-- One command with one line of output, which ends while a page that has the line is put
together. -/
def endsOnPage : List (RecorderStep ⊕ PollStep) :=
  Poll.oneLine ++ [.inr (.advance ⟨0, 0⟩), .inr (.advance ⟨0, 0⟩),
    .inl (.update 0 .completed (some 0) ⟨0, 0⟩), .inr (.advance ⟨0, 0⟩), .inr (.advance ⟨0, 0⟩)]

theorem final_statuses_are_consistent_endsOnPage :
    ∃ s p response, shellReadMachine.run
        (.created ⟨.empty, 4⟩ Poll.createdInfo ⟨0, 0⟩, .start "s" 0 10 0 ⟨0, 0⟩) endsOnPage =
          some (s, p) ∧
      p.phase = .answered (.ok response) ∧ response.hasMore = false ∧
      response.commands.map CommandInfo.status = [.completed] ∧ Consistent s p := by
  have hall : ((shellReadMachine.run
      (.created ⟨.empty, 4⟩ Poll.createdInfo ⟨0, 0⟩, .start "s" 0 10 0 ⟨0, 0⟩) endsOnPage).any
        fun q => q.2.phase.response.any fun response => !response.hasMore &&
          response.commands.map CommandInfo.status == [.completed]) = true := by decide
  obtain ⟨⟨s, p⟩, hrun, hall⟩ := (Option.any_eq_true _ _).mp hall
  obtain ⟨response, hresponse, hall⟩ := (Option.any_eq_true _ _).mp hall
  simp only [Bool.and_eq_true, Bool.not_eq_true'] at hall
  have howners : Database.empty.EventOwners := by simp [Database.EventOwners, Database.empty]
  exact ⟨s, p, response, hrun, ShellReadPhase.answered_of_response hresponse, hall.1,
    eq_of_beq hall.2, final_statuses_are_consistent Database.schema_empty howners List.nodup_nil
      hrun (by decide)⟩

/-- The command writes a second line and ends after the database page was read. -/
theorem finished_command_has_unread_output :
    ∃ moves s p response command event, shellReadMachine.run
        (.created ⟨.empty, 4⟩ Poll.createdInfo ⟨0, 0⟩, .start "s" 0 10 0 ⟨0, 0⟩) moves =
          some (s, p) ∧
      p.phase = .answered (.ok response) ∧ response.hasMore = false ∧
      command ∈ response.commands ∧ command.status ≠ .running ∧
      event ∈ s.storage.db.events ∧ event.commandId = some command.id ∧
      response.nextSequence < event.sequence := by
  have hall : ((shellReadMachine.run
      (.created ⟨.empty, 4⟩ Poll.createdInfo ⟨0, 0⟩, .start "s" 0 10 0 ⟨0, 0⟩)
      (Poll.oneLine ++ [.inr (.advance ⟨0, 0⟩), .inr (.advance ⟨0, 0⟩),
        .inl (.draw 0 .stdout [3] ⟨0, 0⟩), .inl (.append 0), .inl (.announce 0 ⟨0, 0⟩),
        .inl (.update 0 .completed (some 0) ⟨0, 0⟩), .inr (.advance ⟨0, 0⟩),
        .inr (.advance ⟨0, 0⟩)])).any fun q =>
          q.2.phase.response.any fun response => !response.hasMore &&
            response.commands.any fun command => command.status != .running &&
              q.1.storage.db.events.any fun event =>
                event.commandId == some command.id &&
                  Nat.blt response.nextSequence event.sequence) = true := by decide
  obtain ⟨⟨s, p⟩, hrun, hall⟩ := (Option.any_eq_true _ _).mp hall
  obtain ⟨response, hresponse, hall⟩ := (Option.any_eq_true _ _).mp hall
  simp only [Bool.and_eq_true, Bool.not_eq_true', List.any_eq_true, bne_iff_ne, beq_iff_eq,
    Nat.blt_eq] at hall
  obtain ⟨hmore, command, hcommand, hstatus, event, he, hid, hlt⟩ := hall
  exact ⟨_, s, p, response, command, event, hrun,
    ShellReadPhase.answered_of_response hresponse, hmore, hcommand, hstatus, he, hid, hlt⟩

end ShellRead
end AiSsh
