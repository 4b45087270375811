import AiSsh.CommandPoll
import AiSsh.DatabasePages
import AiSsh.ShellReader

/-!
What a page is worth to a client that loops while `has_more` is set. The numbers of a
session are drawn once each, and an event is in one place at a time, however the
recorders interleave and whatever the live tail gives up. So a page that is put together
from the database and a later look at the live tail shows every number once, beyond the
cursor and in order, and a page that promises more moves the cursor.
-/

namespace AiSsh

open Library

namespace Recorders

/-- No number is drawn twice. -/
structure NumbersOnce (s : Recorders) : Prop where
  nodup : (s.accounted.map TerminalEvent.sequence).Nodup
  drawn : ∀ event ∈ s.accounted, event.sequence ≤ s.runtime.sequence

/-- A step moves numbers on or loses them, and draws at most the next one. -/
theorem Steps.count_le {s s' : Recorders} {move : RecorderStep} (hstep : Steps s move s')
    (h : s.Wellformed) (n : Nat) :
    (s'.accounted.map TerminalEvent.sequence).count n ≤
      (s.accounted.map TerminalEvent.sequence).count n +
        if s'.runtime.sequence = s.runtime.sequence + 1 ∧ s.runtime.sequence + 1 = n then 1
        else 0 := by
  cases hstep with
  | startExec hinsert =>
      obtain ⟨-, -, rfl⟩ := Storage.insertCommand_ok hinsert
      simp [accounted, stored, pending, List.filterMap_cons, Recorder.pending]
  | openPty => simp [accounted, stored, pending, List.filterMap_cons, Recorder.pending]
  | draw htasks =>
      rw [accounted, accounted, pending_split htasks, pending_split rfl]
      simp [stored, Recorder.pending, SessionRuntime.drawSequence, SessionRuntime.nextEvent,
        List.count_cons]
      omega
  | reject htasks =>
      rw [accounted, accounted, pending_split htasks, pending_split rfl]
      simp [stored, Recorder.pending, Storage.rejectEvent_events, List.count_cons]
  | @accept task command event db pre post htasks hinsert =>
      have hown := (h.pendingOwn ⟨command, .drawn event⟩ (htasks ▸ mem_middle.mpr (.inl rfl))
        event rfl).1
      rw [accounted, accounted, pending_split htasks, pending_split rfl]
      simp [stored, Recorder.pending, Storage.acceptEvent_events hinsert, hown, List.count_cons]
      omega
  | @keep task command event pre post htasks =>
      have hqueue := congrArg (fun events => (events.map TerminalEvent.sequence).count n)
        (s.runtime.overflow_append event)
      rw [accounted, accounted, pending_split htasks, pending_split rfl]
      simp [stored, Recorder.pending, SessionRuntime.keepLive, List.count_cons] at hqueue ⊢
      omega
  | announce htasks =>
      rw [accounted, accounted, pending_split htasks, pending_split rfl]
      simp [stored, Recorder.pending, SessionRuntime.announce]
  | update htasks _ =>
      rw [accounted, accounted, pending_split htasks, pending_split rfl]
      simp [stored, Recorder.pending, Storage.updateCommand]
  | wake htasks hphase =>
      rw [accounted, accounted, pending_split htasks, pending_split rfl]
      rcases hphase with rfl | rfl <;> simp [stored, Recorder.pending]

theorem NumbersOnce.steps {s s' : Recorders} (hn : NumbersOnce s) (h : s.Wellformed)
    {move : RecorderStep} (hstep : Steps s move s') : NumbersOnce s' := by
  have hfresh : (s.accounted.map TerminalEvent.sequence).count (s.runtime.sequence + 1) = 0 := by
    refine List.count_eq_zero.mpr fun hmem => ?_
    obtain ⟨event, he, hsequence⟩ := List.mem_map.mp hmem
    have := hn.drawn event he
    omega
  have hcount := hstep.count_le h
  refine ⟨List.nodup_iff_count_le_one.mpr fun n => ?_, fun event he => ?_⟩
  · have honce := List.nodup_iff_count_le_one.mp hn.nodup n
    have hn' := hcount n
    split at hn'
    · rename_i hnext
      rw [← hnext.2, hfresh] at hn'
      rw [← hnext.2]
      omega
    · omega
  · have hpos : 0 < (s'.accounted.map TerminalEvent.sequence).count event.sequence :=
      List.count_pos_iff.mpr (List.mem_map_of_mem he)
    have hn' := hcount event.sequence
    split at hn'
    · rename_i hnext
      omega
    · have hold : event.sequence ∈ s.accounted.map TerminalEvent.sequence :=
        List.count_pos_iff.mp (by omega)
      obtain ⟨old, hmem, hsequence⟩ := List.mem_map.mp hold
      have hdrawn := hn.drawn old hmem
      have hle := hstep.sequence_le
      omega

theorem numbersOnce_created {db : Database} {limit : Nat} {info : SessionInfo} {now : Now}
    (hschema : db.Schema) (hnew : db.session info.id = none) :
    NumbersOnce (created ⟨db, limit⟩ info now) := by
  have hn : Numbered (created ⟨db, limit⟩ info now) := numbered_created hschema hnew
  exact ⟨hn.nodup, fun event he => (hn.drawn_iff.mpr ⟨event, he, rfl⟩).2⟩

/-- An event that a step stores belongs to the session and to the task's command. -/
theorem Steps.stored_back {s s' : Recorders} {move : RecorderStep} (hstep : Steps s move s')
    (h : s.Wellformed) {event : TerminalEvent} (he : event ∈ s'.storage.db.events) :
    event ∈ s.storage.db.events ∨ event.sessionId = s.runtime.sessionId ∧
      ∃ recorder ∈ s.tasks, event.commandId = recorder.commandId := by
  cases hstep with
  | startExec hinsert =>
      obtain ⟨-, -, rfl⟩ := Storage.insertCommand_ok hinsert
      exact .inl he
  | openPty | draw _ | keep _ | announce _ | update _ _ | wake _ _ => exact .inl he
  | reject _ => exact .inl ((Storage.rejectEvent_events _ _) ▸ he)
  | @accept task command drawn db pre post htasks hinsert =>
      rw [Storage.acceptEvent_events hinsert] at he
      have hrecorder := htasks ▸ mem_middle.mpr (.inl rfl)
      have hown := h.pendingOwn ⟨command, .drawn drawn⟩ hrecorder drawn rfl
      cases List.mem_append.mp he with
      | inl hold => exact .inl hold
      | inr hnew =>
          rw [List.mem_singleton.mp hnew]
          exact .inr ⟨hown.1, _, hrecorder, hown.2⟩

theorem Steps.eventOwners {s s' : Recorders} {move : RecorderStep} (hstep : Steps s move s')
    (h : s.Wellformed) (howners : s.storage.db.EventOwners) : s'.storage.db.EventOwners := by
  intro event he id hid
  have hold : ∃ row, s.storage.db.command id = some row ∧ row.sessionId = event.sessionId := by
    rcases hstep.stored_back h he with hstored | ⟨hown, recorder, hrecorder, hcommand⟩
    · exact howners event hstored id hid
    · obtain ⟨row, hrow, hr, -⟩ := h.taskRow recorder hrecorder id (hcommand.symm.trans hid)
      exact ⟨row, hrow, hr.trans hown.symm⟩
  obtain ⟨row, hrow, hr⟩ := hold
  obtain ⟨row', hrow', hr'⟩ := hstep.row hrow
  exact ⟨row', hrow', hr'.trans hr⟩

/-- What every state of the recorders keeps of its numbers. -/
structure Sequenced (s : Recorders) : Prop where
  wellformed : s.Wellformed
  once : NumbersOnce s
  owners : s.storage.db.EventOwners

theorem Sequenced.steps {s s' : Recorders} (h : Sequenced s) {move : RecorderStep}
    (hstep : Steps s move s') : Sequenced s' :=
  ⟨h.wellformed.steps hstep, h.once.steps h.wellformed hstep,
    hstep.eventOwners h.wellformed h.owners⟩

theorem Sequenced.reachable {s t : Recorders} (h : Sequenced s) (hreach : machine.Reachable s t) :
    Sequenced t := by
  obtain ⟨moves, hrun⟩ := hreach
  exact machine.invariant (fun _ _ _ h hstep => h.steps (steps_of_step hstep)) h hrun

theorem eventOwners_created {db : Database} {limit : Nat} {info : SessionInfo} {now : Now}
    (howners : db.EventOwners) :
    (created ⟨db, limit⟩ info now).storage.db.EventOwners := by
  intro event he id hid
  simp only [created, Storage.upsertSession_events] at he
  obtain ⟨row, hrow, hown⟩ := howners event he id hid
  refine ⟨row, ?_, hown⟩
  simp only [created, Storage.upsertSession_command]
  exact hrow

theorem sequenced_created {db : Database} {limit : Nat} {info : SessionInfo} {now : Now}
    (hschema : db.Schema) (howners : db.EventOwners) (hnew : db.session info.id = none) :
    Sequenced (created ⟨db, limit⟩ info now) where
  wellformed := wellformed_created hschema
  once := numbersOnce_created hschema hnew
  owners := eventOwners_created howners

/-- What a later state still has of an earlier one. -/
structure Extends (s t : Recorders) : Prop where
  session : t.runtime.sessionId = s.runtime.sessionId
  events : ∀ event ∈ s.storage.db.events, event ∈ t.storage.db.events
  command : ∀ id row, s.storage.db.command id = some row →
    ∃ row', t.storage.db.command id = some row' ∧ row'.sessionId = row.sessionId

theorem Steps.extends {s s' : Recorders} {move : RecorderStep} (h : Steps s move s') :
    Extends s s' where
  session := by cases h <;> rfl
  events := by
    intro event he
    cases h with
    | startExec hinsert =>
        obtain ⟨-, -, rfl⟩ := Storage.insertCommand_ok hinsert
        exact he
    | openPty | draw _ | keep _ | announce _ | update _ _ | wake _ _ => exact he
    | reject _ =>
        rw [Storage.rejectEvent_events]
        exact he
    | accept _ hinsert =>
        rw [Storage.acceptEvent_events hinsert]
        exact List.mem_append_left _ he
  command _ _ hrow := h.row hrow

theorem Extends.trans {r s t : Recorders} (h : Extends r s) (h' : Extends s t) : Extends r t where
  session := h'.session.trans h.session
  events event he := h'.events event (h.events event he)
  command id row hrow := by
    obtain ⟨row', hrow', hr'⟩ := h.command id row hrow
    obtain ⟨row'', hrow'', hr''⟩ := h'.command id row' hrow'
    exact ⟨row'', hrow'', hr''.trans hr'⟩

theorem extends_reachable {s t : Recorders} (h : machine.Reachable s t) : Extends s t := by
  obtain ⟨moves, hrun⟩ := h
  refine machine.invariant (I := Extends s) (fun _ _ _ h hstep =>
    h.trans (steps_of_step hstep).extends) ⟨rfl, fun _ he => he, fun _ row hrow => ?_⟩ hrun
  exact ⟨row, hrow, rfl⟩

end Recorders

/-- A page as a client loop needs it: in order and beyond the cursor, within the limit or of
one event, and with an event that moves the cursor when it promises more. -/
structure Progressive (after limit : Nat) (events : List TerminalEvent) (more : Bool) :
    Prop where
  ascending : Ascending TerminalEvent.sequence events
  once : events.Nodup
  beyond : ∀ event ∈ events, after < event.sequence
  bytes : events.length ≤ 1 ∨ payloadBytes events ≤ limit
  moves : more = true → events ≠ [] ∧ ∀ command commands warnings progress,
    after < (eventsResponse command commands events after more warnings progress).nextSequence

theorem progressive_of_parts {after limit : Nat} {events : List TerminalEvent} {more : Bool}
    (hascending : Ascending TerminalEvent.sequence events)
    (hbeyond : ∀ event ∈ events, after < event.sequence)
    (hbytes : events.length ≤ 1 ∨ payloadBytes events ≤ limit)
    (hmore : more = true → events ≠ []) : Progressive after limit events more where
  ascending := hascending
  once := hascending.nodup
  beyond := hbeyond
  bytes := hbytes
  moves h := by
    obtain ⟨event, he, hkey⟩ := nextCursor_mem TerminalEvent.sequence after (hmore h)
    have := hbeyond event he
    refine ⟨hmore h, fun _ _ _ _ => ?_⟩
    rw [eventsResponse_nextSequence]
    omega

theorem appendLive_bytes {events live : List TerminalEvent} {more : Bool} {after limit : Nat}
    {commandId : Option String} (h : events.length ≤ 1 ∨ payloadBytes events ≤ limit) :
    (appendLive events more live after limit commandId).1.length ≤ 1 ∨
      payloadBytes (appendLive events more live after limit commandId).1 ≤ limit := by
  cases more with
  | true => exact h
  | false =>
      rw [appendLive_of_whole]
      have hfill :=
        fill_total_le (fun _ _ hfits => hfits) h (live.filter (liveSelects after commandId))
      rw [payloadBytes, total_sortByKey, sortByKey, List.length_insertionSort]
      exact hfill

/-- A database page, with a later look at the live tail on top. -/
theorem progressive_appendLive {s : Recorders} {after limit : Nat}
    {rows : List TerminalEvent × Bool} {commandId : Option String} (hn : s.NumbersOnce)
    (hrows : s.RowsRead after rows.1) (hbytes : rows.1.length ≤ 1 ∨ payloadBytes rows.1 ≤ limit)
    (hmore : rows.2 = true → rows.1 ≠ []) :
    Progressive after limit
      (appendLive rows.1 rows.2 s.runtime.liveEvents after limit commandId).1
      (appendLive rows.1 rows.2 s.runtime.liveEvents after limit commandId).2 := by
  have hnodup := hrows.nodup_selected hn.nodup (liveSelects after commandId)
  refine progressive_of_parts (ascending_appendLive hrows.ascending hnodup) ?_
    (appendLive_bytes hbytes) fun h => appendLive_more_ne_nil hmore h
  intro event he
  rcases (mem_appendLive (List.Nodup.of_map _ hnodup)).mp he with hrow | ⟨-, hlive⟩
  · exact hrows.beyond event hrow
  · exact (mem_liveSelects.mp hlive.mem).2.1

/-- The moments `read_command_page` looks at: the row, then the database page, then the live
tail. -/
structure CommandRead (init : Recorders) (id : String) where
  rowAt : Recorders
  eventsAt : Recorders
  liveAt : Recorders
  command : CommandInfo
  reached : Recorders.machine.Reachable init rowAt
  loaded : loadCommand rowAt.storage id = .ok command
  thenEvents : Recorders.machine.Reachable rowAt eventsAt
  thenLive : Recorders.machine.Reachable eventsAt liveAt

/-- The moments `read_shell_page` takes its events from. -/
structure SessionRead (init : Recorders) where
  eventsAt : Recorders
  liveAt : Recorders
  reached : Recorders.machine.Reachable init eventsAt
  thenLive : Recorders.machine.Reachable eventsAt liveAt

namespace CommandRead

variable {init : Recorders} {id : String}

def page (r : CommandRead init id) (after limit : Nat) : CommandPage :=
  readLivePage [r.liveAt.runtime] r.command (r.eventsAt.storage.eventsForCommand id after limit)
    id after limit

/-- The page of a call, with its flag. -/
def answer (r : CommandRead init id) (after maxBytes : Nat) : List TerminalEvent × Bool :=
  ((r.page after (readLimit maxBytes)).events, (r.page after (readLimit maxBytes)).more)

/-- An event the two reads could find. -/
def Shows (r : CommandRead init id) (event : TerminalEvent) : Prop :=
  event ∈ r.eventsAt.storage.db.events ∨ event ∈ r.liveAt.runtime.liveEvents

/-- Without a step in between this is what `read_command_page` returns. -/
theorem page_atOnce (r : CommandRead init id) (hevents : r.eventsAt = r.rowAt)
    (hlive : r.liveAt = r.rowAt) (after limit : Nat) :
    readCommandPage r.rowAt.storage [r.rowAt.runtime] id after limit =
      .ok (r.page after limit) := by
  rw [readCommandPage, r.loaded, page, hevents, hlive]
  rfl

end CommandRead

namespace SessionRead

variable {init : Recorders}

def page (r : SessionRead init) (id : String) (after limit : Nat) : List TerminalEvent × Bool :=
  readLiveShell [r.liveAt.runtime] (r.eventsAt.storage.eventsForSession id after limit) id after
    limit

def answer (r : SessionRead init) (id : String) (after maxBytes : Nat) :
    List TerminalEvent × Bool :=
  r.page id after (readLimit maxBytes)

def Shows (r : SessionRead init) (event : TerminalEvent) : Prop :=
  event ∈ r.eventsAt.storage.db.events ∨ event ∈ r.liveAt.runtime.liveEvents

end SessionRead

section Pages

variable {s t : Recorders} {column : EventColumn} {id : String} {after limit : Nat}

/-- A database page alone. -/
theorem progressive_events (h : s.Sequenced) :
    Progressive after limit (s.storage.events column id after limit).1
      (s.storage.events column id after limit).2 := by
  have hfront := s.storage.events_prefix column id after limit
  have hall := Storage.ascending_eventRows h.wellformed.schema.uniqueSequences h.owners column id
    after
  exact progressive_of_parts (hall.sublist _ hfront.sublist)
    (fun event he => (Storage.mem_eventRows.mp (hfront.subset he)).2.2)
    (s.storage.events_bytes column id after limit) Storage.events_more_ne_nil

/-- The rows of a database page, seen from a later state of their session. -/
theorem rowsRead_events (h : s.Sequenced) (hlater : Recorders.Extends s t)
    (hown : ∀ event ∈ s.storage.db.events, column.selects id event = true →
      event.sessionId = t.runtime.sessionId) :
    t.RowsRead after (s.storage.events column id after limit).1 where
  ascending := (progressive_events h).ascending
  beyond := (progressive_events h).beyond
  stored event he := by
    obtain ⟨hmem, hselected, -⟩ := Storage.mem_eventRows.mp
      ((s.storage.events_prefix column id after limit).subset he)
    exact List.mem_filter.mpr ⟨hlater.events event hmem, by simp [hown event hmem hselected]⟩

theorem mem_events_page {event : TerminalEvent}
    (he : event ∈ (s.storage.events column id after limit).1) : event ∈ s.storage.db.events :=
  (Storage.mem_eventRows.mp ((s.storage.events_prefix column id after limit).subset he)).1

theorem mem_appendLive_parts {events live : List TerminalEvent} {more : Bool}
    {commandId : Option String} {event : TerminalEvent}
    (he : event ∈ (appendLive events more live after limit commandId).1) :
    event ∈ events ∨ event ∈ live := by
  cases more with
  | true => exact .inl he
  | false =>
      rw [appendLive_of_whole] at he
      obtain ⟨taken, htaken, hpage⟩ := fill_prefix (withinBudget payloadLength limit) events
        (live.filter (liveSelects after commandId))
      rw [mem_sortByKey, hpage] at he
      cases List.mem_append.mp he with
      | inl hrow => exact .inl hrow
      | inr hlive => exact .inr (List.mem_filter.mp (htaken.subset hlive)).1

end Pages

namespace CommandRead

variable {init : Recorders} {id : String}

theorem progressive (r : CommandRead init id) (h : init.Sequenced) (after limit : Nat) :
    Progressive after limit (r.page after limit).events (r.page after limit).more := by
  have hrowAt := h.reachable r.reached
  have heventsAt := hrowAt.reachable r.thenEvents
  have hliveAt := heventsAt.reachable r.thenLive
  have hlater := Recorders.extends_reachable r.thenLive
  by_cases hown : r.command.sessionId = r.liveAt.runtime.sessionId
  · rw [page, readLivePage_own hown]
    have hrows : r.liveAt.RowsRead after
        (r.eventsAt.storage.eventsForCommand id after limit).1 := by
      refine rowsRead_events heventsAt hlater fun event he hselected => ?_
      -- the command's row says which session its events belong to
      obtain ⟨row, hrow, hr⟩ := heventsAt.owners event he id (by
        simpa [EventColumn.selects] using hselected)
      obtain ⟨row', hrow', hr'⟩ := (Recorders.extends_reachable r.thenEvents).command id _
        (loadCommand_ok.mp r.loaded)
      cases hrow.symm.trans hrow'
      exact hr.symm.trans (hr'.trans hown)
    exact progressive_appendLive hliveAt.once hrows
      (r.eventsAt.storage.events_bytes .commandId id after limit) Storage.events_more_ne_nil
  · have hnone : findRuntime [r.liveAt.runtime] r.command.sessionId = none := by
      simp [findRuntime, Ne.symm hown]
    simp only [page, readLivePage, hnone]
    exact progressive_events heventsAt

theorem shows_of_mem_page (r : CommandRead init id) {after limit : Nat} {event : TerminalEvent}
    (he : event ∈ (r.page after limit).events) : r.Shows event := by
  simp only [page, readLivePage] at he
  split at he
  · exact .inl (mem_events_page he)
  · rename_i runtime hruntime
    obtain ⟨rfl, -⟩ := findRuntime_singleton.mp hruntime
    exact (mem_appendLive_parts he).imp mem_events_page fun hlive => hlive

end CommandRead

namespace SessionRead

variable {init : Recorders}

theorem progressive (r : SessionRead init) (h : init.Sequenced) (id : String)
    (after limit : Nat) :
    Progressive after limit (r.page id after limit).1 (r.page id after limit).2 := by
  have heventsAt := h.reachable r.reached
  have hliveAt := heventsAt.reachable r.thenLive
  have hlater := Recorders.extends_reachable r.thenLive
  by_cases hown : id = r.liveAt.runtime.sessionId
  · rw [page, readLiveShell, findRuntime_singleton.mpr ⟨rfl, hown.symm⟩]
    have hrows : r.liveAt.RowsRead after
        (r.eventsAt.storage.eventsForSession id after limit).1 := by
      refine rowsRead_events heventsAt hlater fun event he hselected => ?_
      simp only [EventColumn.selects, beq_iff_eq] at hselected
      exact hselected.trans hown
    exact progressive_appendLive hliveAt.once hrows
      (r.eventsAt.storage.events_bytes .sessionId id after limit) Storage.events_more_ne_nil
  · have hnone : findRuntime [r.liveAt.runtime] id = none := by
      simp [findRuntime, Ne.symm hown]
    simp only [page, readLiveShell, hnone]
    exact progressive_events heventsAt

theorem shows_of_mem_page (r : SessionRead init) {id : String} {after limit : Nat}
    {event : TerminalEvent} (he : event ∈ (r.page id after limit).1) : r.Shows event := by
  simp only [page, readLiveShell] at he
  split at he
  · exact .inl (mem_events_page he)
  · rename_i runtime hruntime
    obtain ⟨rfl, -⟩ := findRuntime_singleton.mp hruntime
    exact (mem_appendLive_parts he).imp mem_events_page fun hlive => hlive

end SessionRead

/-- Progressive pages are sound pages of whatever contains their events. -/
theorem Progressive.sound {after limit : Nat} {events all : List TerminalEvent} {more : Bool}
    (h : Progressive after limit events more) (hall : ∀ event ∈ events, event ∈ all) :
    Sound TerminalEvent.sequence (· ∈ all) after events :=
  ⟨h.ascending, h.beyond, hall⟩

/-- Progressive pages that show no event outside a list are flagged at most as often in a
row as the list has events. -/
theorem progressive_drain_ends {β : Type} {source : Nat → β → List TerminalEvent × Bool}
    {all : List TerminalEvent} {calls : List β} (limit : β → Nat)
    (hpages : ∀ cursor, ∀ call ∈ calls,
      Progressive cursor (limit call) (source cursor call).1 (source cursor call).2)
    (hshown : ∀ cursor, ∀ call ∈ calls, ∀ event ∈ (source cursor call).1, event ∈ all)
    (hlength : all.length < calls.length) (after : Nat) :
    ∃ page ∈ drain TerminalEvent.sequence source after calls, page.2 = false := by
  have hfew := length_delivered_le TerminalEvent.sequence (fun cursor call hcall =>
    (hpages cursor call hcall).sound (hshown cursor call hcall)) after
  refine drain_ends _ (fun cursor call hcall hmore => ?_) (Nat.lt_of_le_of_lt hfew hlength)
  exact ((hpages cursor call hcall).moves hmore).1

/-- Whatever the recorders do between the reads of a page, the page is progressive; and a
client that calls again while it is told that there is more, with any limits, is told
otherwise before it has called more often than there are events to find. -/
theorem more_guarantees_progress {db : Database} {limit : Nat} {info : SessionInfo} {now : Now}
    (hschema : db.Schema) (howners : db.EventOwners) (hnew : db.session info.id = none) :
    (∀ id (r : CommandRead (.created ⟨db, limit⟩ info now) id) after maxBytes,
      Progressive after (readLimit maxBytes) (r.answer after maxBytes).1
        (r.answer after maxBytes).2) ∧
    (∀ id (r : SessionRead (.created ⟨db, limit⟩ info now)) after maxBytes,
      Progressive after (readLimit maxBytes) (r.answer id after maxBytes).1
        (r.answer id after maxBytes).2) ∧
    (∀ id (calls : List (CommandRead (.created ⟨db, limit⟩ info now) id × Nat))
      (all : List TerminalEvent) after,
      (∀ call ∈ calls, ∀ event, call.1.Shows event → event ∈ all) → all.length < calls.length →
      ∃ page ∈ drain TerminalEvent.sequence (fun cursor call => call.1.answer cursor call.2)
        after calls, page.2 = false) ∧
    ∀ id (calls : List (SessionRead (.created ⟨db, limit⟩ info now) × Nat))
      (all : List TerminalEvent) after,
      (∀ call ∈ calls, ∀ event, call.1.Shows event → event ∈ all) → all.length < calls.length →
      ∃ page ∈ drain TerminalEvent.sequence (fun cursor call => call.1.answer id cursor call.2)
        after calls, page.2 = false := by
  have hinit : (Recorders.created ⟨db, limit⟩ info now).Sequenced :=
    Recorders.sequenced_created hschema howners hnew
  refine ⟨fun id r after maxBytes => r.progressive hinit after _,
    fun id r after maxBytes => r.progressive hinit id after _,
    fun id calls all after hshown hlength => ?_, fun id calls all after hshown hlength => ?_⟩
  · refine progressive_drain_ends (fun call => readLimit call.2)
      (fun cursor call _ => call.1.progressive hinit cursor _) ?_ hlength after
    exact fun cursor call hcall event he =>
      hshown call hcall event (call.1.shows_of_mem_page he)
  · refine progressive_drain_ends (fun call => readLimit call.2)
      (fun cursor call _ => call.1.progressive hinit id cursor _) ?_ hlength after
    exact fun cursor call hcall event he =>
      hshown call hcall event (call.1.shows_of_mem_page he)

/-- One exec that has recorded one event. -/
def oneEvent : List RecorderStep :=
  [.startExec "c" "ls" ⟨0, 0⟩, .draw 0 .stdout [1, 2] ⟨0, 0⟩, .append 0]

theorem more_guarantees_progress_oneEvent :
    ∃ r : CommandRead (.created ⟨.empty, 4⟩ (.created "s" "t" "t" "p" "m" ⟨0, 0⟩) ⟨0, 0⟩) "c",
      (r.answer 0 1).1.length = 1 ∧
        Progressive 0 (readLimit 1) (r.answer 0 1).1 (r.answer 0 1).2 := by
  have hall : ((Recorders.machine.run
      (.created ⟨.empty, 4⟩ (.created "s" "t" "t" "p" "m" ⟨0, 0⟩) ⟨0, 0⟩) oneEvent).any fun s =>
        (s.storage.db.command "c").any fun command =>
          (readLivePage [s.runtime] command (s.storage.eventsForCommand "c" 0 (readLimit 1)) "c" 0
            (readLimit 1)).events.length == 1) = true := by decide
  obtain ⟨s, hrun, hall⟩ := (Option.any_eq_true _ _).mp hall
  obtain ⟨command, hcommand, hone⟩ := (Option.any_eq_true _ _).mp hall
  have hhere : Recorders.machine.Reachable s s := ⟨[], rfl⟩
  let r : CommandRead (.created ⟨.empty, 4⟩ (.created "s" "t" "t" "p" "m" ⟨0, 0⟩) ⟨0, 0⟩) "c" :=
    ⟨s, s, s, command, ⟨oneEvent, hrun⟩, loadCommand_ok.mpr hcommand, hhere, hhere⟩
  have howners : Database.empty.EventOwners := by simp [Database.EventOwners, Database.empty]
  exact ⟨r, eq_of_beq hone,
    (more_guarantees_progress Database.schema_empty howners rfl).1 "c" r 0 1⟩

end AiSsh
