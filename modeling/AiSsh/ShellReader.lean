import AiSsh.Recorders
import AiSsh.SessionPage

/-!
A reader of the whole session: it calls `shell_read` again and again with the
cursor of the previous response. A page is put together from the database, then
from the live tail, then the command rows are listed, and the recorders move in
between. A page that `shell_read` reads and drops while it waits is empty, so it
does not move the reader.

The cursor counts the numbers the recorders draw. A number that is drawn and not
readable yet, a row that is stored after the database page was read, and a live
event the budget leaves behind are passed over for good once the page shows a
later number.
-/

namespace AiSsh

open Library

inductive ShellPhase
  | idle
  | eventsRead (limit : Nat) (stored : List TerminalEvent × Bool)
  | liveRead (page : List TerminalEvent × Bool)
  deriving DecidableEq, Repr

structure ShellReader where
  reader : Reader TerminalEvent
  phase : ShellPhase
  last : Option EventsData

inductive ShellStep
  | readEvents (maxBytes : Nat)
  | readLive
  | readCommands (now : Now)
  deriving DecidableEq, Repr

namespace ShellReader

def start : ShellReader := ⟨.start, .idle, none⟩

def look (s : Recorders) (r : ShellReader) : ShellStep → Option ShellReader
  | .readEvents maxBytes =>
      match r.phase with
      | .idle =>
          let limit := readLimit maxBytes
          let stored := s.storage.eventsForSession s.runtime.sessionId r.reader.cursor limit
          some { r with phase := .eventsRead limit stored }
      | _ => none
  | .readLive =>
      match r.phase with
      | .eventsRead limit stored =>
          let page := readLiveShell [s.runtime] stored s.runtime.sessionId r.reader.cursor limit
          some { r with phase := .liveRead page }
      | _ => none
  | .readCommands now =>
      match r.phase with
      | .liveRead (events, more) =>
          let response := respondShell
            ⟨shellCommands s.storage s.runtime.sessionId events, events, more,
              shellProgress false now now (some s.runtime)⟩ r.reader.cursor
          some ⟨⟨response.nextSequence, r.reader.received ++ response.events⟩, .idle,
            some response⟩
      | _ => none

end ShellReader

/-- The recorders and one reader, in any interleaving. -/
def shellMachine : Machine (Recorders × ShellReader) (RecorderStep ⊕ ShellStep) :=
  Recorders.machine.observed ShellReader.look

/-! Where the numbers are. -/

namespace Recorders

def stored (s : Recorders) : List TerminalEvent :=
  s.storage.db.events.filter fun event => event.sessionId == s.runtime.sessionId

/-- Numbers that are drawn and that nobody can read. -/
def pending (s : Recorders) : List TerminalEvent := s.tasks.filterMap Recorder.pending

def accounted (s : Recorders) : List TerminalEvent :=
  s.stored ++ (s.runtime.liveEvents ++ s.pending)

/-- Every number drawn so far is stored, live or pending, once. -/
def Numbered (s : Recorders) : Prop :=
  (s.accounted.map TerminalEvent.sequence).Perm (List.range' 1 s.runtime.sequence)

theorem numbered_created {db : Database} {limit : Nat} {info : SessionInfo} {now : Now}
    (hschema : db.Schema) (hnew : db.session info.id = none) :
    Numbered (created ⟨db, limit⟩ info now) := by
  have hnone : db.events.filter (fun event => event.sessionId == info.id) = [] := by
    refine List.filter_eq_nil_iff.mpr fun event he => ?_
    have hsome := hschema.eventSession event he
    simp only [beq_iff_eq]
    rintro hid
    simp [hid, hnew] at hsome
  simp [Numbered, accounted, stored, pending, created, SessionRuntime.new,
    Storage.upsertSession_events, hnone]

theorem pending_split {s : Recorders} {recorder : Recorder} {pre post : List Recorder}
    (htasks : s.tasks = pre ++ recorder :: post) :
    s.pending = pre.filterMap Recorder.pending ++
      (recorder.pending.toList ++ post.filterMap Recorder.pending) := by
  rw [pending, htasks, List.filterMap_append, List.filterMap_cons]
  cases recorder.pending <;> rfl

theorem keepLive_whole {runtime : SessionRuntime} {event : TerminalEvent}
    (h : (runtime.keepLive event).liveTailDropped = false) :
    runtime.liveTailDropped = false ∧
      (runtime.keepLive event).liveEvents = runtime.liveEvents ++ [event] := by
  simp only [SessionRuntime.keepLive, Bool.or_eq_false_iff, Bool.not_eq_false',
    List.isEmpty_iff] at h
  refine ⟨h.1, ?_⟩
  have hqueue := runtime.overflow_append event
  rw [h.2, List.nil_append] at hqueue
  exact hqueue

/-- No step takes the mark of a dropped tail back. -/
theorem Steps.dropped_back {s s' : Recorders} {move : RecorderStep} (h : Steps s move s')
    (hs' : s'.runtime.liveTailDropped = false) : s.runtime.liveTailDropped = false := by
  cases h with
  | keep htasks => exact (keepLive_whole hs').1
  | startExec _ | openPty | draw _ | reject _ | accept _ _ | announce _ | update _ _ | wake _ _ =>
      exact hs'

/-- A step hands every number on, and draws at most the next one. -/
theorem Numbered.steps {s s' : Recorders} (hn : Numbered s) (h : s.Wellformed)
    {move : RecorderStep} (hstep : Steps s move s')
    (hdropped : s'.runtime.liveTailDropped = false) : Numbered s' := by
  rw [Numbered] at hn ⊢
  rw [List.perm_iff_count] at hn ⊢
  intro n
  have hn := hn n
  cases hstep with
  | startExec hinsert =>
      obtain ⟨-, -, rfl⟩ := Storage.insertCommand_ok hinsert
      simpa [accounted, stored, pending, List.filterMap_cons, Recorder.pending] using hn
  | openPty =>
      simpa [accounted, stored, pending, List.filterMap_cons, Recorder.pending] using hn
  | draw htasks =>
      rw [accounted, pending_split htasks] at hn
      rw [accounted, pending_split rfl]
      simp only [stored, Recorder.pending, SessionRuntime.drawSequence, SessionRuntime.nextEvent,
        List.map_append, List.count_append, List.range'_concat, Option.toList] at hn ⊢
      simp [List.count_cons, Nat.add_comm 1] at hn ⊢
      omega
  | reject htasks =>
      rw [accounted, pending_split htasks] at hn
      rw [accounted, pending_split rfl]
      simpa [stored, Recorder.pending, Storage.rejectEvent_events] using hn
  | @accept task command event db pre post htasks hinsert =>
      have hown := (h.pendingOwn ⟨command, .drawn event⟩ (htasks ▸ mem_middle.mpr (.inl rfl))
        event rfl).1
      rw [accounted, pending_split htasks] at hn
      rw [accounted, pending_split rfl]
      simp [stored, Recorder.pending, Storage.acceptEvent_events hinsert, hown,
        List.count_cons] at hn ⊢
      omega
  | keep htasks =>
      rw [accounted, pending_split htasks] at hn
      rw [accounted, pending_split rfl, (keepLive_whole hdropped).2]
      simp [stored, Recorder.pending, SessionRuntime.keepLive, List.count_cons] at hn ⊢
      omega
  | announce htasks =>
      rw [accounted, pending_split htasks] at hn
      rw [accounted, pending_split rfl]
      simpa [stored, Recorder.pending, SessionRuntime.announce] using hn
  | update htasks _ =>
      rw [accounted, pending_split htasks] at hn
      rw [accounted, pending_split rfl]
      simpa [stored, Recorder.pending, Storage.updateCommand] using hn
  | wake htasks hphase =>
      rw [accounted, pending_split htasks] at hn
      rw [accounted, pending_split rfl]
      rcases hphase with rfl | rfl <;> simpa [stored, Recorder.pending] using hn

/-- A number some recorder has drawn. -/
def Drawn (s : Recorders) (number : Nat) : Prop := 1 ≤ number ∧ number ≤ s.runtime.sequence

theorem Numbered.drawn_iff {s : Recorders} (hn : Numbered s) {number : Nat} :
    s.Drawn number ↔ ∃ event ∈ s.accounted, event.sequence = number := by
  rw [← List.mem_map, hn.mem_iff, List.mem_range'_1, Drawn]
  omega

theorem Numbered.nodup {s : Recorders} (hn : Numbered s) :
    (s.accounted.map TerminalEvent.sequence).Nodup :=
  hn.nodup_iff.mpr List.nodup_range'

/-- Two accounted events under one number are one event. -/
theorem Numbered.key_inj {s : Recorders} (hn : Numbered s) {a b : TerminalEvent}
    (ha : a ∈ s.accounted) (hb : b ∈ s.accounted) (h : a.sequence = b.sequence) : a = b :=
  List.inj_on_of_nodup_map hn.nodup ha hb h

theorem Numbered.apart {s : Recorders} (hn : Numbered s) {event : TerminalEvent} :
    (event ∈ s.stored → event ∉ s.runtime.liveEvents ∧ event ∉ s.pending) ∧
      (event ∈ s.runtime.liveEvents → event ∉ s.pending) := by
  have hnodup : s.accounted.Nodup := List.Nodup.of_map _ hn.nodup
  obtain ⟨-, hrest, hstored⟩ := List.nodup_append.mp hnodup
  obtain ⟨-, -, hlive⟩ := List.nodup_append.mp hrest
  refine ⟨fun hs => ⟨fun hl => ?_, fun hp => ?_⟩, fun hl hp => hlive event hl event hp rfl⟩
  · exact hstored event hs event (List.mem_append_left _ hl) rfl
  · exact hstored event hs event (List.mem_append_right _ hp) rfl

theorem mem_accounted {s : Recorders} {event : TerminalEvent} :
    event ∈ s.accounted ↔
      event ∈ s.stored ∨ event ∈ s.runtime.liveEvents ∨ event ∈ s.pending := by
  simp [accounted]

def Readable (s : Recorders) (event : TerminalEvent) : Prop :=
  event ∈ s.stored ∨ event ∈ s.runtime.liveEvents

theorem Readable.drawn {s : Recorders} {event : TerminalEvent} (h : s.Readable event)
    (hn : Numbered s) : s.Drawn event.sequence :=
  hn.drawn_iff.mpr ⟨event, mem_accounted.mpr (h.imp id .inl), rfl⟩

/-- What is readable stays readable while the tail gives nothing up. -/
theorem Steps.readable {s s' : Recorders} {move : RecorderStep} (h : Steps s move s')
    (hdropped : s'.runtime.liveTailDropped = false) :
    (∀ event ∈ s.stored, event ∈ s'.stored) ∧
      ∀ event ∈ s.runtime.liveEvents, event ∈ s'.runtime.liveEvents := by
  have hrows (hid : s'.runtime.sessionId = s.runtime.sessionId)
      (hevents : ∀ event ∈ s.storage.db.events, event ∈ s'.storage.db.events) :
      ∀ event ∈ s.stored, event ∈ s'.stored := by
    intro event he
    obtain ⟨hmem, hown⟩ := List.mem_filter.mp he
    exact List.mem_filter.mpr ⟨hevents event hmem, hid ▸ hown⟩
  cases h with
  | startExec hinsert =>
      obtain ⟨-, -, rfl⟩ := Storage.insertCommand_ok hinsert
      exact ⟨hrows rfl fun _ he => he, fun _ he => he⟩
  | openPty | draw _ | announce _ | update _ _ | wake _ _ =>
      exact ⟨hrows rfl fun _ he => he, fun _ he => he⟩
  | reject _ =>
      refine ⟨hrows rfl fun event he => ?_, fun _ he => he⟩
      rw [Storage.rejectEvent_events]
      exact he
  | accept _ hinsert =>
      refine ⟨hrows rfl fun event he => ?_, fun _ he => he⟩
      rw [Storage.acceptEvent_events hinsert]
      exact List.mem_append_left _ he
  | keep _ =>
      refine ⟨hrows rfl fun _ he => he, fun event he => ?_⟩
      rw [(keepLive_whole hdropped).2]
      exact List.mem_append_left _ he

theorem Steps.sequence_le {s s' : Recorders} {move : RecorderStep} (h : Steps s move s') :
    s.runtime.sequence ≤ s'.runtime.sequence := by
  cases h with
  | draw _ => exact Nat.le_succ _
  | startExec _ | openPty | reject _ | accept _ _ | keep _ | announce _ | update _ _ | wake _ _ =>
      exact Nat.le_refl _

/-! One page of the session. -/

def liveBeyond (s : Recorders) (cursor : Nat) : List TerminalEvent :=
  s.runtime.liveEvents.filter (liveSelects cursor none)

/-- The database page, and the live events that fit on top of a whole one. -/
def OnPage (s : Recorders) (cursor limit : Nat) (rows : List TerminalEvent × Bool)
    (event : TerminalEvent) : Prop :=
  event ∈ rows.1 ∨
    rows.2 = false ∧ Within payloadLength limit rows.1 (s.liveBeyond cursor) event

/-- The moment the live tail is read is orderly when no number below one that goes
on the page is still drawn without being readable, is in a row the database page
does not hold, or is live and does not fit. -/
structure Orderly (s : Recorders) (cursor limit : Nat) (rows : List TerminalEvent × Bool) :
    Prop where
  drawn : ∀ event ∈ s.pending, ∀ shown, s.OnPage cursor limit rows shown →
    cursor < event.sequence → shown.sequence < event.sequence
  stored : ∀ row ∈ s.stored, ∀ shown, s.OnPage cursor limit rows shown →
    cursor < row.sequence → row.sequence < shown.sequence → row ∈ rows.1
  live : ∀ live ∈ s.liveBeyond cursor, ∀ shown, s.OnPage cursor limit rows shown →
    live.sequence < shown.sequence →
      rows.2 = false ∧ Within payloadLength limit rows.1 (s.liveBeyond cursor) live

/-- A database page that was read a while ago. -/
structure RowsRead (s : Recorders) (cursor : Nat) (rows : List TerminalEvent) : Prop where
  ascending : Ascending TerminalEvent.sequence rows
  beyond : ∀ row ∈ rows, cursor < row.sequence
  stored : ∀ row ∈ rows, row ∈ s.stored

theorem mem_liveBeyond {s : Recorders} {cursor : Nat} {event : TerminalEvent} :
    event ∈ s.liveBeyond cursor ↔
      event ∈ s.runtime.liveEvents ∧ cursor < event.sequence := by
  simp [liveBeyond, liveSelects]

section Page

variable {s : Recorders} {cursor limit : Nat} {rows : List TerminalEvent × Bool}

theorem readLiveShell_own (s : Recorders) (rows : List TerminalEvent × Bool)
    (cursor limit : Nat) :
    readLiveShell [s.runtime] rows s.runtime.sessionId cursor limit =
      appendLive rows.1 rows.2 s.runtime.liveEvents cursor limit none := by
  rw [readLiveShell, findRuntime_singleton.mpr ⟨rfl, rfl⟩]

/-- Rows of a database page and live events share no number. -/
theorem RowsRead.nodup_selected (h : RowsRead s cursor rows.1)
    (hnodup : (s.accounted.map TerminalEvent.sequence).Nodup) (p : TerminalEvent → Bool) :
    ((rows.1 ++ s.runtime.liveEvents.filter p).map TerminalEvent.sequence).Nodup := by
  rw [accounted, List.map_append] at hnodup
  obtain ⟨-, hrest, hapart⟩ := List.nodup_append.mp hnodup
  rw [List.map_append] at hrest ⊢
  refine List.nodup_append.mpr ⟨?_, ?_, ?_⟩
  · exact List.pairwise_map.mpr (h.ascending.imp fun hlt => Nat.ne_of_lt hlt)
  · exact (List.nodup_append.mp hrest).1.sublist (List.Sublist.map _ List.filter_sublist)
  · intro a ha b hb
    obtain ⟨row, hrow, rfl⟩ := List.mem_map.mp ha
    obtain ⟨live, hlive, rfl⟩ := List.mem_map.mp hb
    exact hapart _ (List.mem_map_of_mem (h.stored row hrow)) _
      (List.mem_map_of_mem (List.mem_append_left _ (List.mem_filter.mp hlive).1))

theorem RowsRead.nodup_parts (h : RowsRead s cursor rows.1) (hn : Numbered s) :
    ((rows.1 ++ s.liveBeyond cursor).map TerminalEvent.sequence).Nodup :=
  h.nodup_selected hn.nodup _

theorem RowsRead.mem_page (h : RowsRead s cursor rows.1) (hn : Numbered s)
    {event : TerminalEvent} :
    event ∈ (readLiveShell [s.runtime] rows s.runtime.sessionId cursor limit).1 ↔
      s.OnPage cursor limit rows event := by
  rw [readLiveShell_own]
  exact mem_appendLive (List.Nodup.of_map _ (h.nodup_parts hn))

theorem RowsRead.readable (h : RowsRead s cursor rows.1) {event : TerminalEvent}
    (he : s.OnPage cursor limit rows event) :
    s.Readable event ∧ cursor < event.sequence := by
  rcases he with hrow | ⟨-, hfits⟩
  · exact ⟨.inl (h.stored event hrow), h.beyond event hrow⟩
  · obtain ⟨hlive, hbeyond⟩ := mem_liveBeyond.mp hfits.mem
    exact ⟨.inr hlive, hbeyond⟩

/-- The numbers of a page, as a reader of numbers expects them. -/
theorem RowsRead.sound_page (h : RowsRead s cursor rows.1) (hn : Numbered s) :
    Sound (fun n => n) s.Drawn cursor
      ((readLiveShell [s.runtime] rows s.runtime.sessionId cursor limit).1.map
        TerminalEvent.sequence) where
  ascending := by
    rw [readLiveShell_own]
    exact ascending_map _ (ascending_appendLive h.ascending (h.nodup_parts hn))
  beyond := by
    intro n hmem
    obtain ⟨event, he, rfl⟩ := List.mem_map.mp hmem
    exact (h.readable ((h.mem_page hn).mp he)).2
  drawn := by
    intro n hmem
    obtain ⟨event, he, rfl⟩ := List.mem_map.mp hmem
    exact (h.readable ((h.mem_page hn).mp he)).1.drawn hn

/-- A number on the page is the number of the event that carries it. -/
theorem RowsRead.onPage_of_number (h : RowsRead s cursor rows.1) (hn : Numbered s)
    {event : TerminalEvent} (he : event ∈ s.accounted)
    (hmem : event.sequence ∈ (readLiveShell [s.runtime] rows s.runtime.sessionId cursor
      limit).1.map TerminalEvent.sequence) : s.OnPage cursor limit rows event := by
  obtain ⟨shown, hshown, hkey⟩ := List.mem_map.mp hmem
  have honPage := (h.mem_page hn).mp hshown
  have hsame := hn.key_inj (mem_accounted.mpr ((h.readable honPage).1.imp id .inl)) he hkey
  exact hsame ▸ honPage

theorem RowsRead.gapless_page (h : RowsRead s cursor rows.1) (hn : Numbered s) :
    Gapless (fun n => n) s.Drawn cursor
        ((readLiveShell [s.runtime] rows s.runtime.sessionId cursor limit).1.map
          TerminalEvent.sequence) ↔
      s.Orderly cursor limit rows := by
  have hsound : Sound (fun n => n) s.Drawn cursor
      ((readLiveShell [s.runtime] rows s.runtime.sessionId cursor limit).1.map
        TerminalEvent.sequence) := h.sound_page hn
  have hle {shown : TerminalEvent} (hshown : s.OnPage cursor limit rows shown) :
      shown.sequence ≤ nextCursor (fun n => n) cursor
        ((readLiveShell [s.runtime] rows s.runtime.sessionId cursor limit).1.map
          TerminalEvent.sequence) :=
    le_nextCursor _ hsound.ascending (List.mem_map_of_mem ((h.mem_page hn).mpr hshown))
  constructor
  · intro hgapless
    have hcovered {event shown : TerminalEvent} (he : event ∈ s.accounted)
        (hbeyond : cursor < event.sequence) (hshown : s.OnPage cursor limit rows shown)
        (hlt : event.sequence ≤ shown.sequence) : s.OnPage cursor limit rows event :=
      h.onPage_of_number hn he (hgapless _ (hn.drawn_iff.mpr ⟨event, he, rfl⟩) hbeyond
        (Nat.le_trans hlt (hle hshown)))
    refine ⟨fun event he shown hshown hbeyond => ?_, fun row hrow shown hshown hbeyond hlt => ?_,
      fun live hlive shown hshown hlt => ?_⟩
    · by_contra hnot
      have honPage := hcovered (mem_accounted.mpr (.inr (.inr he))) hbeyond hshown (by omega)
      cases (h.readable honPage).1 with
      | inl hstored => exact (hn.apart.1 hstored).2 he
      | inr hlive => exact hn.apart.2 hlive he
    · rcases hcovered (mem_accounted.mpr (.inl hrow)) hbeyond hshown hlt.le with hrows | ⟨-, hfits⟩
      · exact hrows
      · exact absurd (mem_liveBeyond.mp hfits.mem).1 (hn.apart.1 hrow).1
    · obtain ⟨hmem, hbeyond⟩ := mem_liveBeyond.mp hlive
      rcases hcovered (mem_accounted.mpr (.inr (.inl hmem))) hbeyond hshown hlt.le with
        hrows | hfits
      · exact absurd hmem (hn.apart.1 (h.stored live hrows)).1
      · exact hfits
  · intro horderly number hdrawn hbeyond hnext
    dsimp only at hbeyond hnext
    have hne : (readLiveShell [s.runtime] rows s.runtime.sessionId cursor limit).1 ≠ [] := by
      intro hnil
      simp only [hnil, List.map_nil, nextCursor_nil] at hnext
      omega
    obtain ⟨event, he, rfl⟩ := hn.drawn_iff.mp hdrawn
    obtain ⟨shown, hshown, hkey⟩ := nextCursor_mem TerminalEvent.sequence cursor hne
    rw [nextCursor_map, ← hkey] at hnext
    have honPage := (h.mem_page hn).mp hshown
    cases Nat.lt_or_eq_of_le hnext with
    | inl hlt =>
        refine List.mem_map_of_mem ((h.mem_page hn).mpr ?_)
        rcases mem_accounted.mp he with hstored | hlive | hpending
        · exact .inl (horderly.stored event hstored shown honPage hbeyond hlt)
        · exact .inr (horderly.live event (mem_liveBeyond.mpr ⟨hlive, hbeyond⟩) shown honPage hlt)
        · have := horderly.drawn event hpending shown honPage hbeyond
          omega
    | inr heq => exact heq ▸ List.mem_map_of_mem hshown

end Page

/-- A database page read now. -/
theorem Numbered.rowsRead {s : Recorders} (hn : Numbered s) (cursor limit : Nat) :
    RowsRead s cursor (s.storage.eventsForSession s.runtime.sessionId cursor limit).1 := by
  have hinitial := s.storage.events_prefix .sessionId s.runtime.sessionId cursor limit
  have hstored : (s.stored.map TerminalEvent.sequence).Nodup := by
    have hnodup := hn.nodup
    rw [accounted, List.map_append] at hnodup
    exact (List.nodup_append.mp hnodup).1
  have hrows : Ascending TerminalEvent.sequence
      (s.storage.eventRows .sessionId s.runtime.sessionId cursor) := by
    have hfilter : (s.storage.db.events.filter fun event =>
          EventColumn.sessionId.selects s.runtime.sessionId event &&
            decide (cursor < event.sequence)) =
        s.stored.filter fun event => decide (cursor < event.sequence) := by
      simp [stored, List.filter_filter, EventColumn.selects, Bool.and_comm]
    apply ascending_sortByKey
    rw [hfilter]
    exact hstored.sublist (List.Sublist.map _ List.filter_sublist)
  exact
    { ascending := hrows.sublist _ hinitial.sublist
      beyond := fun row hrow => (Storage.mem_eventRows.mp (hinitial.subset hrow)).2.2
      stored := fun row hrow => by
        obtain ⟨hmem, hown, -⟩ := Storage.mem_eventRows.mp (hinitial.subset hrow)
        exact List.mem_filter.mpr ⟨hmem, hown⟩ }

theorem RowsRead.move {s s' : Recorders} {cursor : Nat} {rows : List TerminalEvent}
    (h : RowsRead s cursor rows) {move : RecorderStep} (hstep : Steps s move s')
    (hdropped : s'.runtime.liveTailDropped = false) : RowsRead s' cursor rows :=
  ⟨h.ascending, h.beyond, fun row hrow => (hstep.readable hdropped).1 row (h.stored row hrow)⟩

end Recorders

/-! The reader. -/

namespace ShellReader

/-- The reader, as far as the numbers of its events go. -/
def numbers (r : ShellReader) : Reader Nat :=
  ⟨r.reader.cursor, r.reader.received.map TerminalEvent.sequence⟩

/-- What holds while the tail gives nothing up. -/
structure Reading (s : Recorders) (r : ShellReader) : Prop where
  wellformed : s.Wellformed
  numbered : s.Numbered
  cursor_le : r.reader.cursor ≤ s.runtime.sequence
  inOrder : r.numbers.InOrder (fun n => n) s.Drawn
  genuine : ∀ event ∈ r.reader.received, s.Readable event
  page : match r.phase with
    | .idle => True
    | .eventsRead _ rows => s.RowsRead r.reader.cursor rows.1
    | .liveRead page =>
        Sound (fun n => n) s.Drawn r.reader.cursor (page.1.map TerminalEvent.sequence) ∧
          ∀ event ∈ page.1, s.Readable event

/-- No number was passed over, and none will be by the page at hand. -/
def Faultless (s : Recorders) (r : ShellReader) : Prop :=
  r.numbers.Complete (fun n => n) s.Drawn ∧
    match r.phase with
    | .idle | .eventsRead _ _ => True
    | .liveRead page =>
        Gapless (fun n => n) s.Drawn r.reader.cursor (page.1.map TerminalEvent.sequence)

/-- The condition on one step: a live tail is read at an orderly moment. -/
def ReadsOrderly : Recorders × ShellReader → RecorderStep ⊕ ShellStep → Prop
  | (s, r), .inr .readLive =>
      match r.phase with
      | .eventsRead limit rows => s.Orderly r.reader.cursor limit rows
      | .idle | .liveRead _ => True
  | _, _ => True

theorem Reading.move {s s' : Recorders} {r : ShellReader} (h : Reading s r) {move : RecorderStep}
    (hstep : Recorders.Steps s move s') (hdropped : s'.runtime.liveTailDropped = false) :
    Reading s' r ∧ (Faultless s' r ↔ Faultless s r) := by
  have hle := hstep.sequence_le
  have hdrawn (number : Nat) (hn : s.Drawn number) : s'.Drawn number :=
    ⟨hn.1, Nat.le_trans hn.2 hle⟩
  have hreadable (event : TerminalEvent) (he : s.Readable event) : s'.Readable event :=
    he.imp ((hstep.readable hdropped).1 event) ((hstep.readable hdropped).2 event)
  have hcomplete : r.numbers.Complete (fun n => n) s'.Drawn ↔
      r.numbers.Complete (fun n => n) s.Drawn := by
    constructor
    · exact fun hc number hn hk => hc number (hdrawn number hn) hk
    · intro hc number hn hk
      exact hc number ⟨hn.1, Nat.le_trans hk h.cursor_le⟩ hk
  refine ⟨⟨h.wellformed.steps hstep, h.numbered.steps h.wellformed hstep hdropped,
    Nat.le_trans h.cursor_le hle, h.inOrder.mono _ hdrawn,
    fun event he => hreadable event (h.genuine event he), ?_⟩, ?_⟩
  · have hpage := h.page
    cases hphase : r.phase with
    | idle => trivial
    | eventsRead limit rows =>
        simp only [hphase] at hpage
        exact hpage.move hstep hdropped
    | liveRead page =>
        simp only [hphase] at hpage
        exact ⟨⟨hpage.1.ascending, hpage.1.beyond, fun n hn => hdrawn n (hpage.1.drawn n hn)⟩,
          fun event he => hreadable event (hpage.2 event he)⟩
  · have hpage := h.page
    simp only [Faultless]
    rw [hcomplete]
    cases hphase : r.phase with
    | idle | eventsRead _ _ => rfl
    | liveRead page =>
        simp only [hphase] at hpage
        refine and_congr_right fun _ => ⟨fun hg n hn hb hk => hg n (hdrawn n hn) hb hk, ?_⟩
        -- the page ends at a number that was drawn before this step
        intro hg n hn hb hk
        refine hg n ⟨hn.1, Nat.le_trans hk ?_⟩ hb hk
        by_cases hne : page.1.map TerminalEvent.sequence = []
        · rw [hne, nextCursor_nil]
          exact h.cursor_le
        · obtain ⟨last, hlast, hkey⟩ := nextCursor_mem (fun n : Nat => n) r.reader.cursor hne
          rw [← hkey]
          exact (hpage.1.drawn last hlast).2

theorem numbers_take (r : ShellReader) (page : List TerminalEvent) (last : Option EventsData) :
    (⟨r.reader.take TerminalEvent.sequence page, .idle, last⟩ : ShellReader).numbers =
      r.numbers.take (fun n => n) (page.map TerminalEvent.sequence) := by
  simp [numbers, Reader.take]

theorem readCommands_some {s : Recorders} {r r' : ShellReader} {page : List TerminalEvent × Bool}
    {now : Now} (hphase : r.phase = .liveRead page)
    (hlook : r.look s (.readCommands now) = some r') :
    ∃ response, r' = ⟨r.reader.take TerminalEvent.sequence page.1, .idle, some response⟩ ∧
      response.events = page.1 ∧ response.hasMore = page.2 := by
  simp only [look, hphase, Option.some.injEq] at hlook
  exact ⟨_, hlook.symm, rfl, rfl⟩

theorem Reading.look {s : Recorders} {r r' : ShellReader} (h : Reading s r) {step : ShellStep}
    (hlook : r.look s step = some r') :
    Reading s r' ∧ (Faultless s r' ↔ Faultless s r ∧ ReadsOrderly (s, r) (.inr step)) := by
  have hpage := h.page
  cases step with
  | readEvents maxBytes =>
      cases hphase : r.phase with
      | eventsRead _ _ | liveRead _ => simp [ShellReader.look, hphase] at hlook
      | idle =>
          simp only [ShellReader.look, hphase, Option.some.injEq] at hlook
          subst hlook
          refine ⟨{ h with page := h.numbered.rowsRead _ _ }, ?_⟩
          simp [Faultless, hphase, ReadsOrderly, numbers]
  | readLive =>
      cases hphase : r.phase with
      | idle | liveRead _ => simp [ShellReader.look, hphase] at hlook
      | eventsRead limit rows =>
          simp only [hphase] at hpage
          simp only [ShellReader.look, hphase, Option.some.injEq] at hlook
          subst hlook
          refine ⟨{ h with page := ⟨hpage.sound_page h.numbered, fun event he =>
            (hpage.readable ((hpage.mem_page h.numbered).mp he)).1⟩ }, ?_⟩
          simp only [Faultless, hphase, ReadsOrderly, numbers, and_true]
          rw [hpage.gapless_page h.numbered]
  | readCommands now =>
      cases hphase : r.phase with
      | idle | eventsRead _ _ => simp [ShellReader.look, hphase] at hlook
      | liveRead page =>
          simp only [hphase] at hpage
          obtain ⟨response, rfl, -, -⟩ := readCommands_some hphase hlook
          have hsound := hpage.1
          refine ⟨⟨h.wellformed, h.numbered, ?_, ?_, ?_, trivial⟩, ?_⟩
          · by_cases hne : page.1 = []
            · simpa [Reader.take, hne] using h.cursor_le
            · obtain ⟨last, hlast, hkey⟩ := nextCursor_mem TerminalEvent.sequence
                r.reader.cursor hne
              simp only [Reader.take, ← hkey]
              exact ((hpage.2 last hlast).drawn h.numbered).2
          · rw [numbers_take]
            exact h.inOrder.take _ hsound
          · exact List.forall_mem_append.mpr ⟨h.genuine, hpage.2⟩
          · simp only [Faultless, hphase, ReadsOrderly, and_true]
            rw [numbers_take]
            exact Reader.complete_take_iff _ h.inOrder hsound

theorem dropped_back (p : Recorders × ShellReader) (move : RecorderStep ⊕ ShellStep)
    (q : Recorders × ShellReader) (hstep : shellMachine.step p move = some q)
    (hq : q.1.runtime.liveTailDropped = false) : p.1.runtime.liveTailDropped = false := by
  obtain ⟨s, r⟩ := p
  cases move with
  | inl move =>
      obtain ⟨m, hmove, rfl⟩ := (Recorders.machine.observed_inl ShellReader.look).mp hstep
      exact (Recorders.steps_of_step hmove).dropped_back hq
  | inr step =>
      obtain ⟨c, -, rfl⟩ := (Recorders.machine.observed_inr ShellReader.look).mp hstep
      exact hq

theorem Reading.step {p q : Recorders × ShellReader} (h : Reading p.1 p.2)
    {move : RecorderStep ⊕ ShellStep} (hdropped : q.1.runtime.liveTailDropped = false)
    (hstep : shellMachine.step p move = some q) :
    Reading q.1 q.2 ∧ (Faultless q.1 q.2 ↔ Faultless p.1 p.2 ∧ ReadsOrderly p move) := by
  obtain ⟨s, r⟩ := p
  cases move with
  | inl move =>
      obtain ⟨m, hmove, rfl⟩ := (Recorders.machine.observed_inl ShellReader.look).mp hstep
      obtain ⟨hnext, hfaultless⟩ := h.move (Recorders.steps_of_step hmove) hdropped
      exact ⟨hnext, by simpa [ReadsOrderly] using hfaultless⟩
  | inr step =>
      obtain ⟨c, hlook, rfl⟩ := (Recorders.machine.observed_inr ShellReader.look).mp hstep
      exact h.look hlook

theorem reading_start {db : Database} {limit : Nat} {info : SessionInfo} {now : Now}
    (hschema : db.Schema) (hnew : db.session info.id = none) :
    Reading (.created ⟨db, limit⟩ info now) start where
  wellformed := Recorders.wellformed_created hschema
  numbered := Recorders.numbered_created hschema hnew
  cursor_le := Nat.zero_le _
  inOrder := Reader.inOrder_start _ _
  genuine := by simp [start, Reader.start]
  page := trivial

theorem faultless_start (s : Recorders) : Faultless s start := by
  refine ⟨fun number hdrawn hle => ?_, trivial⟩
  have hpos := hdrawn.1
  simp only [numbers, start, Reader.start] at hle
  omega

/-- A reader that has seen an empty last page of a session whose recorders have
stopped is faultless exactly when it holds every readable event. -/
theorem Reading.received_all {s : Recorders} {r : ShellReader} (h : Reading s r)
    (hstopped : s.pending = []) (hidle : r.phase = .idle)
    (hpast : ∀ event, s.Readable event → event.sequence ≤ r.reader.cursor) :
    (r.reader.received.Nodup ∧ ∀ event, event ∈ r.reader.received ↔ s.Readable event) ↔
      Faultless s r := by
  have hnodup : r.reader.received.Nodup :=
    List.Nodup.of_map _ (h.inOrder.ascending.nodup (fun n : Nat => n))
  have hfaultless : Faultless s r ↔ r.numbers.Complete (fun n => n) s.Drawn := by
    simp [Faultless, hidle]
  rw [hfaultless]
  constructor
  · rintro ⟨-, hall⟩ number hdrawn -
    obtain ⟨event, he, rfl⟩ := h.numbered.drawn_iff.mp hdrawn
    refine List.mem_map_of_mem ((hall event).mpr ?_)
    simpa [Recorders.mem_accounted, hstopped, Recorders.Readable] using he
  · intro hcomplete
    refine ⟨hnodup, fun event => ⟨h.genuine event, fun he => ?_⟩⟩
    obtain ⟨received, hreceived, hkey⟩ := List.mem_map.mp
      (hcomplete _ (he.drawn h.numbered) (hpast event he))
    have hsame := h.numbered.key_inj
      (Recorders.mem_accounted.mpr ((h.genuine received hreceived).imp id .inl))
      (Recorders.mem_accounted.mpr (he.imp id .inl)) hkey
    exact hsame ▸ hreceived

/-- The three steps of one call. -/
def readPage (maxBytes : Nat) (now : Now) : List (RecorderStep ⊕ ShellStep) :=
  [.inr (.readEvents maxBytes), .inr .readLive, .inr (.readCommands now)]

theorem readPage_run {s s' : Recorders} {r r' : ShellReader} {maxBytes : Nat} {now : Now}
    (hrun : shellMachine.run (s, r) (readPage maxBytes now) = some (s', r')) :
    s' = s ∧ ∃ page response, page = readLiveShell [s.runtime]
        (s.storage.eventsForSession s.runtime.sessionId r.reader.cursor (readLimit maxBytes))
        s.runtime.sessionId r.reader.cursor (readLimit maxBytes) ∧
      r' = ⟨r.reader.take TerminalEvent.sequence page.1, .idle, some response⟩ ∧
      response.events = page.1 ∧ response.hasMore = page.2 := by
  obtain ⟨q, hfirst, hrun⟩ := shellMachine.run_cons_some.mp hrun
  obtain ⟨r₁, hevents, rfl⟩ := (Recorders.machine.observed_inr ShellReader.look).mp hfirst
  obtain ⟨q, hsecond, hrun⟩ := shellMachine.run_cons_some.mp hrun
  obtain ⟨r₂, hlive, rfl⟩ := (Recorders.machine.observed_inr ShellReader.look).mp hsecond
  obtain ⟨q, hthird, hrun⟩ := shellMachine.run_cons_some.mp hrun
  obtain ⟨r₃, hcommands, rfl⟩ := (Recorders.machine.observed_inr ShellReader.look).mp hthird
  cases hrun
  cases hphase : r.phase with
  | eventsRead _ _ | liveRead _ => simp [ShellReader.look, hphase] at hevents
  | idle =>
      simp only [ShellReader.look, hphase, Option.some.injEq] at hevents
      subst hevents
      simp only [ShellReader.look, Option.some.injEq] at hlive
      subst hlive
      obtain ⟨response, hr, hshown, hflag⟩ := readCommands_some rfl hcommands
      exact ⟨rfl, _, response, rfl, hr, hshown, hflag⟩

/-- An empty page without more leaves nothing readable beyond the cursor. -/
theorem readPage_empty {s s' : Recorders} {r r' : ShellReader} {maxBytes : Nat} {now : Now}
    {response : EventsData}
    (hrun : shellMachine.run (s, r) (readPage maxBytes now) = some (s', r'))
    (hlast : r'.last = some response) (hempty : response.events = [])
    (hmore : response.hasMore = false) :
    s' = s ∧ r'.phase = .idle ∧
      ∀ event, s.Readable event → event.sequence ≤ r'.reader.cursor := by
  obtain ⟨hsame, page, shown, hpage, rfl, hevents, hflag⟩ := readPage_run hrun
  obtain rfl : shown = response := Option.some.inj hlast
  refine ⟨hsame, rfl, fun event he => ?_⟩
  rw [hevents] at hempty
  rw [hflag] at hmore
  rw [Recorders.readLiveShell_own] at hpage
  rw [hpage] at hempty hmore
  obtain ⟨hrows, hwhole, hlive⟩ := appendLive_empty hempty hmore
  have hcursor : (r.reader.take TerminalEvent.sequence page.1).cursor = r.reader.cursor := by
    simp only [Reader.take, hpage, hempty, nextCursor_nil]
  show event.sequence ≤ (r.reader.take TerminalEvent.sequence page.1).cursor
  rw [hcursor]
  by_contra hbeyond
  cases he with
  | inl hstored =>
      obtain ⟨hmem, hown⟩ := List.mem_filter.mp hstored
      have hrow : event ∈ s.storage.eventRows .sessionId s.runtime.sessionId r.reader.cursor :=
        Storage.mem_eventRows.mpr ⟨hmem, hown, Nat.lt_of_not_le hbeyond⟩
      rw [← Storage.events_all hwhole] at hrow
      exact List.ne_nil_of_mem hrow hrows
  | inr hl =>
      have hmem : event ∈ s.liveBeyond r.reader.cursor :=
        Recorders.mem_liveBeyond.mpr ⟨hl, Nat.lt_of_not_le hbeyond⟩
      exact List.ne_nil_of_mem hmem hlive

/-- Once the recorders have stopped and a page comes back empty and without more,
the reader has every recorded event once exactly when each of its pages was read at
an orderly moment. -/
theorem reader_exact_iff_orderly {db : Database} {limit : Nat} {info : SessionInfo} {now : Now}
    {moves : List (RecorderStep ⊕ ShellStep)} {s s' : Recorders} {r r' : ShellReader}
    {maxBytes : Nat} {last : Now} {response : EventsData}
    (hschema : db.Schema) (hnew : db.session info.id = none)
    (hrun : shellMachine.run (.created ⟨db, limit⟩ info now, .start) moves = some (s, r))
    (hstopped : ∀ recorder ∈ s.tasks, recorder.pending = none)
    (hread : shellMachine.run (s, r) (readPage maxBytes last) = some (s', r'))
    (hlast : r'.last = some response) (hempty : response.events = [])
    (hmore : response.hasMore = false) (hdropped : s'.runtime.liveTailDropped = false) :
    (r'.reader.received.Nodup ∧
        ∀ event, event ∈ r'.reader.received ↔ s'.Readable event) ↔
      shellMachine.Meets ReadsOrderly (.created ⟨db, limit⟩ info now, .start)
        (moves ++ readPage maxBytes last) := by
  have hall := shellMachine.run_append_some.mpr ⟨(s, r), hrun, hread⟩
  obtain ⟨hreading, hfaultless⟩ := shellMachine.meets_iff
    (I := fun p => Reading p.1 p.2) (P := fun p => Faultless p.1 p.2) dropped_back
    (fun _ _ _ h hdropped hstep => h.step hdropped hstep) (reading_start hschema hnew) hall
    hdropped
  obtain ⟨rfl, hidle, hpast⟩ := readPage_empty hread hlast hempty hmore
  have hpending : s'.pending = [] := List.filterMap_eq_nil_iff.mpr hstopped
  rw [hreading.received_all hpending hidle hpast, hfaultless]
  exact and_iff_right (faultless_start _)

/-- One exec, one event, read at leisure. -/
def readAtLeisure : List (RecorderStep ⊕ ShellStep) :=
  [.inl (.startExec "c" "ls" ⟨0, 0⟩), .inl (.draw 0 .stdout [1, 2] ⟨0, 0⟩), .inl (.append 0),
    .inl (.announce 0 ⟨0, 0⟩)] ++ readPage 10 ⟨0, 0⟩

theorem reader_exact_iff_orderly_readAtLeisure :
    ∃ s s' r r', shellMachine.run
        (.created ⟨.empty, 4⟩ (.created "s" "t" "t" "p" "m" ⟨0, 0⟩) ⟨0, 0⟩, .start)
        readAtLeisure = some (s, r) ∧
      shellMachine.run (s, r) (readPage 10 ⟨0, 0⟩) = some (s', r') ∧
      ((r'.reader.received.Nodup ∧
          ∀ event, event ∈ r'.reader.received ↔ s'.Readable event) ↔
        shellMachine.Meets ReadsOrderly
          (.created ⟨.empty, 4⟩ (.created "s" "t" "t" "p" "m" ⟨0, 0⟩) ⟨0, 0⟩, .start)
          (readAtLeisure ++ readPage 10 ⟨0, 0⟩)) := by
  have hall : ((shellMachine.run
      (.created ⟨.empty, 4⟩ (.created "s" "t" "t" "p" "m" ⟨0, 0⟩) ⟨0, 0⟩, .start)
      readAtLeisure).any fun p =>
        p.1.tasks.all (fun recorder => recorder.pending.isNone) &&
        (shellMachine.run p (readPage 10 ⟨0, 0⟩)).any fun q =>
          q.2.last.any (fun response => response.events.isEmpty && !response.hasMore) &&
            !q.1.runtime.liveTailDropped) = true := by decide
  obtain ⟨⟨s, r⟩, hrun, hall⟩ := (Option.any_eq_true _ _).mp hall
  simp only [Bool.and_eq_true, Option.any_eq_true, List.all_eq_true, Option.isNone_iff_eq_none,
    List.isEmpty_iff, Bool.not_eq_true'] at hall
  obtain ⟨hstopped, ⟨s', r'⟩, hread, ⟨response, hlast, hempty, hmore⟩, hdropped⟩ := hall
  exact ⟨s, s', r, r', hrun, hread, reader_exact_iff_orderly Database.schema_empty rfl hrun
    hstopped hread hlast hempty hmore hdropped⟩

/-- Two execs: the second number is readable while the first is only drawn. -/
def overtakenNumber : List (RecorderStep ⊕ ShellStep) :=
  let now : Now := ⟨0, 0⟩
  [.inl (.startExec "a" "ls" now), .inl (.startExec "b" "ls" now),
    .inl (.draw 0 .stdout [1] now), .inl (.draw 1 .stdout [2] now), .inl (.append 1),
    .inl (.announce 1 now)] ++ readPage 1024 now ++ [.inl (.append 0), .inl (.announce 0 now)]

theorem reader_loses_overtaken_number :
    ∃ moves s r s' r' response, shellMachine.run
        (.created (.openWith .empty 1) (.created "s" "t" "t" "p" "m" ⟨0, 0⟩) ⟨0, 0⟩, .start)
        moves = some (s, r) ∧
      (∀ recorder ∈ s.tasks, recorder.pending = none) ∧
      shellMachine.run (s, r) (readPage 1024 ⟨0, 0⟩) = some (s', r') ∧
      r'.last = some response ∧ response.events = [] ∧ response.hasMore = false ∧
      s'.runtime.liveTailDropped = false ∧
      ∃ event, s'.Readable event ∧ event ∉ r'.reader.received := by
  have hall : ((shellMachine.run
      (.created (.openWith .empty 1) (.created "s" "t" "t" "p" "m" ⟨0, 0⟩) ⟨0, 0⟩, .start)
      overtakenNumber).any fun p =>
        p.1.tasks.all (fun recorder => recorder.pending.isNone) &&
        (shellMachine.run p (readPage 1024 ⟨0, 0⟩)).any fun q =>
          q.2.last.any (fun response => response.events.isEmpty && !response.hasMore) &&
            !q.1.runtime.liveTailDropped &&
            q.1.stored.any fun event => !q.2.reader.received.contains event) = true := by decide
  obtain ⟨⟨s, r⟩, hrun, hall⟩ := (Option.any_eq_true _ _).mp hall
  simp only [Bool.and_eq_true, Option.any_eq_true, List.all_eq_true, Option.isNone_iff_eq_none,
    List.isEmpty_iff, Bool.not_eq_true', List.any_eq_true, List.contains_eq_mem,
    decide_eq_false_iff_not] at hall
  obtain ⟨hstopped, ⟨s', r'⟩, hread, ⟨⟨response, hlast, hempty, hmore⟩, hdropped⟩, event,
    hstored, hmissed⟩ := hall
  exact ⟨_, s, r, s', r', response, hrun, hstopped, hread, hlast, hempty, hmore, hdropped, event,
    .inl hstored, hmissed⟩

end ShellReader
end AiSsh
