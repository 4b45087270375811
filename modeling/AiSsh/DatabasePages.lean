import AiSsh.Library.Drain
import AiSsh.StorageAccounts

/-!
Draining the store. A caller of `events_for_command` or `events_for_session` passes the
last sequence it was handed as the next cursor. The cursor is bound as an SQLite
integer, which is signed: a cursor that does not fit is refused before a row is read.
-/

namespace AiSsh

open Library

namespace Database

/-- A command's events belong to the session of its row. -/
def EventOwners (db : Database) : Prop :=
  ∀ event ∈ db.events, ∀ id, event.commandId = some id →
    ∃ row, db.command id = some row ∧ row.sessionId = event.sessionId

/-- A sequence comes back from an integer column. -/
def SequencesFit (db : Database) : Prop := ∀ event ∈ db.events, event.sequence < 2 ^ 63

/-- The calls of the daemon keep events with the session of their command. -/
theorem Ledger.eventOwners {db : Database} (h : db.Ledger) : db.EventOwners := by
  intro event he id hid
  obtain ⟨row, hrow⟩ := Option.isSome_iff_exists.mp (h.schema.eventCommand event he id hid)
  have hown : event.commandId = some row.id := by rw [hid, command_id hrow]
  exact ⟨row, hrow, h.owners event he row (command_mem hrow) hown⟩

/-- The rows of a command or of a session. -/
def selected (db : Database) (column : EventColumn) (id : String) : List TerminalEvent :=
  sortByKey TerminalEvent.sequence (db.events.filter (column.selects id))

theorem mem_selected {db : Database} {column : EventColumn} {id : String}
    {event : TerminalEvent} :
    event ∈ db.selected column id ↔ event ∈ db.events ∧ column.selects id event = true := by
  simp [selected, mem_sortByKey]

/-- Rows of one command or of one session are rows of one session. -/
theorem EventOwners.one_session {db : Database} (h : db.EventOwners) {column : EventColumn}
    {id : String} {a b : TerminalEvent} (ha : a ∈ db.events) (hb : b ∈ db.events)
    (hsa : column.selects id a = true) (hsb : column.selects id b = true) :
    a.sessionId = b.sessionId := by
  cases column with
  | commandId =>
      simp only [EventColumn.selects, beq_iff_eq] at hsa hsb
      obtain ⟨row, hrow, hown⟩ := h a ha id hsa
      obtain ⟨row', hrow', hown'⟩ := h b hb id hsb
      cases hrow.symm.trans hrow'
      exact hown.symm.trans hown'
  | sessionId =>
      simp only [EventColumn.selects, beq_iff_eq] at hsa hsb
      exact hsa.trans hsb.symm

/-- Rows selected by one column differ in their sequence. -/
theorem nodup_sequences {db : Database} (hunique : db.UniqueSequences)
    (howners : db.EventOwners) (column : EventColumn) (id : String) {p : TerminalEvent → Bool}
    (hp : ∀ event, p event = true → column.selects id event = true) :
    ((db.events.filter p).map TerminalEvent.sequence).Nodup := by
  refine List.pairwise_map.mpr ((hunique.filter p).imp_of_mem ?_)
  intro a b ha hb hne hsequence
  obtain ⟨ha, hsa⟩ := List.mem_filter.mp ha
  obtain ⟨hb, hsb⟩ := List.mem_filter.mp hb
  exact hne ⟨howners.one_session ha hb (hp a hsa) (hp b hsb), hsequence⟩

theorem ascending_selected {db : Database} (hunique : db.UniqueSequences)
    (howners : db.EventOwners) (column : EventColumn) (id : String) :
    Ascending TerminalEvent.sequence (db.selected column id) :=
  ascending_sortByKey _ (nodup_sequences hunique howners column id fun _ h => h)

end Database

namespace Storage

/-- `events` with the binding of its cursor. -/
def queryEvents (s : Storage) (column : EventColumn) (id : String) (after maxBytes : Nat) :
    Except StorageError (List TerminalEvent × Bool) :=
  if after < 2 ^ 63 then
    .ok (s.events column id after maxBytes)
  else
    .error (.database .toSqlConversionFailure)

/-- One call for each budget, with the last sequence that was returned as the cursor. -/
def drainEvents (s : Storage) (column : EventColumn) (id : String) :
    Nat → List Nat → Except StorageError (List (List TerminalEvent × Bool))
  | _, [] => .ok []
  | after, maxBytes :: budgets => do
      let page ← s.queryEvents column id after maxBytes
      let pages ← s.drainEvents column id (nextCursor TerminalEvent.sequence after page.1) budgets
      return page :: pages

section Rows

variable {s : Storage} (hunique : s.db.UniqueSequences) (howners : s.db.EventOwners)
  (column : EventColumn) (id : String)

include hunique howners

theorem ascending_eventRows (after : Nat) :
    Ascending TerminalEvent.sequence (s.eventRows column id after) :=
  ascending_sortByKey _ (Database.nodup_sequences hunique howners column id fun _ h =>
    (Bool.and_eq_true_iff.mp h).1)

/-- The rows beyond a cursor are those of the column behind it. -/
theorem eventRows_eq_beyond (after : Nat) :
    s.eventRows column id after =
      beyond TerminalEvent.sequence (s.db.selected column id) after := by
  have hall := Database.ascending_selected hunique howners column id
  refine (ascending_eventRows hunique howners column id after).ext _
    (ascending_beyond _ hall after) fun event => ?_
  rw [mem_beyond, Database.mem_selected, mem_eventRows, and_assoc]

/-- The database pages are an exact source. -/
theorem events_exact :
    ExactPages TerminalEvent.sequence (s.db.selected column id) (s.events column id) where
  front cursor budget := by
    rw [← eventRows_eq_beyond hunique howners]
    exact s.events_split column id cursor budget
  progress cursor budget h := by
    rw [← eventRows_eq_beyond hunique howners] at h
    exact events_ne_nil h

end Rows

theorem events_bytes (s : Storage) (column : EventColumn) (id : String) (after maxBytes : Nat) :
    (s.events column id after maxBytes).1.length ≤ 1 ∨
      payloadBytes (s.events column id after maxBytes).1 ≤ maxBytes := by
  rw [events_eq_fill]
  refine fill_total_le (fun page event h => ?_) (.inl (Nat.zero_le _)) _
  exact (Bool.and_eq_true_iff.mp h).2

/-- What one page may hold. -/
def WithinPage (maxBytes : Nat) (page : List TerminalEvent × Bool) : Prop :=
  page.1.length ≤ 2048 ∧
    payloadBytes page.1 ≤ max maxBytes ((page.1.head?.map payloadLength).getD 0)

theorem events_within (s : Storage) (column : EventColumn) (id : String) (after maxBytes : Nat) :
    WithinPage maxBytes (s.events column id after maxBytes) := by
  refine ⟨s.events_length column id after maxBytes, ?_⟩
  cases s.events_bytes column id after maxBytes with
  | inr hbytes => exact Nat.le_trans hbytes (Nat.le_max_left _ _)
  | inl hone =>
      cases hpage : (s.events column id after maxBytes).1 with
      | nil => exact Nat.zero_le _
      | cons event rest =>
          rw [hpage] at hone
          have hnil : rest = [] := by simpa using hone
          subst hnil
          exact Nat.le_max_right _ _

/-- A cursor that fits stays so: it moves to a sequence of the store only. -/
theorem drainEvents_ok {s : Storage} (hunique : s.db.UniqueSequences)
    (howners : s.db.EventOwners) (hfit : s.db.SequencesFit) (column : EventColumn) (id : String)
    {after : Nat} (hafter : after < 2 ^ 63) (budgets : List Nat) :
    s.drainEvents column id after budgets =
      .ok (drain TerminalEvent.sequence (s.events column id) after budgets) := by
  induction budgets generalizing after with
  | nil => rfl
  | cons maxBytes budgets ih =>
      have hsound := (events_exact hunique howners column id).sound
        (Database.ascending_selected hunique howners column id) after maxBytes
      have hnext : nextCursor TerminalEvent.sequence after (s.events column id after maxBytes).1 <
          2 ^ 63 := by
        by_cases hnil : (s.events column id after maxBytes).1 = []
        · rw [hnil]
          exact hafter
        · obtain ⟨event, he, hkey⟩ := nextCursor_mem TerminalEvent.sequence after hnil
          rw [← hkey]
          exact hfit event (Database.mem_selected.mp (hsound.drawn event he)).1
      simp only [drainEvents, queryEvents, if_pos hafter, drain]
      rw [show (Except.ok (s.events column id after maxBytes) >>= fun page =>
          s.drainEvents column id (nextCursor TerminalEvent.sequence after page.1) budgets >>=
            fun pages => pure (page :: pages)) =
          (s.drainEvents column id (nextCursor TerminalEvent.sequence after
            (s.events column id after maxBytes).1) budgets >>=
            fun pages => pure (s.events column id after maxBytes :: pages)) from rfl, ih hnext]
      rfl

/-- What the pages of consecutive calls make of the rows beyond a cursor. -/
structure Partitions (s : Storage) (column : EventColumn) (id : String) (after : Nat)
    (budgets : List Nat) (pages : List (List TerminalEvent × Bool)) : Prop where
  ascending : Ascending TerminalEvent.sequence (delivered pages)
  consecutive : delivered pages ++ s.eventRows column id
      (nextCursor TerminalEvent.sequence after (delivered pages)) = s.eventRows column id after
  within : List.Forall₂ WithinPage budgets pages
  flagged : ∀ pre page post, pages = pre ++ page :: post →
    (page.2 = true ↔ ∃ event ∈ s.db.events, column.selects id event = true ∧
      nextCursor TerminalEvent.sequence after (delivered (pre ++ [page])) < event.sequence)
  empty : ∀ pre page post, pages = pre ++ page :: post → page.1 = [] →
    s.eventRows column id (nextCursor TerminalEvent.sequence after (delivered pre)) = []
  whole : (s.eventRows column id after).length ≤ budgets.length →
    delivered pages = s.eventRows column id after
  ends : (s.eventRows column id after).length < budgets.length → ∃ page ∈ pages, page.2 = false

theorem partitions_drain {s : Storage} (hunique : s.db.UniqueSequences)
    (howners : s.db.EventOwners) (column : EventColumn) (id : String) (after : Nat)
    (budgets : List Nat) :
    s.Partitions column id after budgets
      (drain TerminalEvent.sequence (s.events column id) after budgets) := by
  have hexact := events_exact hunique howners column id
  have hall := Database.ascending_selected hunique howners column id
  have hrows := eventRows_eq_beyond hunique howners column id
  have hconsecutive := hexact.delivered_append_beyond hall after budgets
  exact
    { ascending := (sound_drain _ (fun cursor budget _ => hexact.sound hall cursor budget)
        after).ascending
      consecutive := by rw [hrows, hrows, hconsecutive]
      within := drain_forall _ _ (fun cursor budget => s.events_within column id cursor budget)
        after budgets
      flagged := by
        intro pre page post hsplit
        obtain ⟨budget, -, rfl⟩ := drain_split _ _ hsplit
        rw [hexact.flag hall, delivered_append, nextCursor_append]
        simp only [Database.mem_selected, and_assoc, delivered_cons, delivered_nil,
          List.append_nil]
      empty := by
        intro pre page post hsplit hempty
        obtain ⟨budget, -, rfl⟩ := drain_split _ _ hsplit
        by_contra hleft
        exact events_ne_nil hleft hempty
      whole := by
        rw [hrows]
        exact hexact.delivered_all hall
      ends := by
        intro hlength
        have hprogress : ∀ cursor, ∀ budget ∈ budgets,
            (s.events column id cursor budget).2 = true →
              (s.events column id cursor budget).1 ≠ [] := fun _ _ _ => events_more_ne_nil
        rw [hrows, ← hconsecutive, List.length_append] at hlength
        exact drain_ends _ hprogress (by omega) }

/-- Draining the store page by page hands over the rows beyond the cursor, each once and
in order, whatever the budgets; a cursor that is no SQLite integer is refused. -/
theorem drain_partitions {s : Storage} (hunique : s.db.UniqueSequences)
    (howners : s.db.EventOwners) (hfit : s.db.SequencesFit) (column : EventColumn) (id : String)
    (after : Nat) (budgets : List Nat) :
    (after < 2 ^ 63 → ∃ pages, s.drainEvents column id after budgets = .ok pages ∧
      s.Partitions column id after budgets pages) ∧
    (2 ^ 63 ≤ after → ∀ maxBytes, s.queryEvents column id after maxBytes =
      .error (.database .toSqlConversionFailure)) := by
  refine ⟨fun hafter => ⟨_, drainEvents_ok hunique howners hfit column id hafter budgets,
    partitions_drain hunique howners column id after budgets⟩, fun hafter maxBytes => ?_⟩
  exact if_neg (Nat.not_lt.mpr hafter)

/-- One session with one command and two events. -/
def twoRows : Database where
  sessions := [⟨.created "s" "t" "t" "p" "m" ⟨0, 0⟩, 3⟩]
  commands := [.started "c" "s" "ls" ⟨0, 0⟩]
  events := [⟨"s", some "c", 1, 0, .stdout, [1, 2], true⟩,
    ⟨"s", some "c", 2, 0, .stderr, [3], true⟩]

theorem twoRows_keys :
    twoRows.UniqueSequences ∧ twoRows.EventOwners ∧ twoRows.SequencesFit := by
  refine ⟨?_, ?_, ?_⟩
  · rw [Database.UniqueSequences]
    decide
  · intro event he id hid
    refine ⟨.started "c" "s" "ls" ⟨0, 0⟩, ?_⟩
    simp only [twoRows, List.mem_cons, List.not_mem_nil, or_false] at he
    rcases he with rfl | rfl <;> cases hid <;> exact ⟨rfl, rfl⟩
  · rw [Database.SequencesFit]
    decide

theorem drain_partitions_twoRows :
    ∃ pages, (⟨twoRows, 10⟩ : Storage).drainEvents .commandId "c" 0 [1, 1] = .ok pages ∧
      (⟨twoRows, 10⟩ : Storage).Partitions .commandId "c" 0 [1, 1] pages :=
  (drain_partitions (s := ⟨twoRows, 10⟩) twoRows_keys.1 twoRows_keys.2.1 twoRows_keys.2.2
    .commandId "c" 0 [1, 1]).1 (by decide)

/-- The first cursor that is no SQLite integer: there is no page, though one without
events would be right. -/
theorem large_cursor_gets_no_page :
    ∃ (s : Storage) (after : Nat), s.db.UniqueSequences ∧ s.db.EventOwners ∧ s.db.SequencesFit ∧
      after < 2 ^ 64 ∧ s.eventRows .commandId "c" after = [] ∧
      ∀ pages, s.drainEvents .commandId "c" after [1] ≠ .ok pages := by
  refine ⟨⟨twoRows, 10⟩, 2 ^ 63, twoRows_keys.1, twoRows_keys.2.1, twoRows_keys.2.2, by decide,
    by decide, ?_⟩
  intro pages
  have hrefused : (⟨twoRows, 10⟩ : Storage).drainEvents .commandId "c" (2 ^ 63) [1] =
      .error (.database .toSqlConversionFailure) := rfl
  rw [hrefused]
  exact nofun

end Storage
end AiSsh
