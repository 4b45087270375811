import AiSsh.Library.MessagePack
import AiSsh.Requests

/-!
The frame that carries a page of output. The limit of a page counts payload bytes; the
frame carries with each event the names of its fields and its identifiers, and with the
page the text of a command, or of every command that the page mentions. A time is
written as a text, whose form is left to the encoder.
-/

namespace AiSsh

open Library

def maxFrameBytes : Nat := 8 * 1024 * 1024

/-- `write_frame`: the bytes that go out for a body of this length. -/
def writeFrame (body : Nat) : Except String Nat :=
  if body > maxFrameBytes then .error "IPC frame is too large" else .ok (4 + body)

def CommandStatus.name : CommandStatus → String
  | .running => "running"
  | .completed => "completed"
  | .failed => "failed"
  | .timedOut => "timed_out"
  | .cancelled => "cancelled"
  | .interrupted => "interrupted"

def StreamKind.name : StreamKind → String
  | .stdout => "stdout"
  | .stderr => "stderr"
  | .pty => "pty"
  | .system => "system"

section Encoding

variable (timeText : DateTime → String)

def TerminalEvent.size (event : TerminalEvent) : Nat :=
  MessagePack.record [
    ("session_id", MessagePack.text event.sessionId),
    ("command_id", MessagePack.option MessagePack.text event.commandId),
    ("sequence", MessagePack.uint event.sequence),
    ("timestamp", MessagePack.text (timeText event.timestamp)),
    ("stream", MessagePack.text event.stream.name),
    ("payload", MessagePack.bin event.payload.length),
    ("persisted", MessagePack.bool)]

def CommandInfo.size (command : CommandInfo) : Nat :=
  MessagePack.record [
    ("id", MessagePack.text command.id),
    ("session_id", MessagePack.text command.sessionId),
    ("command", MessagePack.text command.command),
    ("status", MessagePack.text command.status.name),
    ("exit_code", MessagePack.option (fun code : UInt32 => MessagePack.uint code.toNat)
      command.exitCode),
    ("started_at", MessagePack.text (timeText command.startedAt)),
    ("finished_at", MessagePack.option (fun time => MessagePack.text (timeText time))
      command.finishedAt),
    ("last_sequence", MessagePack.uint command.lastSequence),
    ("recording_truncated", MessagePack.bool),
    ("output_bytes", MessagePack.uint command.outputBytes)]

def EventProgress.size (progress : EventProgress) : Nat :=
  MessagePack.record [
    ("seconds_since_last_output",
      MessagePack.option MessagePack.uint progress.secondsSinceLastOutput),
    ("live_tail_dropped", MessagePack.bool),
    ("timed_out", MessagePack.bool),
    ("waited_seconds", MessagePack.uint progress.waitedSeconds)]

def EventsData.size (data : EventsData) : Nat :=
  MessagePack.record [
    ("command", MessagePack.option (CommandInfo.size timeText) data.command),
    ("commands", MessagePack.array (CommandInfo.size timeText) data.commands),
    ("events", MessagePack.array (TerminalEvent.size timeText) data.events),
    ("next_sequence", MessagePack.uint data.nextSequence),
    ("has_more", MessagePack.bool),
    ("delivery_complete", MessagePack.bool),
    ("warnings", MessagePack.array MessagePack.text data.warnings),
    ("progress", data.progress.size)]

/-- The body of a `Response` that carries a page. -/
def responseSize (requestId : Nat) (data : EventsData) : Nat :=
  MessagePack.record [
    ("request_id", MessagePack.uint requestId),
    ("Ok", MessagePack.record [
      ("kind", MessagePack.text "events"),
      ("data", data.size timeText)])]

/-- The page is answered. -/
def Answered (requestId : Nat) (data : EventsData) : Prop :=
  (writeFrame (responseSize timeText requestId data)).isOk = true

theorem answered_iff {requestId : Nat} {data : EventsData} :
    Answered timeText requestId data ↔ responseSize timeText requestId data ≤ maxFrameBytes := by
  rw [Answered, writeFrame]
  split
  · rename_i h
    simpa [Except.isOk, Except.toBool] using h
  · rename_i h
    simpa [Except.isOk, Except.toBool] using h

/-- What the response takes besides the commands, the events and the cursor. -/
def envelope (requestId : Nat) (command : Option CommandInfo) (warnings : List String)
    (progress : EventProgress) : Nat :=
  MessagePack.record [
    ("request_id", MessagePack.uint requestId),
    ("Ok", MessagePack.record [
      ("kind", MessagePack.text "events"),
      ("data", MessagePack.record [
        ("command", MessagePack.option (CommandInfo.size timeText) command),
        ("commands", 0),
        ("events", 0),
        ("next_sequence", 0),
        ("has_more", MessagePack.bool),
        ("delivery_complete", MessagePack.bool),
        ("warnings", MessagePack.array MessagePack.text warnings),
        ("progress", progress.size)])])]

/-- The parts that grow with the page. -/
def pageSize (commands : List CommandInfo) (events : List TerminalEvent) (next : Nat) : Nat :=
  MessagePack.array (CommandInfo.size timeText) commands +
    MessagePack.array (TerminalEvent.size timeText) events + MessagePack.uint next

theorem responseSize_eq (requestId : Nat) (data : EventsData) :
    responseSize timeText requestId data =
      envelope timeText requestId data.command data.warnings data.progress +
        pageSize timeText data.commands data.events data.nextSequence := by
  simp only [responseSize, envelope, pageSize, EventsData.size, MessagePack.record, total_cons,
    total_nil, List.length_cons, List.length_nil]
  omega

/-- What an event takes whatever is in it. -/
theorem TerminalEvent.le_size (event : TerminalEvent) : 75 ≤ event.size timeText := by
  have hnames : MessagePack.text "session_id" = 11 ∧ MessagePack.text "command_id" = 11 ∧
      MessagePack.text "sequence" = 9 ∧ MessagePack.text "timestamp" = 10 ∧
      MessagePack.text "stream" = 7 ∧ MessagePack.text "payload" = 8 ∧
      MessagePack.text "persisted" = 10 := by decide
  have htext (s : String) : 1 ≤ MessagePack.text s := MessagePack.one_le_text s
  have hid : 1 ≤ MessagePack.option MessagePack.text event.commandId := by
    cases event.commandId with
    | none => exact Nat.le_refl 1
    | some id => exact htext id
  have hsequence := MessagePack.one_le_uint event.sequence
  have hpayload := MessagePack.two_le_bin event.payload.length
  have hsession := htext event.sessionId
  have htime := htext (timeText event.timestamp)
  have hstream := htext event.stream.name
  have hheader : MessagePack.header 7 = 1 := rfl
  simp only [size, MessagePack.record, total_cons, total_nil, hnames, List.length_cons,
    List.length_nil, Nat.reduceAdd, hheader, MessagePack.bool]
  omega

end Encoding

/-- What a reader has before it: the stored rows after its cursor, and the live events. -/
structure Readable where
  rows : List TerminalEvent
  live : List TerminalEvent

/-- Events that come next, with the payloads of more than one within the limit. The number
of stored rows is limited too, that of live events is not. -/
structure Readable.Batch (readable : Readable) (limit : Nat) (events : List TerminalEvent) :
    Prop where
  front : events <+: readable.rows ++ readable.live
  payload : events.length ≤ 1 ∨ payloadBytes events ≤ limit
  stored : events.length ≤ Storage.pageEvents ∨ readable.rows.length ≤ Storage.pageEvents

namespace Readable

variable {readable : Readable} {limit : Nat} {events page : List TerminalEvent}
  {event : TerminalEvent}

theorem prefix_of_stop {all : List TerminalEvent} (hevents : events <+: all)
    (hpage : page ++ [event] <+: all) (hstop : ¬page ++ [event] <+: events) :
    events <+: page := by
  have hpage' : page <+: all := (List.prefix_append page [event]).trans hpage
  refine List.prefix_of_prefix_length_le hevents hpage' ?_
  by_contra hlonger
  refine hstop (List.prefix_of_prefix_length_le hpage hevents ?_)
  simp only [List.length_append, List.length_singleton]
  omega

/-- A batch does not go beyond an event that its payload limit excludes. -/
theorem Batch.prefix_of_payload (h : readable.Batch limit events)
    (hpage : page ++ [event] <+: readable.rows ++ readable.live)
    (hcut : withinBudget payloadLength limit page event = false) : events <+: page := by
  refine prefix_of_stop h.front hpage fun hlong => ?_
  have hne : page ≠ [] := by
    rintro rfl
    cases hcut
  rw [withinBudget_of_ne hne, decide_eq_false_iff_not] at hcut
  obtain ⟨rest, rfl⟩ := hlong
  have hlength := List.length_pos_iff.mpr hne
  cases h.payload with
  | inl hshort =>
      simp only [List.length_append, List.length_singleton] at hshort
      omega
  | inr hpayload =>
      simp only [payloadBytes, total_append, total_cons, total_nil] at hpayload
      omega

/-- A batch does not go beyond the row that the number of stored rows excludes. -/
theorem Batch.prefix_of_stored (h : readable.Batch limit events)
    (hpage : page ++ [event] <+: readable.rows ++ readable.live)
    (hrows : Storage.pageEvents < readable.rows.length)
    (hfull : page.length = Storage.pageEvents) :
    events <+: page := by
  refine prefix_of_stop h.front hpage fun hlong => ?_
  have hlength := hlong.length_le
  simp only [List.length_append, List.length_singleton] at hlength
  cases h.stored with
  | inl hstored => omega
  | inr hstored => omega

end Readable

/-- What a page is put together from. -/
def Storage.readable (storage : Storage) (column : EventColumn) (id : String)
    (live : List TerminalEvent) (after : Nat) (commandId : Option String) : Readable :=
  ⟨storage.eventRows column id after, live.filter (liveSelects after commandId)⟩

section Page

variable {storage : Storage} {column : EventColumn} {id : String} {after limit : Nat}
  {live : List TerminalEvent} {commandId : Option String}

theorem events_payload : (storage.events column id after limit).1.length ≤ 1 ∨
    payloadBytes (storage.events column id after limit).1 ≤ limit := by
  have hfits (page : List TerminalEvent) (event : TerminalEvent)
      (h : Storage.rowFits limit page event = true) :
      withinBudget payloadLength limit page event = true := by
    rw [Storage.rowFits, Bool.and_eq_true] at h
    exact h.2
  have hempty : ([] : List TerminalEvent).length ≤ 1 ∨ total payloadLength [] ≤ limit :=
    .inl (Nat.zero_le 1)
  rw [Storage.events_eq_fill]
  exact fill_total_le hfits hempty _

/-- The database page is the longest batch of stored rows. -/
theorem cut_page_longest (live : List TerminalEvent) (commandId : Option String)
    (hcut : (storage.events column id after limit).2 = true) :
    let readable := storage.readable column id live after commandId
    readable.Batch limit (storage.events column id after limit).1 ∧
      ∀ events, readable.Batch limit events →
        events <+: (storage.events column id after limit).1 := by
  intro readable
  have hshort := storage.events_length column id after limit
  have hfront := storage.events_prefix column id after limit
  have hbudget : (storage.events column id after limit).1.length ≤ 1 ∨
      payloadBytes (storage.events column id after limit).1 ≤ limit := events_payload
  rw [Storage.events_eq_fill] at hcut hshort hfront hbudget ⊢
  obtain ⟨page, rest, hrows, hpage, -, hstop⟩ :=
    fill_split (Storage.rowFits limit) []
      ((storage.eventRows column id after).take (Storage.pageEvents + 1))
  obtain ⟨event, tail, rfl, hfits⟩ := hstop hcut
  rw [List.nil_append] at hpage hfits
  rw [hpage] at hshort hfront hbudget ⊢
  refine ⟨⟨hfront.trans (List.prefix_append _ _), hbudget, .inl hshort⟩, fun events hevents => ?_⟩
  have hnext : page ++ [event] <+: storage.eventRows column id after := by
    refine List.IsPrefix.trans ?_ (List.take_prefix (Storage.pageEvents + 1) _)
    rw [hrows]
    exact ⟨tail, by simp⟩
  have hnext' := hnext.trans (List.prefix_append (storage.eventRows column id after)
    (live.filter (liveSelects after commandId)))
  rw [Storage.rowFits, Bool.and_eq_false_iff, bne_eq_false_iff_eq] at hfits
  cases hfits with
  | inl hfull =>
      refine hevents.prefix_of_stored hnext' ?_ hfull
      have hlength := hnext.length_le
      simp only [List.length_append, List.length_singleton] at hlength
      show Storage.pageEvents < (storage.eventRows column id after).length
      omega
  | inr hfits => exact hevents.prefix_of_payload hnext' hfits

/-- A page over the live tail is the longest batch. -/
theorem whole_page_longest (live : List TerminalEvent) (commandId : Option String)
    (hwhole : (storage.events column id after limit).2 = false) :
    let readable := storage.readable column id live after commandId
    let page := (fill (withinBudget payloadLength limit) readable.rows readable.live).1
    readable.Batch limit page ∧ ∀ events, readable.Batch limit events → events <+: page := by
  intro readable page
  have hrows : (storage.events column id after limit).1 = readable.rows :=
    Storage.events_all hwhole
  have hshort := storage.events_length column id after limit
  rw [hrows] at hshort
  have hbudget : readable.rows.length ≤ 1 ∨ payloadBytes readable.rows ≤ limit :=
    hrows ▸ events_payload
  have hbudget' := fill_total_le (fun _ _ h => h) hbudget readable.live
  obtain ⟨taken, rest, hlive, hpage, hall, hstop⟩ :=
    fill_split (withinBudget payloadLength limit) readable.rows readable.live
  have hpage : page = readable.rows ++ taken := hpage
  have hfront : page <+: readable.rows ++ readable.live := by
    rw [hpage, hlive, ← List.append_assoc]
    exact List.prefix_append _ _
  refine ⟨⟨hfront, hbudget', .inr hshort⟩, fun events hevents => ?_⟩
  cases hflag : (fill (withinBudget payloadLength limit) readable.rows readable.live).2 with
  | false =>
      have hfull : page = readable.rows ++ readable.live := by
        rw [hpage, hlive, hall hflag, List.append_nil]
      rw [hfull]
      exact hevents.front
  | true =>
      obtain ⟨event, tail, hrest, hfits⟩ := hstop hflag
      rw [← hpage] at hfits
      refine hevents.prefix_of_payload ?_ hfits
      rw [hpage, hlive, hrest]
      exact ⟨tail, by simp⟩

/-- A page of output shows the longest batch in the order of its sequence numbers. -/
theorem appendLive_longest :
    ∃ page, (storage.readable column id live after commandId).Batch limit page ∧
      (∀ events, (storage.readable column id live after commandId).Batch limit events →
        events <+: page) ∧
      (appendLive (storage.events column id after limit).1
        (storage.events column id after limit).2 live after limit commandId).1 =
          sortByKey TerminalEvent.sequence page := by
  cases hflag : (storage.events column id after limit).2 with
  | true =>
      obtain ⟨hbatch, hlongest⟩ := cut_page_longest live commandId hflag
      refine ⟨_, hbatch, hlongest, ?_⟩
      rw [appendLive_of_cut]
      have hsorted := (sortByKey_pairwise TerminalEvent.sequence _).sublist
        (storage.events_prefix column id after limit).sublist
      exact hsorted.insertionSort_eq.symm
  | false =>
      obtain ⟨hbatch, hlongest⟩ := whole_page_longest live commandId hflag
      refine ⟨_, hbatch, hlongest, ?_⟩
      rw [appendLive_of_whole, Storage.events_all hflag]
      rfl

theorem appendLive_nil : (appendLive (storage.events column id after limit).1
    (storage.events column id after limit).2 [] after limit commandId).1 =
      (storage.events column id after limit).1 := by
  cases hflag : (storage.events column id after limit).2 with
  | true => rfl
  | false =>
      have hsorted := (sortByKey_pairwise TerminalEvent.sequence _).sublist
        (storage.events_prefix column id after limit).sublist
      exact hsorted.insertionSort_eq

theorem after_lt_of_readable {event : TerminalEvent}
    (h : event ∈ (storage.readable column id live after commandId).rows ++
      (storage.readable column id live after commandId).live) : after < event.sequence := by
  cases List.mem_append.mp h with
  | inl h => exact (Storage.mem_eventRows.mp h).2.2
  | inr h => exact (mem_liveSelects.mp h).2.1

end Page

section Sizes

variable (timeText : DateTime → String) (commands : List TerminalEvent → List CommandInfo)

/-- What the parts that grow with the page take for a batch. -/
def batchSize (after : Nat) (events : List TerminalEvent) : Nat :=
  let shown := sortByKey TerminalEvent.sequence events
  pageSize timeText (commands shown) shown (nextCursor TerminalEvent.sequence after shown)

variable {timeText} {commands}

theorem batchSize_mono
    (hcommands : ∀ xs ys : List TerminalEvent, xs ⊆ ys → List.Subperm (commands xs) (commands ys))
    {after : Nat} {events page : List TerminalEvent} (h : events <+: page)
    (hafter : ∀ event ∈ page, after < event.sequence) :
    batchSize timeText commands after events ≤ batchSize timeText commands after page := by
  have hsort (xs : List TerminalEvent) : (sortByKey TerminalEvent.sequence xs).Perm xs :=
    List.perm_insertionSort _ xs
  have hsub : sortByKey TerminalEvent.sequence events ⊆ sortByKey TerminalEvent.sequence page := by
    intro event hevent
    exact (mem_sortByKey _).mpr (h.subset ((mem_sortByKey _).mp hevent))
  have hcursor : nextCursor TerminalEvent.sequence after (sortByKey TerminalEvent.sequence events) ≤
      nextCursor TerminalEvent.sequence after (sortByKey TerminalEvent.sequence page) := by
    by_cases hne : sortByKey TerminalEvent.sequence events = []
    · rw [hne, nextCursor_nil]
      exact cursor_le_nextCursor _ fun event hevent => hafter event ((mem_sortByKey _).mp hevent)
    · obtain ⟨event, hevent, hlast⟩ := nextCursor_mem TerminalEvent.sequence after hne
      rw [← hlast]
      exact le_nextCursor_sortByKey _ ((mem_sortByKey _).mp (hsub hevent))
  rw [batchSize, pageSize]
  refine Nat.add_le_add (Nat.add_le_add ?_ ?_) (MessagePack.uint_mono hcursor)
  · exact MessagePack.array_le_of_subperm (hcommands _ _ hsub)
  · rw [MessagePack.array_perm (hsort events), MessagePack.array_perm (hsort page)]
    exact MessagePack.array_le_of_subperm h.sublist.subperm

/-- A page fits exactly when every batch does. -/
theorem page_fits_iff
    (hcommands : ∀ xs ys : List TerminalEvent, xs ⊆ ys → List.Subperm (commands xs) (commands ys))
    {storage : Storage} {column : EventColumn} {id : String} {after limit base bound : Nat}
    {live : List TerminalEvent} {commandId : Option String} :
    let shown := (appendLive (storage.events column id after limit).1
      (storage.events column id after limit).2 live after limit commandId).1
    base + pageSize timeText (commands shown) shown
        (nextCursor TerminalEvent.sequence after shown) ≤ bound ↔
      ∀ events, (storage.readable column id live after commandId).Batch limit events →
        base + batchSize timeText commands after events ≤ bound := by
  intro shown
  obtain ⟨page, hbatch, hlongest, hshown⟩ :=
    @appendLive_longest storage column id after limit live commandId
  have hshown : shown = sortByKey TerminalEvent.sequence page := hshown
  rw [hshown]
  constructor
  · intro hfits events hevents
    have hafter : ∀ event ∈ page, after < event.sequence := fun event hevent =>
      after_lt_of_readable (hbatch.front.subset hevent)
    have hmono : batchSize timeText commands after events ≤
        batchSize timeText commands after page :=
      batchSize_mono hcommands (hlongest events hevents) hafter
    exact (Nat.add_le_add_left hmono base).trans hfits
  · intro hall
    exact hall page hbatch

end Sizes
end AiSsh
