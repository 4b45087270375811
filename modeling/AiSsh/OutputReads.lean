import AiSsh.Library.Machine
import AiSsh.ResponseFrame
import Mathlib.Data.List.Dedup

/-!
The answers to `CommandPoll` and `ShellRead` on their way out. A page is read in steps,
of which each sees the state of its own moment: the command row, the stored rows, the
live tail, and for a session the rows of its commands.
-/

namespace AiSsh

open Library

/-- The live tail a page is put together from, if the session is still known. -/
def liveEvents (sessions : List SessionRuntime) (id : String) : List TerminalEvent :=
  ((findRuntime sessions id).map SessionRuntime.liveEvents).getD []

theorem readLivePage_events (sessions : List SessionRuntime) (command : CommandInfo)
    (storage : Storage) (commandId : String) (after limit : Nat) :
    (readLivePage sessions command (storage.eventsForCommand commandId after limit) commandId after
      limit).events =
      (appendLive (storage.events .commandId commandId after limit).1
        (storage.events .commandId commandId after limit).2
        (liveEvents sessions command.sessionId) after limit (some commandId)).1 := by
  unfold readLivePage liveEvents
  cases findRuntime sessions command.sessionId with
  | none => exact appendLive_nil.symm
  | some runtime => rfl

theorem readLivePage_same (sessions : List SessionRuntime) (command : CommandInfo)
    (stored : List TerminalEvent × Bool) (commandId : String) (after limit : Nat) :
    (readLivePage sessions command stored commandId after limit).command = command ∧
      (readLivePage sessions command stored commandId after limit).runtime =
        findRuntime sessions command.sessionId := by
  unfold readLivePage
  cases findRuntime sessions command.sessionId with
  | none => exact ⟨rfl, rfl⟩
  | some runtime => exact ⟨rfl, rfl⟩

theorem readLiveShell_events (sessions : List SessionRuntime) (storage : Storage)
    (sessionId : String) (after limit : Nat) :
    (readLiveShell sessions (storage.eventsForSession sessionId after limit) sessionId after
      limit).1 =
      (appendLive (storage.events .sessionId sessionId after limit).1
        (storage.events .sessionId sessionId after limit).2
        (liveEvents sessions sessionId) after limit none).1 := by
  unfold readLiveShell liveEvents
  cases findRuntime sessions sessionId with
  | none => exact appendLive_nil.symm
  | some runtime => rfl

/-- A page without events is one that has nothing to show. -/
theorem appendLive_isEmpty (storage : Storage) (column : EventColumn) (id : String)
    (after limit : Nat) (live : List TerminalEvent) (commandId : Option String) :
    (appendLive (storage.events column id after limit).1
      (storage.events column id after limit).2 live after limit commandId).1.isEmpty =
      ((storage.readable column id live after commandId).rows ++
        (storage.readable column id live after commandId).live).isEmpty := by
  obtain ⟨page, hbatch, hlongest, hshown⟩ :=
    @appendLive_longest storage column id after limit live commandId
  rw [hshown, Bool.eq_iff_iff, List.isEmpty_iff, List.isEmpty_iff]
  have hsorted : sortByKey TerminalEvent.sequence page = [] ↔ page = [] := by
    simp [List.eq_nil_iff_forall_not_mem, mem_sortByKey]
  rw [hsorted]
  constructor
  · intro hpage
    cases hall : (storage.readable column id live after commandId).rows ++
        (storage.readable column id live after commandId).live with
    | nil => rfl
    | cons event rest =>
        have hfirst := hlongest [event]
          ⟨hall ▸ ⟨rest, rfl⟩, .inl (Nat.le_refl 1), .inl (by simp [Storage.pageEvents])⟩
        rw [hpage] at hfirst
        cases List.prefix_nil.mp hfirst
  · intro hall
    have hfront := hbatch.front
    rw [hall] at hfront
    exact List.prefix_nil.mp hfront

theorem shellCommands_subperm (storage : Storage) (sessionId : String)
    (xs ys : List TerminalEvent) (h : xs ⊆ ys) :
    List.Subperm (shellCommands storage sessionId xs) (shellCommands storage sessionId ys) := by
  have hids : (xs.filterMap TerminalEvent.commandId ++
      ((storage.latestCommandForSession sessionId).map CommandInfo.id).toList).dedup ⊆
      (ys.filterMap TerminalEvent.commandId ++
        ((storage.latestCommandForSession sessionId).map CommandInfo.id).toList).dedup := by
    intro id hid
    rw [List.mem_dedup, List.mem_append] at hid ⊢
    refine hid.imp_left fun hid => ?_
    obtain ⟨event, hevent, hid⟩ := List.mem_filterMap.mp hid
    exact List.mem_filterMap.mpr ⟨event, h hevent, hid⟩
  have hsort (ids : List String) : (ids.insertionSort fun a b => a ≤ b).Perm ids :=
    List.perm_insertionSort _ ids
  obtain ⟨ids, hperm, hsub⟩ := ((hsort _).subperm.trans
    (List.subperm_of_subset (List.nodup_dedup _) hids)).trans (hsort _).symm.subperm
  exact ⟨ids.filterMap storage.command, hperm.filterMap _, hsub.filterMap _⟩

section Answers

variable (timeText : DateTime → String)

/-- What a poll's answer takes besides the events and the cursor. -/
def pollEnvelope (requestId : Nat) (command : CommandInfo) (readable : Readable)
    (runtime : Option SessionRuntime) (after : Nat) (timedOut : Bool) (started now : Now) : Nat :=
  envelope timeText requestId (some command)
    (pollWarnings ⟨command, readable.rows ++ readable.live, false, runtime⟩ after)
    (progressFor command runtime timedOut (elapsedSeconds started.instant now.instant) now)

/-- Every batch after the poll's cursor fits the frame, with the command's text. -/
def PollFits (command : CommandInfo) (storage : Storage) (sessions : List SessionRuntime)
    (requestId : Nat) (commandId : String) (after maxBytes : Nat) (timedOut : Bool)
    (started now : Now) : Prop :=
  let readable := storage.readable .commandId commandId (liveEvents sessions command.sessionId)
    after (some commandId)
  ∀ events, readable.Batch (readLimit maxBytes) events →
    pollEnvelope timeText requestId command readable (findRuntime sessions command.sessionId) after
      timedOut started now + batchSize timeText (fun _ => []) after events ≤ maxFrameBytes

/-- Every batch after the reader's cursor fits the frame, with the texts of the commands
that it mentions. -/
def ShellFits (storage listed : Storage) (sessions : List SessionRuntime) (requestId : Nat)
    (sessionId : String) (after maxBytes : Nat) (timedOut : Bool) (started now : Now) : Prop :=
  let readable := storage.readable .sessionId sessionId (liveEvents sessions sessionId) after none
  ∀ events, readable.Batch (readLimit maxBytes) events →
    envelope timeText requestId none []
        (shellProgress timedOut started now (findRuntime sessions sessionId)) +
      batchSize timeText (shellCommands listed sessionId) after events ≤ maxFrameBytes

variable {timeText}

theorem poll_answered_iff {command : CommandInfo} {storage : Storage}
    {sessions : List SessionRuntime} {requestId : Nat} {commandId : String} {after maxBytes : Nat}
    {timedOut : Bool} {started now : Now} :
    Answered timeText requestId (respondPoll (finishPoll
        (readLivePage sessions command
          (storage.eventsForCommand commandId after (readLimit maxBytes)) commandId after
          (readLimit maxBytes)) after timedOut started now) after) ↔
      PollFits timeText command storage sessions requestId commandId after maxBytes timedOut
        started now := by
  obtain ⟨hcommand, hruntime⟩ := readLivePage_same sessions command
    (storage.eventsForCommand commandId after (readLimit maxBytes)) commandId after
    (readLimit maxBytes)
  have hevents := readLivePage_events sessions command storage commandId after (readLimit maxBytes)
  have hempty := appendLive_isEmpty storage .commandId commandId after (readLimit maxBytes)
    (liveEvents sessions command.sessionId) (some commandId)
  rw [answered_iff, responseSize_eq]
  simp only [respondPoll, finishPoll, eventsResponse_nextSequence]
  simp only [eventsResponse, pollWarnings, hcommand, hruntime, hevents, hempty]
  exact page_fits_iff fun _ _ _ => List.Subperm.refl []

theorem shell_answered_iff {storage listed : Storage} {sessions : List SessionRuntime}
    {requestId : Nat} {sessionId : String} {after maxBytes : Nat} {timedOut : Bool}
    {started now : Now} :
    let page := readLiveShell sessions
      (storage.eventsForSession sessionId after (readLimit maxBytes)) sessionId after
      (readLimit maxBytes)
    Answered timeText requestId (respondShell ⟨shellCommands listed sessionId page.1, page.1,
        page.2, shellProgress timedOut started now (findRuntime sessions sessionId)⟩ after) ↔
      ShellFits timeText storage listed sessions requestId sessionId after maxBytes timedOut
        started now := by
  intro page
  have hevents := readLiveShell_events sessions storage sessionId after (readLimit maxBytes)
  rw [answered_iff, responseSize_eq]
  simp only [respondShell, eventsResponse_nextSequence]
  simp only [eventsResponse, page, hevents]
  exact page_fits_iff (shellCommands_subperm listed sessionId)

end Answers

inductive ReadRequest
  | commandPoll (commandId : String) (after maxBytes : Nat)
  | shellRead (sessionId : String) (after maxBytes : Nat)
  deriving DecidableEq, Repr

/-- A session at work, and the reads that clients send meanwhile. -/
inductive ServedMove
  | call (call : SessionCall)
  | read (requestId : Nat) (request : ReadRequest) (timedOut : Bool) (started now : Now)

def sessionNotFound (id : String) : ErrorPayload :=
  .new "SESSION_NOT_FOUND" ("session " ++ debugText id ++ " does not exist")

namespace Session

/-- The session has a runtime or a row. -/
def knows (s : Session) (sessionId : String) : Bool :=
  (findRuntime [s.runtime] sessionId).isSome || (s.storage.session sessionId).isSome

/-- The page that a read is answered with, whether it has waited or not. -/
def respond (s : Session) (timedOut : Bool) (started now : Now) :
    ReadRequest → Except ErrorPayload EventsData
  | .commandPoll commandId after maxBytes => do
      let page ← readCommandPage s.storage [s.runtime] commandId after (readLimit maxBytes)
      return respondPoll (finishPoll page after timedOut started now) after
  | .shellRead sessionId after maxBytes =>
      if s.knows sessionId then
        let page := readLiveShell [s.runtime]
          (s.storage.eventsForSession sessionId after (readLimit maxBytes)) sessionId after
          (readLimit maxBytes)
        .ok (respondShell ⟨shellCommands s.storage sessionId page.1, page.1, page.2,
          shellProgress timedOut started now (findRuntime [s.runtime] sessionId)⟩ after)
      else
        .error (sessionNotFound sessionId)

def serve (s : Session) : ServedMove → Option Session
  | .call call => s.step call
  | .read _ _ _ _ _ => some s

def serving : Machine Session ServedMove := ⟨serve⟩

theorem serving_step (s : Session) (move : ServedMove) : serving.step s move = s.serve move := rfl

/-- A read that finds a page is answered with it. -/
def AnswersRead (timeText : DateTime → String) (s : Session) : ServedMove → Prop
  | .call _ => True
  | .read requestId request timedOut started now => ∀ data,
      s.respond timedOut started now request = .ok data → Answered timeText requestId data

/-- Every batch that a read can be answered with fits the frame. -/
def ReadFits (timeText : DateTime → String) (s : Session) : ServedMove → Prop
  | .call _ => True
  | .read requestId (.commandPoll commandId after maxBytes) timedOut started now =>
      ∀ command, s.storage.db.command commandId = some command →
        PollFits timeText command s.storage [s.runtime] requestId commandId after maxBytes timedOut
          started now
  | .read requestId (.shellRead sessionId after maxBytes) timedOut started now =>
      s.knows sessionId = true → ShellFits timeText s.storage s.storage [s.runtime] requestId
        sessionId after maxBytes timedOut started now

variable {timeText : DateTime → String} {s : Session} {move : ServedMove}

theorem answersRead_iff : s.AnswersRead timeText move ↔ s.ReadFits timeText move := by
  cases move with
  | call call => exact Iff.rfl
  | read requestId request timedOut started now =>
      cases request with
      | commandPoll commandId after maxBytes =>
          simp only [AnswersRead, ReadFits, respond, readCommandPage]
          cases hcommand : s.storage.db.command commandId with
          | none =>
              have hload : loadCommand s.storage commandId =
                  .error (.new "COMMAND_NOT_FOUND"
                    ("command " ++ debugText commandId ++ " does not exist")) := by
                simp [loadCommand, Storage.command, hcommand]
              simp [hload, Bind.bind, Except.bind]
          | some command =>
              rw [loadCommand_ok.mpr hcommand]
              simpa [Bind.bind, Except.bind, Pure.pure, Except.pure] using poll_answered_iff
      | shellRead sessionId after maxBytes =>
          simp only [AnswersRead, ReadFits, respond]
          cases s.knows sessionId with
          | false => simp
          | true => simpa using shell_answered_iff

/-- In every run of a session all reads are answered exactly when every batch of events
they can be answered with fits the frame. -/
theorem reads_answered_iff (timeText : DateTime → String) (s : Session)
    (moves : List ServedMove) :
    serving.Meets (AnswersRead timeText) s moves ↔ serving.Meets (ReadFits timeText) s moves :=
  serving.meets_congr fun _ _ => answersRead_iff

/-- A PTY's output after the store is full: `n` events of one byte in the live tail. -/
structure Flooded (n : Nat) (s : Session) : Prop where
  id : s.runtime.sessionId = "s"
  limit : s.storage.recordingLimitBytes = 1048576
  full : ∃ row, s.storage.db.session "s" = some row ∧ row.recordedBytes = 1048576
  rows : ∀ event ∈ s.storage.db.events, event.sequence ≤ 1
  drawn : 1 ≤ s.runtime.sequence
  count : s.runtime.liveEvents.length = n
  bytes : payloadBytes s.runtime.liveEvents = n
  unread : ∀ event ∈ s.runtime.liveEvents, 1 < event.sequence

/-- One more byte from the PTY. -/
def ptyByte : ServedMove := .call (.record none .pty [0] ⟨0, 0⟩)

theorem Flooded.record {n : Nat} (h : Flooded n s) (hn : n + 1 ≤ liveTailBytes) :
    let event := { s.runtime.nextEvent none .pty [0] ⟨0, 0⟩ with persisted := false }
    AiSsh.record s.storage s.runtime none .pty [0] ⟨0, 0⟩ =
      ⟨.ok (), event, [], s.storage.rejectEvent (s.runtime.nextEvent none .pty [0] ⟨0, 0⟩),
        (((s.runtime.drawSequence ⟨0, 0⟩).keepLive event).announce ⟨0, 0⟩)⟩ ∧
      ((s.runtime.drawSequence ⟨0, 0⟩).keepLive event).liveEvents =
        s.runtime.liveEvents ++ [event] := by
  intro event
  obtain ⟨row, hrow, hbytes⟩ := h.full
  have happend : s.storage.appendEvent (s.runtime.nextEvent none .pty [0] ⟨0, 0⟩) =
      ⟨.ok (), event, s.storage.rejectEvent (s.runtime.nextEvent none .pty [0] ⟨0, 0⟩)⟩ := by
    have hsession : s.storage.db.session
        (s.runtime.nextEvent none .pty [0] ⟨0, 0⟩).sessionId = some row := by
      rw [← hrow, ← h.id]
      rfl
    have hover : saturatingAdd row.recordedBytes [(0 : UInt8)].length >
        s.storage.recordingLimitBytes := by
      rw [hbytes, h.limit]
      decide
    rw [Storage.appendEvent, hsession]
    exact if_pos hover
  have hoverflow : (s.runtime.drawSequence ⟨0, 0⟩).overflow event =
      (s.runtime.liveEvents ++ [event], []) := by
    refine popOverflow_of_le ?_ _
    have hsize : payloadBytes (s.runtime.liveEvents ++ [event]) = n + 1 := by
      rw [payloadBytes, total_append, ← payloadBytes, h.bytes]
      rfl
    exact hsize ▸ hn
  refine ⟨?_, congrArg Prod.fst hoverflow⟩
  rw [AiSsh.record, happend]
  simp only [event, Bool.false_eq_true, if_false]
  rw [hoverflow]

theorem Flooded.step {n : Nat} (h : Flooded n s) (hn : n + 1 ≤ liveTailBytes) :
    ∃ s', s.serve ptyByte = some s' ∧ Flooded (n + 1) s' := by
  obtain ⟨hrecord, hlive⟩ := h.record hn
  have hstep : s.serve ptyByte = s.stepRecord none .pty [0] ⟨0, 0⟩ := rfl
  rw [stepRecord, hrecord] at hstep
  refine ⟨_, hstep, ?_⟩
  obtain ⟨row, hrow, hbytes⟩ := h.full
  refine ⟨h.id, h.limit, ?_, ?_, ?_, ?_, ?_, ?_⟩
  · have hsession := s.storage.rejectEvent_session (s.runtime.nextEvent none .pty [0] ⟨0, 0⟩) "s"
    rw [hrow] at hsession
    refine ⟨_, hsession, ?_⟩
    dsimp only
    split
    · exact hbytes
    · exact hbytes
  · intro event hevent
    exact h.rows event hevent
  · exact h.drawn.trans (Nat.le_succ _)
  · show ((s.runtime.drawSequence ⟨0, 0⟩).keepLive _).liveEvents.length = _
    rw [hlive, List.length_append, h.count]
    rfl
  · show payloadBytes ((s.runtime.drawSequence ⟨0, 0⟩).keepLive _).liveEvents = _
    rw [hlive, payloadBytes, total_append, ← payloadBytes, h.bytes]
    rfl
  · show ∀ event ∈ ((s.runtime.drawSequence ⟨0, 0⟩).keepLive _).liveEvents, 1 < event.sequence
    rw [hlive]
    intro event hevent
    cases List.mem_append.mp hevent with
    | inl hevent => exact h.unread event hevent
    | inr hevent =>
        rw [List.mem_singleton.mp hevent]
        exact Nat.lt_succ_of_le h.drawn

theorem Flooded.run {n : Nat} (h : Flooded n s) (k : Nat) (hk : n + k ≤ liveTailBytes) :
    ∃ t, serving.run s (List.replicate k ptyByte) = some t ∧ Flooded (n + k) t := by
  induction k generalizing s n with
  | zero => exact ⟨s, rfl, h⟩
  | succ k ih =>
      obtain ⟨s', hstep, h'⟩ := h.step (by omega)
      obtain ⟨t, hrun, ht⟩ := ih h' (by omega)
      refine ⟨t, serving.run_cons_some.mpr ⟨s', hstep, hrun⟩, ?_⟩
      rw [show n + (k + 1) = n + 1 + k by omega]
      exact ht

/-- Enough events of one byte do not fit a frame, whatever bytes the reader asks for. -/
theorem Flooded.not_answered {n : Nat} (h : Flooded n s) (hfew : n ≤ 1048576)
    (hmany : maxFrameBytes < n * 75) (timeText : DateTime → String) :
    ¬s.ReadFits timeText (.read 1 (.shellRead "s" 1 1048576) false ⟨0, 0⟩ ⟨0, 0⟩) := by
  intro hfits
  have hruntime : findRuntime [s.runtime] "s" = some s.runtime :=
    findRuntime_singleton.mpr ⟨rfl, h.id⟩
  have hlive : liveEvents [s.runtime] "s" = s.runtime.liveEvents := by
    rw [liveEvents, hruntime]
    rfl
  have hknows : s.knows "s" = true := by simp [knows, hruntime]
  have hrows : s.storage.eventRows .sessionId "s" 1 = [] := by
    refine List.eq_nil_iff_forall_not_mem.mpr fun event hevent => ?_
    obtain ⟨hmem, -, hunread⟩ := Storage.mem_eventRows.mp hevent
    exact Nat.not_lt.mpr (h.rows event hmem) hunread
  have htail : s.runtime.liveEvents.filter (liveSelects 1 none) = s.runtime.liveEvents := by
    refine List.filter_eq_self.mpr fun event hevent => ?_
    simpa [liveSelects] using h.unread event hevent
  have hbatch : (s.storage.readable .sessionId "s" (liveEvents [s.runtime] "s") 1 none).Batch
      (readLimit 1048576) s.runtime.liveEvents := by
    rw [Storage.readable, hlive, hrows, htail]
    refine ⟨List.prefix_rfl, .inr ?_, .inr (Nat.zero_le _)⟩
    rw [h.bytes]
    exact hfew
  have hsize := hfits hknows _ hbatch
  have hcount : (sortByKey TerminalEvent.sequence s.runtime.liveEvents).length = n :=
    (List.length_insertionSort _ _).trans h.count
  have hevents := MessagePack.mul_le_array
    fun (event : TerminalEvent) (_ : event ∈ sortByKey TerminalEvent.sequence
      s.runtime.liveEvents) => TerminalEvent.le_size timeText event
  rw [hcount] at hevents
  unfold batchSize pageSize at hsize
  dsimp only at hsize
  omega

def firstOutput : Bytes := List.replicate 1048576 0

/-- A PTY that has filled the store with its first output and then writes byte by byte. -/
def slowPty : List ServedMove :=
  .call (.record none .pty firstOutput ⟨0, 0⟩) :: List.replicate 120000 ptyByte

def slowSession : Session :=
  .created (.openWith .empty 1) (.created "s" "t" "t" "p" "m" ⟨0, 0⟩) ⟨0, 0⟩

/-- The first record fills the store up to its limit. -/
theorem slowSession_flooded {payload : Bytes} (hpayload : payload.length = 1048576) :
    ∃ s, slowSession.serve (.call (.record none .pty payload ⟨0, 0⟩)) = some s ∧
      Flooded 0 s := by
  let event := slowSession.runtime.nextEvent none .pty payload ⟨0, 0⟩
  let row : SessionRow := ⟨.created "s" "t" "t" "p" "m" ⟨0, 0⟩, 0⟩
  have hsession : slowSession.storage.db.session event.sessionId = some row := rfl
  have hfits : ¬saturatingAdd row.recordedBytes event.payload.length >
      slowSession.storage.recordingLimitBytes := by
    show ¬saturatingAdd 0 payload.length > _
    rw [hpayload]
    decide
  let db : Database := ⟨[row], [], [{ event with persisted := true }]⟩
  have hinsert : slowSession.storage.db.insertEvent event = .ok db := rfl
  have happend : slowSession.storage.appendEvent event = ⟨.ok (), { event with persisted := true },
      { slowSession.storage with db := Storage.countEvent db event }⟩ := by
    rw [Storage.appendEvent, hsession]
    simp only [if_neg hfits, hinsert]
  have hstep : slowSession.serve (.call (.record none .pty payload ⟨0, 0⟩)) =
      slowSession.stepRecord none .pty payload ⟨0, 0⟩ := rfl
  rw [stepRecord, AiSsh.record, happend] at hstep
  refine ⟨_, hstep, rfl, rfl, ⟨_, rfl, ?_⟩, ?_, Nat.le_refl 1, rfl, rfl, (fun _ h => by cases h)⟩
  · show 0 + payload.length = _
    rw [hpayload]
  · intro stored hstored
    have hstored : stored ∈ db.events := by
      rw [← Storage.countEvent_events db event]
      exact hstored
    rw [List.mem_singleton.mp hstored]
    exact Nat.le_refl 1

theorem slowPty_run : ∃ s, serving.run slowSession slowPty = some s ∧ Flooded 120000 s := by
  have hlength : firstOutput.length = 1048576 := List.length_replicate
  obtain ⟨s, hstep, hflooded⟩ := slowSession_flooded hlength
  have hfew : 0 + 120000 ≤ liveTailBytes := by
    rw [liveTailBytes]
    omega
  obtain ⟨t, hrun, ht⟩ := hflooded.run 120000 hfew
  rw [Nat.zero_add] at ht
  refine ⟨t, ?_, ht⟩
  rw [slowPty, serving.run_cons_some]
  exact ⟨s, (serving_step _ _).trans hstep, hrun⟩

/-- The page of 120000 bytes that a `ShellRead` for one mebibyte asks for does not go out. -/
theorem small_events_not_answered :
    ∃ t data, serving.run slowSession slowPty = some t ∧
      t.respond false ⟨0, 0⟩ ⟨0, 0⟩ (.shellRead "s" 1 1048576) = .ok data ∧
      ¬Answered (fun _ => "1970-01-01T00:00:00Z") 1 data := by
  obtain ⟨t, hrun, hflooded⟩ := slowPty_run
  have hmany : maxFrameBytes < 120000 * 75 := by
    rw [maxFrameBytes]
    omega
  have hnot := hflooded.not_answered (by omega) hmany fun _ => "1970-01-01T00:00:00Z"
  rw [← answersRead_iff, AnswersRead] at hnot
  obtain ⟨data, hnot⟩ := not_forall.mp hnot
  obtain ⟨hdata, hnot⟩ := Classical.not_imp.mp hnot
  exact ⟨t, data, hrun, hdata, hnot⟩

end Session
end AiSsh
