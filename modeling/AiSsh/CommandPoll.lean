import AiSsh.Recorders
import AiSsh.SessionPage

/-!
`command_poll` against the recorders of the session. The poll subscribes to the
announcements, reads the command's row, then the database page, then the live
tail, and either answers or blocks; a wake-up makes it read again, the end of its
budget makes it read once more and answer. The recorders move between any two of
these steps.
-/

namespace AiSsh

open Library

/-- The version a fresh receiver starts from. -/
def eventsReceiver (storage : Storage) (sessions : List SessionRuntime) (commandId : String) :
    Option Nat := do
  let command ← storage.command commandId
  let runtime ← findRuntime sessions command.sessionId
  return runtime.eventsTx

inductive PollPhase
  | subscribe
  | readRow
  | readEvents (command : CommandInfo)
  | readLive (command : CommandInfo) (events : List TerminalEvent) (more : Bool)
  | waiting
  | answered (response : Except ErrorPayload EventsData)

/-- Answered with a page that completes the command. -/
def PollPhase.complete : PollPhase → Bool
  | .answered response => response.toOption.any EventsData.deliveryComplete
  | _ => false

/-- `receiver` is the version the receiver has seen; `expired` marks the last read. -/
structure Poll where
  commandId : String
  after : Nat
  limit : Nat
  budget : Nat
  started : Now
  receiver : Option Nat
  expired : Bool
  phase : PollPhase

inductive PollStep
  | advance (now : Now)
  | changed
  | expire

namespace Poll

def start (commandId : String) (after maxBytes waitSeconds : Nat) (now : Now) : Poll where
  commandId := commandId
  after := after
  limit := readLimit maxBytes
  budget := min waitSeconds maxWaitSeconds
  started := now
  receiver := none
  expired := false
  phase := .subscribe

def answer (p : Poll) (page : CommandPage) (timedOut : Bool) (now : Now) : Poll :=
  { p with phase := .answered (.ok
      (respondPoll (finishPoll page p.after timedOut p.started now) p.after)) }

/-- What the loop does with a page: answer, or block on the receiver. -/
def decide (p : Poll) (page : CommandPage) (now : Now) : Poll :=
  if p.expired then
    p.answer page true now
  else if !page.quiet || p.budget == 0 then
    p.answer page false now
  else
    match p.receiver with
    | none => p.answer page true now
    | some _ => { p with phase := .waiting }

def advance (s : Recorders) (p : Poll) (now : Now) : Option Poll :=
  match p.phase with
  | .subscribe => some
      { p with receiver := eventsReceiver s.storage [s.runtime] p.commandId, phase := .readRow }
  | .readRow =>
      match loadCommand s.storage p.commandId with
      | .error error => some { p with phase := .answered (.error error) }
      | .ok command => some { p with phase := .readEvents command }
  | .readEvents command =>
      let (events, more) := s.storage.eventsForCommand p.commandId p.after p.limit
      some { p with phase := .readLive command events more }
  | .readLive command events more =>
      some (p.decide
        (readLivePage [s.runtime] command (events, more) p.commandId p.after p.limit) now)
  | .waiting | .answered _ => none

/-- A blocked poll wakes when the version differs from the one it has seen. -/
def changed (s : Recorders) (p : Poll) : Option Poll :=
  match p.phase, p.receiver with
  | .waiting, some seen =>
      if seen ≠ s.runtime.eventsTx then
        some { p with receiver := some s.runtime.eventsTx, phase := .readRow }
      else
        none
  | _, _ => none

def look (s : Recorders) (p : Poll) : PollStep → Option Poll
  | .advance now => p.advance s now
  | .changed => p.changed s
  | .expire =>
      match p.phase with
      | .waiting => some { p with expired := true, phase := .readRow }
      | _ => none

end Poll

/-- The recorders and one poll, in any interleaving. -/
def pollMachine : Machine (Recorders × Poll) (RecorderStep ⊕ PollStep) :=
  Recorders.machine.observed Poll.look

/-! What the recorders can change between two reads. -/

namespace Recorders

/-- The session a command's row belongs to, and its status. -/
def RowIs (s : Recorders) (id sessionId : String) (status : CommandStatus → Prop) : Prop :=
  ∃ row, s.storage.db.command id = some row ∧ row.sessionId = sessionId ∧ status row.status

/-- Nothing is announced beyond `seen`, and nothing written is unannounced. -/
structure Calm (s : Recorders) (seen : Nat) : Prop where
  version : s.runtime.eventsTx = seen
  announced : ∀ recorder ∈ s.tasks, recorder.announcing = false

theorem Steps.version_le {s s' : Recorders} {move : RecorderStep} (h : Steps s move s') :
    s.runtime.eventsTx ≤ s'.runtime.eventsTx := by
  cases h with
  | announce htasks | wake htasks _ => exact Nat.le_succ _
  | startExec _ | openPty | draw _ | reject _ | accept _ _ | keep _ | update _ _ =>
      exact Nat.le_refl _

/-- Every step leaves the rows where they are, whatever it does to their status. -/
theorem Steps.row {s s' : Recorders} {move : RecorderStep} (h : Steps s move s') {id : String}
    {row : CommandInfo} (hrow : s.storage.db.command id = some row) :
    ∃ row', s'.storage.db.command id = some row' ∧ row'.sessionId = row.sessionId := by
  have hmap {set : CommandInfo → CommandInfo}
      (hcommand : s'.storage.db.command id = (s.storage.db.command id).map set)
      (hset : (set row).sessionId = row.sessionId) :
      ∃ row', s'.storage.db.command id = some row' ∧ row'.sessionId = row.sessionId :=
    ⟨set row, by rw [hcommand, hrow, Option.map_some], hset⟩
  cases h with
  | startExec hinsert =>
      refine ⟨row, (Storage.insertCommand_command hinsert id).trans ?_, rfl⟩
      rw [if_neg, hrow]
      rintro rfl
      exact absurd ((Storage.insertCommand_ok hinsert).1.symm.trans hrow) nofun
  | reject _ => exact hmap (Storage.rejectEvent_command _ _ id) (by split <;> rfl)
  | accept _ hinsert => exact hmap (Storage.acceptEvent_command hinsert id) (by split <;> rfl)
  | update _ _ => exact hmap (Storage.updateCommand_command _ _ id) (by split <;> rfl)
  | openPty | draw _ | keep _ | announce _ | wake _ _ => exact ⟨row, hrow, rfl⟩

/-- A step into a calm state came from a calm state and changed nothing a poll
can read. -/
theorem Steps.calm_back {s s' : Recorders} {move : RecorderStep} (h : Steps s move s')
    {seen : Nat} (hle : seen ≤ s.runtime.eventsTx) (hcalm : Calm s' seen) :
    Calm s seen ∧ s'.storage.db.events = s.storage.db.events ∧
      s'.runtime.liveEvents = s.runtime.liveEvents ∧
      ∀ {id sessionId status}, RowIs s id sessionId status → RowIs s' id sessionId status := by
  have hquiet {pre post : List Recorder} {recorder other : Recorder}
      (htasks : s.tasks = pre ++ recorder :: post) (htasks' : s'.tasks = pre ++ other :: post)
      (hrecorder : recorder.announcing = false) :
      ∀ r ∈ s.tasks, r.announcing = false := by
    intro r hr
    rw [htasks] at hr
    rcases mem_middle.mp hr with rfl | hr
    · exact hrecorder
    · exact hcalm.announced r (htasks' ▸ mem_middle.mpr (.inr hr))
  have hnever {pre post : List Recorder} {other : Recorder}
      (htasks' : s'.tasks = pre ++ other :: post) (hother : other.announcing = true) : False := by
    have := hcalm.announced other (htasks' ▸ mem_middle.mpr (.inl rfl))
    simp [hother] at this
  have hkept (hkeeps : s.storage.KeepsCommands s'.storage) :
      ∀ {id sessionId status}, RowIs s id sessionId status → RowIs s' id sessionId status := by
    intro id sessionId status
    exact hkeeps.row fun owner value => owner = sessionId ∧ status value
  cases h with
  | @startExec id command now storage hinsert =>
      refine ⟨⟨hcalm.version, fun r hr => hcalm.announced r (List.mem_append_left _ hr)⟩, ?_, rfl,
        ?_⟩
      · obtain ⟨-, -, rfl⟩ := Storage.insertCommand_ok hinsert
        rfl
      · rintro c sessionId status ⟨row, hrow, hr⟩
        refine ⟨row, (Storage.insertCommand_command hinsert c).trans ?_, hr⟩
        rw [if_neg, hrow]
        rintro rfl
        exact absurd ((Storage.insertCommand_ok hinsert).1.symm.trans hrow) nofun
  | openPty =>
      exact ⟨⟨hcalm.version, fun r hr => hcalm.announced r (List.mem_append_left _ hr)⟩, rfl, rfl,
        id⟩
  | draw htasks => exact ⟨⟨hcalm.version, hquiet htasks rfl rfl⟩, rfl, rfl, id⟩
  | reject htasks =>
      exact ⟨⟨hcalm.version, hquiet htasks rfl rfl⟩, Storage.rejectEvent_events _ _, rfl,
        hkept (Storage.rejectEvent_keeps _ _)⟩
  | accept _ _ | keep _ | update _ _ => exact (hnever rfl rfl).elim
  | announce _ | wake _ _ =>
      have hversion := hcalm.version
      simp only [SessionRuntime.announce] at hversion
      omega

end Recorders

/-! No wake-up is lost. -/

namespace Poll

/-- What a poll that found nothing so far knows, as long as the session is calm. -/
def Quiet (s : Recorders) (p : Poll) : Prop :=
  let running := s.RowIs p.commandId s.runtime.sessionId (· = .running)
  let noRows := s.storage.eventRows .commandId p.commandId p.after = []
  let noLive := s.runtime.liveEvents.filter (liveSelects p.after (some p.commandId)) = []
  match p.phase with
  | .readEvents command => command.status = .running → running
  | .readLive command events more =>
      command.status = .running → events = [] → more = false → running ∧ noRows
  | .waiting => running ∧ noRows ∧ noLive
  | .subscribe | .readRow | .answered _ => True

/-- What holds of a poll that has a receiver. -/
structure Subscribed (s : Recorders) (p : Poll) (seen : Nat) : Prop where
  version : seen ≤ s.runtime.eventsTx
  row : s.RowIs p.commandId s.runtime.sessionId fun _ => True
  command : match p.phase with
    | .readEvents command | .readLive command _ _ => command.sessionId = s.runtime.sessionId
    | .subscribe | .readRow | .waiting | .answered _ => True
  quiet : s.Calm seen → p.Quiet s

def Attentive (s : Recorders) (p : Poll) : Prop :=
  ∀ seen, p.receiver = some seen → p.Subscribed s seen

theorem Attentive.move {s s' : Recorders} {p : Poll} (h : Attentive s p) {move : RecorderStep}
    (hstep : Recorders.Steps s move s') : Attentive s' p := by
  intro seen hseen
  obtain ⟨hversion, ⟨row, hrow, hown, -⟩, hcommand, hquiet⟩ := h seen hseen
  obtain ⟨row', hrow', hown'⟩ := hstep.row hrow
  have hid : s'.runtime.sessionId = s.runtime.sessionId := by cases hstep <;> rfl
  refine ⟨Nat.le_trans hversion hstep.version_le, ⟨row', hrow', hid ▸ hown'.trans hown, trivial⟩,
    hid ▸ hcommand, ?_⟩
  intro hcalm
  obtain ⟨hcalm', hevents, hlive, hrows⟩ := hstep.calm_back hversion hcalm
  have hq := hquiet hcalm'
  have heventRows : s'.storage.eventRows .commandId p.commandId p.after =
      s.storage.eventRows .commandId p.commandId p.after := by
    simp only [Storage.eventRows, hevents]
  rw [Quiet] at hq ⊢
  rw [hid, heventRows, hlive]
  cases hphase : p.phase with
  | subscribe | readRow | answered _ => trivial
  | readEvents command =>
      simp only [hphase] at hq
      exact fun hrunning => hrows (hq hrunning)
  | readLive command events more =>
      simp only [hphase] at hq
      exact fun hrunning he hm => ⟨hrows (hq hrunning he hm).1, (hq hrunning he hm).2⟩
  | waiting =>
      simp only [hphase] at hq
      exact ⟨hrows hq.1, hq.2⟩

/-- The page a poll blocks on is quiet. -/
theorem decide_waiting {p : Poll} {page : CommandPage} {now : Now}
    (h : (p.decide page now).phase = .waiting) : page.quiet = true := by
  rw [decide] at h
  split at h
  · cases h
  · split at h
    · cases h
    · rename_i hquiet
      simp only [Bool.or_eq_true, not_or, Bool.not_eq_true, Bool.not_eq_false'] at hquiet
      exact hquiet.1

theorem decide_cases (p : Poll) (page : CommandPage) (now : Now) :
    (∃ timedOut, p.decide page now = p.answer page timedOut now) ∨
      p.decide page now = { p with phase := .waiting } := by
  rw [decide]
  split
  · exact .inl ⟨_, rfl⟩
  · split
    · exact .inl ⟨_, rfl⟩
    · split
      · exact .inl ⟨_, rfl⟩
      · exact .inr rfl

theorem Attentive.look {s : Recorders} {p p' : Poll} (h : Attentive s p) {step : PollStep}
    (hlook : p.look s step = some p') : Attentive s p' := by
  cases step with
  | advance now =>
      simp only [Poll.look, advance] at hlook
      cases hphase : p.phase with
      | waiting | answered _ => simp [hphase] at hlook
      | subscribe =>
          simp only [hphase, Option.some.injEq] at hlook
          subst hlook
          intro seen hseen
          simp only [eventsReceiver, Option.bind_eq_bind, Option.bind_eq_some_iff] at hseen
          obtain ⟨row, hrow, runtime, hruntime, hversion⟩ := hseen
          obtain ⟨rfl, hown⟩ := findRuntime_singleton.mp hruntime
          cases hversion
          exact ⟨Nat.le_refl _, ⟨row, hrow, hown.symm, trivial⟩, trivial, fun _ => trivial⟩
      | readRow =>
          simp only [hphase] at hlook
          cases hload : loadCommand s.storage p.commandId with
          | error error =>
              simp only [hload, Option.some.injEq] at hlook
              subst hlook
              intro seen hseen
              obtain ⟨hversion, hrow, -, -⟩ := h seen hseen
              exact ⟨hversion, hrow, trivial, fun _ => trivial⟩
          | ok command =>
              simp only [hload, Option.some.injEq] at hlook
              subst hlook
              intro seen hseen
              obtain ⟨hversion, ⟨row, hrow, hown, -⟩, -, -⟩ := h seen hseen
              have hcommand := loadCommand_ok.mp hload
              obtain rfl : row = command := Option.some.inj (hrow.symm.trans hcommand)
              exact ⟨hversion, ⟨row, hrow, hown, trivial⟩, hown,
                fun _ hrunning => ⟨row, hrow, hown, hrunning⟩⟩
      | readEvents command =>
          simp only [hphase, Option.some.injEq] at hlook
          subst hlook
          intro seen hseen
          obtain ⟨hversion, hrow, hcommand, hquiet⟩ := h seen hseen
          simp only [hphase] at hcommand
          refine ⟨hversion, hrow, hcommand, fun hcalm hrunning hevents hmore => ?_⟩
          have hq := hquiet hcalm
          simp only [Quiet, hphase] at hq
          exact ⟨hq hrunning, (Storage.events_all hmore).symm.trans hevents⟩
      | readLive command events more =>
          simp only [hphase, Option.some.injEq] at hlook
          intro seen hseen
          rcases p.decide_cases (readLivePage [s.runtime] command (events, more) p.commandId
              p.after p.limit) now with ⟨timedOut, hanswer⟩ | hwait
          · rw [hanswer] at hlook
            subst hlook
            obtain ⟨hversion, hrow, -, -⟩ := h seen hseen
            exact ⟨hversion, hrow, trivial, fun _ => trivial⟩
          · have hpage := decide_waiting (congrArg Poll.phase hwait)
            rw [hwait] at hlook
            subst hlook
            obtain ⟨hversion, hrow, hcommand, hquiet⟩ := h seen hseen
            simp only [hphase] at hcommand
            refine ⟨hversion, hrow, trivial, fun hcalm => ?_⟩
            have hq := hquiet hcalm
            simp only [Quiet, hphase] at hq
            rw [readLivePage_own hcommand] at hpage
            simp only [CommandPage.quiet, Bool.and_eq_true, List.isEmpty_iff,
              Bool.not_eq_true', beq_iff_eq] at hpage
            obtain ⟨⟨hevents, hmore⟩, hrunning⟩ := hpage
            obtain ⟨he, hm, hlive⟩ := appendLive_empty hevents hmore
            exact ⟨(hq hrunning he hm).1, (hq hrunning he hm).2, hlive⟩
  | changed =>
      simp only [Poll.look, Poll.changed] at hlook
      split at hlook
      · rename_i seen _ hreceiver
        split at hlook
        · cases hlook
          obtain ⟨-, hrow, -, -⟩ := h seen hreceiver
          rintro _ ⟨⟩
          exact ⟨Nat.le_refl _, hrow, trivial, fun _ => trivial⟩
        · cases hlook
      · cases hlook
  | expire =>
      simp only [Poll.look] at hlook
      split at hlook
      · cases hlook
        intro seen hseen
        obtain ⟨hversion, hrow, -, -⟩ := h seen hseen
        exact ⟨hversion, hrow, trivial, fun _ => trivial⟩
      · cases hlook

/-- While the poll is blocked with its receiver up to date and every write
announced, the page for its cursor is quiet. -/
theorem blocked_poll_is_quiet {db : Database} {limit : Nat} {info : SessionInfo} {now : Now}
    {commandId : String} {after maxBytes waitSeconds : Nat} {started : Now}
    {moves : List (RecorderStep ⊕ PollStep)} {s : Recorders} {p : Poll}
    (hrun : pollMachine.run
      (.created ⟨db, limit⟩ info now, .start commandId after maxBytes waitSeconds started) moves =
        some (s, p))
    (hblocked : p.phase = .waiting) (hseen : p.receiver = some s.runtime.eventsTx)
    (hannounced : ∀ recorder ∈ s.tasks, recorder.announcing = false) :
    s.RowIs p.commandId s.runtime.sessionId (· = .running) ∧
    (∀ event ∈ s.storage.db.events, event.commandId = some p.commandId →
      event.sequence ≤ p.after) ∧
    ∀ event ∈ s.runtime.liveEvents, event.commandId = some p.commandId →
      event.sequence ≤ p.after := by
  have hattentive : Attentive s p :=
    Recorders.machine.observed_invariant look
      (fun _ _ _ _ h hstep => h.move (Recorders.steps_of_step hstep))
      (fun _ _ _ _ h hlook => h.look hlook) (p := (_, .start commandId after maxBytes waitSeconds
        started)) (I := fun s p => Attentive s p) (by rintro seen ⟨⟩) hrun
  have hq := (hattentive _ hseen).quiet ⟨rfl, hannounced⟩
  simp only [Quiet, hblocked] at hq
  obtain ⟨hrow, hrows, hlive⟩ := hq
  refine ⟨hrow, fun event he hc => ?_, fun event he hc => ?_⟩
  · by_contra hbeyond
    have hmem : event ∈ s.storage.eventRows .commandId p.commandId p.after :=
      Storage.mem_eventRows.mpr
        ⟨he, by simp [EventColumn.selects, hc], Nat.lt_of_not_le hbeyond⟩
    rw [hrows] at hmem
    contradiction
  · by_contra hbeyond
    have hmem := mem_liveSelects.mpr ⟨he, Nat.lt_of_not_le hbeyond,
      fun id hid => hc.trans hid⟩
    rw [hlive] at hmem
    contradiction

/-- One command with one line of output. -/
def oneLine : List (RecorderStep ⊕ PollStep) :=
  [.inl (.startExec "c" "ls" ⟨0, 0⟩), .inl (.draw 0 .stdout [1, 2] ⟨0, 0⟩), .inl (.append 0),
    .inl (.announce 0 ⟨0, 0⟩)]

/-- The four steps of a poll up to its answer or its wait. -/
def readOnce : List (RecorderStep ⊕ PollStep) := List.replicate 4 (.inr (.advance ⟨0, 0⟩))

def createdInfo : SessionInfo := .created "s" "t" "t" "p" "m" ⟨0, 0⟩

theorem blocked_poll_is_quiet_oneLine :
    ∃ s p, pollMachine.run
        (.created ⟨.empty, 4⟩ createdInfo ⟨0, 0⟩, .start "c" 1 10 5 ⟨0, 0⟩)
        (oneLine ++ readOnce) = some (s, p) ∧
      s.RowIs p.commandId s.runtime.sessionId (· = .running) := by
  have hall : ((pollMachine.run
      (.created ⟨.empty, 4⟩ createdInfo ⟨0, 0⟩, .start "c" 1 10 5 ⟨0, 0⟩)
      (oneLine ++ readOnce)).any fun q =>
        (match q.2.phase with
          | .waiting => true
          | _ => false) &&
        q.2.receiver == some q.1.runtime.eventsTx &&
        q.1.tasks.all fun recorder => !recorder.announcing) = true := by decide
  obtain ⟨⟨s, p⟩, hrun, hall⟩ := (Option.any_eq_true _ _).mp hall
  simp only [Bool.and_eq_true, beq_iff_eq, List.all_eq_true, Bool.not_eq_true'] at hall
  refine ⟨s, p, hrun, (blocked_poll_is_quiet hrun ?_ hall.1.2 hall.2).1⟩
  have hwaiting := hall.1.1
  split at hwaiting
  · assumption
  · contradiction

end Poll

/-! Completion is final. -/

namespace Recorders

/-- The command's row is terminal. -/
abbrev Settled (s : Recorders) (id sessionId : String) : Prop := s.RowIs id sessionId (· ≠ .running)

/-- No task of a settled command records any more. -/
theorem Settled.recording {s : Recorders} {id sessionId : String} (hs : Settled s id sessionId)
    (h : Wellformed s) {recorder : Recorder} (hr : recorder ∈ s.tasks)
    (hid : recorder.commandId = some id) : recorder.recording = false := by
  obtain ⟨row, hrow, -, hstatus⟩ := hs
  obtain ⟨row', hrow', -, hrunning⟩ := h.taskRow recorder hr id hid
  cases hrow.symm.trans hrow'
  cases hrec : recorder.recording with
  | false => rfl
  | true => exact absurd (hrunning hrec) hstatus

/-- No step changes the row or the readable events of a settled command, except
that the live tail may give some up. -/
theorem Steps.settled {s s' : Recorders} {move : RecorderStep} (hstep : Steps s move s')
    (h : Wellformed s) {id sessionId : String} (hs : Settled s id sessionId) :
    Settled s' id sessionId ∧
      (∀ event, event.commandId = some id →
        (event ∈ s'.storage.db.events ↔ event ∈ s.storage.db.events)) ∧
      (∀ after, s'.storage.eventRows .commandId id after =
        s.storage.eventRows .commandId id after) ∧
      ∀ event ∈ s'.runtime.liveEvents, event.commandId = some id →
        event ∈ s.runtime.liveEvents := by
  have hsame (hevents : s'.storage.db.events = s.storage.db.events) :
      (∀ event, event.commandId = some id →
        (event ∈ s'.storage.db.events ↔ event ∈ s.storage.db.events)) ∧
      ∀ after, s'.storage.eventRows .commandId id after =
        s.storage.eventRows .commandId id after :=
    ⟨fun _ _ => by rw [hevents], fun _ => by simp only [Storage.eventRows, hevents]⟩
  have hkept (hkeeps : s.storage.KeepsCommands s'.storage) : Settled s' id sessionId := by
    exact hkeeps.row (fun owner status => owner = sessionId ∧ status ≠ .running) hs
  -- a task that still records belongs to another command
  have hother {pre post : List Recorder} {recorder : Recorder}
      (htasks : s.tasks = pre ++ recorder :: post) (hrecording : recorder.recording = true) :
      recorder.commandId ≠ some id := by
    intro hid
    have := hs.recording h (htasks ▸ mem_middle.mpr (.inl rfl)) hid
    simp [hrecording] at this
  have hpending {pre post : List Recorder} {recorder : Recorder} {event : TerminalEvent}
      (htasks : s.tasks = pre ++ recorder :: post) (hrecording : recorder.recording = true)
      (hevent : recorder.pending = some event) : event.commandId ≠ some id := by
    rw [(h.pendingOwn recorder (htasks ▸ mem_middle.mpr (.inl rfl)) event hevent).2]
    exact hother htasks hrecording
  cases hstep with
  | @startExec c command now storage hinsert =>
      have hevents : storage.db.events = s.storage.db.events := by
        obtain ⟨-, -, rfl⟩ := Storage.insertCommand_ok hinsert
        rfl
      obtain ⟨row, hrow, hr⟩ := hs
      refine ⟨⟨row, (Storage.insertCommand_command hinsert id).trans ?_, hr⟩,
        (hsame hevents).1, (hsame hevents).2, fun _ he _ => he⟩
      rw [if_neg, hrow]
      rintro rfl
      exact absurd ((Storage.insertCommand_ok hinsert).1.symm.trans hrow)
        (Option.some_ne_none _).symm
  | openPty | draw _ | announce _ | wake _ _ =>
      exact ⟨hs, (hsame rfl).1, (hsame rfl).2, fun _ he _ => he⟩
  | reject _ =>
      have hevents := hsame (Storage.rejectEvent_events _ _)
      exact ⟨hkept (Storage.rejectEvent_keeps _ _), hevents.1, hevents.2, fun _ he _ => he⟩
  | @accept task command event db pre post htasks hinsert =>
      have hne := hpending htasks rfl rfl
      have hevents := Storage.acceptEvent_events hinsert
      refine ⟨hkept (Storage.acceptEvent_keeps hinsert), ?_, ?_, fun _ he _ => he⟩
      · intro e hc
        have hnew : e ≠ { event with persisted := true } := by
          rintro rfl
          exact hne hc
        simp [hevents, hnew]
      · intro after
        simp [Storage.eventRows, hevents, EventColumn.selects, hne]
  | @keep task command event pre post htasks =>
      have hne := hpending htasks rfl rfl
      refine ⟨hs, (hsame rfl).1, (hsame rfl).2, fun e he hc => ?_⟩
      rcases SessionRuntime.mem_keepLive he with hlive | rfl
      · exact hlive
      · exact absurd hc hne
  | @update task status exit now command outputBytes pre post htasks hstatus =>
      obtain ⟨row, hrow, hr⟩ := hs
      refine ⟨⟨row, ?_, hr⟩, (hsame rfl).1, (hsame rfl).2, fun _ he _ => he⟩
      rw [Storage.updateCommand_command, hrow, Option.map_some]
      refine congrArg some (if_neg fun hid => ?_)
      exact hother htasks rfl (congrArg some (hid.symm.trans (Database.command_id hrow)))

end Recorders

namespace Poll

/-- What a poll that has seen a terminal row knows. -/
def Final (s : Recorders) (p : Poll) : Prop :=
  match p.phase with
  | .readEvents command =>
      command.status ≠ .running → s.Settled p.commandId command.sessionId
  | .readLive command events more =>
      command.status ≠ .running → s.Settled p.commandId command.sessionId ∧
        (more = false → events = s.storage.eventRows .commandId p.commandId p.after)
  | .answered (.ok response) =>
      response.deliveryComplete = true →
        (∃ sessionId, s.Settled p.commandId sessionId) ∧
        (∀ event ∈ s.storage.db.events, event.commandId = some p.commandId →
          event.sequence ≤ response.nextSequence) ∧
        ∀ event ∈ s.runtime.liveEvents, event.commandId = some p.commandId →
          event.sequence ≤ response.nextSequence
  | .subscribe | .readRow | .waiting | .answered (.error _) => True

theorem Final.move {s s' : Recorders} {p : Poll} (hfinal : Final s p)
    (h : s.Wellformed) {move : RecorderStep} (hstep : Recorders.Steps s move s') :
    Final s' p := by
  rw [Final] at hfinal ⊢
  cases hphase : p.phase with
  | subscribe | readRow | waiting => trivial
  | readEvents command =>
      simp only [hphase] at hfinal
      exact fun hstatus => (hstep.settled h (hfinal hstatus)).1
  | readLive command events more =>
      simp only [hphase] at hfinal
      intro hstatus
      obtain ⟨hsettled, hrows⟩ := hfinal hstatus
      obtain ⟨hsettled', -, hrows', -⟩ := hstep.settled h hsettled
      exact ⟨hsettled', fun hmore => (hrows hmore).trans (hrows' p.after).symm⟩
  | answered response =>
      cases response with
      | error error => trivial
      | ok response =>
          simp only [hphase] at hfinal
          intro hcomplete
          obtain ⟨⟨sessionId, hsettled⟩, hstored, hlive⟩ := hfinal hcomplete
          obtain ⟨hsettled', hevents, -, hlive'⟩ := hstep.settled h hsettled
          exact ⟨⟨sessionId, hsettled'⟩,
            fun event he hc => hstored event ((hevents event hc).mp he) hc,
            fun event he hc => hlive event (hlive' event he hc) hc⟩

/-- A page without more that was read after the row had become terminal shows
every event that is left. -/
theorem Final.answer {s : Recorders} {p : Poll} (hfinal : Final s p) (h : s.Wellformed)
    {command : CommandInfo} {events : List TerminalEvent} {more : Bool}
    (hphase : p.phase = .readLive command events more) (timedOut : Bool) (now : Now) :
    Final s (p.answer (readLivePage [s.runtime] command (events, more) p.commandId p.after p.limit)
      timedOut now) := by
  simp only [Final, hphase] at hfinal
  by_cases hown : command.sessionId = s.runtime.sessionId
  · rw [readLivePage_own hown]
    simp only [Final, Poll.answer, respondPoll, finishPoll, eventsResponse_nextSequence]
    intro hcomplete
    simp only [eventsResponse, Option.any_some, Bool.and_eq_true, bne_iff_ne,
      Bool.not_eq_true'] at hcomplete
    obtain ⟨hstatus, hmore⟩ := hcomplete
    obtain ⟨hwhole, hpage⟩ := appendLive_all hmore
    obtain ⟨hsettled, hrows⟩ := hfinal hstatus
    rw [hpage, hrows hwhole]
    have hbeyond : p.after ≤ nextCursor TerminalEvent.sequence p.after
        (sortByKey TerminalEvent.sequence (s.storage.eventRows .commandId p.commandId p.after ++
          s.runtime.liveEvents.filter (liveSelects p.after (some p.commandId)))) := by
      apply cursor_le_nextCursor
      intro event he
      cases List.mem_append.mp ((mem_sortByKey _).mp he) with
      | inl hstored => exact (Storage.mem_eventRows.mp hstored).2.2
      | inr hlive => exact (mem_liveSelects.mp hlive).2.1
    refine ⟨⟨_, hsettled⟩, fun event he hc => ?_, fun event he hc => ?_⟩
    · by_cases hafter : p.after < event.sequence
      · apply le_nextCursor_sortByKey
        exact List.mem_append_left _ (Storage.mem_eventRows.mpr
          ⟨he, by simp [EventColumn.selects, hc], hafter⟩)
      · exact Nat.le_trans (Nat.le_of_not_lt hafter) hbeyond
    · by_cases hafter : p.after < event.sequence
      · apply le_nextCursor_sortByKey
        exact List.mem_append_right _ (mem_liveSelects.mpr ⟨he, hafter, fun _ hid => hc.trans hid⟩)
      · exact Nat.le_trans (Nat.le_of_not_lt hafter) hbeyond
  · have hnone : findRuntime [s.runtime] command.sessionId = none := by
      simp [findRuntime, Ne.symm hown]
    simp only [Final, Poll.answer, readLivePage, hnone, respondPoll, finishPoll,
      eventsResponse_nextSequence]
    intro hcomplete
    simp only [eventsResponse, Option.any_some, Bool.and_eq_true, bne_iff_ne,
      Bool.not_eq_true'] at hcomplete
    obtain ⟨hsettled, hrows⟩ := hfinal hcomplete.1
    rw [hrows hcomplete.2]
    refine ⟨⟨_, hsettled⟩, fun event he hc => ?_, fun event he hc => ?_⟩
    · by_cases hafter : p.after < event.sequence
      · exact le_nextCursor_sortByKey _ (List.mem_filter.mpr
          ⟨he, by simp [EventColumn.selects, hc, hafter]⟩)
      · refine Nat.le_trans (Nat.le_of_not_lt hafter) (cursor_le_nextCursor _ fun row hrow => ?_)
        exact (Storage.mem_eventRows.mp hrow).2.2
    · -- the live tail holds events of this session's commands only
      obtain ⟨row, hrow, hsession⟩ := h.liveOwn event he _ hc
      obtain ⟨row', hrow', hsession', -⟩ := hsettled
      cases hrow.symm.trans hrow'
      exact absurd (hsession'.symm.trans hsession) hown

theorem Final.look {s : Recorders} {p p' : Poll} (hfinal : Final s p) (h : s.Wellformed)
    {step : PollStep} (hlook : p.look s step = some p') : Final s p' := by
  cases step with
  | advance now =>
      simp only [Poll.look, advance] at hlook
      cases hphase : p.phase with
      | waiting | answered _ => simp [hphase] at hlook
      | subscribe =>
          simp only [hphase, Option.some.injEq] at hlook
          subst hlook
          trivial
      | readRow =>
          simp only [hphase] at hlook
          cases hload : loadCommand s.storage p.commandId with
          | error error =>
              simp only [hload, Option.some.injEq] at hlook
              subst hlook
              trivial
          | ok command =>
              simp only [hload, Option.some.injEq] at hlook
              subst hlook
              exact fun hstatus => ⟨command, loadCommand_ok.mp hload, rfl, hstatus⟩
      | readEvents command =>
          simp only [hphase, Option.some.injEq] at hlook
          subst hlook
          simp only [Final, hphase] at hfinal
          exact fun hstatus => ⟨hfinal hstatus, fun hmore => Storage.events_all hmore⟩
      | readLive command events more =>
          simp only [hphase, Option.some.injEq] at hlook
          rcases p.decide_cases (readLivePage [s.runtime] command (events, more) p.commandId
              p.after p.limit) now with ⟨timedOut, hanswer⟩ | hwait
          · rw [← hlook, hanswer]
            exact hfinal.answer h hphase timedOut now
          · rw [← hlook, hwait]
            trivial
  | changed =>
      simp only [Poll.look, Poll.changed] at hlook
      split at hlook
      · split at hlook
        · cases hlook
          trivial
        · cases hlook
      · cases hlook
  | expire =>
      simp only [Poll.look] at hlook
      split at hlook
      · cases hlook
        trivial
      · cases hlook

/-- From the moment a response says that delivery is complete, and in every later
state, no event of the command beyond its cursor is stored or live, and no task is
left that could record one. -/
theorem completion_is_final {db : Database} {limit : Nat} {info : SessionInfo} {now : Now}
    {commandId : String} {after maxBytes waitSeconds : Nat} {started : Now}
    {moves : List (RecorderStep ⊕ PollStep)} {s : Recorders} {p : Poll} {response : EventsData}
    (hschema : db.Schema)
    (hrun : pollMachine.run
      (.created ⟨db, limit⟩ info now, .start commandId after maxBytes waitSeconds started) moves =
        some (s, p))
    (hanswered : p.phase = .answered (.ok response))
    (hcomplete : response.deliveryComplete = true) :
    (∀ event ∈ s.storage.db.events, event.commandId = some p.commandId →
      event.sequence ≤ response.nextSequence) ∧
    (∀ event ∈ s.runtime.liveEvents, event.commandId = some p.commandId →
      event.sequence ≤ response.nextSequence) ∧
    ∀ recorder ∈ s.tasks, recorder.commandId = some p.commandId → recorder.recording = false := by
  have hinv : s.Wellformed ∧ Final s p :=
    Recorders.machine.observed_invariant Poll.look (I := fun s p => s.Wellformed ∧ Final s p)
      (fun _ _ _ _ h hstep =>
        ⟨h.1.steps (Recorders.steps_of_step hstep), h.2.move h.1 (Recorders.steps_of_step hstep)⟩)
      (fun _ _ _ _ h hlook => ⟨h.1, h.2.look h.1 hlook⟩)
      (p := (_, .start commandId after maxBytes waitSeconds started))
      ⟨Recorders.wellformed_created hschema, trivial⟩ hrun
  obtain ⟨hwell, hfinal⟩ := hinv
  simp only [Final, hanswered] at hfinal
  obtain ⟨⟨sessionId, hsettled⟩, hstored, hlive⟩ := hfinal hcomplete
  exact ⟨hstored, hlive, fun recorder hr hid => hsettled.recording hwell hr hid⟩

theorem completion_is_final_oneLine :
    ∃ s p response, pollMachine.run
        (.created ⟨.empty, 4⟩ createdInfo ⟨0, 0⟩, .start "c" 0 10 5 ⟨0, 0⟩)
        (oneLine ++ [.inl (.update 0 .completed (some 0) ⟨0, 0⟩), .inl (.wake 0)] ++ readOnce) =
          some (s, p) ∧
      p.phase = .answered (.ok response) ∧ response.deliveryComplete = true ∧
      ∀ event ∈ s.storage.db.events, event.commandId = some p.commandId →
        event.sequence ≤ response.nextSequence := by
  have hall : ((pollMachine.run
      (.created ⟨.empty, 4⟩ createdInfo ⟨0, 0⟩, .start "c" 0 10 5 ⟨0, 0⟩)
      (oneLine ++ [.inl (.update 0 .completed (some 0) ⟨0, 0⟩), .inl (.wake 0)] ++
        readOnce)).any fun q => q.2.phase.complete) = true := by decide
  obtain ⟨⟨s, p⟩, hrun, hall⟩ := (Option.any_eq_true _ _).mp hall
  simp only [PollPhase.complete] at hall
  split at hall
  · rename_i answer hphase
    obtain ⟨response, hanswer, hcomplete⟩ := (Option.any_eq_true _ _).mp hall
    have hok : answer = .ok response := by
      cases answer with
      | ok _ => exact congrArg Except.ok (Option.some.inj hanswer)
      | error _ => cases hanswer
    subst hok
    exact ⟨s, p, response, hrun, hphase, hcomplete,
      (completion_is_final Database.schema_empty hrun hphase hcomplete).1⟩
  · contradiction

end Poll

end AiSsh
