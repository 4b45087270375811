import AiSsh.ShellRead

/-!
What `timed_out` tells a client. The mark is set once the budget has expired, and the
page that goes with it is read after that, so output or a completion that arrives around
the expiry is delivered under the mark of a read that found nothing. The mark is honest
when the poll has been woken for everything that was written before its budget expired,
and nothing is written between the expiry and the answer.
-/

namespace AiSsh

open Library

/-- The steps that make something readable. -/
def RecorderStep.writes : RecorderStep → Bool
  | .append _ | .keep _ | .update _ _ _ _ => true
  | .startExec _ _ _ | .openPty | .draw _ _ _ _ | .announce _ _ | .wake _ => false

/-- The budget expired with no new output, not because the command finished. -/
def HonestTimeout (response : EventsData) : Prop :=
  response.progress.timedOut = true →
    response.events = [] ∧ response.hasMore = false ∧
      ∀ command, response.command = some command → command.status = .running

/-- Nothing that was written is unannounced or unseen when the budget expires, and nothing
is written while the last read is under way. -/
def Undisturbed (s : Recorders) (receiver : Option Nat) (rereading : Bool) :
    RecorderStep ⊕ PollStep → Prop
  | .inl move => rereading = true → move.writes = false
  | .inr .expire =>
      match receiver with
      | some seen => s.Calm seen
      | none => False
  | .inr (.advance _) | .inr .changed => True

theorem Undisturbed.receiver {s : Recorders} {receiver : Option Nat} {rereading : Bool}
    (h : Undisturbed s receiver rereading (.inr .expire)) :
    ∃ seen, receiver = some seen ∧ s.Calm seen := by
  cases receiver with
  | none => cases h
  | some seen => exact ⟨seen, rfl, h⟩

namespace Recorders

instance decidableCalm (s : Recorders) (seen : Nat) : Decidable (s.Calm seen) :=
  decidable_of_iff (s.runtime.eventsTx = seen ∧ ∀ recorder ∈ s.tasks, recorder.announcing = false)
    ⟨fun h => ⟨h.1, h.2⟩, fun h => ⟨h.version, h.announced⟩⟩

/-- A step that writes nothing leaves everything a page is made of. -/
theorem Steps.unwritten {s s' : Recorders} {move : RecorderStep} (h : Steps s move s')
    (hwrites : move.writes = false) :
    s'.runtime.sessionId = s.runtime.sessionId ∧
      s'.storage.db.events = s.storage.db.events ∧
      s'.runtime.liveEvents = s.runtime.liveEvents ∧
      ∀ {id sessionId status}, RowIs s id sessionId status → RowIs s' id sessionId status := by
  cases h with
  | @startExec id command now storage hinsert =>
      obtain ⟨hfresh, -, rfl⟩ := Storage.insertCommand_ok hinsert
      refine ⟨rfl, rfl, rfl, ?_⟩
      intro c sessionId status ⟨row, hrow, hr⟩
      refine ⟨row, (Storage.insertCommand_command hinsert c).trans ?_, hr⟩
      rw [if_neg, hrow]
      intro hsame
      subst hsame
      exact absurd (hfresh.symm.trans hrow) nofun
  | openPty | draw _ | announce _ | wake _ _ => exact ⟨rfl, rfl, rfl, id⟩
  | reject _ | accept _ _ | keep _ | update _ _ => cases hwrites

end Recorders

instance decidableUndisturbed (s : Recorders) (receiver : Option Nat) (rereading : Bool) :
    (move : RecorderStep ⊕ PollStep) → Decidable (Undisturbed s receiver rereading move)
  | .inl move => inferInstanceAs (Decidable (rereading = true → move.writes = false))
  | .inr .expire =>
      match receiver with
      | some seen => inferInstanceAs (Decidable (s.Calm seen))
      | none => isFalse id
  | .inr (.advance _) | .inr .changed => isTrue trivial

theorem Storage.events_of_none {s : Storage} {column : EventColumn} {id : String}
    {after maxBytes : Nat} (h : s.eventRows column id after = []) :
    s.events column id after maxBytes = ([], false) := by
  simp [events, h, eventsLoop]

namespace Poll

/-- What a step of the poll does. -/
inductive Looks (s : Recorders) (p : Poll) : PollStep → Poll → Prop
  | subscribe {now : Now} (hphase : p.phase = .subscribe) :
      Looks s p (.advance now)
        { p with receiver := eventsReceiver s.storage [s.runtime] p.commandId, phase := .readRow }
  | missing {now : Now} {error : ErrorPayload} (hphase : p.phase = .readRow) :
      Looks s p (.advance now) { p with phase := .answered (.error error) }
  | row {now : Now} {command : CommandInfo} (hphase : p.phase = .readRow)
      (hrow : s.storage.db.command p.commandId = some command) :
      Looks s p (.advance now) { p with phase := .readEvents command }
  | events {now : Now} {command : CommandInfo} (hphase : p.phase = .readEvents command) :
      Looks s p (.advance now)
        { p with
          phase := .readLive command (s.storage.eventsForCommand p.commandId p.after p.limit).1
            (s.storage.eventsForCommand p.commandId p.after p.limit).2 }
  | answer {now : Now} {command : CommandInfo} {events : List TerminalEvent} {more : Bool}
      {page : CommandPage} {timedOut : Bool} (hphase : p.phase = .readLive command events more)
      (hpage : page =
        readLivePage [s.runtime] command (events, more) p.commandId p.after p.limit)
      (htimed : timedOut = true → p.expired = true ∨ page.quiet = true) :
      Looks s p (.advance now) (p.answer page timedOut now)
  | block {now : Now} {command : CommandInfo} {events : List TerminalEvent} {more : Bool}
      (hphase : p.phase = .readLive command events more) :
      Looks s p (.advance now) { p with phase := .waiting }
  | changed {seen : Nat} (hphase : p.phase = .waiting) (hreceiver : p.receiver = some seen) :
      Looks s p .changed { p with receiver := some s.runtime.eventsTx, phase := .readRow }
  | expire (hphase : p.phase = .waiting) :
      Looks s p .expire { p with expired := true, phase := .readRow }

theorem looks_of_look {s : Recorders} {p p' : Poll} {step : PollStep}
    (h : p.look s step = some p') : Looks s p step p' := by
  cases step with
  | advance now =>
      simp only [look, advance] at h
      cases hphase : p.phase with
      | subscribe =>
          simp only [hphase, Option.some.injEq] at h
          subst h
          exact .subscribe hphase
      | readRow =>
          simp only [hphase] at h
          cases hload : loadCommand s.storage p.commandId with
          | error error =>
              simp only [hload, Option.some.injEq] at h
              subst h
              exact .missing hphase
          | ok command =>
              simp only [hload, Option.some.injEq] at h
              subst h
              exact .row hphase (loadCommand_ok.mp hload)
      | readEvents command =>
          simp only [hphase, Option.some.injEq] at h
          subst h
          exact .events hphase
      | readLive command events more =>
          simp only [hphase, Option.some.injEq] at h
          subst h
          rw [decide]
          split
          · rename_i hexpired
            exact .answer hphase rfl fun _ => .inl hexpired
          · split
            · exact .answer hphase rfl (by simp)
            · rename_i hquiet
              simp only [Bool.or_eq_true, not_or, Bool.not_eq_true, Bool.not_eq_false'] at hquiet
              split
              · exact .answer hphase rfl fun _ => .inr hquiet.1
              · exact .block hphase
      | waiting | answered _ => simp [hphase] at h
  | changed =>
      simp only [look, changed] at h
      split at h
      · rename_i seen hphase hreceiver
        split at h
        · cases h
          exact .changed hphase hreceiver
        · cases h
      · cases h
  | expire =>
      simp only [look] at h
      split at h
      · rename_i hphase
        cases h
        exact .expire hphase
      · cases h

/-- The command still runs, and nothing of it lies beyond the cursor. -/
def Nothing (s : Recorders) (p : Poll) : Prop :=
  s.RowIs p.commandId s.runtime.sessionId (· = .running) ∧
    s.storage.eventRows .commandId p.commandId p.after = [] ∧
    s.runtime.liveEvents.filter (liveSelects p.after (some p.commandId)) = []

/-- Between the expiry and the answer. -/
def rereading (p : Poll) : Bool :=
  p.expired &&
    match p.phase with
    | .answered _ => false
    | _ => true

/-- What an expired poll has read so far, and still finds. -/
def Silent (s : Recorders) (p : Poll) : Prop :=
  p.expired = true →
    match p.phase with
    | .subscribe | .readRow | .waiting => p.Nothing s
    | .readEvents command => command.status = .running ∧ p.Nothing s
    | .readLive command events more =>
        command.status = .running ∧ events = [] ∧ more = false ∧ p.Nothing s
    | .answered _ => True

def Honest (p : Poll) : Prop :=
  ∀ response, p.phase = .answered (.ok response) → HonestTimeout response

theorem honest_of_open {p : Poll} (h : ∀ response, p.phase ≠ .answered (.ok response)) :
    p.Honest := fun response hresponse => absurd hresponse (h response)

theorem Silent.move {s s' : Recorders} {p : Poll} (h : Silent s p) {move : RecorderStep}
    (hstep : Recorders.Steps s move s')
    (hquiet : p.rereading = true → move.writes = false) : Silent s' p := by
  intro hexpired
  have hp := h hexpired
  have hnothing (hanswered : p.rereading = true) (hn : p.Nothing s) : p.Nothing s' := by
    obtain ⟨hid, hevents, hlive, hrows⟩ := hstep.unwritten (hquiet hanswered)
    refine ⟨hid ▸ hrows hn.1, ?_, hlive ▸ hn.2.2⟩
    rw [← hn.2.1]
    simp only [Storage.eventRows, hevents]
  rw [rereading] at hnothing
  cases hphase : p.phase with
  | subscribe | readRow | waiting =>
      simp only [hphase] at hp hnothing
      exact hnothing (by simp [hexpired]) hp
  | readEvents command =>
      simp only [hphase] at hp hnothing
      exact ⟨hp.1, hnothing (by simp [hexpired]) hp.2⟩
  | readLive command events more =>
      simp only [hphase] at hp hnothing
      exact ⟨hp.1, hp.2.1, hp.2.2.1, hnothing (by simp [hexpired]) hp.2.2.2⟩
  | answered response => trivial

/-- The page of a silent poll is empty. -/
theorem readLivePage_silent {s : Recorders} {p : Poll} (h : p.Nothing s)
    (command : CommandInfo) :
    (readLivePage [s.runtime] command ([], false) p.commandId p.after p.limit).events = [] ∧
      (readLivePage [s.runtime] command ([], false) p.commandId p.after p.limit).more = false := by
  rw [readLivePage]
  split
  · exact ⟨rfl, rfl⟩
  · rename_i runtime hruntime
    obtain ⟨rfl, -⟩ := findRuntime_singleton.mp hruntime
    rw [appendLive_of_none h.2.2]
    exact ⟨rfl, rfl⟩

theorem Silent.look {s : Recorders} {p p' : Poll} (h : Silent s p) (hattentive : Attentive s p)
    {step : PollStep} (hlook : Looks s p step p')
    (hquiet : Undisturbed s p.receiver p.rereading (.inr step)) :
    Silent s p' ∧ p'.Honest := by
  cases hlook with
  | subscribe hphase =>
      simp only [Silent, hphase] at h
      exact ⟨h, honest_of_open (by simp)⟩
  | missing hphase => exact ⟨fun _ => trivial, honest_of_open (by simp)⟩
  | @row now command hphase hrow =>
      simp only [Silent, hphase] at h
      refine ⟨fun hexpired => ⟨?_, h hexpired⟩, honest_of_open (by simp)⟩
      obtain ⟨row, hrow', -, hrunning⟩ := (h hexpired).1
      cases hrow.symm.trans hrow'
      exact hrunning
  | events hphase =>
      simp only [Silent, hphase] at h
      refine ⟨fun hexpired => ⟨(h hexpired).1, ?_⟩, honest_of_open (by simp)⟩
      have hnone : s.storage.events .commandId p.commandId p.after p.limit = ([], false) :=
        Storage.events_of_none (h hexpired).2.2.1
      simp only [Storage.eventsForCommand, hnone]
      exact ⟨trivial, trivial, (h hexpired).2⟩
  | @answer now command events more page timedOut hphase hpage htimed =>
      refine ⟨fun _ => trivial, fun response hresponse hmark => ?_⟩
      simp only [Silent, hphase] at h
      simp only [Poll.answer, PollPhase.answered.injEq, Except.ok.injEq] at hresponse
      subst hresponse
      have hcommand : page.command = command := by
        rw [hpage]
        exact readLivePage_command _ _ _ _ _ _
      have hempty : page.events = [] ∧ page.more = false ∧ command.status = .running := by
        cases htimed hmark with
        | inl hexpired =>
            obtain ⟨hrunning, rfl, rfl, hnothing⟩ := h hexpired
            have hsilent := readLivePage_silent hnothing command
            rw [← hpage] at hsilent
            exact ⟨hsilent.1, hsilent.2, hrunning⟩
        | inr hquiet =>
            simp only [CommandPage.quiet, Bool.and_eq_true, List.isEmpty_iff, Bool.not_eq_true',
              beq_iff_eq, hcommand] at hquiet
            exact ⟨hquiet.1.1, hquiet.1.2, hquiet.2⟩
      refine ⟨hempty.1, hempty.2.1, fun value hvalue => ?_⟩
      obtain rfl := Option.some.inj hvalue
      show page.command.status = .running
      rw [hcommand]
      exact hempty.2.2
  | block hphase =>
      simp only [Silent, hphase] at h
      exact ⟨fun hexpired => (h hexpired).2.2.2, honest_of_open (by simp)⟩
  | changed hphase hreceiver =>
      simp only [Silent, hphase] at h
      exact ⟨h, honest_of_open (by simp)⟩
  | expire hphase =>
      refine ⟨fun _ => ?_, honest_of_open (by simp)⟩
      obtain ⟨seen, hreceiver, hcalm⟩ := hquiet.receiver
      have hknown := (hattentive seen hreceiver).quiet hcalm
      simp only [Quiet, hphase] at hknown
      exact hknown

/-- What holds of a fresh poll. -/
theorem start_honest (s : Recorders) (commandId : String) (after maxBytes waitSeconds : Nat)
    (now : Now) :
    Attentive s (.start commandId after maxBytes waitSeconds now) ∧
      Silent s (.start commandId after maxBytes waitSeconds now) ∧
      (start commandId after maxBytes waitSeconds now).Honest := by
  refine ⟨fun seen hseen => ?_, fun hexpired => ?_, honest_of_open fun response hphase => ?_⟩
  · exact absurd hseen (Option.some_ne_none seen).symm
  · exact absurd hexpired Bool.false_ne_true
  · simp [start] at hphase

end Poll

namespace ShellRead

/-- Nothing of the session lies beyond the cursor. -/
def Nothing (s : Recorders) (p : ShellRead) : Prop :=
  s.storage.eventRows .sessionId p.sessionId p.after = [] ∧
    s.runtime.liveEvents.filter (liveSelects p.after none) = []

/-- What a read that found nothing so far knows, as long as the session is calm. -/
def Quiet (s : Recorders) (p : ShellRead) : Prop :=
  match p.phase with
  | .readLive stored =>
      stored.1 = [] → stored.2 = false →
        s.storage.eventRows .sessionId p.sessionId p.after = []
  | .readCommands events more => events = [] → more = false → p.Nothing s
  | .waiting => p.Nothing s
  | .subscribe | .readEvents | .answered _ => True

/-- What holds of a read that has a receiver. -/
structure Subscribed (s : Recorders) (p : ShellRead) (seen : Nat) : Prop where
  version : seen ≤ s.runtime.eventsTx
  own : p.sessionId = s.runtime.sessionId
  quiet : s.Calm seen → p.Quiet s

def Attentive (s : Recorders) (p : ShellRead) : Prop :=
  ∀ seen, p.receiver = some seen → p.Subscribed s seen

theorem Attentive.move {s s' : Recorders} {p : ShellRead} (h : Attentive s p)
    {move : RecorderStep} (hstep : Recorders.Steps s move s') : Attentive s' p := by
  intro seen hseen
  obtain ⟨hversion, hown, hquiet⟩ := h seen hseen
  have hid : s'.runtime.sessionId = s.runtime.sessionId := by cases hstep <;> rfl
  refine ⟨Nat.le_trans hversion hstep.version_le, hid ▸ hown, fun hcalm => ?_⟩
  obtain ⟨hcalm', hevents, hlive, -⟩ := hstep.calm_back hversion hcalm
  have hq := hquiet hcalm'
  have hrows : s'.storage.eventRows .sessionId p.sessionId p.after =
      s.storage.eventRows .sessionId p.sessionId p.after := by
    simp only [Storage.eventRows, hevents]
  rw [Quiet, Nothing] at hq ⊢
  rw [hrows, hlive]
  exact hq

/-- An empty page without more was put together from nothing. -/
theorem readLiveShell_nothing {s : Recorders} {p : ShellRead}
    (hown : p.sessionId = s.runtime.sessionId) {stored : List TerminalEvent × Bool}
    (hevents : (readLiveShell [s.runtime] stored p.sessionId p.after p.limit).1 = [])
    (hmore : (readLiveShell [s.runtime] stored p.sessionId p.after p.limit).2 = false) :
    stored.1 = [] ∧ stored.2 = false ∧
      s.runtime.liveEvents.filter (liveSelects p.after none) = [] := by
  rw [readLiveShell, findRuntime_singleton.mpr ⟨rfl, hown.symm⟩] at hevents hmore
  exact appendLive_empty hevents hmore

theorem Attentive.look {s : Recorders} {p p' : ShellRead} (h : Attentive s p)
    {step : PollStep} (hlook : Looks s p step p') : Attentive s p' := by
  cases hlook with
  | subscribe hphase hown =>
      intro seen hseen
      cases hseen
      exact ⟨Nat.le_refl _, hown, fun _ => trivial⟩
  | stored hphase | unknown hphase | answer hphase htimed | expire hphase =>
      intro seen hseen
      obtain ⟨hversion, hown, -⟩ := h seen hseen
      exact ⟨hversion, hown, fun _ => trivial⟩
  | events hphase =>
      intro seen hseen
      obtain ⟨hversion, hown, -⟩ := h seen hseen
      refine ⟨hversion, hown, fun _ hevents hmore => ?_⟩
      exact (Storage.events_all hmore).symm.trans hevents
  | live hphase =>
      intro seen hseen
      obtain ⟨hversion, hown, hquiet⟩ := h seen hseen
      refine ⟨hversion, hown, fun hcalm hevents hmore => ?_⟩
      obtain ⟨hstored, hwhole, hlive⟩ := readLiveShell_nothing hown hevents hmore
      have hq := hquiet hcalm
      simp only [Quiet, hphase] at hq
      exact ⟨hq hstored hwhole, hlive⟩
  | block hphase =>
      intro seen hseen
      obtain ⟨hversion, hown, hquiet⟩ := h seen hseen
      refine ⟨hversion, hown, fun hcalm => ?_⟩
      have hq := hquiet hcalm
      simp only [Quiet, hphase] at hq
      exact hq trivial trivial
  | changed hphase hreceiver =>
      intro seen hseen
      cases hseen
      exact ⟨Nat.le_refl _, (h _ hreceiver).own, fun _ => trivial⟩

/-- Between the expiry and the answer. -/
def rereading (p : ShellRead) : Bool :=
  p.expired &&
    match p.phase with
    | .answered _ => false
    | _ => true

/-- What an expired read has read so far, and still finds. -/
def Silent (s : Recorders) (p : ShellRead) : Prop :=
  p.expired = true →
    match p.phase with
    | .subscribe | .readEvents | .waiting => p.Nothing s
    | .readLive stored => stored = ([], false) ∧ p.Nothing s
    | .readCommands events more => events = [] ∧ more = false ∧ p.Nothing s
    | .answered _ => True

def Honest (p : ShellRead) : Prop :=
  ∀ response, p.phase = .answered (.ok response) → HonestTimeout response

theorem honest_of_open {p : ShellRead} (h : ∀ response, p.phase ≠ .answered (.ok response)) :
    p.Honest := fun response hresponse => absurd hresponse (h response)

theorem Silent.move {s s' : Recorders} {p : ShellRead} (h : Silent s p) {move : RecorderStep}
    (hstep : Recorders.Steps s move s')
    (hquiet : p.rereading = true → move.writes = false) : Silent s' p := by
  intro hexpired
  have hp := h hexpired
  have hnothing (hanswered : p.rereading = true) (hn : p.Nothing s) : p.Nothing s' := by
    obtain ⟨-, hevents, hlive, -⟩ := hstep.unwritten (hquiet hanswered)
    refine ⟨?_, hlive ▸ hn.2⟩
    rw [← hn.1]
    simp only [Storage.eventRows, hevents]
  rw [rereading] at hnothing
  cases hphase : p.phase with
  | subscribe | readEvents | waiting =>
      simp only [hphase] at hp hnothing
      exact hnothing (by simp [hexpired]) hp
  | readLive stored =>
      simp only [hphase] at hp hnothing
      exact ⟨hp.1, hnothing (by simp [hexpired]) hp.2⟩
  | readCommands events more =>
      simp only [hphase] at hp hnothing
      exact ⟨hp.1, hp.2.1, hnothing (by simp [hexpired]) hp.2.2⟩
  | answered response => trivial

theorem readLiveShell_silent {s : Recorders} {p : ShellRead} (h : p.Nothing s) :
    readLiveShell [s.runtime] ([], false) p.sessionId p.after p.limit = ([], false) := by
  rw [readLiveShell]
  split
  · rfl
  · rename_i runtime hruntime
    obtain ⟨rfl, -⟩ := findRuntime_singleton.mp hruntime
    exact appendLive_of_none h.2

theorem Silent.look {s : Recorders} {p p' : ShellRead} (h : Silent s p)
    (hattentive : Attentive s p) {step : PollStep} (hlook : Looks s p step p')
    (hquiet : Undisturbed s p.receiver p.rereading (.inr step)) :
    Silent s p' ∧ p'.Honest := by
  cases hlook with
  | subscribe hphase _ | stored hphase | changed hphase _ =>
      simp only [Silent, hphase] at h
      exact ⟨h, honest_of_open (by simp)⟩
  | unknown hphase => exact ⟨fun _ => trivial, honest_of_open (by simp)⟩
  | events hphase =>
      simp only [Silent, hphase] at h
      exact ⟨fun hexpired => ⟨Storage.events_of_none (h hexpired).1, h hexpired⟩,
        honest_of_open (by simp)⟩
  | live hphase =>
      simp only [Silent, hphase] at h
      refine ⟨fun hexpired => ?_, honest_of_open (by simp)⟩
      obtain ⟨rfl, hnothing⟩ := h hexpired
      rw [readLiveShell_silent hnothing]
      exact ⟨rfl, rfl, hnothing⟩
  | answer hphase htimed =>
      refine ⟨fun _ => trivial, fun response hresponse hmark => ?_⟩
      simp only [Silent, hphase] at h
      simp only [ShellRead.answer, ShellReadPhase.answered.injEq, Except.ok.injEq] at hresponse
      subst hresponse
      refine ⟨?_, ?_, nofun⟩
      · exact (htimed hmark).elim (fun hexpired => (h hexpired).1) And.left
      · exact (htimed hmark).elim (fun hexpired => (h hexpired).2.1) And.right
  | block hphase =>
      simp only [Silent, hphase] at h
      exact ⟨fun hexpired => (h hexpired).2.2, honest_of_open (by simp)⟩
  | expire hphase =>
      refine ⟨fun _ => ?_, honest_of_open (by simp)⟩
      obtain ⟨seen, hreceiver, hcalm⟩ := hquiet.receiver
      have hknown := (hattentive seen hreceiver).quiet hcalm
      simp only [Quiet, hphase] at hknown
      exact hknown

/-- What holds of a fresh read. -/
theorem start_honest (s : Recorders) (sessionId : String) (after maxBytes waitSeconds : Nat)
    (now : Now) :
    Attentive s (.start sessionId after maxBytes waitSeconds now) ∧
      Silent s (.start sessionId after maxBytes waitSeconds now) ∧
      (start sessionId after maxBytes waitSeconds now).Honest := by
  refine ⟨fun seen hseen => ?_, fun hexpired => ?_, honest_of_open fun response hphase => ?_⟩
  · exact absurd hseen (Option.some_ne_none seen).symm
  · exact absurd hexpired Bool.false_ne_true
  · simp [start] at hphase

end ShellRead

/-- When every poll and read is undisturbed around its expiry, its mark is honest. -/
theorem timed_out_is_honest {db : Database} {limit : Nat} {info : SessionInfo} {now : Now} :
    (∀ {commandId after maxBytes waitSeconds started moves s p response},
      pollMachine.run (.created ⟨db, limit⟩ info now,
        .start commandId after maxBytes waitSeconds started) moves = some (s, p) →
      pollMachine.Meets (fun q => Undisturbed q.1 q.2.receiver q.2.rereading)
        (.created ⟨db, limit⟩ info now,
          .start commandId after maxBytes waitSeconds started) moves →
      p.phase = .answered (.ok response) → HonestTimeout response) ∧
    ∀ {sessionId after maxBytes waitSeconds started moves s p response},
      shellReadMachine.run (.created ⟨db, limit⟩ info now,
        .start sessionId after maxBytes waitSeconds started) moves = some (s, p) →
      shellReadMachine.Meets (fun q => Undisturbed q.1 q.2.receiver q.2.rereading)
        (.created ⟨db, limit⟩ info now,
          .start sessionId after maxBytes waitSeconds started) moves →
      p.phase = .answered (.ok response) → HonestTimeout response := by
  refine ⟨?_, ?_⟩
  · intro commandId after maxBytes waitSeconds started moves s p response hrun hmeets hanswered
    have hinv : Poll.Attentive s p ∧ Poll.Silent s p ∧ p.Honest :=
      Recorders.machine.observed_invariant_under Poll.look
        (I := fun s p => Poll.Attentive s p ∧ Poll.Silent s p ∧ p.Honest)
        (fun _ _ _ _ h hquiet hstep => ⟨h.1.move (Recorders.steps_of_step hstep),
          h.2.1.move (Recorders.steps_of_step hstep) hquiet, h.2.2⟩)
        (fun _ _ _ _ h hquiet hlook => ⟨h.1.look hlook,
          h.2.1.look h.1 (Poll.looks_of_look hlook) hquiet⟩)
        (p := (_, .start commandId after maxBytes waitSeconds started))
        (Poll.start_honest _ commandId after maxBytes waitSeconds started) hmeets hrun
    exact hinv.2.2 response hanswered
  · intro sessionId after maxBytes waitSeconds started moves s p response hrun hmeets hanswered
    have hinv : ShellRead.Attentive s p ∧ ShellRead.Silent s p ∧ p.Honest :=
      Recorders.machine.observed_invariant_under ShellRead.look
        (I := fun s p => ShellRead.Attentive s p ∧ ShellRead.Silent s p ∧ p.Honest)
        (fun _ _ _ _ h hquiet hstep => ⟨h.1.move (Recorders.steps_of_step hstep),
          h.2.1.move (Recorders.steps_of_step hstep) hquiet, h.2.2⟩)
        (fun _ _ _ _ h hquiet hlook => ⟨h.1.look (ShellRead.looks_of_look hlook),
          h.2.1.look h.1 (ShellRead.looks_of_look hlook) hquiet⟩)
        (p := (_, .start sessionId after maxBytes waitSeconds started))
        (ShellRead.start_honest _ sessionId after maxBytes waitSeconds started) hmeets hrun
    exact hinv.2.2 response hanswered

/-- A running command without output, waited for until the budget expires. -/
def waitInVain : List (RecorderStep ⊕ PollStep) :=
  [.inl (.startExec "c" "ls" ⟨0, 0⟩)] ++ Poll.readOnce ++ [.inr .expire]

theorem timed_out_is_honest_waitInVain :
    (∃ s p response, pollMachine.run
        (.created ⟨.empty, 4⟩ Poll.createdInfo ⟨0, 0⟩, .start "c" 0 10 5 ⟨0, 0⟩)
        (waitInVain ++ List.replicate 3 (.inr (.advance ⟨0, 0⟩))) = some (s, p) ∧
      p.phase = .answered (.ok response) ∧ response.progress.timedOut = true ∧
      HonestTimeout response) ∧
    ∃ s p response, shellReadMachine.run
        (.created ⟨.empty, 4⟩ Poll.createdInfo ⟨0, 0⟩, .start "s" 0 10 5 ⟨0, 0⟩)
        (waitInVain ++ List.replicate 3 (.inr (.advance ⟨0, 0⟩))) = some (s, p) ∧
      p.phase = .answered (.ok response) ∧ response.progress.timedOut = true ∧
      HonestTimeout response := by
  refine ⟨?_, ?_⟩
  · have hall : ((pollMachine.run
        (.created ⟨.empty, 4⟩ Poll.createdInfo ⟨0, 0⟩, .start "c" 0 10 5 ⟨0, 0⟩)
        (waitInVain ++ List.replicate 3 (.inr (.advance ⟨0, 0⟩)))).any fun q =>
          q.2.phase.response.any fun response => response.progress.timedOut) = true := by decide
    obtain ⟨⟨s, p⟩, hrun, hall⟩ := (Option.any_eq_true _ _).mp hall
    obtain ⟨response, hresponse, htimed⟩ := (Option.any_eq_true _ _).mp hall
    have hanswered := PollPhase.answered_of_response hresponse
    exact ⟨s, p, response, hrun, hanswered, htimed,
      timed_out_is_honest.1 hrun (by decide) hanswered⟩
  · have hall : ((shellReadMachine.run
        (.created ⟨.empty, 4⟩ Poll.createdInfo ⟨0, 0⟩, .start "s" 0 10 5 ⟨0, 0⟩)
        (waitInVain ++ List.replicate 3 (.inr (.advance ⟨0, 0⟩)))).any fun q =>
          q.2.phase.response.any fun response => response.progress.timedOut) = true := by decide
    obtain ⟨⟨s, p⟩, hrun, hall⟩ := (Option.any_eq_true _ _).mp hall
    obtain ⟨response, hresponse, htimed⟩ := (Option.any_eq_true _ _).mp hall
    have hanswered := ShellReadPhase.answered_of_response hresponse
    exact ⟨s, p, response, hrun, hanswered, htimed,
      timed_out_is_honest.2 hrun (by decide) hanswered⟩

/-- The command writes its line and ends while the expired poll reads once more. -/
theorem expired_poll_delivers_completion :
    ∃ moves s p response, pollMachine.run
        (.created ⟨.empty, 4⟩ Poll.createdInfo ⟨0, 0⟩, .start "c" 0 10 5 ⟨0, 0⟩) moves =
          some (s, p) ∧
      p.phase = .answered (.ok response) ∧ response.progress.timedOut = true ∧
      response.events ≠ [] ∧
      ∃ command, response.command = some command ∧ command.status = .completed := by
  have hall : ((pollMachine.run
      (.created ⟨.empty, 4⟩ Poll.createdInfo ⟨0, 0⟩, .start "c" 0 10 5 ⟨0, 0⟩)
      (waitInVain ++
        [.inl (.draw 0 .stdout [1, 2] ⟨0, 0⟩), .inl (.append 0), .inl (.announce 0 ⟨0, 0⟩),
          .inl (.update 0 .completed (some 0) ⟨0, 0⟩)] ++
        List.replicate 3 (.inr (.advance ⟨0, 0⟩)))).any fun q =>
          q.2.phase.response.any fun response => response.progress.timedOut &&
            !response.events.isEmpty && response.command.any fun command =>
              command.status == .completed) = true := by decide
  obtain ⟨⟨s, p⟩, hrun, hall⟩ := (Option.any_eq_true _ _).mp hall
  obtain ⟨response, hresponse, hall⟩ := (Option.any_eq_true _ _).mp hall
  simp only [Bool.and_eq_true, Bool.not_eq_true', List.isEmpty_eq_false_iff] at hall
  obtain ⟨⟨htimed, hevents⟩, hcommand⟩ := hall
  obtain ⟨command, hsome, hstatus⟩ := (Option.any_eq_true _ _).mp hcommand
  exact ⟨_, s, p, response, hrun, PollPhase.answered_of_response hresponse, htimed, hevents,
    command, hsome, eq_of_beq hstatus⟩

end AiSsh
