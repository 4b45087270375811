import AiSsh.CommandPoll
import AiSsh.OutputReads

/-!
`shell_read` against the recorders of the session. The read subscribes to the
announcements, reads the database page, puts the live tail on top and lists the rows of
the commands last; then it either answers or blocks. A wake-up makes it read again, the
end of its budget makes it read once more and answer. The recorders move between any two
of these steps.
-/

namespace AiSsh

open Library

inductive ShellReadPhase
  | subscribe
  | readEvents
  | readLive (stored : List TerminalEvent × Bool)
  | readCommands (events : List TerminalEvent) (more : Bool)
  | waiting
  | answered (response : Except ErrorPayload EventsData)

/-- `receiver` is the version the receiver has seen; `expired` marks the last read. -/
structure ShellRead where
  sessionId : String
  after : Nat
  limit : Nat
  budget : Nat
  started : Now
  receiver : Option Nat
  expired : Bool
  phase : ShellReadPhase

namespace ShellRead

def start (sessionId : String) (after maxBytes waitSeconds : Nat) (now : Now) : ShellRead where
  sessionId := sessionId
  after := after
  limit := readLimit maxBytes
  budget := min waitSeconds maxWaitSeconds
  started := now
  receiver := none
  expired := false
  phase := .subscribe

/-- The answer, with the rows of the commands as they stand now. -/
def answer (p : ShellRead) (s : Recorders) (events : List TerminalEvent) (more timedOut : Bool)
    (now : Now) : ShellRead :=
  { p with phase := .answered (.ok (respondShell
      ⟨shellCommands s.storage p.sessionId events, events, more,
        shellProgress timedOut p.started now (findRuntime [s.runtime] p.sessionId)⟩ p.after)) }

/-- What the loop does with a page: answer, or block on the receiver. -/
def decide (p : ShellRead) (s : Recorders) (events : List TerminalEvent) (more : Bool)
    (now : Now) : ShellRead :=
  if p.expired then
    p.answer s events more true now
  else if !(events.isEmpty && !more) || p.budget == 0 then
    p.answer s events more false now
  else
    match p.receiver with
    | none => p.answer s events more true now
    | some _ => { p with phase := .waiting }

def advance (s : Recorders) (p : ShellRead) (now : Now) : Option ShellRead :=
  match p.phase with
  | .subscribe =>
      match findRuntime [s.runtime] p.sessionId with
      | some runtime => some { p with receiver := some runtime.eventsTx, phase := .readEvents }
      | none =>
          if (s.storage.session p.sessionId).isNone then
            some { p with phase := .answered (.error (sessionNotFound p.sessionId)) }
          else
            some { p with phase := .readEvents }
  | .readEvents => some
      { p with phase := .readLive (s.storage.eventsForSession p.sessionId p.after p.limit) }
  | .readLive stored =>
      let (events, more) := readLiveShell [s.runtime] stored p.sessionId p.after p.limit
      some { p with phase := .readCommands events more }
  | .readCommands events more => some (p.decide s events more now)
  | .waiting | .answered _ => none

/-- A blocked read wakes when the version differs from the one it has seen. -/
def changed (s : Recorders) (p : ShellRead) : Option ShellRead :=
  match p.phase, p.receiver with
  | .waiting, some seen =>
      if seen ≠ s.runtime.eventsTx then
        some { p with receiver := some s.runtime.eventsTx, phase := .readEvents }
      else
        none
  | _, _ => none

def look (s : Recorders) (p : ShellRead) : PollStep → Option ShellRead
  | .advance now => p.advance s now
  | .changed => p.changed s
  | .expire =>
      match p.phase with
      | .waiting => some { p with expired := true, phase := .readEvents }
      | _ => none

end ShellRead

/-- The recorders and one `shell_read`, in any interleaving. -/
def shellReadMachine : Machine (Recorders × ShellRead) (RecorderStep ⊕ PollStep) :=
  Recorders.machine.observed ShellRead.look

namespace ShellRead

/-- What a step of the read does. -/
inductive Looks (s : Recorders) (p : ShellRead) : PollStep → ShellRead → Prop
  | subscribe {now : Now} (hphase : p.phase = .subscribe)
      (hown : p.sessionId = s.runtime.sessionId) :
      Looks s p (.advance now) { p with receiver := some s.runtime.eventsTx, phase := .readEvents }
  | stored {now : Now} (hphase : p.phase = .subscribe) :
      Looks s p (.advance now) { p with phase := .readEvents }
  | unknown {now : Now} (hphase : p.phase = .subscribe) :
      Looks s p (.advance now)
        { p with phase := .answered (.error (sessionNotFound p.sessionId)) }
  | events {now : Now} (hphase : p.phase = .readEvents) :
      Looks s p (.advance now)
        { p with phase := .readLive (s.storage.eventsForSession p.sessionId p.after p.limit) }
  | live {now : Now} {stored : List TerminalEvent × Bool} (hphase : p.phase = .readLive stored) :
      Looks s p (.advance now)
        { p with
          phase := .readCommands
            (readLiveShell [s.runtime] stored p.sessionId p.after p.limit).1
            (readLiveShell [s.runtime] stored p.sessionId p.after p.limit).2 }
  | answer {now : Now} {events : List TerminalEvent} {more : Bool} {timedOut : Bool}
      (hphase : p.phase = .readCommands events more)
      (htimed : timedOut = true → p.expired = true ∨ events = [] ∧ more = false) :
      Looks s p (.advance now) (p.answer s events more timedOut now)
  | block {now : Now} (hphase : p.phase = .readCommands [] false) :
      Looks s p (.advance now) { p with phase := .waiting }
  | changed {seen : Nat} (hphase : p.phase = .waiting) (hreceiver : p.receiver = some seen) :
      Looks s p .changed { p with receiver := some s.runtime.eventsTx, phase := .readEvents }
  | expire (hphase : p.phase = .waiting) :
      Looks s p .expire { p with expired := true, phase := .readEvents }

theorem looks_of_look {s : Recorders} {p p' : ShellRead} {step : PollStep}
    (h : p.look s step = some p') : Looks s p step p' := by
  cases step with
  | advance now =>
      simp only [look, advance] at h
      cases hphase : p.phase with
      | subscribe =>
          simp only [hphase] at h
          cases hruntime : findRuntime [s.runtime] p.sessionId with
          | some runtime =>
              simp only [hruntime, Option.some.injEq] at h
              obtain ⟨rfl, hown⟩ := findRuntime_singleton.mp hruntime
              subst h
              exact .subscribe hphase hown.symm
          | none =>
              simp only [hruntime] at h
              split at h
              · cases h
                exact .unknown hphase
              · cases h
                exact .stored hphase
      | readEvents =>
          simp only [hphase, Option.some.injEq] at h
          subst h
          exact .events hphase
      | readLive stored =>
          simp only [hphase, Option.some.injEq] at h
          subst h
          exact .live hphase
      | readCommands events more =>
          simp only [hphase, Option.some.injEq] at h
          subst h
          rw [decide]
          split
          · rename_i hexpired
            exact .answer hphase fun _ => .inl hexpired
          · split
            · exact .answer hphase (by simp)
            · rename_i hquiet
              simp only [Bool.or_eq_true, Bool.not_eq_true', Bool.and_eq_false_iff,
                Bool.not_eq_false', not_or, Bool.not_eq_false, Bool.not_eq_true,
                List.isEmpty_iff] at hquiet
              obtain ⟨⟨rfl, rfl⟩, -⟩ := hquiet
              split
              · exact .answer hphase fun _ => .inr ⟨rfl, rfl⟩
              · exact .block hphase
      | waiting | answered _ => simp [hphase] at h
  | changed =>
      simp only [look, changed] at h
      split at h
      · rename_i seen hphase hreceiver
        split at h
        · cases h
          exact .changed hphase hreceiver
        · cases h
      · cases h
  | expire =>
      simp only [look] at h
      split at h
      · rename_i hphase
        cases h
        exact .expire hphase
      · cases h

end ShellRead

/-- The answer of a poll or of a read, if it is one. -/
def PollPhase.response : PollPhase → Option EventsData
  | .answered response => response.toOption
  | _ => none

def ShellReadPhase.response : ShellReadPhase → Option EventsData
  | .answered response => response.toOption
  | _ => none

theorem PollPhase.answered_of_response {phase : PollPhase} {response : EventsData}
    (h : phase.response = some response) : phase = .answered (.ok response) := by
  cases phase with
  | answered answer =>
      cases answer with
      | ok value =>
          cases Option.some.inj h
          rfl
      | error _ => cases h
  | subscribe | readRow | readEvents _ | readLive _ _ _ | waiting => cases h

theorem ShellReadPhase.answered_of_response {phase : ShellReadPhase} {response : EventsData}
    (h : phase.response = some response) : phase = .answered (.ok response) := by
  cases phase with
  | answered answer =>
      cases answer with
      | ok value =>
          cases Option.some.inj h
          rfl
      | error _ => cases h
  | subscribe | readEvents | readLive _ | readCommands _ _ | waiting => cases h

end AiSsh
