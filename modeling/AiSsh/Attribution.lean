import AiSsh.FinalStatuses
import AiSsh.Library.Captions
import AiSsh.Transcript

/-!
Whose output the transcript shows. The pages of one session are read one after another, each
from the daemon as it is at that time, and a page is taken event by event. A command's bytes
are read as its own if its header is the last one above them; what a reader of the terminal
learns of the end of a command is its exit label.
-/

namespace AiSsh

open Library

namespace TerminalWrite

/-- The command a header names. -/
def headed : TerminalWrite → Option String
  | .header id _ => some id
  | _ => none

/-- The command whose exit a label shows. -/
def labelled : TerminalWrite → Option String
  | .label id _ => some id
  | _ => none

/-- The command whose output a payload is. -/
def owner : TerminalWrite → Option String
  | .payload event _ => event.commandId
  | _ => none

end TerminalWrite

namespace Transcript

/-- The header that the next write will stand under. -/
def lastHeader (t : Transcript) : Option String := lastCaption TerminalWrite.headed t.written

/-- The commands with an exit label, one entry for each label. -/
def labels (t : Transcript) : List String := t.written.filterMap TerminalWrite.labelled

/-- The commands whose output has been shown. -/
def outputs (t : Transcript) : List String := t.written.filterMap TerminalWrite.owner

def Headed (t : Transcript) : Prop :=
  Attributed TerminalWrite.headed TerminalWrite.owner t.written

variable {t t' : Transcript} {id : String}

@[simp] theorem lastHeader_write (w : TerminalWrite) :
    (t.write w).lastHeader = w.headed.or t.lastHeader :=
  lastCaption_concat TerminalWrite.headed t.written w

@[simp] theorem labels_write (w : TerminalWrite) :
    (t.write w).labels = t.labels ++ w.labelled.toList := by
  cases w <;> simp [labels, write, TerminalWrite.labelled]

@[simp] theorem outputs_write (w : TerminalWrite) :
    (t.write w).outputs = t.outputs ++ w.owner.toList := by
  cases w with
  | payload event bytes =>
      cases h : event.commandId <;> simp [outputs, write, TerminalWrite.owner, h]
  | _ => simp [outputs, write, TerminalWrite.owner]

@[simp] theorem headed_write (w : TerminalWrite) :
    (t.write w).Headed ↔ t.Headed ∧ ∀ id, w.owner = some id → t.lastHeader = some id :=
  attributed_concat TerminalWrite.headed TerminalWrite.owner

@[simp] theorem lastHeader_breakLine : t.breakLine.lastHeader = t.lastHeader := by
  rw [breakLine]
  split <;> simp [TerminalWrite.headed]

@[simp] theorem labels_breakLine : t.breakLine.labels = t.labels := by
  rw [breakLine]
  split <;> simp [TerminalWrite.labelled]

@[simp] theorem outputs_breakLine : t.breakLine.outputs = t.outputs := by
  rw [breakLine]
  split <;> simp [TerminalWrite.owner]

@[simp] theorem headed_breakLine : t.breakLine.Headed ↔ t.Headed := by
  rw [breakLine]
  split <;> simp [TerminalWrite.owner]

@[simp] theorem finishedCommandIds_breakLine :
    t.breakLine.finishedCommandIds = t.finishedCommandIds := by
  rw [breakLine]
  split <;> rfl

@[simp] theorem finishedCommandIds_finish :
    (t.finish id).finishedCommandIds = id :: t.finishedCommandIds := rfl

@[simp] theorem finishedCommandIds_write (w : TerminalWrite) :
    (t.write w).finishedCommandIds = t.finishedCommandIds := rfl

@[simp] theorem lastHeader_finish : (t.finish id).lastHeader = t.lastHeader := rfl

@[simp] theorem labels_finish : (t.finish id).labels = t.labels := rfl

@[simp] theorem outputs_finish : (t.finish id).outputs = t.outputs := rfl

@[simp] theorem headed_finish : (t.finish id).Headed ↔ t.Headed := Iff.rfl

@[simp] theorem commands_finish : (t.finish id).commands = t.commands := rfl

@[simp] theorem commands_write (w : TerminalWrite) : (t.write w).commands = t.commands := rfl

@[simp] theorem commands_breakLine : t.breakLine.commands = t.commands := by
  rw [breakLine]
  split <;> rfl

/-- The command can be begun: it is not active, and the transcript is not done with it. -/
def Begins (t : Transcript) (command : CommandInfo) : Prop :=
  t.activeCommandId ≠ some command.id ∧ command.id ∉ t.finishedCommandIds

instance decidableBegins (command : CommandInfo) : Decidable (t.Begins command) :=
  inferInstanceAs (Decidable (_ ∧ _))

/-- An active command whose output has been shown is known to have ended. -/
def Leavable (t : Transcript) : Prop :=
  ∀ id ∈ t.activeCommandId, id ∈ t.outputs → (t.knownEnded id).isSome

/-- What `finishTranscriptCommand` does when the active command is not among those it is done
with. -/
inductive Finishes (t : Transcript) (force : Bool) : Transcript → Prop
  | kept (h : ∀ id ∈ t.activeCommandId, id = "" ∨ t.knownEnded id = none ∧ force = false) :
      Finishes t force t
  | dropped {id : String} (hactive : t.activeCommandId = some id)
      (hended : t.knownEnded id = none) (hforce : force = true) :
      Finishes t force (t.breakLine.finish id)
  | labelled {id : String} {command : CommandInfo} (hactive : t.activeCommandId = some id)
      (hended : t.knownEnded id = some command) :
      Finishes t force ((t.breakLine.write (.label id (labelText command))).finish id)

theorem finishes (hnew : ∀ id ∈ t.activeCommandId, id ∉ t.finishedCommandIds) (force : Bool) :
    Finishes t force (t.finishTranscriptCommand force) := by
  rw [finishTranscriptCommand]
  split
  · rename_i hnone
    refine .kept fun id hid => .inl ?_
    rw [truthy, Option.mem_def.mp hid] at hnone
    simpa [Option.filter] using hnone
  · rename_i id hsome
    have hactive : t.activeCommandId = some id := (Option.filter_eq_some_iff.mp hsome).1
    rw [if_neg (hnew id hactive)]
    cases hended : t.knownEnded id with
    | some command => exact .labelled hactive hended
    | none =>
        cases force with
        | true => exact .dropped hactive hended rfl
        | false =>
            refine .kept fun other hother => .inr ⟨?_, rfl⟩
            rw [Option.some.inj (hother.symm.trans hactive)]
            exact hended

/-- What the transcript says of a command is said once, and of every command that has been
shown something can still be said, unless it has been. -/
structure Accounted (t : Transcript) : Prop where
  keys : ∀ id, ∀ command ∈ t.commands id, command.id = id
  header : ∀ id ∈ t.activeCommandId, t.lastHeader = some id
  left : t.activeCommandId = none → t.lastHeader = t.finishedCommandIds.head?
  active : ∀ id ∈ t.activeCommandId, id ∉ t.finishedCommandIds
  headed : t.Headed
  once : t.labels.Nodup
  labelled : ∀ id ∈ t.labels, id ∈ t.finishedCommandIds
  named : "" ∉ t.outputs
  shown : ∀ id ∈ t.outputs, t.activeCommandId = some id ∨ id ∈ t.labels

theorem Accounted.finish (h : t.Accounted) {force : Bool} (hf : t.Finishes force t')
    (hleavable : force = true → t.Leavable) : t'.Accounted := by
  cases hf with
  | kept _ => exact h
  | @dropped id hactive hended hforce =>
      have hquiet : id ∉ t.outputs := by
        intro hout
        have hknown := hleavable hforce id hactive hout
        rw [hended] at hknown
        cases hknown
      refine ⟨by simpa using h.keys, nofun, fun _ => ?_, nofun, by simpa using h.headed,
        by simpa using h.once, ?_, by simpa using h.named, ?_⟩
      · simpa using h.header id hactive
      · intro other hother
        rw [finishedCommandIds_finish, finishedCommandIds_breakLine]
        exact List.mem_cons_of_mem id (h.labelled other (by simpa using hother))
      · intro other hother
        have hother : other ∈ t.outputs := by simpa using hother
        cases h.shown other hother with
        | inl hsame =>
            cases hactive.symm.trans hsame
            exact absurd hother hquiet
        | inr hlabel => exact .inr (by simpa using hlabel)
  | @labelled id command hactive hended =>
      have hfresh : id ∉ t.labels := fun hlabel => h.active id hactive (h.labelled id hlabel)
      have hlabels : ((t.breakLine.write (.label id (labelText command))).finish id).labels =
          t.labels ++ [id] := by simp [TerminalWrite.labelled]
      have houtputs : ((t.breakLine.write (.label id (labelText command))).finish id).outputs =
          t.outputs := by simp [TerminalWrite.owner]
      refine ⟨by simpa using h.keys, nofun, fun _ => ?_, nofun, ?_, ?_, ?_, houtputs ▸ h.named, ?_⟩
      · simpa [TerminalWrite.headed] using h.header id hactive
      · simpa [TerminalWrite.owner] using h.headed
      · rw [hlabels, ← List.concat_eq_append]
        exact List.Nodup.concat hfresh h.once
      · intro other hother
        rw [hlabels, List.mem_append, List.mem_singleton] at hother
        rw [finishedCommandIds_finish, List.mem_cons]
        exact hother.symm.imp_right fun hlabel => by simpa using h.labelled other hlabel
      · intro other hother
        rw [houtputs] at hother
        rw [hlabels, List.mem_append, List.mem_singleton]
        cases h.shown other hother with
        | inl hsame =>
            cases hactive.symm.trans hsame
            exact .inr (.inr rfl)
        | inr hlabel => exact .inr (.inl hlabel)

theorem leaveActive_eq : t.leaveActive = t.finishTranscriptCommand true := by
  rw [leaveActive, finishTranscriptCommand]
  cases truthy t.activeCommandId <;> rfl

theorem Accounted.finishes (h : t.Accounted) (force : Bool) :
    t.Finishes force (t.finishTranscriptCommand force) := Transcript.finishes h.active force

theorem Accounted.leaveActive (h : t.Accounted) (hleavable : t.Leavable) :
    t.leaveActive.Accounted := by
  rw [leaveActive_eq]
  exact h.finish (h.finishes true) fun _ => hleavable

/-- Once the active command is left, all that has been shown has its label. -/
theorem Accounted.labelled_of_left (h : t.Accounted) (hleavable : t.Leavable) :
    ∀ id ∈ t.leaveActive.outputs, id ∈ t.leaveActive.labels := by
  intro id hid
  have hleft := h.leaveActive hleavable
  refine (hleft.shown id hid).resolve_left fun hactive => ?_
  have hf := h.finishes true
  rw [← leaveActive_eq] at hf
  have hempty : ∀ other ∈ t.leaveActive.activeCommandId, other = "" := by
    generalize t.leaveActive = t' at hf
    cases hf with
    | kept hkept => exact fun other hother => (hkept other hother).resolve_right (by simp)
    | dropped => exact nofun
    | labelled => exact nofun
  exact hleft.named (hempty id hactive ▸ hid)

theorem finished_leaveActive (h : t.Accounted) (hid : id ∈ t.leaveActive.finishedCommandIds) :
    id ∈ t.finishedCommandIds ∨ t.activeCommandId = some id := by
  have hf := h.finishes true
  rw [← leaveActive_eq] at hf
  generalize t.leaveActive = t' at hf hid
  cases hf with
  | kept _ => exact .inl hid
  | dropped hactive _ _ =>
      cases List.mem_cons.mp hid with
      | inl hsame => exact .inr (hsame ▸ hactive)
      | inr hold => exact .inl (by simpa using hold)
  | labelled hactive _ =>
      cases List.mem_cons.mp hid with
      | inl hsame => exact .inr (hsame ▸ hactive)
      | inr hold => exact .inl (by simpa using hold)

theorem begin_of_begins {command : CommandInfo} (h : t.Begins command) :
    t.beginTranscriptCommand command =
      { t.leaveActive.write (.header command.id (t.leaveActive.headerText command)) with
        activeCommandId := some command.id
        previousExecByteWasCr := false
        atLineStart := true
        wroteOutput := true } := if_neg (not_or.mpr h)

theorem begin_of_not {command : CommandInfo} (h : ¬ t.Begins command) :
    t.beginTranscriptCommand command = t := if_pos (not_and_or.mp h |>.imp not_not.mp not_not.mp)

theorem Accounted.begins (h : t.Accounted) {command : CommandInfo}
    (hbegins : t.Begins command) (hleavable : t.Leavable) :
    (t.beginTranscriptCommand command).Accounted := by
  have hleft := h.leaveActive hleavable
  have hlabelled := h.labelled_of_left hleavable
  have hnew : command.id ∉ t.leaveActive.finishedCommandIds := fun hfinished =>
    (finished_leaveActive h hfinished).elim hbegins.2 hbegins.1
  rw [begin_of_begins hbegins]
  generalize t.leaveActive = left at hleft hlabelled hnew
  let next := left.write (.header command.id (left.headerText command))
  have hlabels : next.labels = left.labels := by simp [next, TerminalWrite.labelled]
  have houtputs : next.outputs = left.outputs := by simp [next, TerminalWrite.owner]
  have hheader : next.lastHeader = some command.id := by simp [next, TerminalWrite.headed]
  have hheaded : next.Headed := by simpa [next, TerminalWrite.owner] using hleft.headed
  refine ⟨hleft.keys, ?_, nofun, ?_, hheaded, hlabels ▸ hleft.once, ?_, houtputs ▸ hleft.named,
    ?_⟩
  · intro id hid
    exact hid ▸ hheader
  · intro id hid
    exact Option.some.inj hid ▸ hnew
  · intro id hid
    exact hleft.labelled id (hlabels ▸ hid)
  · intro id hid
    exact .inr (hlabels.symm ▸ hlabelled id (houtputs ▸ hid))

/-- Where the bytes of an event may go: an event of no command may leave the active one; the
command of an event is active, or it can be begun and the active one left, or it has its exit
label, as the last command that the transcript is done with, and none is active. -/
def Places (t : Transcript) (event : TerminalEvent) : Prop :=
  match event.commandId with
  | none => t.Leavable
  | some id => id ≠ "" ∧ (t.activeCommandId = some id ∨
      (∃ command ∈ t.commands id, t.Begins command) ∧ t.Leavable ∨
      (t.activeCommandId = none ∧ t.finishedCommandIds.head? = some id) ∧ id ∈ t.labels)

/-- The transcript as an exec event's bytes find it. -/
def beginId (t : Transcript) (id : String) : Transcript :=
  match t.commands id with
  | some command => t.beginTranscriptCommand command
  | none => t

theorem beginId_of_not (h : ∀ command ∈ t.commands id, ¬ t.Begins command) :
    t.beginId id = t := by
  rw [beginId]
  split
  · rename_i command hcommand
    exact begin_of_not (h command hcommand)
  · rfl

theorem activeCommandId_begin {command : CommandInfo} (h : t.Begins command) :
    (t.beginTranscriptCommand command).activeCommandId = some command.id := by
  rw [begin_of_begins h]

theorem Accounted.write_payload (h : t.Accounted) {event : TerminalEvent} (bytes : Bytes)
    (hid : ∀ id, event.commandId = some id → id ≠ "" ∧ t.lastHeader = some id ∧
      (t.activeCommandId = some id ∨ id ∈ t.labels)) :
    (t.write (.payload event bytes)).Accounted := by
  have hlabels : (t.write (.payload event bytes)).labels = t.labels := by
    simp [TerminalWrite.labelled]
  have hheader : (t.write (.payload event bytes)).lastHeader = t.lastHeader := by
    simp [TerminalWrite.headed]
  refine ⟨h.keys, ?_, hheader ▸ h.left, h.active, ?_, hlabels ▸ h.once, ?_, ?_, ?_⟩
  · rw [hheader]
    exact h.header
  · exact (headed_write _).mpr ⟨h.headed, fun id howner => (hid id howner).2.1⟩
  · rw [hlabels]
    exact h.labelled
  · rw [outputs_write, List.mem_append, not_or]
    refine ⟨h.named, fun hempty => ?_⟩
    exact (hid "" (Option.mem_toList.mp hempty)).1 rfl
  · intro id hout
    rw [hlabels]
    rw [outputs_write, List.mem_append] at hout
    exact hout.elim (h.shown id) fun hnew => (hid id (Option.mem_toList.mp hnew)).2.2

/-- The line state is about the look of the terminal alone. -/
theorem Accounted.line (h : t.Accounted) (wasCr lineStart wrote : Bool) :
    Accounted { t with
      previousExecByteWasCr := wasCr
      atLineStart := lineStart
      wroteOutput := wrote } :=
  ⟨h.keys, h.header, h.left, h.active, h.headed, h.once, h.labelled, h.named, h.shown⟩

theorem Accounted.beginId (h : t.Accounted) {event : TerminalEvent} (hplaces : t.Places event)
    (hid : event.commandId = some id) :
    (t.beginId id).Accounted ∧ id ≠ "" ∧ (t.beginId id).lastHeader = some id ∧
      ((t.beginId id).activeCommandId = some id ∨ id ∈ (t.beginId id).labels) := by
  rw [Places, hid] at hplaces
  obtain ⟨hne, hactive | ⟨⟨command, hcommand, hbegins⟩, hleavable⟩ | ⟨⟨hnone, hlast⟩, hlabel⟩⟩ :=
    hplaces
  · have hsame : t.beginId id = t := beginId_of_not fun command hcommand hbegins =>
      hbegins.1 (by rw [h.keys id command hcommand, hactive])
    rw [hsame]
    exact ⟨h, hne, h.header id hactive, .inl hactive⟩
  · have hsame : t.beginId id = t.beginTranscriptCommand command := by
      rw [Transcript.beginId, Option.mem_def.mp hcommand]
    have hkey : command.id = id := h.keys id command hcommand
    have hbegun := h.begins hbegins hleavable
    have hactive : (t.beginTranscriptCommand command).activeCommandId = some id :=
      hkey ▸ activeCommandId_begin hbegins
    rw [hsame]
    exact ⟨hbegun, hne, hbegun.header id hactive, .inl hactive⟩
  · have hsame : t.beginId id = t := beginId_of_not fun command hcommand hbegins =>
      hbegins.2 (by rw [h.keys id command hcommand]; exact h.labelled id hlabel)
    rw [hsame]
    exact ⟨h, hne, (h.left hnone).trans hlast, .inr hlabel⟩

theorem Accounted.appendEvent (h : t.Accounted) {event : TerminalEvent}
    (hplaces : t.Places event) : (t.appendEvent event).Accounted := by
  cases hid : event.commandId with
  | none =>
      have hleavable : t.Leavable := by simpa [Places, hid] using hplaces
      rw [Transcript.appendEvent, hid]
      exact ((h.leaveActive hleavable).write_payload event.payload (by simp [hid])).line _ _ _
  | some id =>
      obtain ⟨hbegun, hne, hready⟩ := h.beginId hplaces hid
      have hexec : truthy (some id) = some id := by
        rw [truthy, Option.filter_some, if_pos (by simpa using hne)]
      have howner : ∀ other, event.commandId = some other → other ≠ "" ∧
          (t.beginId id).lastHeader = some other ∧
          ((t.beginId id).activeCommandId = some other ∨ other ∈ (t.beginId id).labels) := by
        intro other hother
        cases hid.symm.trans hother
        exact ⟨hne, hready⟩
      rw [Transcript.appendEvent, hid, hexec]
      exact (hbegun.write_payload _ howner).line _ _ _

@[simp] theorem commands_finishTranscriptCommand (force : Bool) :
    (t.finishTranscriptCommand force).commands = t.commands := by
  rw [finishTranscriptCommand]
  split
  · rfl
  · split
    · rfl
    · split
      · split <;> simp
      · simp

@[simp] theorem commands_begin (command : CommandInfo) :
    (t.beginTranscriptCommand command).commands = t.commands := by
  by_cases h : t.Begins command
  · rw [begin_of_begins h, leaveActive_eq]
    simp
  · rw [begin_of_not h]

@[simp] theorem commands_appendEvent (event : TerminalEvent) :
    (t.appendEvent event).commands = t.commands := by
  rw [appendEvent]
  split
  · show (Transcript.commands _) = _
    split <;> simp
  · simp [leaveActive_eq]

theorem commands_learn (command : CommandInfo) :
    (t.learn command).commands = Function.update t.commands command.id (some command) := rfl

/-- What is learnt of a command is one of the rows that have its id. -/
theorem learnt (commands : List CommandInfo) (id : String) :
    (∀ command ∈ commands, command.id ≠ id) ∧
        (commands.foldl learn t).commands id = t.commands id ∨
      ∃ command ∈ commands, command.id = id ∧
        (commands.foldl learn t).commands id = some command := by
  induction commands generalizing t with
  | nil => exact .inl ⟨nofun, rfl⟩
  | cons command commands ih =>
      cases @ih (t.learn command) with
      | inl hearlier =>
          obtain ⟨hother, hfold⟩ := hearlier
          by_cases hid : command.id = id
          · refine .inr ⟨command, List.mem_cons_self, hid, hfold.trans ?_⟩
            rw [← hid, commands_learn, Function.update_self]
          · refine .inl ⟨List.forall_mem_cons.mpr ⟨hid, hother⟩, hfold.trans ?_⟩
            rw [commands_learn, Function.update_of_ne (Ne.symm hid)]
      | inr hlater =>
          obtain ⟨later, hlater, hid, hfold⟩ := hlater
          exact .inr ⟨later, List.mem_cons_of_mem command hlater, hid, hfold⟩

theorem Accounted.learn (h : t.Accounted) (command : CommandInfo) :
    (t.learn command).Accounted := by
  refine ⟨fun id known hknown => ?_, h.header, h.left, h.active, h.headed, h.once, h.labelled,
    h.named, h.shown⟩
  rw [commands_learn] at hknown
  by_cases hid : id = command.id
  · rw [hid, Function.update_self] at hknown
    rw [hid, Option.some.inj hknown]
  · rw [Function.update_of_ne hid] at hknown
    exact h.keys id known hknown

theorem Accounted.learns (h : t.Accounted) (commands : List CommandInfo) :
    (commands.foldl Transcript.learn t).Accounted := by
  induction commands generalizing t with
  | nil => exact h
  | cons command commands ih => exact ih (h.learn command)

end Transcript

/-- The command's row is there, and not running. -/
def Storage.Ended (s : Storage) (id : String) : Prop :=
  ∃ command ∈ s.command id, command.status ≠ .running

/-- A page that is being taken: the tables its commands were listed from, and the events that
are left of it. -/
structure PendingPage where
  listed : Storage
  data : EventsData
  left : List TerminalEvent

structure TranscriptReader where
  cursor : Nat
  transcript : Transcript
  pending : Option PendingPage
  /-- The tables the commands of the last page of a read were listed from, until the next page
  is read. -/
  last : Option Storage

/-- A page is read from the daemon as it is, one of its events is written, or what follows the
events is done. -/
inductive TranscriptStep
  | read (sessions : List SessionRuntime) (stored listed : Storage) (maxBytes : Nat) (now : Now)
  | event
  | settle

namespace TranscriptReader

def start : TranscriptReader where
  cursor := 0
  transcript := .empty
  pending := none
  last := none

section Steps

variable (rfc3339 : DateTime → String) (sessionId : String)

/-- The daemon's answer to `shell_read`: the events of the tables with the live tail, and the
rows of their commands, which are read later. -/
def page (sessions : List SessionRuntime) (stored listed : Storage) (after maxBytes : Nat)
    (now : Now) : EventsData :=
  let (events, more) := readLiveShell sessions
    (stored.eventsForSession sessionId after (readLimit maxBytes)) sessionId after
    (readLimit maxBytes)
  respondShell ⟨shellCommands listed sessionId events, events, more,
    shellProgress false now now (findRuntime sessions sessionId)⟩ after

def step (s : TranscriptReader) : TranscriptStep → Option TranscriptReader
  | .read sessions stored listed maxBytes now =>
      match s.pending with
      | some _ => none
      | none =>
          let data := page sessionId sessions stored listed s.cursor maxBytes now
          some { s with
            transcript := data.commands.foldl Transcript.learn s.transcript
            pending := some ⟨listed, data, data.events⟩
            last := none }
  | .event =>
      match s.pending with
      | some ⟨listed, data, event :: left⟩ =>
          some { s with
            transcript := s.transcript.appendEvent event
            pending := some ⟨listed, data, left⟩ }
      | _ => none
  | .settle =>
      match s.pending with
      | some ⟨listed, data, []⟩ =>
          some {
            cursor := Reader.furthest TerminalEvent.sequence s.cursor data.events
            transcript := s.transcript.settle rfc3339 data.commands data.events.isEmpty data.hasMore
            pending := none
            last := if data.hasMore then none else some listed }
      | _ => none

def machine : Machine TranscriptReader TranscriptStep := ⟨step rfc3339 sessionId⟩

end Steps

variable {rfc3339 : DateTime → String} {sessionId : String} {s s' : TranscriptReader}

theorem run_events {listed : Storage} {data : EventsData} {left : List TerminalEvent}
    (hpending : s.pending = some ⟨listed, data, left⟩) :
    (machine rfc3339 sessionId).run s (List.replicate left.length .event) =
      some { s with
        transcript := left.foldl Transcript.appendEvent s.transcript
        pending := some ⟨listed, data, []⟩ } := by
  induction left generalizing s with
  | nil =>
      rw [← hpending]
      rfl
  | cons event left ih =>
      rw [List.length_cons, List.replicate_succ, Machine.run_cons]
      have hstep : (machine rfc3339 sessionId).step s .event = some { s with
          transcript := s.transcript.appendEvent event
          pending := some ⟨listed, data, left⟩ } := by
        simp only [machine, step, hpending]
      rw [hstep, Option.bind_some, ih rfl]
      rfl

/-- The steps of a page, one after another, are the transcript's append of that page. -/
theorem run_page {sessions : List SessionRuntime} {stored listed : Storage} {maxBytes : Nat}
    {now : Now} {data : EventsData} (hpending : s.pending = none)
    (hdata : page sessionId sessions stored listed s.cursor maxBytes now = data) :
    (machine rfc3339 sessionId).run s (.read sessions stored listed maxBytes now ::
        List.replicate data.events.length .event ++ [.settle]) =
      some {
        cursor := Reader.furthest TerminalEvent.sequence s.cursor data.events
        transcript := s.transcript.appendTranscript rfc3339 data.commands data.events data.hasMore
        pending := none
        last := if data.hasMore then none else some listed } := by
  have hread : (machine rfc3339 sessionId).step s (.read sessions stored listed maxBytes now) =
      some { s with
        transcript := data.commands.foldl Transcript.learn s.transcript
        pending := some ⟨listed, data, data.events⟩
        last := none } := by
    simp only [machine, step, hpending, hdata]
  rw [List.cons_append, Machine.run_cons, hread, Option.bind_some, Machine.run_append,
    run_events rfl]
  rfl

/-- Every exec event stands under its own command's header, and after the last page of a read
every command that has ended and has been shown has one exit label. -/
structure Attributes (s : TranscriptReader) : Prop where
  headed : s.transcript.Headed
  labelled : ∀ listed ∈ s.last, ∀ id ∈ s.transcript.outputs, listed.Ended id →
    s.transcript.labels.count id = 1

section Settling

variable (rfc3339)

/-- The command that a page without events begins. -/
def latest (page : PendingPage) : Option CommandInfo :=
  if page.data.events.isEmpty then Transcript.latestStarted rfc3339 page.data.commands else none

/-- When a page begins a command, the active one may be left; when the last page begins none and
the active command has been shown and has ended, the transcript knows of its end. -/
structure Settles (t : Transcript) (page : PendingPage) : Prop where
  begun : (∃ command ∈ latest rfc3339 page, t.Begins command) → t.Leavable
  known : (∀ command ∈ latest rfc3339 page, ¬ t.Begins command) → page.data.hasMore = false →
    ∀ id ∈ t.activeCommandId, id ∈ t.outputs → page.listed.Ended id → (t.knownEnded id).isSome

/-- What a step must find for the transcript to stay right. -/
def Kept (s : TranscriptReader) : TranscriptStep → Prop
  | .read .. => True
  | .event => ∀ page ∈ s.pending, ∀ event ∈ page.left.head?, s.transcript.Places event
  | .settle => ∀ page ∈ s.pending, Settles rfc3339 s.transcript page

end Settling

theorem foldl_choose_mem {choose : CommandInfo → CommandInfo → CommandInfo}
    (hchoose : ∀ left right, choose left right = left ∨ choose left right = right)
    (best : CommandInfo) (rest : List CommandInfo) : rest.foldl choose best ∈ best :: rest := by
  induction rest generalizing best with
  | nil => exact List.mem_cons_self
  | cons right rest ih =>
      rw [List.foldl_cons]
      have hmem := ih (choose best right)
      cases hchoose best right with
      | inl hleft =>
          rw [hleft] at hmem ⊢
          exact List.mem_cons.mpr ((List.mem_cons.mp hmem).imp_right (List.mem_cons_of_mem right))
      | inr hright =>
          rw [hright] at hmem ⊢
          exact List.mem_cons_of_mem best hmem

theorem latestStarted_mem {commands : List CommandInfo} {command : CommandInfo}
    (h : Transcript.latestStarted rfc3339 commands = some command) : command ∈ commands := by
  cases commands with
  | nil => cases h
  | cons first rest =>
      cases h
      exact foldl_choose_mem (fun left right => ite_eq_or_eq _ left right) first rest

theorem mem_of_latest {page : PendingPage} {command : CommandInfo}
    (h : command ∈ latest rfc3339 page) : command ∈ page.data.commands := by
  rw [latest] at h
  split at h
  · exact latestStarted_mem h
  · cases h

/-- The rows of a page are those of its tables, and the transcript has learnt them. -/
def Learnt (t : Transcript) (page : PendingPage) : Prop :=
  ∀ command ∈ page.data.commands,
    page.listed.command command.id = some command ∧ t.commands command.id = some command

section Settle

variable {t : Transcript} {page : PendingPage}

def begun (rfc3339 : DateTime → String) (t : Transcript) (page : PendingPage) : Transcript :=
  (latest rfc3339 page).elim t t.beginTranscriptCommand

theorem settle_eq : t.settle rfc3339 page.data.commands page.data.events.isEmpty
    page.data.hasMore =
      if page.data.hasMore then begun rfc3339 t page
      else (begun rfc3339 t page).finishTranscriptCommand false := by
  have hbegun : (if page.data.events.isEmpty then
      ((Transcript.latestStarted rfc3339 page.data.commands).map
        t.beginTranscriptCommand).getD t else t) = begun rfc3339 t page := by
    rw [begun, latest]
    split
    · cases Transcript.latestStarted rfc3339 page.data.commands <;> rfl
    · rfl
  rw [Transcript.settle]
  rw [hbegun]

/-- The active command after a page has begun its latest one. -/
theorem begun_known (h : t.Accounted) (hlearnt : Learnt t page)
    (hsettles : Settles rfc3339 t page) : (begun rfc3339 t page).Accounted ∧
      (page.data.hasMore = false → ∀ id ∈ (begun rfc3339 t page).activeCommandId,
        id ∈ (begun rfc3339 t page).outputs → page.listed.Ended id →
          ((begun rfc3339 t page).knownEnded id).isSome) := by
  by_cases hbegins : ∃ command ∈ latest rfc3339 page, t.Begins command
  · obtain ⟨command, hlatest, hbegins⟩ := hbegins
    have hsame : begun rfc3339 t page = t.beginTranscriptCommand command := by
      rw [begun, Option.mem_def.mp hlatest, Option.elim_some]
    rw [hsame]
    refine ⟨h.begins hbegins (hsettles.begun ⟨command, hlatest, hbegins⟩), fun _ id hid _ => ?_⟩
    rw [Transcript.activeCommandId_begin hbegins] at hid
    obtain rfl := Option.some.inj hid
    obtain ⟨hrow, hknown⟩ := hlearnt command (mem_of_latest hlatest)
    intro hended
    rw [Transcript.knownEnded, Transcript.commands_begin, hknown, Option.filter_some]
    obtain ⟨row, hmem, hover⟩ := hended
    cases hrow.symm.trans hmem
    rw [if_pos (by simpa using hover), Option.isSome_some]
  · have hnone : ∀ command ∈ latest rfc3339 page, ¬ t.Begins command :=
      fun command hlatest hb => hbegins ⟨command, hlatest, hb⟩
    have hsame : begun rfc3339 t page = t := by
      rw [begun]
      cases hlatest : latest rfc3339 page with
      | none => rfl
      | some command => exact Transcript.begin_of_not (hnone command hlatest)
    rw [hsame]
    exact ⟨h, hsettles.known hnone⟩

theorem accounted_settle (h : t.Accounted) (hlearnt : Learnt t page)
    (hsettles : Settles rfc3339 t page) {t' : Transcript}
    (ht' : t.settle rfc3339 page.data.commands page.data.events.isEmpty page.data.hasMore = t') :
    t'.Accounted ∧ (page.data.hasMore = false → ∀ id ∈ t'.outputs, page.listed.Ended id →
      t'.labels.count id = 1) := by
  obtain ⟨hbegun, hknown⟩ := begun_known h hlearnt hsettles
  rw [settle_eq] at ht'
  generalize begun rfc3339 t page = between at hbegun hknown ht'
  cases hmore : page.data.hasMore with
  | true =>
      rw [hmore, if_pos rfl] at ht'
      exact ⟨ht' ▸ hbegun, nofun⟩
  | false =>
      rw [hmore, if_neg Bool.false_ne_true] at ht'
      have hf := hbegun.finishes false
      rw [ht'] at hf
      have hafter := hbegun.finish hf nofun
      refine ⟨hafter, fun _ id hout hended => ?_⟩
      have hlabel : id ∈ t'.labels := by
        refine (hafter.shown id hout).resolve_left fun hactive => ?_
        cases hf with
        | kept hkept =>
            cases hkept id hactive with
            | inl hempty => exact hafter.named (hempty ▸ hout)
            | inr hunknown =>
                have hover := hknown hmore id hactive hout hended
                rw [hunknown.1] at hover
                cases hover
        | dropped _ _ hforce => cases hforce
        | labelled => cases hactive
      exact List.count_eq_one_of_mem hafter.once hlabel

end Settle

/-- What every step keeps. -/
structure Sound (s : TranscriptReader) : Prop where
  accounted : s.transcript.Accounted
  learnt : ∀ page ∈ s.pending, Learnt s.transcript page
  reading : ∀ page ∈ s.pending, s.last = none
  labelled : ∀ listed ∈ s.last, ∀ id ∈ s.transcript.outputs, listed.Ended id →
    s.transcript.labels.count id = 1

theorem learnt_page {sessions : List SessionRuntime} {stored listed : Storage} {maxBytes : Nat}
    {now : Now} {data : EventsData} (t : Transcript)
    (hdata : page sessionId sessions stored listed s.cursor maxBytes now = data) :
    Learnt (data.commands.foldl Transcript.learn t) ⟨listed, data, data.events⟩ := by
  intro command hcommand
  have hrow {row : CommandInfo} (hrow : row ∈ data.commands) :
      listed.command row.id = some row := by
    rw [← hdata] at hrow
    exact (mem_shellCommands hrow).1
  refine ⟨hrow hcommand, ?_⟩
  cases @Transcript.learnt t data.commands command.id with
  | inl hnone => exact absurd rfl (hnone.1 command hcommand)
  | inr hsome =>
      obtain ⟨row, hmem, hid, hknown⟩ := hsome
      have hsame := hrow hmem
      rw [hid, hrow hcommand] at hsame
      rw [hknown, hsame]

theorem Sound.step (h : s.Sound) {step : TranscriptStep} (hkept : Kept rfc3339 s step)
    (hstep : TranscriptReader.step rfc3339 sessionId s step = some s') : s'.Sound := by
  cases step with
  | read sessions stored listed maxBytes now =>
      simp only [TranscriptReader.step] at hstep
      split at hstep <;> cases hstep
      refine ⟨h.accounted.learns _, fun page hpage => ?_, fun _ _ => rfl, fun _ h => by cases h⟩
      cases hpage
      exact learnt_page s.transcript rfl
  | event =>
      simp only [TranscriptReader.step] at hstep
      split at hstep
      · rename_i listed data event left hpending
        cases hstep
        have hlast := h.reading _ hpending
        refine ⟨h.accounted.appendEvent (hkept _ hpending event rfl), fun page hpage => ?_,
          fun _ _ => hlast, fun listed hlisted => ?_⟩
        · cases hpage
          intro command hcommand
          rw [Transcript.commands_appendEvent]
          exact h.learnt _ hpending command hcommand
        · rw [hlast] at hlisted
          cases hlisted
      · cases hstep
  | settle =>
      simp only [TranscriptReader.step] at hstep
      split at hstep
      · rename_i listed data hpending
        cases hstep
        obtain ⟨hafter, hlabels⟩ := accounted_settle h.accounted (h.learnt _ hpending)
          (hkept _ hpending) rfl
        refine ⟨hafter, fun _ h => (by cases h), fun _ h => (by cases h),
          fun tables htables => ?_⟩
        obtain ⟨hmore, rfl⟩ : data.hasMore = false ∧ listed = tables := by simpa using htables
        exact hlabels hmore
      · cases hstep

theorem accounted_empty : Transcript.empty.Accounted where
  keys _ _ h := by cases h
  header _ h := by cases h
  left _ := rfl
  active _ h := by cases h
  headed := attributed_nil TerminalWrite.headed TerminalWrite.owner
  once := List.nodup_nil
  labelled := nofun
  named := nofun
  shown := nofun

theorem sound_start : start.Sound where
  accounted := accounted_empty
  learnt _ h := by cases h
  reading _ _ := rfl
  labelled _ h := by cases h

/-- In every run whose steps leave no command too early and no label behind, output stands under
the header of its command, and after the last page every command that has ended has its one
label. -/
theorem output_attributed {steps : List TranscriptStep}
    (hkept : (machine rfc3339 sessionId).Meets (Kept rfc3339) start steps)
    (hrun : (machine rfc3339 sessionId).run start steps = some s) : s.Attributes := by
  have hsound := (machine rfc3339 sessionId).invariant_under (I := Sound)
    (fun _ _ _ h hkept hstep => h.step hkept hstep) sound_start hkept hrun
  exact ⟨hsound.accounted.headed, hsound.labelled⟩

instance decidableHeaded (t : Transcript) : Decidable t.Headed :=
  inferInstanceAs (Decidable (Attributed _ _ _))

instance decidableLeavable (t : Transcript) : Decidable t.Leavable := by
  rw [Transcript.Leavable]
  infer_instance

instance decidablePlaces (t : Transcript) (event : TerminalEvent) : Decidable (t.Places event) := by
  rw [Transcript.Places]
  split <;> infer_instance

instance decidableEnded (s : Storage) (id : String) : Decidable (s.Ended id) := by
  rw [Storage.Ended]
  infer_instance

instance decidableSettles (t : Transcript) (page : PendingPage) :
    Decidable (Settles rfc3339 t page) :=
  decidable_of_iff
    (((∃ command ∈ latest rfc3339 page, t.Begins command) → t.Leavable) ∧
      ((∀ command ∈ latest rfc3339 page, ¬ t.Begins command) → page.data.hasMore = false →
        ∀ id ∈ t.activeCommandId, id ∈ t.outputs → page.listed.Ended id →
          (t.knownEnded id).isSome))
    ⟨fun h => ⟨h.1, h.2⟩, fun h => ⟨h.begun, h.known⟩⟩

instance decidableKept (s : TranscriptReader) : DecidablePred (Kept rfc3339 s) := by
  intro step
  simp only [Kept]
  split <;> infer_instance

/-- The starts of the two commands below. -/
def startText (time : DateTime) : String :=
  if time ≤ 0 then "1970-01-01T00:00:00Z" else "1970-01-01T00:00:01Z"

def outputOf (id : String) (sequence : Nat) : TerminalEvent :=
  ⟨"s", some id, sequence, 0, .stdout, [111, 107, 10], true⟩

def commandRow (id : String) (startedAt : DateTime) (exit : Option UInt32)
    (events : List TerminalEvent) : CommandInfo :=
  let own := events.filter fun event => event.commandId == some id
  { id := id
    sessionId := "s"
    command := id
    status := if exit.isSome then .completed else .running
    exitCode := exit
    startedAt := startedAt
    finishedAt := exit.map fun _ => startedAt
    lastSequence := (own.getLast?.map TerminalEvent.sequence).getD 0
    recordingTruncated := false
    outputBytes := payloadBytes own }

/-- The tables of a session with the commands `a` and `b`. -/
def twoCommands (exitA exitB : Option UInt32) (events : List TerminalEvent) : Storage where
  db :=
    { sessions := [⟨.created "s" "t" "t" "p" "m" ⟨0, 0⟩, payloadBytes events⟩]
      commands := [commandRow "a" 0 exitA events, commandRow "b" 1000000000 exitB events]
      events := events }
  recordingLimitBytes := 1000

/-- A page of `count` events is read and taken. -/
def readsPage (tables : Storage) (count : Nat) : List TranscriptStep :=
  .read [] tables tables 65536 ⟨0, 0⟩ :: List.replicate count .event ++ [.settle]

/-- `b` begins to write when `a` has ended. -/
def oneAfterAnother : List TranscriptStep :=
  readsPage (twoCommands none none [outputOf "a" 1]) 1 ++
  readsPage (twoCommands (some 0) none [outputOf "a" 1, outputOf "a" 2, outputOf "b" 3]) 2 ++
  readsPage (twoCommands (some 0) (some 0) [outputOf "a" 1, outputOf "a" 2, outputOf "b" 3]) 0

theorem output_attributed_oneAfterAnother :
    ∃ s, (machine startText "s").run start oneAfterAnother = some s ∧
      s.transcript.outputs = ["a", "a", "b"] ∧ s.transcript.labels = ["a", "b"] ∧
      s.Attributes := by
  have hall : (((machine startText "s").run start oneAfterAnother).any fun s =>
      s.transcript.outputs == ["a", "a", "b"] && s.transcript.labels == ["a", "b"]) = true := by
    decide +kernel
  obtain ⟨s, hrun, hshown⟩ := (Option.any_eq_true _ _).mp hall
  rw [Bool.and_eq_true] at hshown
  exact ⟨s, hrun, eq_of_beq hshown.1, eq_of_beq hshown.2,
    output_attributed (by decide +kernel) hrun⟩

/-- Both commands run while they write by turns, and both have ended on the last page. -/
def byTurns : List TranscriptStep :=
  let events := [outputOf "a" 1, outputOf "b" 2, outputOf "a" 3]
  readsPage (twoCommands none none events) 3 ++ readsPage (twoCommands (some 0) (some 0) events) 0

theorem turns_are_shown_under_one_header :
    ∃ s, (machine startText "s").run start byTurns = some s ∧
      s.transcript.outputs = ["a", "b", "a"] ∧ s.transcript.labels = ["b"] ∧
      (∃ listed ∈ s.last, listed.Ended "a") ∧ ¬ s.transcript.Headed ∧ ¬ s.Attributes := by
  have hall : (((machine startText "s").run start byTurns).any fun s =>
      s.transcript.outputs == ["a", "b", "a"] && s.transcript.labels == ["b"] &&
        decide (∃ listed ∈ s.last, listed.Ended "a") && !decide s.transcript.Headed) = true := by
    decide +kernel
  obtain ⟨s, hrun, hshown⟩ := (Option.any_eq_true _ _).mp hall
  simp only [Bool.and_eq_true, decide_eq_true_eq, Bool.not_eq_true', decide_eq_false_iff_not,
    beq_iff_eq] at hshown
  obtain ⟨⟨⟨houtputs, hlabels⟩, hended⟩, hheaded⟩ := hshown
  exact ⟨s, hrun, houtputs, hlabels, hended, hheaded, fun h => hheaded h.headed⟩

end TranscriptReader
end AiSsh
