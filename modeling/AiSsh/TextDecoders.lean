import AiSsh.Library.Utf8
import AiSsh.SessionPage
import Mathlib.Data.List.Induction
import Mathlib.Logic.Function.Basic

/-!
The text in which the MCP server shows recorded output. A character may be cut by the end
of an event, so the server keeps, for each stream, the bytes that the next event may
complete. What it keeps outlives the page: the same decoders serve every later page, of
whichever tool and from whichever cursor, and an event that has been shown before is read
without the bytes that came before it.
-/

namespace AiSsh

open Library

structure DecoderState where
  lastSequence : Nat := 0
  pending : Bytes := []
  deriving DecidableEq, Repr

/-- `TEXT_DECODERS`. A key that is not in the map reads as the default. -/
abbrev TextDecoders := String → DecoderState

namespace TextDecoders

def empty : TextDecoders := fun _ => {}

end TextDecoders

def streamName : StreamKind → String
  | .stdout => "stdout"
  | .stderr => "stderr"
  | .pty => "pty"
  | .system => "system"

/-- The key under which an event is decoded, on a page of `commandId` or of the session. -/
def streamKey (event : TerminalEvent) (commandId : Option String) : String :=
  match event.commandId.or commandId with
  | some id => "command:" ++ id ++ ":" ++ streamName event.stream
  | none => "session:" ++ event.sessionId ++ ":" ++ streamName event.stream

/-- The text of `bytes`, and those of them that wait for the next event. -/
def decodeBytes (bytes : Bytes) : String × Bytes :=
  match Utf8.decode bytes with
  | .ok text => (text, [])
  | .error ⟨valid, none⟩ => ((Utf8.decode (bytes.take valid)).toOption.getD "", bytes.drop valid)
  | .error ⟨_, some _⟩ => (Utf8.decodeLossy bytes, [])

def decodeEventText (decoders : TextDecoders) (key : String) (sequence : Nat)
    (payload : Bytes) : TextDecoders × String :=
  let state := decoders key
  let pending := if sequence ≤ state.lastSequence then [] else state.pending
  let (text, pending) := decodeBytes (pending ++ payload)
  (Function.update decoders key ⟨max state.lastSequence sequence, pending⟩, text)

structure DecodedEvent where
  stream : String
  text : String
  sequence : Nat
  persisted : Bool
  payload : Bytes
  deriving DecidableEq, Repr

def decodeEvent (decoders : TextDecoders) (event : TerminalEvent) (commandId : Option String) :
    TextDecoders × DecodedEvent :=
  let (decoders, text) :=
    decodeEventText decoders (streamKey event commandId) event.sequence event.payload
  (decoders, ⟨streamName event.stream, text, event.sequence, event.persisted, event.payload⟩)

def decodeEvents (commandId : Option String) :
    TextDecoders → List TerminalEvent → TextDecoders × List DecodedEvent
  | decoders, [] => (decoders, [])
  | decoders, event :: events =>
      let (decoders, decoded) := decodeEvent decoders event commandId
      let (decoders, rest) := decodeEvents commandId decoders events
      (decoders, decoded :: rest)

/-- `key.starts_with("command:{command_id}:")`. -/
def keyOfCommand (commandId key : String) : Bool :=
  ("command:" ++ commandId ++ ":").toList.isPrefixOf key.toList

def clearDecodersForCommand (decoders : TextDecoders) (commandId : String) : TextDecoders :=
  fun key => if keyOfCommand commandId key then {} else decoders key

/-- The commands whose decoders a page drops once it is shown. -/
def finishedCommands (page : EventsData) : List String :=
  (if page.deliveryComplete then (page.command.map CommandInfo.id).toList else []) ++
    if page.hasMore then []
    else (page.commands.filter fun value => value.status != .running).map CommandInfo.id

/-- What `public_json` shows of an `Events` answer. -/
def publicEvents (decoders : TextDecoders) (page : EventsData) :
    TextDecoders × List DecodedEvent :=
  let (decoders, decoded) :=
    decodeEvents (page.command.map CommandInfo.id) decoders page.events
  ((finishedCommands page).foldl clearDecodersForCommand decoders, decoded)

/-- One page after the other, by one process. -/
def publicPages : TextDecoders → List EventsData → TextDecoders × List DecodedEvent
  | decoders, [] => (decoders, [])
  | decoders, page :: pages =>
      let (decoders, decoded) := publicEvents decoders page
      let (decoders, rest) := publicPages decoders pages
      (decoders, decoded ++ rest)

example :
    (decodeEvents none .empty
      [⟨"s", some "c", 1, 0, .stdout, [0xE4], true⟩,
        ⟨"s", some "c", 2, 0, .stdout, [0xB8, 0xAD], true⟩]).2.map DecodedEvent.text =
      ["", "中"] := by decide

/-- What an event is read after: the bytes that wait for it, unless it has been shown before. -/
def heldFor (decoders : TextDecoders) (key : String) (sequence : Nat) : Bytes :=
  if sequence ≤ (decoders key).lastSequence then [] else (decoders key).pending

theorem decodeEvent_decoders (decoders : TextDecoders) (event : TerminalEvent)
    (commandId : Option String) :
    (decodeEvent decoders event commandId).1 =
      Function.update decoders (streamKey event commandId)
        ⟨max (decoders (streamKey event commandId)).lastSequence event.sequence,
          (decodeBytes (heldFor decoders (streamKey event commandId) event.sequence ++
            event.payload)).2⟩ := rfl

theorem decodeEvent_text (decoders : TextDecoders) (event : TerminalEvent)
    (commandId : Option String) :
    (decodeEvent decoders event commandId).2.text =
      (decodeBytes (heldFor decoders (streamKey event commandId) event.sequence ++
        event.payload)).1 := rfl

theorem decodeEvents_append (commandId : Option String) (decoders : TextDecoders)
    (xs ys : List TerminalEvent) :
    decodeEvents commandId decoders (xs ++ ys) =
      ((decodeEvents commandId (decodeEvents commandId decoders xs).1 ys).1,
        (decodeEvents commandId decoders xs).2 ++
          (decodeEvents commandId (decodeEvents commandId decoders xs).1 ys).2) := by
  induction xs generalizing decoders with
  | nil => rfl
  | cons event xs ih => simp only [List.cons_append, decodeEvents, ih]

/-- The events of a session: in the order of their numbers, which start at one. -/
structure Recorded (recorded : List TerminalEvent) : Prop where
  ascending : Ascending TerminalEvent.sequence recorded
  positive : ∀ event ∈ recorded, 0 < event.sequence

/-- What a stream has left over once its events are read in order. -/
def leftOver (key : String) (events : List TerminalEvent) : Bytes :=
  (events.filter fun event => streamKey event none == key).foldl
    (fun kept event => (decodeBytes (kept ++ event.payload)).2) []

theorem leftOver_append_one (key : String) (events : List TerminalEvent)
    (event : TerminalEvent) :
    leftOver key (events ++ [event]) =
      if streamKey event none = key then
        (decodeBytes (leftOver key events ++ event.payload)).2
      else leftOver key events := by
  unfold leftOver
  rw [List.filter_append, List.foldl_append]
  by_cases h : streamKey event none = key <;> simp [h]

theorem Recorded.front {xs ys : List TerminalEvent} (h : Recorded (xs ++ ys)) : Recorded xs :=
  ⟨h.ascending.sublist _ (List.sublist_append_left xs ys),
    fun event hevent => h.positive event (List.mem_append_left ys hevent)⟩

theorem Recorded.filter {recorded : List TerminalEvent} (h : Recorded recorded)
    (p : TerminalEvent → Bool) : Recorded (recorded.filter p) :=
  ⟨h.ascending.filter _ p, fun event hevent => h.positive event (List.mem_of_mem_filter hevent)⟩

/-- Reading in order, a decoder holds what its stream has left over, and has seen nothing
beyond what it was given. -/
theorem first_reading_state {events : List TerminalEvent} (h : Recorded events) (key : String) :
    ((decodeEvents none .empty events).1 key).pending = leftOver key events ∧
      ∀ bound, (∀ event ∈ events, event.sequence ≤ bound) →
        ((decodeEvents none .empty events).1 key).lastSequence ≤ bound := by
  induction events using List.reverseRecOn with
  | nil => exact ⟨rfl, fun bound _ => Nat.zero_le bound⟩
  | append_singleton events event ih =>
      obtain ⟨hpending, hlast⟩ := ih h.front
      have hbelow : ∀ earlier ∈ events, earlier.sequence < event.sequence := by
        intro earlier hearlier
        exact ((ascending_append _).mp h.ascending).2.2 earlier hearlier event (by simp)
      have hpositive : 0 < event.sequence := h.positive event (by simp)
      rw [decodeEvents_append, leftOver_append_one]
      change ((decodeEvent (decodeEvents none .empty events).1 event none).1 key).pending = _ ∧
        ∀ bound, _ → ((decodeEvent (decodeEvents none .empty events).1 event none).1
          key).lastSequence ≤ bound
      rw [decodeEvent_decoders]
      by_cases hkey : streamKey event none = key
      · subst hkey
        have hnew : ((decodeEvents none .empty events).1
            (streamKey event none)).lastSequence < event.sequence := by
          have hbound := hlast (event.sequence - 1) fun earlier hearlier => by
            have := hbelow earlier hearlier
            omega
          omega
        simp only [Function.update_self, if_true]
        refine ⟨?_, fun bound hbound => ?_⟩
        · rw [heldFor, if_neg (by omega), hpending]
        · have := hbound event (by simp)
          omega
      · rw [Function.update_of_ne (Ne.symm hkey), if_neg hkey]
        exact ⟨hpending, fun bound hbound =>
          hlast bound fun earlier hearlier => hbound earlier (List.mem_append_left _ hearlier)⟩

/-- The decoders once every event below `event` has been shown, each for the first time. -/
def earlierDecoders (recorded : List TerminalEvent) (event : TerminalEvent) : TextDecoders :=
  (decodeEvents none .empty
    (recorded.filter fun earlier => decide (earlier.sequence < event.sequence))).1

/-- The text of an event when the events are shown in order from the start. -/
def firstText (recorded : List TerminalEvent) (event : TerminalEvent) : String :=
  (decodeEvent (earlierDecoders recorded event) event none).2.text

/-- The bytes of a character that `event` finds begun on its stream. -/
def pendingBefore (recorded : List TerminalEvent) (event : TerminalEvent) : Bytes :=
  (earlierDecoders recorded event (streamKey event none)).pending

section FirstReading

variable {recorded : List TerminalEvent}

theorem pendingBefore_eq (h : Recorded recorded) (event : TerminalEvent) :
    pendingBefore recorded event = leftOver (streamKey event none)
      (recorded.filter fun earlier => decide (earlier.sequence < event.sequence)) :=
  (first_reading_state (h.filter _) _).1

theorem firstText_eq (h : Recorded recorded) {event : TerminalEvent} (hevent : event ∈ recorded) :
    firstText recorded event =
      (decodeBytes (pendingBefore recorded event ++ event.payload)).1 := by
  have hpositive := h.positive event hevent
  have hlast := (first_reading_state (h.filter fun earlier =>
    decide (earlier.sequence < event.sequence)) (streamKey event none)).2 (event.sequence - 1)
    fun earlier hearlier => by
      have := of_decide_eq_true (List.mem_filter.mp hearlier).2
      omega
  rw [firstText, decodeEvent_text, heldFor, if_neg ?_]
  · rfl
  · change ¬ event.sequence ≤
      ((decodeEvents none .empty (recorded.filter _)).1 (streamKey event none)).lastSequence
    omega

end FirstReading

theorem streamName_last (a b : StreamKind)
    (h : (streamName a).toList.getLast? = (streamName b).toList.getLast?) : a = b := by
  cases a <;> cases b <;> first | rfl | exact absurd h (by decide)

theorem streamName_ne_nil (a : StreamKind) : (streamName a).toList ≠ [] := by
  cases a <;> decide

/-- A key tells whose output it is. -/
theorem commandId_of_streamKey {event other : TerminalEvent} {id : String}
    (hevent : event.commandId = some id) (hkey : streamKey other none = streamKey event none) :
    other.commandId = some id := by
  have hlists := congrArg String.toList hkey
  cases hother : other.commandId with
  | none =>
      simp only [streamKey, hother, hevent, Option.none_or, Option.some_or,
        String.toList_append] at hlists
      exact absurd (congrArg List.head? hlists) (by simp)
  | some otherId =>
      simp only [streamKey, hother, hevent, Option.some_or, String.toList_append,
        List.append_assoc, List.append_cancel_left_eq] at hlists
      have hstream : other.stream = event.stream := by
        apply streamName_last
        have hlast := congrArg List.getLast? hlists
        simp only [List.getLast?_append] at hlast
        rw [List.getLast?_eq_some_getLast (streamName_ne_nil other.stream),
          List.getLast?_eq_some_getLast (streamName_ne_nil event.stream)] at hlast ⊢
        simpa only [Option.some_or] using hlast
      rw [hstream, List.append_cancel_right_eq] at hlists
      rw [String.toList_inj.mp hlists]

theorem liveSelects_iff {event : TerminalEvent} {after : Nat} {commandId : Option String} :
    liveSelects after commandId event = true ↔
      after < event.sequence ∧ ∀ id, commandId = some id → event.commandId = some id := by
  cases commandId <;> simp [liveSelects]

theorem streamKey_of_selected {event : TerminalEvent} {after : Nat} {commandId : Option String}
    (h : liveSelects after commandId event = true) :
    streamKey event commandId = streamKey event none := by
  cases commandId with
  | none => rfl
  | some id => simp only [streamKey, (liveSelects_iff.mp h).2 id rfl, Option.some_or]

theorem selected_of_streamKey {event other : TerminalEvent} {after cursor : Nat}
    {commandId : Option String} (hevent : liveSelects after commandId event = true)
    (hkey : streamKey other none = streamKey event none) (hcursor : cursor < other.sequence) :
    liveSelects cursor commandId other = true :=
  liveSelects_iff.mpr ⟨hcursor, fun id hid =>
    commandId_of_streamKey ((liveSelects_iff.mp hevent).2 id hid) hkey⟩

/-- `event` is the first of its stream among `events`. -/
def FirstOfStream (events : List TerminalEvent) (event : TerminalEvent) : Prop :=
  events.find? (fun e => streamKey e none == streamKey event none) = some event

instance (events : List TerminalEvent) (event : TerminalEvent) :
    Decidable (FirstOfStream events event) :=
  inferInstanceAs (Decidable (_ = _))

theorem FirstOfStream.mem {events : List TerminalEvent} {event : TerminalEvent}
    (h : FirstOfStream events event) : event ∈ events := List.mem_of_find?_eq_some h

theorem FirstOfStream.head (event : TerminalEvent) (events : List TerminalEvent) :
    FirstOfStream (event :: events) event := by
  simp [FirstOfStream]

theorem FirstOfStream.cons_of_ne {event other : TerminalEvent} {events : List TerminalEvent}
    (h : FirstOfStream events event) (hne : streamKey other none ≠ streamKey event none) :
    FirstOfStream (other :: events) event := by
  rw [FirstOfStream, List.find?_cons_of_neg (by simpa using hne)]
  exact h

/-- What a reader sees from `after` on, up to some event. -/
def Onward (recorded : List TerminalEvent) (commandId : Option String) (after : Nat)
    (events : List TerminalEvent) : Prop :=
  events <+: recorded.filter (liveSelects after commandId)

instance (recorded : List TerminalEvent) (commandId : Option String) (after : Nat)
    (events : List TerminalEvent) : Decidable (Onward recorded commandId after events) :=
  inferInstanceAs (Decidable (_ <+: _))

section Onward

variable {recorded : List TerminalEvent} {commandId : Option String} {after : Nat}

theorem Onward.selected {events : List TerminalEvent} (h : Onward recorded commandId after events)
    {event : TerminalEvent} (hevent : event ∈ events) :
    event ∈ recorded ∧ liveSelects after commandId event = true :=
  List.mem_filter.mp (h.subset hevent)

/-- Past its first event the reader sees what there is from that event on. -/
theorem Onward.tail (hrecorded : Recorded recorded) {event : TerminalEvent}
    {events : List TerminalEvent} (h : Onward recorded commandId after (event :: events)) :
    Onward recorded commandId event.sequence events ∧
      ∀ next ∈ events, event.sequence < next.sequence := by
  obtain ⟨rest, hrest⟩ := h
  have hasc : Ascending TerminalEvent.sequence (event :: (events ++ rest)) := by
    rw [← List.cons_append, hrest]
    exact hrecorded.ascending.filter _ _
  have hbeyond : ∀ next ∈ events ++ rest, event.sequence < next.sequence :=
    (List.pairwise_cons.mp hasc).1
  have hafter : after < event.sequence := by
    have hmem : event ∈ recorded.filter (liveSelects after commandId) :=
      hrest ▸ List.mem_cons_self
    exact (liveSelects_iff.mp (List.mem_filter.mp hmem).2).1
  refine ⟨⟨rest, ?_⟩, fun next hnext => hbeyond next (List.mem_append_left _ hnext)⟩
  have hsplit : recorded.filter (liveSelects event.sequence commandId) =
      (recorded.filter (liveSelects after commandId)).filter
        fun next => decide (event.sequence < next.sequence) := by
    rw [List.filter_filter]
    refine List.filter_congr fun next _ => ?_
    by_cases hnext : event.sequence < next.sequence
    · simp [liveSelects, hnext, Nat.lt_trans hafter hnext]
    · simp [liveSelects, hnext]
  rw [hsplit, ← hrest, List.cons_append, List.filter_cons_of_neg (by simp),
    List.filter_eq_self.mpr fun next hnext => decide_eq_true (hbeyond next hnext)]

end Onward

theorem leftOver_congr {key : String} {xs ys : List TerminalEvent}
    (h : (xs.filter fun event => streamKey event none == key) =
      ys.filter fun event => streamKey event none == key) :
    leftOver key xs = leftOver key ys := by
  rw [leftOver, h, leftOver]

/-- The next event of a stream finds what the one before it leaves over. -/
theorem pendingBefore_next {recorded : List TerminalEvent} (h : Recorded recorded)
    {event next : TerminalEvent} (hevent : event ∈ recorded)
    (hkey : streamKey next none = streamKey event none) (hlt : event.sequence < next.sequence)
    (hbetween : ∀ other ∈ recorded, streamKey other none = streamKey event none →
      other.sequence < next.sequence → other.sequence ≤ event.sequence) :
    pendingBefore recorded next =
      (decodeBytes (pendingBefore recorded event ++ event.payload)).2 := by
  rw [pendingBefore_eq h, pendingBefore_eq h, hkey]
  have hone := leftOver_append_one (streamKey event none)
    (recorded.filter fun earlier => decide (earlier.sequence < event.sequence)) event
  rw [if_pos rfl] at hone
  rw [← hone]
  refine leftOver_congr ?_
  have hasc : Ascending TerminalEvent.sequence
      (recorded.filter (fun earlier => decide (earlier.sequence < event.sequence)) ++ [event]) :=
    (ascending_append _).mpr ⟨h.ascending.filter _ _, List.pairwise_singleton _ _,
      fun a ha b hb => by
        rw [List.mem_singleton.mp hb]
        exact of_decide_eq_true (List.mem_filter.mp ha).2⟩
  refine Ascending.ext _ ((h.ascending.filter _ _).filter _ _) (hasc.filter _ _) fun other => ?_
  simp only [List.mem_filter, List.mem_append, List.mem_singleton, decide_eq_true_eq, beq_iff_eq]
  constructor
  · rintro ⟨⟨hother, hbelow⟩, hsame⟩
    refine ⟨?_, hsame⟩
    cases Nat.lt_or_eq_of_le (hbetween other hother hsame hbelow) with
    | inl hearlier => exact .inl ⟨hother, hearlier⟩
    | inr heq => exact .inr (h.ascending.key_inj _ hother hevent heq)
  · rintro ⟨⟨hother, hbelow⟩ | rfl, hsame⟩
    · exact ⟨⟨hother, Nat.lt_trans hbelow hlt⟩, hsame⟩
    · exact ⟨⟨hevent, hlt⟩, hsame⟩

/-- A decoder to which the next event of its stream is new holds what that event has to be
read after. -/
def Ready (recorded : List TerminalEvent) (decoders : TextDecoders)
    (events : List TerminalEvent) : Prop :=
  ∀ event ∈ events, FirstOfStream events event →
    (decoders (streamKey event none)).lastSequence < event.sequence →
      (decoders (streamKey event none)).pending = pendingBefore recorded event

section Reread

variable {recorded : List TerminalEvent} {commandId : Option String} {after : Nat}

/-- The next event of a stream is not separated from the one before it. -/
theorem Onward.next (hrecorded : Recorded recorded) {event next : TerminalEvent}
    {events : List TerminalEvent} (h : Onward recorded commandId after (event :: events))
    (hnext : FirstOfStream events next) (hkey : streamKey next none = streamKey event none) :
    pendingBefore recorded next =
      (decodeBytes (pendingBefore recorded event ++ event.payload)).2 := by
  obtain ⟨htail, hbeyond⟩ := h.tail hrecorded
  obtain ⟨hevent, hselected⟩ := h.selected List.mem_cons_self
  refine pendingBefore_next hrecorded hevent hkey (hbeyond next hnext.mem) ?_
  intro other hother hsame hbelow
  refine Nat.le_of_not_lt fun hlater => ?_
  obtain ⟨rest, hrest⟩ := htail
  obtain ⟨-, before, behind, hsplit, hbefore⟩ := List.find?_eq_some_iff_append.mp hnext
  have hmem : other ∈ before ++ (next :: behind ++ rest) := by
    rw [← List.append_assoc, ← hsplit, hrest]
    exact List.mem_filter.mpr ⟨hother, selected_of_streamKey hselected hsame hlater⟩
  have hasc : Ascending TerminalEvent.sequence (before ++ (next :: behind ++ rest)) := by
    rw [← List.append_assoc, ← hsplit, hrest]
    exact hrecorded.ascending.filter _ _
  cases List.mem_append.mp hmem with
  | inl hin =>
      have := hbefore other hin
      simp [hsame, hkey] at this
  | inr hin =>
      rcases List.mem_cons.mp hin with rfl | hin
      · exact Nat.lt_irrefl _ hbelow
      · have := (List.pairwise_cons.mp ((ascending_append _).mp hasc).2.1).1 other hin
        omega

theorem Ready.decodeEvent (hrecorded : Recorded recorded) {decoders : TextDecoders}
    {event : TerminalEvent} {events : List TerminalEvent}
    (honward : Onward recorded commandId after (event :: events))
    (hready : Ready recorded decoders (event :: events))
    (hseen : event.sequence ≤ (decoders (streamKey event none)).lastSequence →
      pendingBefore recorded event = []) :
    (decodeEvent decoders event commandId).2.text = firstText recorded event ∧
      Ready recorded (decodeEvent decoders event commandId).1 events := by
  obtain ⟨hevent, hselected⟩ := honward.selected List.mem_cons_self
  have hheld : heldFor decoders (streamKey event none) event.sequence =
      pendingBefore recorded event := by
    unfold heldFor
    split
    · rename_i hle
      exact (hseen hle).symm
    · rename_i hnew
      exact hready event List.mem_cons_self (.head event events) (Nat.lt_of_not_le hnew)
  have hsame := streamKey_of_selected hselected
  refine ⟨by rw [decodeEvent_text, firstText_eq hrecorded hevent, hsame, hheld], ?_⟩
  intro next hmem hnext
  rw [decodeEvent_decoders, hsame, hheld]
  by_cases hkey : streamKey next none = streamKey event none
  · rw [hkey, Function.update_self]
    exact fun _ => (honward.next hrecorded hnext hkey).symm
  · rw [Function.update_of_ne hkey]
    exact hready next (List.mem_cons_of_mem _ hmem) (hnext.cons_of_ne (Ne.symm hkey))

/-- The events of a page, each with the text it had at first. -/
theorem Ready.decodeEvents (hrecorded : Recorded recorded) {decoders : TextDecoders}
    {events later : List TerminalEvent}
    (honward : Onward recorded commandId after (events ++ later))
    (hready : Ready recorded decoders (events ++ later))
    (hseen : ∀ event ∈ events,
      event.sequence ≤ (decoders (streamKey event none)).lastSequence →
        pendingBefore recorded event = []) :
    (decodeEvents commandId decoders events).2.map DecodedEvent.text =
        events.map (firstText recorded) ∧
      Ready recorded (decodeEvents commandId decoders events).1 later := by
  induction events generalizing decoders after with
  | nil => exact ⟨rfl, hready⟩
  | cons event events ih =>
      obtain ⟨htext, hnext⟩ := Ready.decodeEvent hrecorded honward hready
        (hseen event List.mem_cons_self)
      obtain ⟨htail, hbeyond⟩ := Onward.tail hrecorded honward
      obtain ⟨htexts, hlater⟩ := ih htail hnext fun other hother hle => by
        refine hseen other (List.mem_cons_of_mem _ hother) ?_
        have hlt := hbeyond other (List.mem_append_left _ hother)
        rw [decodeEvent_decoders,
          streamKey_of_selected (honward.selected List.mem_cons_self).2] at hle
        by_cases hkey : streamKey other none = streamKey event none
        · rw [hkey, Function.update_self] at hle
          rw [hkey]
          change other.sequence ≤ max _ _ at hle
          omega
        · rwa [Function.update_of_ne hkey] at hle
      exact ⟨congrArg₂ List.cons htext htexts, hlater⟩

/-- Beyond the events of a page the reader goes on from some cursor. -/
theorem Onward.drop (hrecorded : Recorded recorded) {events later : List TerminalEvent}
    (h : Onward recorded commandId after (events ++ later)) :
    ∃ cursor, Onward recorded commandId cursor later := by
  induction events generalizing after with
  | nil => exact ⟨after, h⟩
  | cons event events ih => exact ih (Onward.tail hrecorded h).1

end Reread

theorem foldl_clearDecoders (ids : List String) (decoders : TextDecoders) (key : String) :
    ids.foldl clearDecodersForCommand decoders key =
      if ids.any (fun id => keyOfCommand id key) then {} else decoders key := by
  induction ids generalizing decoders with
  | nil => rfl
  | cons id ids ih =>
      rw [List.foldl_cons, ih, List.any_cons, clearDecodersForCommand]
      cases keyOfCommand id key <;> simp

/-- The page drops the decoder of `key` once it is shown. -/
def EventsData.forgets (page : EventsData) (key : String) : Bool :=
  (finishedCommands page).any fun id => keyOfCommand id key

theorem publicEvents_decoders (decoders : TextDecoders) (page : EventsData) (key : String) :
    (publicEvents decoders page).1 key =
      if page.forgets key then {}
      else (decodeEvents (page.command.map CommandInfo.id) decoders page.events).1 key :=
  foldl_clearDecoders _ _ _

/-- Pages of one reader from `after` on, where no stream is within a character. -/
structure Reread (recorded : List TerminalEvent) (commandId : Option String) (after : Nat)
    (pages : List EventsData) : Prop where
  command : ∀ page ∈ pages, page.command.map CommandInfo.id = commandId
  onward : Onward recorded commandId after (pages.flatMap EventsData.events)
  boundary : ∀ event ∈ pages.flatMap EventsData.events,
    FirstOfStream (pages.flatMap EventsData.events) event → pendingBefore recorded event = []

/-- A stream whose next event is new to its decoder has nothing left there. -/
def NothingStale (decoders : TextDecoders) (events : List TerminalEvent) : Prop :=
  ∀ event ∈ events, FirstOfStream events event →
    (decoders (streamKey event none)).lastSequence < event.sequence →
      (decoders (streamKey event none)).pending = []

instance (decoders : TextDecoders) (events : List TerminalEvent) :
    Decidable (NothingStale decoders events) :=
  inferInstanceAs (Decidable (∀ event ∈ events, _ → _ → _))

/-- No page shows again an event that begins within a character, and where a page drops a
decoder the next event of its stream does not. -/
def Legible (recorded : List TerminalEvent) : TextDecoders → List EventsData → Prop
  | _, [] => True
  | decoders, page :: pages =>
      (∀ event ∈ page.events,
        event.sequence ≤ (decoders (streamKey event none)).lastSequence →
          pendingBefore recorded event = []) ∧
      (∀ event ∈ pages.flatMap EventsData.events,
        FirstOfStream (pages.flatMap EventsData.events) event →
          page.forgets (streamKey event none) = true → pendingBefore recorded event = []) ∧
      Legible recorded (publicEvents decoders page).1 pages

theorem Ready.publicPages {recorded : List TerminalEvent} (hrecorded : Recorded recorded)
    {commandId : Option String} {after : Nat} {decoders : TextDecoders}
    {pages : List EventsData}
    (hcommand : ∀ page ∈ pages, page.command.map CommandInfo.id = commandId)
    (honward : Onward recorded commandId after (pages.flatMap EventsData.events))
    (hready : Ready recorded decoders (pages.flatMap EventsData.events))
    (hlegible : Legible recorded decoders pages) :
    (publicPages decoders pages).2.map DecodedEvent.text =
      (pages.flatMap EventsData.events).map (firstText recorded) := by
  induction pages generalizing decoders after with
  | nil => rfl
  | cons page pages ih =>
      obtain ⟨hseen, hdropped, hlater⟩ := hlegible
      rw [List.flatMap_cons] at honward hready
      obtain ⟨htexts, hnext⟩ := Ready.decodeEvents hrecorded honward hready hseen
      obtain ⟨cursor, honward⟩ := honward.drop hrecorded
      have hrest := ih (fun other hother => hcommand other (List.mem_cons_of_mem _ hother))
        honward ?_ hlater
      · rw [List.flatMap_cons, List.map_append, ← htexts, ← hrest,
          ← hcommand page List.mem_cons_self, ← List.map_append]
        rfl
      · intro event hevent hfirst
        rw [publicEvents_decoders, hcommand page List.mem_cons_self]
        cases hforgets : page.forgets (streamKey event none) with
        | true => exact fun _ => (hdropped event hevent hfirst hforgets).symm
        | false => exact hnext event hevent hfirst

/-- Whatever the process has shown before, a legible second reading gives the first text. -/
theorem reread_text {recorded : List TerminalEvent} (hrecorded : Recorded recorded)
    (history : List EventsData) {commandId : Option String} {after : Nat}
    {pages : List EventsData} (hreread : Reread recorded commandId after pages)
    (hstale : NothingStale (publicPages .empty history).1 (pages.flatMap EventsData.events))
    (hlegible : Legible recorded (publicPages .empty history).1 pages) :
    (publicPages (publicPages .empty history).1 pages).2.map DecodedEvent.text =
      (pages.flatMap EventsData.events).map (firstText recorded) := by
  refine Ready.publicPages hrecorded hreread.command hreread.onward ?_ hlegible
  intro event hevent hfirst hnew
  rw [hstale event hevent hfirst hnew, hreread.boundary event hevent hfirst]

section Examples

def exampleOutput (sequence : Nat) (payload : Bytes) : TerminalEvent :=
  ⟨"s", some "c", sequence, 0, .stdout, payload, true⟩

/-- A poll that finds the command still running. -/
def examplePoll (events : List TerminalEvent) (after : Nat) (more : Bool) : EventsData :=
  respondPoll ⟨⟨"c", "s", "make", .running, none, 0, none, 4, false, 5⟩, events, more, [],
    ⟨none, false, false, 0⟩⟩ after

def exampleCut : List TerminalEvent :=
  [exampleOutput 1 [0xE4], exampleOutput 2 [0xB8, 0xAD]]

/-- A character that two events share is lost when the command is polled again from 0. -/
theorem second_poll_differs :
    Recorded exampleCut ∧ Reread exampleCut (some "c") 0 [examplePoll exampleCut 0 false] ∧
      exampleCut.map (firstText exampleCut) = ["", "中"] ∧
      (publicPages .empty [examplePoll exampleCut 0 false]).2.map DecodedEvent.text =
        ["", "中"] ∧
      (publicPages (publicPages .empty [examplePoll exampleCut 0 false]).1
        [examplePoll exampleCut 0 false]).2.map DecodedEvent.text =
        ["", String.ofList [Utf8.replacement, Utf8.replacement]] := by
  refine ⟨⟨?_, by decide⟩, ⟨by decide, by decide, by decide⟩, by decide, by decide, by decide⟩
  exact (by decide : exampleCut.Pairwise fun a b => a.sequence < b.sequence)

def exampleWhole : List TerminalEvent :=
  exampleCut ++ [exampleOutput 3 [0x6F], exampleOutput 4 [0x6B]]

theorem reread_text_behind_cut :
    (publicPages (publicPages .empty [examplePoll (exampleWhole.take 3) 0 false]).1
      [examplePoll [exampleOutput 3 [0x6F]] 2 true,
        examplePoll [exampleOutput 4 [0x6B]] 3 false]).2.map DecodedEvent.text =
      [exampleOutput 3 [0x6F], exampleOutput 4 [0x6B]].map (firstText exampleWhole) := by
  refine @reread_text exampleWhole ⟨?_, by decide⟩ [examplePoll (exampleWhole.take 3) 0 false]
    (some "c") 2 _ ⟨by decide, by decide, by decide⟩ (by decide)
    ⟨by decide, by decide, by decide, by decide, trivial⟩
  exact (by decide : exampleWhole.Pairwise fun a b => a.sequence < b.sequence)

end Examples

end AiSsh
