import AiSsh.Attribution
import AiSsh.Library.Transducer

/-!
The line ends of the transcript. The output of a command is written with a carriage return in
front of every line feed that has none; the last byte of one event decides about the first byte
of the next.
-/

namespace AiSsh

open Library

/-- What `execPayloadWithTerminalEol` returns. -/
structure TerminalEol where
  payload : Bytes
  previousWasCr : Bool
  atLineStart : Bool
  deriving DecidableEq, Repr

namespace TerminalEol

/-- The body of the loop over the bytes. -/
def push (s : TerminalEol) (byte : UInt8) : TerminalEol :=
  let output :=
    if byte = 0x0a ∧ s.previousWasCr = false then s.payload ++ [0x0d] else s.payload
  ⟨output ++ [byte], byte == 0x0d, byte == 0x0a⟩

/-- `execPayloadWithTerminalEol`, with all that it returns. -/
def convert (payload : Bytes) (previousWasCr : Bool) : TerminalEol :=
  payload.foldl push ⟨[], previousWasCr, false⟩

/-- The chunks one after another, with the flag carried. -/
def convertChunks : List Bytes → Bool → Bytes × Bool
  | [], previousWasCr => ([], previousWasCr)
  | chunk :: chunks, previousWasCr =>
      let first := convert chunk previousWasCr
      let (rest, last) := convertChunks chunks first.previousWasCr
      (first.payload ++ rest, last)

def converter : Transducer Bool UInt8 UInt8 where
  next _ byte := byte == 0x0d
  emit wasCr byte := if byte = 0x0a ∧ wasCr = false then [0x0d, byte] else [byte]

/-- The same with a mark on what the function has inserted. -/
def marker : Transducer Bool UInt8 (UInt8 × Bool) where
  next _ byte := byte == 0x0d
  emit wasCr byte :=
    if byte = 0x0a ∧ wasCr = false then [(0x0d, true), (byte, false)] else [(byte, false)]

theorem push_payload (s : TerminalEol) (byte : UInt8) :
    (s.push byte).payload = s.payload ++ converter.emit s.previousWasCr byte := by
  simp only [push, converter]
  split
  · exact List.append_assoc _ _ _
  · rfl

theorem foldl_push (s : TerminalEol) (payload : Bytes) :
    (payload.foldl push s).payload = s.payload ++ converter.output s.previousWasCr payload ∧
      (payload.foldl push s).previousWasCr = converter.last s.previousWasCr payload := by
  induction payload generalizing s with
  | nil => exact ⟨(List.append_nil _).symm, rfl⟩
  | cons byte payload ih =>
      obtain ⟨hpayload, hlast⟩ := ih (s.push byte)
      refine ⟨?_, hlast⟩
      rw [List.foldl_cons, hpayload, push_payload, Transducer.output, List.append_assoc]
      rfl

theorem convert_payload (payload : Bytes) (wasCr : Bool) :
    (convert payload wasCr).payload = converter.output wasCr payload :=
  (foldl_push ⟨[], wasCr, false⟩ payload).1

theorem convert_previousWasCr (payload : Bytes) (wasCr : Bool) :
    (convert payload wasCr).previousWasCr = converter.last wasCr payload :=
  (foldl_push ⟨[], wasCr, false⟩ payload).2

theorem convertChunks_eq (chunks : List Bytes) (wasCr : Bool) :
    convertChunks chunks wasCr = converter.chunked wasCr chunks := by
  induction chunks generalizing wasCr with
  | nil => rfl
  | cons chunk chunks ih =>
      rw [convertChunks, Transducer.chunked, convert_payload, convert_previousWasCr, ih]

theorem emit_inserted : converter.emit false 0x0a = [0x0d, 0x0a] := rfl

theorem emit_plain {wasCr : Bool} {byte : UInt8} (h : ¬(byte = 0x0a ∧ wasCr = false)) :
    converter.emit wasCr byte = [byte] := if_neg h

theorem getLast?_cons_of_some {byte last : UInt8} {before : Bytes}
    (h : before.getLast? = some last) : (byte :: before).getLast? = some last := by
  rw [List.getLast?_cons, h, Option.getD_some]

/-- A line feed is the first byte, and the flag says that a carriage return came before, or the
byte before it is one. -/
theorem lineFeed_after_cr {wasCr : Bool} {payload before after : Bytes}
    (h : converter.output wasCr payload = before ++ 0x0a :: after) :
    before = [] ∧ wasCr = true ∨ before.getLast? = some 0x0d := by
  induction payload generalizing wasCr before with
  | nil => cases before <;> cases h
  | cons byte payload ih =>
      rw [Transducer.output] at h
      by_cases hinsert : byte = 0x0a ∧ wasCr = false
      · obtain ⟨rfl, rfl⟩ := hinsert
        rw [emit_inserted] at h
        cases before with
        | nil => exact absurd (List.cons.inj h).1 (by decide)
        | cons first before =>
            obtain ⟨rfl, hsecond⟩ := List.cons.inj h
            cases before with
            | nil => exact .inr rfl
            | cons second before =>
                have hrest : converter.output false payload = before ++ 0x0a :: after :=
                  (List.cons.inj hsecond).2
                refine .inr (getLast?_cons_of_some (getLast?_cons_of_some ?_))
                exact (ih hrest).resolve_left fun hfirst => by cases hfirst.2
      · rw [emit_plain hinsert] at h
        cases before with
        | nil =>
            obtain ⟨rfl, -⟩ := List.cons.inj h
            exact .inl ⟨rfl, by simpa using hinsert⟩
        | cons first before =>
            obtain ⟨rfl, hsecond⟩ := List.cons.inj h
            have hrest : converter.output (byte == 0x0d) payload = before ++ 0x0a :: after :=
              hsecond
            cases ih hrest with
            | inl hfirst =>
                obtain ⟨rfl, hcr⟩ := hfirst
                exact .inr (congrArg some (eq_of_beq hcr))
            | inr hlast => exact .inr (getLast?_cons_of_some hlast)

/-- What has been converted stays as it is, with the state it was left in. -/
theorem convert_emit (wasCr : Bool) (byte : UInt8) :
    converter.output wasCr (converter.emit wasCr byte) = converter.emit wasCr byte ∧
      converter.last wasCr (converter.emit wasCr byte) = converter.next wasCr byte := by
  by_cases h : byte = 0x0a ∧ wasCr = false
  · obtain ⟨rfl, rfl⟩ := h
    exact ⟨rfl, rfl⟩
  · have hemit := emit_plain h
    rw [hemit, Transducer.output, hemit]
    exact ⟨rfl, rfl⟩

/-- The bytes the function was given, and not those it has put in. -/
def given (byte : UInt8 × Bool) : Option UInt8 := if byte.2 then none else some byte.1

theorem marker_emit (wasCr : Bool) (byte : UInt8) :
    (marker.emit wasCr byte).map Prod.fst = converter.emit wasCr byte ∧
      (marker.emit wasCr byte).filterMap given = [byte] := by
  simp only [marker, converter]
  split <;> exact ⟨rfl, rfl⟩

theorem marked_cr {wasCr : Bool} {payload : Bytes} {byte : UInt8 × Bool}
    (h : byte ∈ marker.output wasCr payload) (hinserted : byte.2 = true) : byte.1 = 0x0d := by
  induction payload generalizing wasCr with
  | nil => cases h
  | cons first payload ih =>
      rw [Transducer.output] at h
      cases List.mem_append.mp h with
      | inl hfirst =>
          simp only [marker] at hfirst
          split at hfirst
          · simp only [List.mem_cons, List.not_mem_nil, or_false] at hfirst
            cases hfirst with
            | inl hcr => rw [hcr]
            | inr hown =>
                rw [hown] at hinserted
                cases hinserted
          · rw [List.mem_singleton.mp hfirst] at hinserted
            cases hinserted
      | inr hrest => exact ih hrest

/-- Chunks are converted as the whole is; every line feed of the output comes directly after a
carriage return; the output without the carriage returns that were put in is the input; and the
conversion of an output changes nothing. -/
theorem convert_independent_of_chunks (chunks : List Bytes) :
    let whole := convert chunks.flatten false
    let marked := marker.output false chunks.flatten
    convertChunks chunks false = (whole.payload, whole.previousWasCr) ∧
    (∀ before after, whole.payload = before ++ 0x0a :: after → before.getLast? = some 0x0d) ∧
    marked.map Prod.fst = whole.payload ∧ (∀ byte ∈ marked, byte.2 = true → byte.1 = 0x0d) ∧
    marked.filterMap given = chunks.flatten ∧
    (convert whole.payload false).payload = whole.payload := by
  simp only [convertChunks_eq, Transducer.chunked_eq, convert_payload, convert_previousWasCr]
  have hmap := @Transducer.output_map _ _ _ converter _ marker Prod.fst rfl
    fun wasCr byte => (marker_emit wasCr byte).1
  refine ⟨trivial, fun before after h => ?_, hmap false _, fun byte => marked_cr, ?_, ?_⟩
  · exact (lineFeed_after_cr h).resolve_left fun hfirst => by cases hfirst.2
  · exact marker.output_filterMap (fun wasCr byte => (marker_emit wasCr byte).2) _ _
  · exact Transducer.output_output (fun wasCr byte => (convert_emit wasCr byte).1)
      (fun wasCr byte => (convert_emit wasCr byte).2) _ _

/-! What the transcript writes is converted so. -/

theorem execPayloadWithTerminalEol_eq (payload : Bytes) (wasCr : Bool) :
    execPayloadWithTerminalEol payload wasCr = (convert payload wasCr).payload := by
  rw [convert_payload]
  induction payload generalizing wasCr with
  | nil => rfl
  | cons byte payload ih =>
      rw [execPayloadWithTerminalEol, ih]
      rfl

theorem convert_previousWasCr_eq (payload : Bytes) (wasCr : Bool) :
    (convert payload wasCr).previousWasCr =
      if payload = [] then wasCr else endsWith payload 0x0d := by
  rw [convert_previousWasCr]
  cases payload.eq_nil_or_concat with
  | inl hempty =>
      subst hempty
      rfl
  | inr hlast =>
      obtain ⟨front, byte, rfl⟩ := hlast
      rw [if_neg (by simp), List.concat_eq_append, Transducer.last_append, endsWith,
        List.getLast?_append]
      rfl

end TerminalEol

/-- The bytes of an event on the terminal. -/
def TerminalWrite.payloadBytes : TerminalWrite → Bytes
  | .payload _ bytes => bytes
  | _ => []

namespace Transcript

variable {t : Transcript} {id : String}

/-- The output of the active command, event by event. -/
structure Active (t : Transcript) (id : String) : Prop where
  active : t.activeCommandId = some id
  keys : ∀ command ∈ t.commands id, command.id = id

theorem Active.appendEvent (h : t.Active id) (hid : id ≠ "") {event : TerminalEvent}
    (hevent : event.commandId = some id) : (t.appendEvent event).Active id ∧
      (t.appendEvent event).previousExecByteWasCr =
        (TerminalEol.convert event.payload t.previousExecByteWasCr).previousWasCr ∧
      (t.appendEvent event).written = t.written ++
        [.payload event (TerminalEol.convert event.payload t.previousExecByteWasCr).payload] := by
  have hexec : truthy (some id) = some id := by
    rw [truthy, Option.filter_some, if_pos (by simpa using hid)]
  have hsame : t.beginId id = t := beginId_of_not fun command hcommand hbegins =>
    hbegins.1 (by rw [h.keys command hcommand, h.active])
  have happend : t.appendEvent event =
      { (t.beginId id).write (.payload event
          (execPayloadWithTerminalEol event.payload (t.beginId id).previousExecByteWasCr)) with
        previousExecByteWasCr :=
          if event.payload = [] then (t.beginId id).previousExecByteWasCr
          else endsWith event.payload 0x0d
        atLineStart := endsWith event.payload 0x0a
        wroteOutput := true } := by
    rw [Transcript.appendEvent, hevent, hexec]
    rfl
  rw [hsame] at happend
  rw [happend, ← TerminalEol.execPayloadWithTerminalEol_eq, TerminalEol.convert_previousWasCr_eq]
  exact ⟨⟨h.active, h.keys⟩, rfl, rfl⟩

/-- The events of the active command are written as the whole of their payloads would be. -/
theorem Active.appendEvents (h : t.Active id) (hid : id ≠ "") {events : List TerminalEvent}
    (hevents : ∀ event ∈ events, event.commandId = some id) :
    (events.foldl Transcript.appendEvent t).written.flatMap TerminalWrite.payloadBytes =
        t.written.flatMap TerminalWrite.payloadBytes ++ (TerminalEol.convert
          (events.flatMap TerminalEvent.payload) t.previousExecByteWasCr).payload := by
  induction events generalizing t with
  | nil => exact (List.append_nil _).symm
  | cons event events ih =>
      obtain ⟨hevent, hrest⟩ := List.forall_mem_cons.mp hevents
      obtain ⟨hactive, hcr, hwritten⟩ := h.appendEvent hid hevent
      have hall : (event :: events).flatMap TerminalEvent.payload =
          event.payload ++ events.flatMap TerminalEvent.payload := rfl
      rw [List.foldl_cons, ih hactive hrest, hwritten, hcr, hall]
      simp [TerminalEol.convert_payload, TerminalEol.convert_previousWasCr,
        Transducer.output_append, TerminalWrite.payloadBytes]

end Transcript
end AiSsh
