import AiSsh.Library.Budget
import AiSsh.Library.Utf8Cuts
import AiSsh.PublicJson

/-!
The text channel of an answer. Output is shown under a budget that counts the texts and not
the tags of their streams; a file that is shown as text is not under the budget, and one that
is not falls through to the whole payload as JSON.
-/

namespace AiSsh

open Library Library.Json

/-- Ceiling for the text channel. -/
def textRenderBytes : Nat := 8 * 1024

def cappedNotice : String :=
  "\n[text rendering capped; use the structured payload or continue polling]\n"

def largerNotice : String := "\n[file is larger than bytes_returned; raise max_bytes for more]"

section Members

def member (payload : Option Value) (key : String) : Option Value := payload.bind (·.get key)

def strMember (payload : Option Value) (key : String) : Option String :=
  (member payload key).bind Value.asStr

def u64Member (payload : Option Value) (key : String) : Option Nat :=
  (member payload key).bind Value.asU64

def boolMember (payload : Option Value) (key : String) : Option Bool :=
  (member payload key).bind Value.asBool

end Members

/-- Appends at most `budget` bytes on a character boundary, and tells whether the whole value
fit. The cut is the end of the last character that starts before the budget. -/
def appendCapped (out value : String) (budget : Nat) : String × Nat × Bool :=
  if value.utf8ByteSize ≤ budget then (out ++ value, budget - value.utf8ByteSize, true)
  else
    (out ++ .ofList (Budget.startingBefore Char.utf8Size budget 0 value.toList), 0, false)

/-- The loop over the items of the output. -/
def appendItems (output : String) (budget : Nat) : List Value → String
  | [] => output
  | item :: items =>
      let text := (strMember (some item) "text").getD ""
      let stream := (strMember (some item) "stream").getD "stdout"
      let output :=
        if stream ≠ "stdout" ∧ text ≠ "" then output ++ ("[" ++ stream ++ "] ") else output
      match appendCapped output text budget with
      | (output, budget, true) => appendItems output budget items
      | (output, _, false) => output ++ cappedNotice

section Render

variable (floatText : Rat → String)

/-- The line before the output. -/
def outputHeader (payload : Value) : String :=
  let payload := some payload
  let command := member payload "command"
  let header := "status=" ++ (strMember command "status").getD "unknown"
  let header :=
    match (member command "exit_code").filter fun value => !value.isNull with
    | some code => header ++ " exit_code=" ++ code.text floatText
    | none => header
  let header := header ++
    " next_sequence=" ++ toString ((u64Member payload "next_sequence").getD 0) ++
    " has_more=" ++ toString ((boolMember payload "has_more").getD false) ++
    " poll_complete=" ++ toString ((boolMember payload "poll_complete").getD false)
  let header :=
    match member payload "progress" with
    | some progress =>
        let header :=
          match u64Member progress "seconds_since_last_output" with
          | some age => header ++ " quiet_for=" ++ toString age ++ "s"
          | none => header
        if boolMember progress "timed_out" = some true then
          header ++ " waited=" ++ toString ((u64Member progress "waited_seconds").getD 0) ++
            "s_timed_out"
        else header
    | none => header
  let header :=
    if boolMember payload "remote_state_unknown" = some true then
      header ++ " remote_state_unknown=true"
    else header
  header ++ "\n"

/-- The lines after the output. -/
def warningLines (payload : Value) : String :=
  match (member (some payload) "warnings").bind Value.asArray with
  | some warnings => warnings.foldl
      (fun out warning => out ++ ("warning: " ++ warning.asStr.getD "" ++ "\n")) ""
  | none => ""

def renderOutputText (payload : Value) (items : List Value) : String :=
  outputHeader floatText payload ++ appendItems "" textRenderBytes items ++ warningLines payload

def renderOutcomeText (payload : Value) : String :=
  let payload := some payload
  let out := (strMember payload "path").getD "" ++ " " ++
    toString ((u64Member payload "bytes").getD 0) ++ " bytes sha256=" ++
    (strMember payload "sha256").getD "not computed" ++ " verified=" ++
    toString ((boolMember payload "verified").getD false) ++ " changed=" ++
    toString ((boolMember payload "changed").getD false) ++ "\n"
  let out :=
    match strMember payload "local_path" with
    | some path => out ++ "local_path=" ++ path ++ "\n"
    | none => out
  if boolMember payload "verified" ≠ some true then
    out ++ "warning: the remote host reported no digest, so the transfer is unverified\n"
  else out

def fileHeader (payload : Value) : String :=
  let payload := some payload
  (strMember payload "path").getD "" ++ " " ++ toString ((u64Member payload "size").getD 0) ++
    " bytes (" ++ toString ((u64Member payload "bytes_returned").getD 0) ++
    " returned) truncated=" ++ toString ((boolMember payload "truncated").getD false)

/-- Human label of an enveloped answer. -/
def dataKind (payload : Value) : String :=
  match strMember (some payload) "kind" with
  | some "file_stat" => "stat"
  | some "file_content" => "read"
  | some "file_outcome" => "wrote"
  | _ => "file"

/-- At least four octal digits. -/
def octalMode (mode : Nat) : String :=
  let digits := Nat.toDigits 8 mode
  .ofList (List.replicate (4 - digits.length) '0' ++ digits)

def renderCommands (commands : List Value) : String :=
  commands.foldl (fun out item => out ++ ((strMember (some item) "id").getD "" ++ " " ++
    (strMember (some item) "status").getD "" ++ " " ++
    (strMember (some item) "command_preview").getD "" ++ "\n")) ""

/-- What the text describes: of an enveloped answer the data. -/
def renderedBody (payload : Value) : Value :=
  match payload.get "data" with
  | some data => if (payload.get "kind").isSome then data else payload
  | none => payload

/-- `render_text` of an answer that is no error. -/
def renderText (payload : Value) : String :=
  let body := renderedBody payload
  if let some chunks := (body.get "chunks").bind Value.asArray then
    renderOutputText floatText body chunks
  else if let some events := (body.get "events").bind Value.asArray then
    renderOutputText floatText body events
  else if (body.get "path").isSome ∧ (body.get "bytes").isSome then
    renderOutcomeText body
  else if let some text := (body.get "text").bind Value.asStr then
    let out := fileHeader body ++ "\n" ++ text
    if boolMember (some body) "truncated" = some true then out ++ largerNotice else out
  else if let some commands := ((body.get "commands").bind Value.asArray).filter
      fun commands => commands.all fun item => (item.get "command_preview").isSome then
    renderCommands commands
  else if (body.get "kind").isSome then
    dataKind payload ++ " " ++ (strMember (some body) "path").getD "" ++ " " ++
      toString ((u64Member (some body) "size").getD 0) ++ " bytes, mode " ++
      ((u64Member (some body) "mode").map octalMode).getD "unknown" ++ ", sha256 " ++
      (strMember (some body) "sha256").getD "not computed" ++ "\n"
  else
    payload.text floatText

end Render

section Items

/-- What the text channel shows of the output: streams and texts. -/
def shownItems (detail : Detail) (decoded : List DecodedEvent) : List (String × String) :=
  match detail with
  | .compact => (chunksOf decoded).map fun chunk => (chunk.stream, chunk.text)
  | .full => decoded.map fun event => (event.stream, event.text)

/-- The tag of an item and its text. -/
def itemPiece (item : String × String) : Budget.Piece Char where
  tag := if item.1 ≠ "stdout" ∧ item.2 ≠ "" then ("[" ++ item.1 ++ "] ").toList else []
  body := item.2.toList

def carriedOutput (items : List (String × String)) : String :=
  .ofList (Budget.capped Char.utf8Size textRenderBytes (items.map itemPiece))

def outputNotice (items : List (String × String)) : String :=
  if Budget.bodies Char.utf8Size (items.map itemPiece) ≤ textRenderBytes then ""
  else cappedNotice

/-- The loop shows the pieces that the budget allows, and notes when they are not all. -/
theorem appendItems_eq {β : Type} (value : β → Value) (item : β → String × String)
    (hstream : ∀ b, strMember (some (value b)) "stream" = some (item b).1)
    (htext : ∀ b, strMember (some (value b)) "text" = some (item b).2) (items : List β)
    (output : String) (budget : Nat) :
    appendItems output budget (items.map value) =
      output ++ .ofList (Budget.capped Char.utf8Size budget
        (items.map fun b => itemPiece (item b))) ++
        (if Budget.bodies Char.utf8Size (items.map fun b => itemPiece (item b)) ≤ budget then ""
          else cappedNotice) := by
  induction items generalizing output budget with
  | nil => simp [appendItems, Budget.capped, Budget.bodies]
  | cons b items ih =>
      have htag : (if (item b).1 ≠ "stdout" ∧ (item b).2 ≠ "" then
          output ++ ("[" ++ (item b).1 ++ "] ") else output) =
          output ++ .ofList (itemPiece (item b)).tag := by
        rw [itemPiece]
        split
        · rw [String.ofList_toList]
        · exact (String.append_empty).symm
      have hbody : (item b).2 = .ofList (itemPiece (item b)).body := (String.ofList_toList).symm
      have hsize : (item b).2.utf8ByteSize = total Char.utf8Size (itemPiece (item b)).body :=
        Utf8.utf8ByteSize_eq_total _
      simp only [List.map_cons, appendItems, hstream, htext, Option.getD_some, htag,
        appendCapped, Budget.capped, Budget.bodies_cons, hsize]
      by_cases hfits : total Char.utf8Size (itemPiece (item b)).body ≤ budget
      · simp only [if_pos hfits, ih]
        rw [String.ofList_append, String.ofList_append, ← hbody]
        simp only [String.append_assoc]
        congr 4
        exact if_congr (by omega) rfl rfl
      · have hover : ¬ total Char.utf8Size (itemPiece (item b)).body +
            Budget.bodies Char.utf8Size (items.map fun b => itemPiece (item b)) ≤ budget := by
          omega
        simp only [if_neg hfits, if_neg hover]
        rw [String.ofList_append]
        simp only [String.append_assoc]
        rfl

end Items

section Events

variable (rfc3339 : DateTime → String) (recordingLimitMib : Option Nat) (shaping : Shaping)
  (page : EventsData)

theorem get_eventsJson (decoded : List DecodedEvent) (key : String) :
    (eventsJson rfc3339 recordingLimitMib shaping page decoded).get key =
      if key = (outputValue shaping.detail decoded).1 then
        some (.array (outputValue shaping.detail decoded).2)
      else (pageObject rfc3339 recordingLimitMib shaping page).get key := by
  rw [eventsJson, Object.get_toValue, Object.get_insert]

/-- The lines around the output do not depend on it. -/
theorem outputHeader_congr (floatText : Rat → String) {p q : Value}
    (h : ∀ key, key ≠ "chunks" → key ≠ "events" → p.get key = q.get key) :
    outputHeader floatText p = outputHeader floatText q := by
  have hmember : ∀ key, key ≠ "chunks" → key ≠ "events" →
      member (some p) key = member (some q) key := h
  have hbool : ∀ key, key ≠ "chunks" → key ≠ "events" →
      boolMember (some p) key = boolMember (some q) key := fun key hchunks hevents => by
    rw [boolMember, hmember key hchunks hevents, boolMember]
  have hsequence : u64Member (some p) "next_sequence" = u64Member (some q) "next_sequence" := by
    rw [u64Member, hmember _ (by decide) (by decide), u64Member]
  simp only [outputHeader, hsequence, hmember "command" (by decide) (by decide),
    hmember "progress" (by decide) (by decide), hbool "has_more" (by decide) (by decide),
    hbool "poll_complete" (by decide) (by decide),
    hbool "remote_state_unknown" (by decide) (by decide)]

theorem warningLines_congr {p q : Value}
    (h : ∀ key, key ≠ "chunks" → key ≠ "events" → p.get key = q.get key) :
    warningLines p = warningLines q := by
  have hwarnings : member (some p) "warnings" = member (some q) "warnings" :=
    h _ (by decide) (by decide)
  rw [warningLines, hwarnings, warningLines]

theorem chunk_stream (chunk : Chunk) :
    strMember (some chunk.value) "stream" = some chunk.stream := by
  simp [strMember, member, Chunk.value, Object.of, Value.asStr]

theorem chunk_text (chunk : Chunk) : strMember (some chunk.value) "text" = some chunk.text := by
  simp [strMember, member, Chunk.value, Object.of, Value.asStr]

theorem event_stream (event : DecodedEvent) :
    strMember (some event.value) "stream" = some event.stream := by
  simp [strMember, member, DecodedEvent.value, Object.of, Value.asStr]

theorem event_text (event : DecodedEvent) :
    strMember (some event.value) "text" = some event.text := by
  simp [strMember, member, DecodedEvent.value, Object.of, Value.asStr]

/-- The items of the output are shown with their streams, under the budget. -/
theorem appendItems_output (detail : Detail) (decoded : List DecodedEvent) :
    appendItems "" textRenderBytes (outputValue detail decoded).2 =
      carriedOutput (shownItems detail decoded) ++ outputNotice (shownItems detail decoded) := by
  cases detail with
  | compact =>
      rw [outputValue, chunksFrom, appendItems_eq Chunk.value
        (fun chunk => (chunk.stream, chunk.text)) chunk_stream chunk_text, String.empty_append,
        carriedOutput, outputNotice, shownItems, List.map_map]
      rfl
  | full =>
      rw [outputValue, eventsFrom, appendItems_eq DecodedEvent.value
        (fun event => (event.stream, event.text)) event_stream event_text, String.empty_append,
        carriedOutput, outputNotice, shownItems, List.map_map]
      rfl

theorem renderedBody_eventsJson (decoded : List DecodedEvent) :
    renderedBody (eventsJson rfc3339 recordingLimitMib shaping page decoded) =
      eventsJson rfc3339 recordingLimitMib shaping page decoded := by
  have hdata : (eventsJson rfc3339 recordingLimitMib shaping page decoded).get "data" = none := by
    rw [get_eventsJson]
    cases shaping.detail with
    | compact => simp [outputValue, pageObject, Object.of]
    | full => simp [outputValue, pageObject, Object.of]
  rw [renderedBody, hdata]

theorem renderText_eventsJson (floatText : Rat → String) (decoded : List DecodedEvent) :
    renderText floatText (eventsJson rfc3339 recordingLimitMib shaping page decoded) =
      outputHeader floatText (eventsJson rfc3339 recordingLimitMib shaping page []) ++
        carriedOutput (shownItems shaping.detail decoded) ++
        outputNotice (shownItems shaping.detail decoded) ++
        warningLines (eventsJson rfc3339 recordingLimitMib shaping page []) := by
  have hrendered : renderText floatText
      (eventsJson rfc3339 recordingLimitMib shaping page decoded) =
      renderOutputText floatText (eventsJson rfc3339 recordingLimitMib shaping page decoded)
        (outputValue shaping.detail decoded).2 := by
    simp only [renderText, renderedBody_eventsJson, get_eventsJson]
    cases shaping.detail with
    | compact => simp [outputValue, Value.asArray]
    | full =>
        have hchunks : (pageObject rfc3339 recordingLimitMib shaping page).get "chunks" = none := by
          simp [pageObject, Object.of]
        simp [outputValue, Value.asArray, hchunks]
  have hsame : ∀ key, key ≠ "chunks" → key ≠ "events" →
      (eventsJson rfc3339 recordingLimitMib shaping page decoded).get key =
        (eventsJson rfc3339 recordingLimitMib shaping page []).get key := by
    intro key hchunks hevents
    rw [get_eventsJson, get_eventsJson]
    cases shaping.detail with
    | compact => rw [outputValue, outputValue, if_neg hchunks, if_neg hchunks]
    | full => rw [outputValue, outputValue, if_neg hevents, if_neg hevents]
  rw [hrendered, renderOutputText, appendItems_output, outputHeader_congr floatText hsame,
    warningLines_congr hsame]
  simp only [String.append_assoc]

end Events

section Files

variable (floatText : Rat → String) (info : FileContentInfo) (detail : Detail)

/-- Whether the content of a file is shown as text. -/
def ShownAsText (info : FileContentInfo) (encoding : Encoding) : Prop :=
  encoding = .text ∧ info.isUtf8 = true

instance (info : FileContentInfo) (encoding : Encoding) : Decidable (ShownAsText info encoding) :=
  inferInstanceAs (Decidable (_ ∧ _))

theorem renderedBody_enveloped (kind : String) (data : Value) :
    renderedBody (enveloped kind data) = data := by
  simp [renderedBody, enveloped, Object.of]

theorem get_fileContentJson (encoding : Encoding) {key : String} (htext : key ≠ "text")
    (hbase64 : key ≠ "data_base64") (hencoding : key ≠ "encoding") :
    (fileContentJson info detail encoding).get key = (contentObject info).get key := by
  simp only [fileContentJson, Object.get_toValue]
  split <;> split <;> split <;> simp [htext, hbase64, hencoding]

theorem fileHeader_fileContentJson (encoding : Encoding) :
    fileHeader (fileContentJson info detail encoding) =
      fileHeader (contentObject info).toValue := by
  have hmember : ∀ key, key ≠ "text" → key ≠ "data_base64" → key ≠ "encoding" →
      member (some (fileContentJson info detail encoding)) key =
        member (some (contentObject info).toValue) key := fun key =>
    get_fileContentJson info detail encoding
  simp only [fileHeader, strMember, u64Member, boolMember,
    hmember "path" (by decide) (by decide) (by decide),
    hmember "size" (by decide) (by decide) (by decide),
    hmember "bytes_returned" (by decide) (by decide) (by decide),
    hmember "truncated" (by decide) (by decide) (by decide)]

/-- A file is no page of output, no outcome and no list of commands: its text is shown, or
else the whole payload. -/
theorem renderText_fileContent (encoding : Encoding) :
    renderText floatText (enveloped "file_content" (fileContentJson info detail encoding)) =
      (((fileContentJson info detail encoding).get "text").bind Value.asStr).elim
        ((enveloped "file_content" (fileContentJson info detail encoding)).text floatText)
        fun text => fileHeader (contentObject info).toValue ++ "\n" ++ text ++
          (if info.truncated then largerNotice else "") := by
  have habsent : ∀ key, key ∈ ["chunks", "events", "bytes", "commands", "kind"] →
      (fileContentJson info detail encoding).get key = none := by
    intro key hkey
    simp only [List.mem_cons, List.not_mem_nil, or_false] at hkey
    rcases hkey with rfl | rfl | rfl | rfl | rfl <;>
      (rw [get_fileContentJson _ _ _ (by decide) (by decide) (by decide)]
       simp [contentObject, Object.of])
  have htruncated : boolMember (some (fileContentJson info detail encoding)) "truncated" =
      some info.truncated := by
    rw [boolMember, member, Option.bind_some,
      get_fileContentJson _ _ _ (by decide) (by decide) (by decide)]
    simp [contentObject, Object.of, Value.asBool]
  simp only [renderText, renderedBody_enveloped, habsent "chunks" (by decide),
    habsent "events" (by decide), habsent "bytes" (by decide), habsent "commands" (by decide),
    habsent "kind" (by decide), htruncated, fileHeader_fileContentJson]
  cases ((fileContentJson info detail encoding).get "text").bind Value.asStr with
  | none => simp
  | some text =>
      cases info.truncated with
      | false => simp
      | true => simp

theorem get_text_fileContentJson (encoding : Encoding) :
    (fileContentJson info detail encoding).get "text" =
      if ShownAsText info encoding then some (.string (Utf8.decodeLossy info.data)) else none := by
  have habsent : (contentObject info).get "text" = none := by simp [contentObject, Object.of]
  by_cases hshown : ShownAsText info encoding
  · have hincluded : encoding = .text ∧ info.isUtf8 = true := hshown
    rw [if_pos hshown]
    simp only [fileContentJson, Object.get_toValue, if_pos hincluded]
    split <;> split <;> simp
  · have hincluded : ¬ (encoding = .text ∧ info.isUtf8 = true) := hshown
    rw [if_neg hshown]
    simp only [fileContentJson, Object.get_toValue, if_neg hincluded]
    split <;> split <;> simp [habsent]

/-- What is not shown as text is in the payload in Base64. -/
theorem fileContentJson_base64 {encoding : Encoding} (h : ¬ ShownAsText info encoding) :
    ∃ object : Value → Object, Object.HasSlot "data_base64" object ∧
      ∀ data, fileContentJson { info with data } detail encoding =
        (object (.string (Base64.encode data))).toValue := by
  have hother : "encoding" ≠ "data_base64" := by decide
  have hslot := (Object.hasSlot_insert (contentObject info) "data_base64").insert hother
    (.string (if info.isUtf8 then "text" else "binary"))
  cases encoding with
  | base64 =>
      refine ⟨_, hslot.insert hother (.string "base64"), fun data => ?_⟩
      simp [fileContentJson, contentObject]
  | text =>
      refine ⟨_, hslot, fun data => ?_⟩
      have hutf8 : info.isUtf8 = false := by simpa [ShownAsText] using h
      simp [fileContentJson, contentObject, hutf8]

/-- The content of a file is in the text, as text or in Base64. -/
theorem renderText_splits (encoding : Encoding) :
    ∃ before after, ∀ data,
      renderText floatText (enveloped "file_content"
        (fileContentJson { info with data } detail encoding)) =
      before ++ (if ShownAsText info encoding then Utf8.decodeLossy data else Base64.encode data) ++
        after := by
  by_cases h : ShownAsText info encoding
  · refine ⟨fileHeader (contentObject info).toValue ++ "\n",
      if info.truncated then largerNotice else "", fun data => ?_⟩
    have hdata : ShownAsText { info with data } encoding := h
    rw [renderText_fileContent, get_text_fileContentJson, if_pos hdata, if_pos h]
    rfl
  · obtain ⟨object, hslot, hobject⟩ := fileContentJson_base64 info detail h
    have henvelope : Object.HasSlot "data" fun value =>
        (Object.empty.insert "kind" (.string "file_content")).insert "data" value :=
      Object.hasSlot_insert _ _
    obtain ⟨inner, inner', hinner⟩ := hslot.text floatText
    obtain ⟨outer, outer', houter⟩ := henvelope.text floatText
    refine ⟨outer ++ inner ++ "\"", "\"" ++ inner' ++ outer', fun data => ?_⟩
    have hdata : ¬ ShownAsText { info with data } encoding := h
    rw [renderText_fileContent, get_text_fileContentJson, if_neg hdata, if_neg h, hobject]
    have hwhole : (enveloped "file_content" (object (.string (Base64.encode data))).toValue).text
        floatText = outer ++ (object (.string (Base64.encode data))).toValue.text floatText ++
          outer' := houter _
    rw [Option.bind_none, Option.elim_none, hwhole, hinner, Value.text, Base64.quoted_encode]
    simp only [String.append_assoc]

end Files

section Bound

/-- The part of the text that carries output, with the tags of its streams, or content. -/
def carriedPart (shaping : Shaping) (decoders : TextDecoders) : BulkData → String
  | .events page => carriedOutput (shownItems shaping.detail (publicEvents decoders page).2)
  | .fileContent info =>
      if ShownAsText info shaping.encoding then Utf8.decodeLossy info.data
      else Base64.encode info.data

def noticePart (shaping : Shaping) (decoders : TextDecoders) : BulkData → String
  | .events page => outputNotice (shownItems shaping.detail (publicEvents decoders page).2)
  | .fileContent _ => ""

/-- The same answer without output or content. -/
def BulkData.emptied : BulkData → BulkData
  | .events page => .events { page with events := [] }
  | .fileContent info => .fileContent { info with data := [] }

/-- Beyond what the answer would read without output or content, the text has a part that
carries it, of at most `textRenderBytes`, and a notice. -/
def TextBounded (floatText : Rat → String) (rfc3339 : DateTime → String)
    (recordingLimitMib : Option Nat) (shaping : Shaping) (decoders : TextDecoders)
    (data : BulkData) : Prop :=
  ∃ before after,
    renderText floatText (publicJson rfc3339 recordingLimitMib shaping decoders data).2 =
      before ++ carriedPart shaping decoders data ++ noticePart shaping decoders data ++ after ∧
    renderText floatText (publicJson rfc3339 recordingLimitMib shaping decoders data.emptied).2 =
      before ++ after ∧
    (carriedPart shaping decoders data).utf8ByteSize ≤ textRenderBytes

/-- What a text channel without overrun takes. Of a page, the texts with the tags of their
streams, or texts without a tag up to a character that ends where the budget does. Of a file,
the text, or three bytes for each four characters of Base64. -/
def WithinChannel (shaping : Shaping) (decoders : TextDecoders) : BulkData → Prop
  | .events page =>
      let pieces := (shownItems shaping.detail (publicEvents decoders page).2).map itemPiece
      Budget.tagged Char.utf8Size pieces ≤ textRenderBytes ∨
        Budget.EndsAt Char.utf8Size textRenderBytes pieces
  | .fileContent info =>
      if ShownAsText info shaping.encoding then
        total Utf8.shownWidth (Utf8.pieces info.data) ≤ textRenderBytes
      else info.data.length ≤ textRenderBytes / 4 * 3

variable (floatText : Rat → String) (rfc3339 : DateTime → String)
  (recordingLimitMib : Option Nat) (shaping : Shaping) (decoders : TextDecoders)

theorem renderText_publicJson (data : BulkData) :
    ∃ before after,
      renderText floatText (publicJson rfc3339 recordingLimitMib shaping decoders data).2 =
        before ++ carriedPart shaping decoders data ++ noticePart shaping decoders data ++ after ∧
      renderText floatText (publicJson rfc3339 recordingLimitMib shaping decoders data.emptied).2 =
        before ++ after := by
  cases data with
  | events page =>
      refine ⟨outputHeader floatText (eventsJson rfc3339 recordingLimitMib shaping page []),
        warningLines (eventsJson rfc3339 recordingLimitMib shaping page []),
        renderText_eventsJson rfc3339 recordingLimitMib shaping page floatText _, ?_⟩
      have hempty := renderText_eventsJson rfc3339 recordingLimitMib shaping page floatText []
      have hcarried : carriedOutput (shownItems shaping.detail []) = "" := by
        cases shaping.detail with
        | _ => rfl
      have hnotice : outputNotice (shownItems shaping.detail []) = "" := by
        cases shaping.detail with
        | _ => rfl
      rw [hcarried, hnotice, String.append_empty, String.append_empty] at hempty
      exact hempty
  | fileContent info =>
      obtain ⟨before, after, hsplit⟩ :=
        renderText_splits floatText info shaping.detail shaping.encoding
      refine ⟨before, after, ?_, ?_⟩
      · rw [noticePart, String.append_empty]
        exact hsplit info.data
      · have hempty := hsplit []
        have hnone : (if ShownAsText info shaping.encoding then Utf8.decodeLossy []
            else Base64.encode []) = "" := by
          split <;> rfl
        rw [hnone, String.append_empty] at hempty
        exact hempty

/-- Within its bounds a file of UTF-8 has at most `textRenderBytes`. -/
theorem withinChannel_text {info : FileContentInfo} {text : String}
    (hshown : ShownAsText info shaping.encoding) (hvalid : Utf8.decode info.data = .ok text) :
    WithinChannel shaping decoders (.fileContent info) ↔ info.data.length ≤ textRenderBytes := by
  rw [WithinChannel, if_pos hshown, Utf8.shownWidth_of_decode hvalid]

theorem carriedPart_le_iff (data : BulkData) :
    (carriedPart shaping decoders data).utf8ByteSize ≤ textRenderBytes ↔
      WithinChannel shaping decoders data := by
  cases data with
  | events page =>
      rw [carriedPart, carriedOutput, Utf8.utf8ByteSize_ofList, Budget.capped_le_iff]
      rfl
  | fileContent info =>
      rw [carriedPart, WithinChannel]
      split
      · rw [Utf8.utf8ByteSize_decodeLossy]
      · rw [Base64.utf8ByteSize_encode, textRenderBytes]
        omega

/-- The text channel is bounded for just the answers that it takes without overrun. -/
theorem text_channel_bounded_iff (data : BulkData) :
    TextBounded floatText rfc3339 recordingLimitMib shaping decoders data ↔
      WithinChannel shaping decoders data := by
  obtain ⟨before, after, hwhole, hempty⟩ :=
    renderText_publicJson floatText rfc3339 recordingLimitMib shaping decoders data
  constructor
  · intro ⟨_, _, _, _, hbound⟩
    exact (carriedPart_le_iff shaping decoders data).mp hbound
  · intro h
    exact ⟨before, after, hwhole, hempty, (carriedPart_le_iff shaping decoders data).mpr h⟩

end Bound

section Overrun

variable {payload : Bytes} {text : String}

theorem decode_replicate (n : Nat) :
    Utf8.decode (List.replicate n 121) = .ok (.ofList (List.replicate n 'y')) := by
  have hpieces : Utf8.pieces (List.replicate n 121) = List.replicate n (.char 'y') := by
    induction n with
    | zero => rfl
    | succ n ih =>
        rw [List.replicate_succ, List.replicate_succ, Utf8.pieces_ascii (by decide), ih]
        rfl
  have hchars : ∀ piece ∈ List.replicate n (Utf8Piece.char 'y'), Utf8.isChar piece = true := by
    intro piece hpiece
    rw [List.eq_of_mem_replicate hpiece]
    rfl
  have hvalid := Utf8.validate_chars hchars [] 0 []
  rw [List.append_nil] at hvalid
  rw [Utf8.decode, hpieces, hvalid, Utf8.validate, List.nil_append, List.map_replicate]
  rfl

/-- One event of the error stream, and nothing else. -/
def stderrPage (payload : Bytes) : EventsData where
  command := none
  commands := []
  events := [⟨"s", some "c", 1, 0, .stderr, payload, true⟩]
  nextSequence := 1
  hasMore := false
  deliveryComplete := true
  warnings := []
  progress := ⟨none, false, false, 0⟩

def textFile (data : Bytes) : FileContentInfo :=
  ⟨"/f", data.length, data.length, false, true, none, data⟩

def compactText : Shaping := ⟨.compact, .text, 0⟩

/-- The tag of the stream comes on top of a text that takes the whole budget. -/
theorem stderrPage_overruns (hvalid : Utf8.decode payload = .ok text)
    (hsize : text.utf8ByteSize = textRenderBytes) :
    ¬ WithinChannel compactText .empty (.events (stderrPage payload)) := by
  have hdecoded : decodeBytes payload = (text, []) := by
    rw [decodeBytes, hvalid]
  have hitems : shownItems compactText.detail (publicEvents .empty (stderrPage payload)).2 =
      [("stderr", text)] := by
    change [("stderr", (decodeBytes ([] ++ payload)).1)] = _
    rw [List.nil_append, hdecoded]
  have hne : text ≠ "" := by
    rintro rfl
    cases hsize
  have htag : total Char.utf8Size (itemPiece ("stderr", text)).tag = 9 := by
    have hstream : "stderr" ≠ "stdout" := by decide
    rw [itemPiece, if_pos ⟨hstream, hne⟩]
    dsimp only
    decide
  have hbody : total Char.utf8Size (itemPiece ("stderr", text)).body = textRenderBytes := by
    rw [← hsize, Utf8.utf8ByteSize_eq_total]
    rfl
  rw [WithinChannel, hitems, List.map_singleton]
  rintro (hfits | ⟨front, piece, back, kept, dropped, hpieces, htags, -⟩)
  · rw [Budget.tagged_cons, htag, hbody] at hfits
    omega
  · obtain rfl : front = [] := by
      cases front with
      | nil => rfl
      | cons first front => simp at hpieces
    cases hpieces
    have hnone := htags _ List.mem_cons_self
    rw [htag] at hnone
    cases hnone

theorem textFile_overruns (hvalid : Utf8.decode payload = .ok text)
    (hsize : textRenderBytes < payload.length) :
    ¬ WithinChannel compactText .empty (.fileContent (textFile payload)) := by
  have hshown : ShownAsText (textFile payload) compactText.encoding := ⟨rfl, rfl⟩
  rw [withinChannel_text _ _ hshown hvalid]
  exact Nat.not_le_of_lt hsize

theorem utf8ByteSize_replicate (n : Nat) :
    (String.ofList (List.replicate n 'y')).utf8ByteSize = n := by
  have hsize : 'y'.utf8Size = 1 := by decide
  rw [Utf8.utf8ByteSize_ofList, total, List.map_replicate, List.sum_replicate_nat, hsize,
    Nat.mul_one]

/-- A page of the error stream runs over by its tag, and a file of text has no bound. -/
theorem text_channel_overruns :
    ¬ TextBounded (fun _ => "") (fun _ => "") none compactText .empty
        (.events (stderrPage (List.replicate 8192 121))) ∧
      ¬ TextBounded (fun _ => "") (fun _ => "") none compactText .empty
        (.fileContent (textFile (List.replicate 8193 121))) := by
  constructor
  · intro ⟨_, _, _, _, hbound⟩
    exact stderrPage_overruns (decode_replicate 8192) (utf8ByteSize_replicate 8192)
      ((carriedPart_le_iff _ _ _).mp hbound)
  · intro ⟨_, _, _, _, hbound⟩
    refine textFile_overruns (decode_replicate 8193) ?_ ((carriedPart_le_iff _ _ _).mp hbound)
    rw [List.length_replicate]
    decide

end Overrun

end AiSsh
