import AiSsh.Library.ByteSource
import AiSsh.ResponseFrame

/-!
The frames of the local endpoint as bytes: the length of a body as four big-endian bytes, then
the body. How a value is encoded is left to the encoder; whatever it decodes again comes out of
the stream as it went in, in order, however the transport cuts the stream.
-/

namespace AiSsh.Frames

open Library

/-- `tooLarge` is an `InvalidData` with the text "IPC frame is too large". -/
inductive FrameError
  | encode (text : String)
  | tooLarge
  | unexpectedEof
  | decode (text : String)
  deriving DecidableEq, Repr

universe u

variable {T : Type u} (encode : T → Except String Bytes) (decode : Bytes → Except String T)

/-- The result, and what the writer has been given after it. -/
def writeFrame (out : Bytes) (value : T) : Except FrameError Unit × Bytes :=
  match encode value with
  | .error text => (.error (.encode text), out)
  | .ok body =>
      if body.length > maxFrameBytes then (.error .tooLarge, out)
      else (.ok (), out ++ bigEndian 4 (UInt32.ofNat body.length).toNat ++ body)

def readFrame (source : ByteSource) : Except FrameError (T × ByteSource) :=
  match source.readExact 4 with
  | none => .error .unexpectedEof
  | some (header, source) =>
      let len := ofBigEndian header
      if len > maxFrameBytes then .error .tooLarge
      else
        match source.readExact len with
        | none => .error .unexpectedEof
        | some (body, source) =>
            match decode body with
            | .error text => .error (.decode text)
            | .ok value => .ok (value, source)

/-- Writes the values one after the other. Those that were written, and the stream. -/
def writeAll (out : Bytes) : List T → List T × Bytes
  | [] => ([], out)
  | value :: values =>
      match writeFrame encode out value with
      | (.ok (), out) => (value :: (writeAll out values).1, (writeAll out values).2)
      | (.error _, out) => writeAll out values

/-- `write_frame` accepts the value. -/
def accepts (value : T) : Bool := (writeFrame encode [] value).1.isOk

/-- Reads a number of frames. -/
def readMany : Nat → ByteSource → Except FrameError (List T × ByteSource)
  | 0, source => .ok ([], source)
  | count + 1, source =>
      match readFrame decode source with
      | .error error => .error error
      | .ok (value, source) =>
          match readMany count source with
          | .error error => .error error
          | .ok (values, source) => .ok (value :: values, source)

/-- The header of a body that may be sent. -/
def frame (body : Bytes) : Bytes := bigEndian 4 body.length ++ body

variable {encode decode} {value : T} {body out : Bytes}

theorem header_eq (h : body.length ≤ maxFrameBytes) :
    (UInt32.ofNat body.length).toNat = body.length := by
  rw [UInt32.toNat_ofNat', Nat.mod_eq_of_lt]
  rw [maxFrameBytes] at h
  omega

theorem writeFrame_ok (hbody : encode value = .ok body) (h : body.length ≤ maxFrameBytes) :
    writeFrame encode out value = (.ok (), out ++ frame body) := by
  rw [writeFrame, hbody]
  simp only [Nat.not_lt.mpr h, if_false, header_eq h, frame, List.append_assoc]

theorem writeFrame_tooLarge (hbody : encode value = .ok body) (h : maxFrameBytes < body.length) :
    writeFrame encode out value = (.error .tooLarge, out) := by
  rw [writeFrame, hbody]
  simp only [gt_iff_lt, h, if_true]

theorem writeFrame_cases (encode : T → Except String Bytes) (out : Bytes) (value : T) :
    (∃ body, encode value = .ok body ∧ body.length ≤ maxFrameBytes ∧
      writeFrame encode out value = (.ok (), out ++ frame body)) ∨
    ∃ error, ∀ out', writeFrame encode out' value = (.error error, out') := by
  cases hbody : encode value with
  | error text =>
      refine .inr ⟨.encode text, fun out' => ?_⟩
      rw [writeFrame, hbody]
  | ok body =>
      by_cases h : body.length ≤ maxFrameBytes
      · exact .inl ⟨body, rfl, h, writeFrame_ok hbody h⟩
      · exact .inr ⟨.tooLarge, fun out' => writeFrame_tooLarge hbody (by omega)⟩

/-- The bytes that go out are as many as the size of the frame says. -/
theorem writeFrame_length (hbody : encode value = .ok body) :
    (writeFrame encode out value).2.length =
      out.length + (AiSsh.writeFrame body.length).toOption.getD 0 := by
  by_cases h : body.length ≤ maxFrameBytes
  · rw [writeFrame_ok hbody h, AiSsh.writeFrame, if_neg (by omega)]
    simp [frame, Except.toOption]
  · rw [writeFrame_tooLarge hbody (by omega), AiSsh.writeFrame, if_pos (by omega)]
    simp [Except.toOption]

theorem readFrame_frame {source : ByteSource} {rest : Bytes} (hbody : decode body = .ok value)
    (h : body.length ≤ maxFrameBytes) (hsource : source.bytes = frame body ++ rest) :
    ∃ source', readFrame decode source = .ok (value, source') ∧ source'.bytes = rest := by
  have hwidth : body.length < 256 ^ 4 := by
    rw [maxFrameBytes] at h
    omega
  rw [frame, List.append_assoc] at hsource
  obtain ⟨middle, hheader, hmiddle⟩ := ByteSource.readExact_append hsource
  obtain ⟨last, hread, hlast⟩ := ByteSource.readExact_append hmiddle
  rw [length_bigEndian] at hheader
  refine ⟨last, ?_, hlast⟩
  simp only [readFrame, hheader, ofBigEndian_bigEndian hwidth, Nat.not_lt.mpr h, if_false, hread,
    hbody]

/-- A stream that ends inside a frame. -/
theorem readFrame_cut {source : ByteSource} {rest : Bytes} (h : body.length ≤ maxFrameBytes)
    (hframe : frame body = source.bytes ++ rest) (hrest : rest ≠ []) :
    readFrame decode source = .error .unexpectedEof := by
  have hwidth : body.length < 256 ^ 4 := by
    rw [maxFrameBytes] at h
    omega
  have hpos := List.length_pos_iff.mpr hrest
  have hlength := congrArg List.length hframe
  simp only [frame, List.length_append, length_bigEndian] at hlength
  by_cases hshort : source.bytes.length < 4
  · simp only [readFrame, ByteSource.readExact_of_lt hshort]
  · have hsplit : source.bytes = bigEndian 4 body.length ++ source.bytes.drop 4 := by
      have htake := congrArg (List.take 4) hframe
      rw [frame, List.take_append_of_le_length (by rw [length_bigEndian]),
        List.take_append_of_le_length (by omega), List.take_of_length_le
          (by rw [length_bigEndian])] at htake
      rw [htake, List.take_append_drop]
    obtain ⟨middle, hheader, hmiddle⟩ := ByteSource.readExact_append hsplit
    rw [length_bigEndian] at hheader
    have hlt : middle.bytes.length < body.length := by
      rw [hmiddle, List.length_drop]
      omega
    simp only [readFrame, hheader, ofBigEndian_bigEndian hwidth, Nat.not_lt.mpr h, if_false,
      ByteSource.readExact_of_lt hlt]

/-- What is written goes behind what was there, and comes out again. -/
theorem readMany_writeAll
    (hinverse : ∀ value body, encode value = .ok body → decode body = .ok value)
    (out : Bytes) (values : List T) :
    ∃ stream, (writeAll encode out values).2 = out ++ stream ∧
      ∀ (source : ByteSource) (rest : Bytes), source.bytes = stream ++ rest →
        ∃ last, readMany decode (writeAll encode out values).1.length source =
          .ok ((writeAll encode out values).1, last) ∧ last.bytes = rest := by
  induction values generalizing out with
  | nil =>
      refine ⟨[], (List.append_nil out).symm, fun source rest hsource => ?_⟩
      exact ⟨source, rfl, hsource⟩
  | cons value values ih =>
      cases writeFrame_cases encode out value with
      | inl hok =>
          obtain ⟨body, hbody, h, hwrite⟩ := hok
          obtain ⟨stream, hstream, hread⟩ := ih (out ++ frame body)
          refine ⟨frame body ++ stream, ?_, fun source rest hsource => ?_⟩
          · simp only [writeAll, hwrite, hstream, List.append_assoc]
          · rw [List.append_assoc] at hsource
            obtain ⟨middle, hfirst, hmiddle⟩ :=
              readFrame_frame (hinverse value body hbody) h hsource
            obtain ⟨last, hmany, hlast⟩ := hread middle rest hmiddle
            refine ⟨last, ?_, hlast⟩
            simp only [writeAll, hwrite, List.length_cons, readMany, hfirst, hmany]
      | inr herror =>
          obtain ⟨error, hwrite⟩ := herror
          obtain ⟨stream, hstream, hread⟩ := ih out
          refine ⟨stream, ?_, fun source rest hsource => ?_⟩
          · simp only [writeAll, hwrite out, hstream]
          · simp only [writeAll, hwrite out]
            exact hread source rest hsource

theorem writeAll_accepted (out : Bytes) (values : List T) :
    (writeAll encode out values).1 = values.filter (accepts encode) := by
  induction values generalizing out with
  | nil => rfl
  | cons value values ih =>
      cases writeFrame_cases encode [] value with
      | inl hok =>
          obtain ⟨body, hbody, h, hwrite⟩ := hok
          have haccepts : accepts encode value = true := by
            rw [accepts, hwrite]
            rfl
          simp only [writeAll, writeFrame_ok hbody h, List.filter_cons, haccepts, if_true, ih]
      | inr herror =>
          obtain ⟨error, hwrite⟩ := herror
          have haccepts : accepts encode value = false := by
            rw [accepts, hwrite]
            rfl
          simp only [writeAll, hwrite out, List.filter_cons, haccepts, Bool.false_eq_true, if_false,
            ih]

theorem framing_round_trip
    (hinverse : ∀ value body, encode value = .ok body → decode body = .ok value)
    (values : List T) :
    (∀ source : ByteSource, source.bytes = (writeAll encode [] values).2 →
      ∃ last, readMany decode (values.filter (accepts encode)).length source =
        .ok (values.filter (accepts encode), last) ∧ last.bytes = []) ∧
    (∀ value body out, encode value = .ok body → maxFrameBytes < body.length →
      writeFrame encode out value = (.error .tooLarge, out)) ∧
    ∀ value part rest, writeFrame encode [] value = (.ok (), part ++ rest) → rest ≠ [] →
      ∀ source : ByteSource, source.bytes = (writeAll encode [] values).2 ++ part →
        ∃ last, readMany decode (values.filter (accepts encode)).length source =
          .ok (values.filter (accepts encode), last) ∧
          readFrame decode last = .error .unexpectedEof := by
  obtain ⟨stream, hstream, hread⟩ := readMany_writeAll hinverse [] values
  rw [List.nil_append] at hstream
  rw [writeAll_accepted] at hread
  refine ⟨fun source hsource => ?_, fun value body out hbody h => ?_,
    fun value part rest hwrite hrest source hsource => ?_⟩
  · rw [hstream] at hsource
    exact hread source [] (hsource.trans (List.append_nil stream).symm)
  · exact writeFrame_tooLarge hbody h
  · rw [hstream] at hsource
    obtain ⟨last, hmany, hlast⟩ := hread source part hsource
    refine ⟨last, hmany, ?_⟩
    cases writeFrame_cases encode [] value with
    | inl hok =>
        obtain ⟨body, -, h, hframe⟩ := hok
        rw [hframe, List.nil_append] at hwrite
        have hcut : frame body = last.bytes ++ rest := by
          rw [hlast]
          exact congrArg Prod.snd hwrite
        exact readFrame_cut h hcut hrest
    | inr herror =>
        obtain ⟨error, hframe⟩ := herror
        rw [hframe] at hwrite
        cases hwrite

/-- A flag in MessagePack. -/
def encodeFlag (value : Bool) : Except String Bytes := .ok [if value then 0xc3 else 0xc2]

def decodeFlag : Bytes → Except String Bool
  | [0xc2] => .ok false
  | [0xc3] => .ok true
  | _ => .error "invalid type"

theorem framing_round_trip_flags :
    (∀ source : ByteSource, source.bytes = [0, 0, 0, 1, 0xc3, 0, 0, 0, 1, 0xc2] →
      ∃ last, readMany decodeFlag 2 source = .ok ([true, false], last) ∧ last.bytes = []) ∧
    ∀ source : ByteSource, source.bytes = [0, 0, 0, 1, 0xc3, 0, 0, 0, 1, 0xc2] ++ [0, 0] →
      ∃ last, readMany decodeFlag 2 source = .ok ([true, false], last) ∧
        readFrame decodeFlag last = .error .unexpectedEof := by
  have hinverse (value : Bool) (body : Bytes) (hbody : encodeFlag value = .ok body) :
      decodeFlag body = .ok value := by
    cases hbody
    cases value with
    | true => rfl
    | false => rfl
  have h := framing_round_trip hinverse [true, false]
  exact ⟨h.1, h.2.2 true [0, 0] [0, 1, 0xc3] rfl (List.cons_ne_nil _ _)⟩

end AiSsh.Frames
