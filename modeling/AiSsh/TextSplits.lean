import AiSsh.Library.Utf8Cuts
import AiSsh.TextDecoders

/-!
What the texts of a stream add up to, however the stream is cut into events. An event that ends
within a character passes the character on to the next one, unless it also has a byte with which
no character begins: then it is read lossily to its end, and what it cut off is lost.
-/

namespace AiSsh

open Library

structure TextCall where
  key : String
  sequence : Nat
  payload : Bytes
  deriving DecidableEq, Repr

/-- The decoders after the calls, and the texts that were returned for the key, put together. -/
def decodeCalls (key : String) : TextDecoders → List TextCall → TextDecoders × String
  | decoders, [] => (decoders, "")
  | decoders, call :: calls =>
      let (decoders, text) := decodeEventText decoders call.key call.sequence call.payload
      let (decoders, more) := decodeCalls key decoders calls
      (decoders, if call.key = key then text ++ more else more)

def callsOf (key : String) (calls : List TextCall) : List TextCall :=
  calls.filter fun call => call.key == key

def streamOf (key : String) (calls : List TextCall) : Bytes :=
  (callsOf key calls).flatMap TextCall.payload

/-- The bytes have one in them with which no character begins, and end within a character that
the first of the bytes that follow goes on with. -/
def Breaks (bytes following : Bytes) : Prop :=
  (∃ length, .invalid length ∈ Utf8.pieces bytes) ∧
    ∃ b, following.head? = some b ∧
      (Utf8.pieces (bytes ++ [b])).length = (Utf8.pieces bytes).length

/-- No call for the key breaks a character off. -/
def Unbroken (key : String) : TextDecoders → List TextCall → Prop
  | _, [] => True
  | decoders, call :: calls =>
      (call.key = key →
        ¬Breaks (heldFor decoders key call.sequence ++ call.payload) (streamOf key calls)) ∧
      Unbroken key (decodeEventText decoders call.key call.sequence call.payload).1 calls

/-- The same for the payloads of one key, from the bytes that are pending. -/
def readOn : Bytes → List Bytes → String × Bytes
  | pending, [] => ("", pending)
  | pending, payload :: payloads =>
      let (text, pending) := decodeBytes (pending ++ payload)
      let (more, last) := readOn pending payloads
      (text ++ more, last)

def UnbrokenOn : Bytes → List Bytes → Prop
  | _, [] => True
  | pending, payload :: payloads =>
      ¬Breaks (pending ++ payload) payloads.flatten ∧
        UnbrokenOn (decodeBytes (pending ++ payload)).2 payloads

/-- What has been shown, and what is still pending, as it would be shown. -/
def shownOn (pending : Bytes) (payloads : List Bytes) : List Char :=
  (readOn pending payloads).1.toList ++ Utf8.lossy (readOn pending payloads).2

open Utf8 in
theorem decodeBytes_invalid {bytes tail : Bytes} {closed : List Utf8Piece}
    (h : Utf8.Cut bytes closed tail) (hinvalid : ¬∀ piece ∈ closed, isChar piece = true) :
    decodeBytes bytes = (decodeLossy bytes, []) := by
  obtain ⟨valid, length, hdecode⟩ := h.decode_invalid hinvalid
  rw [decodeBytes, hdecode]

open Utf8 in
theorem decodeBytes_valid {bytes tail : Bytes} {closed : List Utf8Piece}
    (h : Utf8.Cut bytes closed tail) (hchars : ∀ piece ∈ closed, isChar piece = true) :
    decodeBytes bytes = (.ofList (closed.map shown), tail) := by
  cases h.decode_valid hchars with
  | inl hwhole =>
      obtain ⟨htail, hdecode⟩ := hwhole
      rw [decodeBytes, hdecode, htail]
  | inr hopen =>
      obtain ⟨front, hbytes, hdecode, hfront⟩ := hopen
      rw [decodeBytes, hdecode]
      simp only [hbytes, List.take_left, List.drop_left, hfront]
      rfl

section

open Utf8

/-- The bytes that an event may leave pending. -/
def Held (pending : Bytes) : Prop :=
  pending = [] ∨ pieces pending = [.incomplete pending.length]

theorem Held.nil : Held [] := .inl rfl

variable {bytes tail following : Bytes} {closed : List Utf8Piece}

theorem not_breaks_of_chars (h : Utf8.Cut bytes closed tail)
    (hchars : ∀ piece ∈ closed, isChar piece = true) : ¬Breaks bytes following := by
  intro hbreaks
  obtain ⟨length, hmem⟩ := hbreaks.1
  rw [h.pieces_eq] at hmem
  cases List.mem_append.mp hmem with
  | inl hmem =>
      have hfalse := hchars _ hmem
      cases hfalse
  | inr hmem =>
      cases h.tail_open with
      | inl hnil =>
          rw [hnil] at hmem
          cases hmem
      | inr hopen =>
          rw [hopen] at hmem
          cases List.mem_singleton.mp hmem

theorem has_invalid (h : Utf8.Cut bytes closed tail)
    (hinvalid : ¬∀ piece ∈ closed, isChar piece = true) :
    ∃ length, .invalid length ∈ pieces bytes := by
  rw [not_forall] at hinvalid
  obtain ⟨piece, hpiece⟩ := hinvalid
  rw [Classical.not_imp] at hpiece
  obtain ⟨hmem, hnot⟩ := hpiece
  cases piece with
  | char c => exact absurd rfl hnot
  | invalid length => exact ⟨length, by rw [h.pieces_eq]; exact List.mem_append_left _ hmem⟩
  | incomplete length => exact absurd hmem (h.complete length)

/-- A new piece begins with the next byte. -/
theorem not_breaks_of_length
    (h : ∀ b, following.head? = some b → (pieces bytes).length < (pieces (bytes ++ [b])).length) :
    ¬Breaks bytes following := by
  intro hbreaks
  obtain ⟨b, hb, hlength⟩ := hbreaks.2
  have hlt := h b hb
  omega

/-- What a reader shows that reads `bytes` lossily and `following` on its own. -/
theorem lossy_apart (h : Utf8.Cut bytes closed tail)
    (hinvalid : ¬∀ piece ∈ closed, isChar piece = true) (following : Bytes) :
    (lossy (bytes ++ following)).length ≤ (lossy bytes).length + (lossy following).length ∧
      (lossy bytes ++ lossy following = lossy (bytes ++ following) ↔ ¬Breaks bytes following) ∧
      (Breaks bytes following →
        (lossy (bytes ++ following)).length < (lossy bytes).length + (lossy following).length) := by
  have hbytes : lossy bytes = closed.map shown ++ lossy tail := by
    have happend := h.lossy_append []
    rwa [List.append_nil, List.append_nil] at happend
  have hpieces := congrArg List.length h.pieces_eq
  rw [List.length_append] at hpieces
  rw [h.lossy_append, hbytes]
  cases h.tail_open with
  | inl hnil =>
      subst hnil
      have hnot : ¬Breaks bytes following := by
        refine not_breaks_of_length fun b _ => ?_
        have hpos := List.length_pos_iff.mpr (pieces_ne_nil b [])
        rw [h.append, List.length_append, hpieces]
        exact Nat.add_lt_add_left hpos _
      rw [show lossy [] = [] from rfl, List.nil_append, List.append_nil, List.length_append]
      exact ⟨Nat.le_refl _, ⟨fun _ => hnot, fun _ => rfl⟩, fun hbreaks => absurd hbreaks hnot⟩
  | inr hopen =>
      have hone : lossy tail = [replacement] := by
        rw [lossy, hopen]
        rfl
      rw [hone]
      cases following with
      | nil =>
          have hnot : ¬Breaks bytes [] := not_breaks_of_length fun b hb => by cases hb
          rw [List.append_nil, hone, show lossy [] = [] from rfl, List.append_nil]
          exact ⟨Nat.le_refl _, ⟨fun _ => hnot, fun _ => rfl⟩, fun hbreaks => absurd hbreaks hnot⟩
      | cons b rest =>
          rw [hopen, List.length_singleton] at hpieces
          cases open_next hopen b with
          | inl hcloses =>
              have hnot : ¬Breaks bytes (b :: rest) := by
                refine not_breaks_of_length fun c hc => ?_
                cases hc
                have hpos := List.length_pos_iff.mpr (pieces_ne_nil b [])
                rw [h.append, hcloses [], List.length_append, List.length_cons]
                omega
              have hlossy : lossy (tail ++ b :: rest) = replacement :: lossy (b :: rest) := by
                rw [lossy, hcloses rest]
                rfl
              rw [hlossy, List.append_assoc, List.singleton_append]
              refine ⟨?_, ⟨fun _ => hnot, fun _ => rfl⟩, fun hbreaks => absurd hbreaks hnot⟩
              simp only [List.length_append, List.length_cons, List.length_nil]
              omega
          | inr hgoes =>
              have hbreaks : Breaks bytes (b :: rest) := by
                refine ⟨has_invalid h hinvalid, b, rfl, ?_⟩
                rw [h.append, List.length_append, hgoes.1]
                omega
              have hlt : (closed.map shown ++ lossy (tail ++ b :: rest)).length <
                  (closed.map shown ++ [replacement]).length + (lossy (b :: rest)).length := by
                have hle := hgoes.2 rest
                simp only [lossy, List.length_append, List.length_map, List.length_singleton]
                omega
              refine ⟨Nat.le_of_lt hlt, ⟨fun heq => ?_, fun hnot => absurd hbreaks hnot⟩,
                fun _ => hlt⟩
              have hsame := congrArg List.length heq
              rw [List.length_append] at hsame
              omega

/-- However the stream is cut, as much is shown as a reading at once shows, and the same exactly
when no character is broken off. -/
theorem shownOn_spec (payloads : List Bytes) {pending : Bytes} (hpending : Held pending) :
    (lossy (pending ++ payloads.flatten)).length ≤ (shownOn pending payloads).length ∧
      (shownOn pending payloads = lossy (pending ++ payloads.flatten) ↔
        UnbrokenOn pending payloads) := by
  induction payloads generalizing pending with
  | nil =>
      simp only [List.flatten_nil, List.append_nil, UnbrokenOn, iff_true]
      exact ⟨Nat.le_refl _, rfl⟩
  | cons payload payloads ih =>
      obtain ⟨closed, tail, h⟩ := exists_cut (pending ++ payload)
      rw [List.flatten_cons, ← List.append_assoc, UnbrokenOn]
      by_cases hchars : ∀ piece ∈ closed, isChar piece = true
      · have hnot : ¬Breaks (pending ++ payload) payloads.flatten := not_breaks_of_chars h hchars
        have hshown : shownOn pending (payload :: payloads) =
            closed.map shown ++ shownOn tail payloads := by
          simp only [shownOn, readOn, decodeBytes_valid h hchars, String.toList_append,
            String.toList_ofList, List.append_assoc]
        obtain ⟨hle, hiff⟩ := ih (h.tail_open : Held tail)
        rw [hshown, h.lossy_append, decodeBytes_valid h hchars]
        refine ⟨?_, ?_⟩
        · simp only [List.length_append]
          omega
        · rw [List.append_cancel_left_eq, hiff]
          simp only [hnot, not_false_eq_true, true_and]
      · have hshown : shownOn pending (payload :: payloads) =
            lossy (pending ++ payload) ++ shownOn [] payloads := by
          simp only [shownOn, readOn, decodeBytes_invalid h hchars, decodeLossy_eq,
            String.toList_append, String.toList_ofList, List.append_assoc]
        obtain ⟨hle, hiff⟩ := ih Held.nil
        rw [List.nil_append] at hle hiff
        obtain ⟨hall, hsame, hmore⟩ := lossy_apart h hchars payloads.flatten
        rw [hshown, decodeBytes_invalid h hchars, List.length_append]
        refine ⟨by omega, ?_⟩
        rw [← hiff]
        constructor
        · intro heq
          have hlength := congrArg List.length heq
          rw [List.length_append] at hlength
          have hnot : ¬Breaks (pending ++ payload) payloads.flatten := by
            intro hbreaks
            have hlt := hmore hbreaks
            omega
          refine ⟨hnot, ?_⟩
          rw [← hsame.mpr hnot] at heq
          exact List.append_cancel_left heq
        · intro hboth
          rw [hboth.2]
          exact hsame.mpr hboth.1

end

section

variable {key : String} {decoders : TextDecoders} {calls : List TextCall}

/-- The calls for the key have growing numbers, beyond those the decoder has seen, unless
nothing is pending. -/
structure InStep (key : String) (decoders : TextDecoders) (calls : List TextCall) : Prop where
  ascending : (callsOf key calls).Pairwise fun a b => a.sequence < b.sequence
  seen : ∀ call ∈ callsOf key calls, (decoders key).lastSequence ≤ call.sequence
  beyond : (decoders key).pending = [] ∨
    ∀ call ∈ callsOf key calls, (decoders key).lastSequence < call.sequence

theorem callsOf_cons_self {call : TextCall} (h : call.key = key) :
    callsOf key (call :: calls) = call :: callsOf key calls := by
  simp [callsOf, h]

theorem callsOf_cons_of_ne {call : TextCall} (h : call.key ≠ key) :
    callsOf key (call :: calls) = callsOf key calls := by
  simp [callsOf, h]

theorem InStep.held {call : TextCall} (h : InStep key decoders (call :: calls))
    (hkey : call.key = key) : heldFor decoders key call.sequence = (decoders key).pending := by
  rw [heldFor]
  split
  · rename_i hle
    cases h.beyond with
    | inl hnil => rw [hnil]
    | inr hlt =>
        have hcall := hlt call (by rw [callsOf_cons_self hkey]; exact List.mem_cons_self)
        omega
  · rfl

theorem decodeEventText_self (sequence : Nat) (payload : Bytes) :
    (decodeEventText decoders key sequence payload).1 key =
      ⟨max (decoders key).lastSequence sequence,
        (decodeBytes (heldFor decoders key sequence ++ payload)).2⟩ := Function.update_self ..

theorem decodeEventText_of_ne {other : String} (h : key ≠ other) (sequence : Nat)
    (payload : Bytes) : (decodeEventText decoders other sequence payload).1 key = decoders key :=
  Function.update_of_ne h ..

theorem InStep.next_self {call : TextCall} (h : InStep key decoders (call :: calls))
    (hkey : call.key = key) :
    InStep key (decodeEventText decoders call.key call.sequence call.payload).1 calls := by
  subst hkey
  have hascending := h.ascending
  have hseen := h.seen
  rw [callsOf_cons_self rfl] at hascending hseen
  obtain ⟨hlater, hrest⟩ := List.pairwise_cons.mp hascending
  have hcall := hseen call List.mem_cons_self
  have hlt (later : TextCall) (hmem : later ∈ callsOf call.key calls) :
      ((decodeEventText decoders call.key call.sequence call.payload).1
        call.key).lastSequence < later.sequence := by
    have hbehind := hlater later hmem
    rw [decodeEventText_self]
    simp only
    omega
  exact ⟨hrest, fun later hmem => Nat.le_of_lt (hlt later hmem), .inr hlt⟩

theorem InStep.next_of_ne {call : TextCall} (h : InStep key decoders (call :: calls))
    (hkey : call.key ≠ key) :
    InStep key (decodeEventText decoders call.key call.sequence call.payload).1 calls := by
  obtain ⟨hascending, hseen, hbeyond⟩ := h
  rw [callsOf_cons_of_ne hkey] at hascending hseen hbeyond
  have hkept := @decodeEventText_of_ne key decoders _ (Ne.symm hkey) call.sequence call.payload
  exact ⟨hascending, by rwa [hkept], by rwa [hkept]⟩

theorem decodeCalls_spec (h : InStep key decoders calls) :
    (decodeCalls key decoders calls).2 =
        (readOn (decoders key).pending ((callsOf key calls).map TextCall.payload)).1 ∧
      ((decodeCalls key decoders calls).1 key).pending =
        (readOn (decoders key).pending ((callsOf key calls).map TextCall.payload)).2 ∧
      (Unbroken key decoders calls ↔
        UnbrokenOn (decoders key).pending ((callsOf key calls).map TextCall.payload)) := by
  induction calls generalizing decoders with
  | nil => exact ⟨rfl, rfl, Iff.rfl⟩
  | cons call calls ih =>
      by_cases hkey : call.key = key
      · obtain ⟨htext, hpending, hunbroken⟩ := ih (h.next_self hkey)
        have hheld := h.held hkey
        subst hkey
        have hself := @decodeEventText_self call.key decoders call.sequence call.payload
        rw [hheld] at hself
        rw [hself] at htext hpending hunbroken
        rw [callsOf_cons_self rfl, List.map_cons]
        refine ⟨?_, ?_, ?_⟩
        · simp only [decodeCalls, if_true, htext, readOn]
          exact congrArg (· ++ _) (congrArg Prod.fst (congrArg decodeBytes
            (congrArg (· ++ call.payload) hheld)))
        · simp only [decodeCalls, hpending, readOn]
        · simp only [Unbroken, UnbrokenOn, hunbroken, hheld, streamOf, List.flatMap_def,
            forall_const]
      · obtain ⟨htext, hpending, hunbroken⟩ := ih (h.next_of_ne hkey)
        rw [decodeEventText_of_ne (Ne.symm hkey)] at htext hpending hunbroken
        rw [callsOf_cons_of_ne hkey]
        refine ⟨?_, ?_, ?_⟩
        · simp only [decodeCalls, if_neg hkey, htext]
        · simp only [decodeCalls, hpending]
        · rw [Unbroken, hunbroken]
          exact and_iff_right fun heq => absurd heq hkey

theorem decode_split_independent_iff
    (hascending : (callsOf key calls).Pairwise fun a b => a.sequence < b.sequence) :
    (decodeCalls key .empty calls).2 ++
        Utf8.decodeLossy ((decodeCalls key .empty calls).1 key).pending =
      Utf8.decodeLossy (streamOf key calls) ↔ Unbroken key .empty calls := by
  have h : InStep key .empty calls := ⟨hascending, fun call _ => Nat.zero_le _, .inl rfl⟩
  obtain ⟨htext, hpending, hunbroken⟩ := decodeCalls_spec h
  have hstream : streamOf key calls = ((callsOf key calls).map TextCall.payload).flatten :=
    List.flatMap_def
  have hspec := (shownOn_spec ((callsOf key calls).map TextCall.payload) Held.nil).2
  rw [hunbroken, ← String.toList_inj, String.toList_append, htext, hpending, hstream,
    Utf8.decodeLossy_eq, Utf8.decodeLossy_eq, String.toList_ofList, String.toList_ofList]
  exact hspec

end

/-- A character cut in three, with an event of another key in between. -/
def cutCharacter : List TextCall :=
  [⟨"a", 1, [0x41, 0xE4]⟩, ⟨"b", 1, [0xFF]⟩, ⟨"a", 2, [0xB8]⟩, ⟨"a", 5, [0xAD, 0xFF]⟩]

theorem decode_split_independent_iff_cutCharacter : Unbroken "a" .empty cutCharacter :=
  (decode_split_independent_iff (by decide)).mp (by decide)

/-- An event with an invalid byte that ends within a character. -/
def brokenCharacter : List TextCall := [⟨"a", 1, [0xFF, 0xE4]⟩, ⟨"a", 2, [0xB8, 0xAD]⟩]

theorem broken_character_is_lost :
    (decodeCalls "a" .empty brokenCharacter).2 ++
        Utf8.decodeLossy ((decodeCalls "a" .empty brokenCharacter).1 "a").pending =
      "\uFFFD\uFFFD\uFFFD\uFFFD" ∧
    Utf8.decodeLossy (streamOf "a" brokenCharacter) = "\uFFFD中" := by
  decide

end AiSsh
