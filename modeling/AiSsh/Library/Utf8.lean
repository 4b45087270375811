import Mathlib.Init

/-!
UTF-8 as a reader meets it: characters, bytes with which no character begins, and an input
that ends within a character. An error stands at the first of these that is no character,
and is open-ended when more input might still complete it. A lossy reading replaces what is
no character, once for each maximal run that might have begun one.
-/

namespace AiSsh.Library

inductive Utf8Piece
  | char (c : Char)
  | invalid (length : Nat)
  | incomplete (length : Nat)
  deriving DecidableEq, Repr

namespace Utf8

def isTail (b : UInt8) : Bool := decide (0x80 ≤ b ∧ b ≤ 0xBF)

/-- The second bytes that a first byte leaves open: no overlong form, no surrogate, nothing
beyond the last code point. -/
def isSecond (first b : UInt8) : Bool :=
  if first = 0xE0 then decide (0xA0 ≤ b ∧ b ≤ 0xBF)
  else if first = 0xED then decide (0x80 ≤ b ∧ b ≤ 0x9F)
  else if first = 0xF0 then decide (0x90 ≤ b ∧ b ≤ 0xBF)
  else if first = 0xF4 then decide (0x80 ≤ b ∧ b ≤ 0x8F)
  else isTail b

/-- The character of a first byte and its tail. -/
def codePoint (lead : Nat) (tail : List UInt8) : Char :=
  .ofNat (tail.foldl (fun value b => value * 64 + b.toNat % 64) lead)

def pieces : List UInt8 → List Utf8Piece
  | [] => []
  | a :: rest =>
      if a < 0x80 then .char (codePoint a.toNat []) :: pieces rest
      else if 0xC2 ≤ a ∧ a ≤ 0xDF then
        match rest with
        | [] => [.incomplete 1]
        | b :: rest₂ =>
            if isTail b then .char (codePoint (a.toNat % 32) [b]) :: pieces rest₂
            else .invalid 1 :: pieces (b :: rest₂)
      else if 0xE0 ≤ a ∧ a ≤ 0xEF then
        match rest with
        | [] => [.incomplete 1]
        | b :: rest₂ =>
            if isSecond a b then
              match rest₂ with
              | [] => [.incomplete 2]
              | c :: rest₃ =>
                  if isTail c then .char (codePoint (a.toNat % 16) [b, c]) :: pieces rest₃
                  else .invalid 2 :: pieces (c :: rest₃)
            else .invalid 1 :: pieces (b :: rest₂)
      else if 0xF0 ≤ a ∧ a ≤ 0xF4 then
        match rest with
        | [] => [.incomplete 1]
        | b :: rest₂ =>
            if isSecond a b then
              match rest₂ with
              | [] => [.incomplete 2]
              | c :: rest₃ =>
                  if isTail c then
                    match rest₃ with
                    | [] => [.incomplete 3]
                    | d :: rest₄ =>
                        if isTail d then
                          .char (codePoint (a.toNat % 8) [b, c, d]) :: pieces rest₄
                        else .invalid 3 :: pieces (d :: rest₄)
                  else .invalid 2 :: pieces (c :: rest₃)
            else .invalid 1 :: pieces (b :: rest₂)
      else .invalid 1 :: pieces rest

/-- `Utf8Error`: the length of the valid front, and of the bytes that are in the way, if
they are not the end of the input. -/
structure Error where
  validUpTo : Nat
  errorLen : Option Nat
  deriving DecidableEq, Repr

/-- The characters before the first piece that is none. -/
def validate (read : List Char) (validUpTo : Nat) : List Utf8Piece → Except Error String
  | [] => .ok (.ofList read)
  | .char c :: rest => validate (read ++ [c]) (validUpTo + c.utf8Size) rest
  | .invalid length :: _ => .error ⟨validUpTo, some length⟩
  | .incomplete _ :: _ => .error ⟨validUpTo, none⟩

/-- `from_utf8`. -/
def decode (bytes : List UInt8) : Except Error String := validate [] 0 (pieces bytes)

def replacement : Char := .ofNat 0xFFFD

/-- `from_utf8_lossy`. -/
def decodeLossy (bytes : List UInt8) : String :=
  .ofList ((pieces bytes).map fun piece =>
    match piece with
    | .char c => c
    | .invalid _ | .incomplete _ => replacement)

end Utf8
end AiSsh.Library
