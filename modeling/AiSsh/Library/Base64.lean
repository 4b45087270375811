import AiSsh.Library.JsonText

/-!
Base64 with the standard alphabet and padding. Every group of up to three bytes is four
characters of the alphabet, none of which a JSON text has to escape.
-/

namespace AiSsh.Library.Base64

def digit (n : Nat) : Char :=
  if n < 26 then .ofNat (65 + n)
  else if n < 52 then .ofNat (71 + n)
  else if n < 62 then .ofNat (n - 4)
  else if n = 62 then '+'
  else '/'

def digits : List UInt8 → List Char
  | [] => []
  | [a] => [digit (a.toNat / 4), digit (a.toNat % 4 * 16), '=', '=']
  | [a, b] => [digit (a.toNat / 4), digit (a.toNat % 4 * 16 + b.toNat / 16),
      digit (b.toNat % 16 * 4), '=']
  | a :: b :: c :: rest =>
      digit (a.toNat / 4) :: digit (a.toNat % 4 * 16 + b.toNat / 16) ::
        digit (b.toNat % 16 * 4 + c.toNat / 64) :: digit (c.toNat % 64) :: digits rest

def encode (bytes : List UInt8) : String := .ofList (digits bytes)

example : encode [77, 97] = "TWE=" := by decide

def Plain (c : Char) : Prop := Json.escapeChar c = [c] ∧ c.utf8Size = 1

theorem plain_digit (n : Nat) : Plain (digit n) := by
  have hsmall : ∀ m : Fin 63, Json.escapeChar (digit m) = [digit m] ∧ (digit m).utf8Size = 1 := by
    decide
  by_cases h : n < 63
  · exact hsmall ⟨n, h⟩
  · have hslash : digit n = '/' := by
      rw [digit]
      rw [if_neg (by omega), if_neg (by omega), if_neg (by omega), if_neg (by omega)]
    rw [hslash]
    exact ⟨by decide, by decide⟩

theorem plain_pad : Plain '=' := ⟨by decide, by decide⟩

theorem plain_digits (bytes : List UInt8) : ∀ c ∈ digits bytes, Plain c := by
  induction bytes using digits.induct with
  | case1 => nofun
  | case2 a => simp [digits, plain_digit, plain_pad]
  | case3 a b => simp [digits, plain_digit, plain_pad]
  | case4 a b c rest ih =>
      simp only [digits, List.mem_cons, forall_eq_or_imp]
      exact ⟨plain_digit _, plain_digit _, plain_digit _, plain_digit _, ih⟩

theorem length_digits (bytes : List UInt8) :
    (digits bytes).length = 4 * ((bytes.length + 2) / 3) := by
  induction bytes using digits.induct with
  | case1 | case2 a | case3 a b => simp [digits]
  | case4 a b c rest ih =>
      simp only [digits, List.length_cons, ih]
      omega

theorem utf8Len_eq_length {cs : List Char} (h : ∀ c ∈ cs, Plain c) :
    String.utf8Len cs = cs.length := by
  induction cs with
  | nil => rfl
  | cons c cs ih =>
      rw [String.utf8Len_cons, (h c List.mem_cons_self).2,
        ih fun c hc => h c (List.mem_cons_of_mem _ hc), List.length_cons]

theorem utf8ByteSize_encode (bytes : List UInt8) :
    (encode bytes).utf8ByteSize = 4 * ((bytes.length + 2) / 3) := by
  rw [encode, String.utf8ByteSize_ofList, utf8Len_eq_length (plain_digits bytes), length_digits]

theorem quoted_encode (bytes : List UInt8) :
    Json.quoted (encode bytes) = "\"" ++ encode bytes ++ "\"" := by
  refine Json.quoted_plain fun c hc => ?_
  rw [encode, String.toList_ofList] at hc
  exact (plain_digits bytes c hc).1

end AiSsh.Library.Base64
