import AiSsh.Library.JsonText
import Mathlib.Algebra.Order.Field.Rat
import Mathlib.Data.List.TakeWhile

/-!
JSON read back. A reader of texts without spaces gets from the text of a value that value; no
text holds a control character, so a text is one line. How a float is written and read is a
parameter.
-/

namespace AiSsh.Library.Json

def isNumeric (c : Char) : Bool :=
  c.isDigit || c == '-' || c == '+' || c == '.' || c == 'e' || c == 'E'

def isNegative (token : List Char) : Bool := token.head? == some '-'

def isDigits (digits : List Char) : Bool := !digits.isEmpty && digits.all Char.isDigit

def isInteger (token : List Char) : Bool :=
  isDigits (if isNegative token then token.tail else token)

/-- How floats are written and read. No float is written like an integer. A number that is no
float may be written in any way that is read back. -/
structure FloatFormat where
  text : Rat → String
  read : List Char → Option Rat
  read_text : ∀ value, read (text value).toList = some value
  numeric : ∀ value, ∀ c ∈ (text value).toList, isNumeric c = true
  fractional : ∀ value, isInteger (text value).toList = false
  nonempty : ∀ value, (text value).toList ≠ []

section Reader

def hexValue (c : Char) : Option Nat :=
  if c.isDigit then some (c.toNat - 48)
  else if 'a' ≤ c ∧ c ≤ 'f' then some (c.toNat - 87)
  else if 'A' ≤ c ∧ c ≤ 'F' then some (c.toNat - 55)
  else none

def escaped : Char → Option Char
  | '"' => some '"'
  | '\\' => some '\\'
  | '/' => some '/'
  | 'b' => some '\x08'
  | 't' => some '\t'
  | 'n' => some '\n'
  | 'f' => some '\x0c'
  | 'r' => some '\r'
  | _ => none

/-- A character by its number. Of a pair of surrogates there is none. -/
def unicode (a b c d : Char) : Option Char :=
  match hexValue a, hexValue b, hexValue c, hexValue d with
  | some a, some b, some c, some d =>
      let code := 4096 * a + 256 * b + 16 * c + d
      if code < 0xd800 ∨ 0xdfff < code then some (.ofNat code) else none
  | _, _, _, _ => none

/-- The rest of a string, behind its opening quote. -/
def readString : List Char → Option (List Char × List Char)
  | '"' :: rest => some ([], rest)
  | '\\' :: 'u' :: a :: b :: c :: d :: rest =>
      match unicode a b c d, readString rest with
      | some char, some (text, rest) => some (char :: text, rest)
      | _, _ => none
  | '\\' :: c :: rest =>
      match escaped c, readString rest with
      | some char, some (text, rest) => some (char :: text, rest)
      | _, _ => none
  | c :: rest =>
      if c.toNat < 32 ∨ c = '\\' then none
      else (readString rest).map fun result => (c :: result.1, result.2)
  | [] => none

variable (readFloat : List Char → Option Rat)

def readNumber (token : List Char) : Option Number :=
  if isInteger token then
    if isNegative token then some (.negInt (Nat.ofDigitChars 10 token.tail 0 - 1))
    else some (.posInt (.ofNat (Nat.ofDigitChars 10 token 0)))
  else (readFloat token).map .float

mutual

/-- A value at the front of a text; the first argument bounds the depth. -/
def readValue : Nat → List Char → Option (Value × List Char)
  | 0, _ => none
  | fuel + 1, text =>
      match text with
      | 'n' :: 'u' :: 'l' :: 'l' :: rest => some (.null, rest)
      | 't' :: 'r' :: 'u' :: 'e' :: rest => some (.bool true, rest)
      | 'f' :: 'a' :: 'l' :: 's' :: 'e' :: rest => some (.bool false, rest)
      | '"' :: rest => (readString rest).map fun result => (.string (.ofList result.1), result.2)
      | '[' :: ']' :: rest => some (.array [], rest)
      | '[' :: rest => (readItems fuel rest).map fun result => (.array result.1, result.2)
      | '\x7b' :: '\x7d' :: rest => some (.object [], rest)
      | '\x7b' :: rest => (readMembers fuel rest).map fun result => (.object result.1, result.2)
      | text =>
          (readNumber readFloat (text.takeWhile isNumeric)).map fun number =>
            (.number number, text.dropWhile isNumeric)

def readItems : Nat → List Char → Option (List Value × List Char)
  | 0, _ => none
  | fuel + 1, text =>
      match readValue fuel text with
      | some (item, ',' :: rest) =>
          (readItems fuel rest).map fun result => (item :: result.1, result.2)
      | some (item, ']' :: rest) => some ([item], rest)
      | _ => none

def readMembers : Nat → List Char → Option (List (String × Value) × List Char)
  | 0, _ => none
  | fuel + 1, text =>
      match text with
      | '"' :: rest =>
          match readString rest with
          | some (key, ':' :: rest) =>
              match readValue fuel rest with
              | some (value, ',' :: rest) =>
                  (readMembers fuel rest).map fun result =>
                    ((.ofList key, value) :: result.1, result.2)
              | some (value, '\x7d' :: rest) => some ([(.ofList key, value)], rest)
              | _ => none
          | _ => none
      | _ => none

end

/-- A text that is one value. -/
def read (text : List Char) : Option Value :=
  match readValue readFloat (text.length + 1) text with
  | some (value, []) => some value
  | _ => none

end Reader

section Strings

theorem hexValue_digitChar : ∀ n < 16, hexValue (Nat.digitChar n) = some n := by decide

theorem unicode_control {n : Nat} (h : n < 32) :
    unicode '0' '0' (Nat.digitChar (n / 16)) (Nat.digitChar (n % 16)) = some (.ofNat n) := by
  have hhigh := hexValue_digitChar (n / 16) (by omega)
  have hlow := hexValue_digitChar (n % 16) (by omega)
  have hzero : hexValue '0' = some 0 := rfl
  have hcode : 4096 * 0 + 256 * 0 + 16 * (n / 16) + n % 16 = n := by omega
  simp only [unicode, hzero, hhigh, hlow, hcode]
  exact if_pos (.inl (by omega))

theorem eq_of_toNat {c : Char} {n : Nat} (h : c.toNat = n) : c = .ofNat n := by
  rw [← h, Char.ofNat_toNat]

/-- A character is read back from what it is written as. -/
theorem readString_escapeChar (c : Char) (rest : List Char) :
    readString (escapeChar c ++ rest) =
      (readString rest).map fun result => (c :: result.1, result.2) := by
  have hpair (e char : Char) (hne : e ≠ 'u') (he : escaped e = some char) :
      readString ('\\' :: e :: rest) =
        (readString rest).map fun result => (char :: result.1, result.2) := by
    rw [readString.eq_def]
    split
    · rename_i heq
      cases heq
    · rename_i heq
      cases heq
      exact absurd rfl hne
    · rename_i heq
      cases heq
      rw [he]
      cases readString rest with
      | none => rfl
      | some result => rfl
    · rename_i hother heq
      cases heq
      exact (hother e rest rfl rfl).elim
    · rename_i heq
      cases heq
  rw [escapeChar]
  split
  · subst c
    exact hpair '"' '"' (by decide) rfl
  split
  · subst c
    exact hpair '\\' '\\' (by decide) rfl
  split
  · rename_i h
    rw [eq_of_toNat h]
    exact hpair 'b' _ (by decide) rfl
  split
  · rename_i h
    rw [eq_of_toNat h]
    exact hpair 't' _ (by decide) rfl
  split
  · rename_i h
    rw [eq_of_toNat h]
    exact hpair 'n' _ (by decide) rfl
  split
  · rename_i h
    rw [eq_of_toNat h]
    exact hpair 'f' _ (by decide) rfl
  split
  · rename_i h
    rw [eq_of_toNat h]
    exact hpair 'r' _ (by decide) rfl
  split
  · rename_i h
    simp only [List.cons_append, List.nil_append, readString, unicode_control h,
      Char.ofNat_toNat]
    cases readString rest with
    | none => rfl
    | some result => rfl
  · rename_i hquote hback _ _ _ _ _ hplain
    rw [List.singleton_append, readString.eq_def]
    split
    · rename_i heq
      cases heq
      exact absurd rfl hquote
    · rename_i heq
      cases heq
      exact absurd rfl hback
    · rename_i heq
      cases heq
      exact absurd rfl hback
    · rename_i heq
      cases heq
      exact if_neg (not_or.mpr ⟨hplain, hback⟩)
    · rename_i heq
      cases heq

/-- A string is read back, behind its opening quote. -/
theorem readString_escaped (text rest : List Char) :
    readString (text.flatMap escapeChar ++ '"' :: rest) = some (text, rest) := by
  induction text with
  | nil => rfl
  | cons c text ih =>
      rw [List.flatMap_cons, List.append_assoc, readString_escapeChar, ih]
      rfl

theorem quoted_toList (text : String) :
    (quoted text).toList = '"' :: (text.toList.flatMap escapeChar ++ ['"']) := by
  simp [quoted]

end Strings

section Numbers

theorem isDigit_toDigits (n : Nat) : ∀ c ∈ Nat.toDigits 10 n, c.isDigit = true := fun _ hc =>
  Nat.isDigit_of_mem_toDigits (by decide) (by decide) hc

theorem isDigits_toDigits (n : Nat) : isDigits (Nat.toDigits 10 n) = true := by
  rw [isDigits, Bool.and_eq_true, List.all_eq_true]
  exact ⟨by simp [Nat.toDigits_ne_nil], isDigit_toDigits n⟩

theorem isNegative_toDigits (n : Nat) : isNegative (Nat.toDigits 10 n) = false := by
  have hdigits := isDigits_toDigits n
  rw [isNegative]
  cases hd : Nat.toDigits 10 n with
  | nil => rfl
  | cons c digits =>
      rw [hd] at hdigits
      by_cases hc : c = '-'
      · subst hc
        simp [isDigits] at hdigits
      · simpa using hc

theorem toString_toList (n : Nat) : (toString n).toList = Nat.toDigits 10 n := by
  simp [toString, Nat.repr]

variable (format : FloatFormat)

theorem Number.text_ne_nil (number : Number) : (number.text format.text).toList ≠ [] := by
  cases number with
  | posInt value =>
      rw [text, toString_toList]
      exact Nat.toDigits_ne_nil
  | negInt value => simp [text]
  | float value => exact format.nonempty value

theorem isNumeric_of_isDigit {c : Char} (h : c.isDigit = true) : isNumeric c = true := by
  simp [isNumeric, h]

theorem Number.isNumeric_text (number : Number) :
    ∀ c ∈ (number.text format.text).toList, isNumeric c = true := by
  intro c hc
  cases number with
  | posInt value =>
      rw [text, toString_toList] at hc
      exact isNumeric_of_isDigit (Nat.isDigit_of_mem_toDigits (by decide) (by decide) hc)
  | negInt value =>
      rw [text, String.toList_append, toString_toList] at hc
      cases List.mem_append.mp hc with
      | inl hsign =>
          rw [List.mem_singleton.mp hsign]
          rfl
      | inr hdigit =>
          exact isNumeric_of_isDigit (Nat.isDigit_of_mem_toDigits (by decide) (by decide) hdigit)
  | float value => exact format.numeric value c hc

theorem readNumber_text (number : Number) :
    readNumber format.read (number.text format.text).toList = some number := by
  cases number with
  | posInt value =>
      have hinteger : isInteger (Nat.toDigits 10 value.toNat) = true := by
        rw [isInteger, isNegative_toDigits]
        exact isDigits_toDigits _
      rw [Number.text, toString_toList, readNumber, if_pos hinteger, isNegative_toDigits,
        Nat.ofDigitChars_ten_toDigits]
      simp
  | negInt value =>
      have htext : (Number.text format.text (.negInt value)).toList =
          '-' :: Nat.toDigits 10 (value + 1) := by
        rw [Number.text, String.toList_append, toString_toList]
        rfl
      have hinteger : isInteger ('-' :: Nat.toDigits 10 (value + 1)) = true :=
        isDigits_toDigits (value + 1)
      have hnegative : isNegative ('-' :: Nat.toDigits 10 (value + 1)) = true := rfl
      rw [htext, readNumber, if_pos hinteger, if_pos hnegative, List.tail_cons,
        Nat.ofDigitChars_ten_toDigits, Nat.add_sub_cancel]
  | float value =>
      have hfloat : ¬isInteger (format.text value).toList = true := by
        rw [format.fractional]
        exact Bool.false_ne_true
      rw [Number.text, readNumber, if_neg hfloat, format.read_text, Option.map_some]

end Numbers

section Fraction

/-- A sign, the numerator, a point and the denominator. -/
def fractionChars (value : Rat) : List Char :=
  (if value.num < 0 then ['-'] else []) ++
    (Nat.toDigits 10 value.num.natAbs ++ '.' :: Nat.toDigits 10 value.den)

def readFraction (token : List Char) : Option Rat :=
  let digits := if isNegative token then token.tail else token
  let numerator : Rat := (Nat.ofDigitChars 10 (digits.takeWhile Char.isDigit) 0 : Nat)
  let denominator : Rat := (Nat.ofDigitChars 10 (digits.dropWhile Char.isDigit).tail 0 : Nat)
  some ((if isNegative token then -numerator else numerator) / denominator)

theorem isNegative_append {digits : List Char} (h : digits ≠ [])
    (hdigits : isNegative digits = false) (rest : List Char) :
    isNegative (digits ++ rest) = false := by
  cases digits with
  | nil => exact absurd rfl h
  | cons c digits => exact hdigits

theorem isNegative_fraction (value : Rat) :
    isNegative (fractionChars value) = decide (value.num < 0) := by
  rw [fractionChars]
  by_cases h : value.num < 0
  · simp [h, isNegative]
  · rw [if_neg h, List.nil_append,
      isNegative_append Nat.toDigits_ne_nil (isNegative_toDigits _)]
    simp [h]

theorem unsigned_fraction (value : Rat) :
    (if isNegative (fractionChars value) then (fractionChars value).tail
      else fractionChars value) =
        Nat.toDigits 10 value.num.natAbs ++ '.' :: Nat.toDigits 10 value.den := by
  rw [isNegative_fraction]
  by_cases h : value.num < 0 <;> simp [fractionChars, h]

theorem readFraction_fraction (value : Rat) :
    readFraction (fractionChars value) = some value := by
  have htake : (Nat.toDigits 10 value.num.natAbs ++ '.' :: Nat.toDigits 10 value.den).takeWhile
      Char.isDigit = Nat.toDigits 10 value.num.natAbs := by
    rw [List.takeWhile_append_of_pos (isDigit_toDigits _)]
    simp [List.takeWhile]
  have hdrop : (Nat.toDigits 10 value.num.natAbs ++ '.' :: Nat.toDigits 10 value.den).dropWhile
      Char.isDigit = '.' :: Nat.toDigits 10 value.den := by
    rw [List.dropWhile_append_of_pos (isDigit_toDigits _)]
    simp [List.dropWhile]
  rw [readFraction, unsigned_fraction]
  simp only [htake, hdrop, List.tail_cons, Nat.ofDigitChars_ten_toDigits, isNegative_fraction,
    decide_eq_true_eq, Option.some.injEq]
  have hnum : (if value.num < 0 then -((value.num.natAbs : Nat) : Rat)
      else ((value.num.natAbs : Nat) : Rat)) = (value.num : Rat) := by
    split
    · rename_i h
      have habs : (value.num.natAbs : Int) = -value.num := by omega
      rw [← Int.cast_natCast (value.num.natAbs), habs]
      simp
    · rename_i h
      have habs : (value.num.natAbs : Int) = value.num := by omega
      rw [← Int.cast_natCast (value.num.natAbs), habs]
  rw [hnum]
  exact Rat.num_div_den value

/-- A way to write any float. -/
def FloatFormat.fraction : FloatFormat where
  text value := .ofList (fractionChars value)
  read := readFraction
  read_text value := by rw [String.toList_ofList, readFraction_fraction]
  numeric value c hc := by
    rw [String.toList_ofList, fractionChars] at hc
    rcases List.mem_append.mp hc with hsign | hrest
    · split at hsign
      · rw [List.mem_singleton.mp hsign]
        rfl
      · cases hsign
    · rcases List.mem_append.mp hrest with hdigit | hpoint
      · exact isNumeric_of_isDigit (isDigit_toDigits _ c hdigit)
      · rcases List.mem_cons.mp hpoint with rfl | hdigit
        · rfl
        · exact isNumeric_of_isDigit (isDigit_toDigits _ c hdigit)
  fractional value := by
    rw [String.toList_ofList, isInteger, unsigned_fraction, isDigits, List.all_append]
    simp
  nonempty value := by
    rw [String.toList_ofList, fractionChars]
    simp [Nat.toDigits_ne_nil]

end Fraction

section Values

variable (format : FloatFormat)

/-- What follows a value does not go on with a number. -/
def Stops (rest : List Char) : Prop := ∀ c ∈ rest.head?, isNumeric c = false

theorem readValue_number (number : Number) {rest : List Char} (hrest : Stops rest) (fuel : Nat) :
    readValue format.read (fuel + 1) ((number.text format.text).toList ++ rest) =
      some (.number number, rest) := by
  have hne := number.text_ne_nil format
  have hnumeric := number.isNumeric_text format
  have hread := readNumber_text format number
  revert hne hnumeric hread
  generalize (number.text format.text).toList = token
  intro hne hnumeric hread
  have htake : (token ++ rest).takeWhile isNumeric = token := by
    rw [List.takeWhile_append_of_pos hnumeric]
    cases rest with
    | nil => simp
    | cons c rest => simp [hrest c rfl]
  have hdrop : (token ++ rest).dropWhile isNumeric = rest := by
    rw [List.dropWhile_append_of_pos hnumeric]
    cases rest with
    | nil => rfl
    | cons c rest => simp [hrest c rfl]
  obtain ⟨c, more, rfl⟩ := List.exists_cons_of_ne_nil hne
  have hc := hnumeric c List.mem_cons_self
  rw [List.cons_append] at htake hdrop ⊢
  rw [readValue.eq_def]
  dsimp only
  split
  -- no other kind of value begins like a number
  iterate 8
    · rename_i heq
      obtain ⟨rfl, -⟩ := List.cons.inj heq
      exact absurd hc (by decide)
  rw [htake, hdrop, hread, Option.map_some]

theorem null_toList : (Value.text format.text .null).toList = ['n', 'u', 'l', 'l'] := by
  rw [Value.text]
  rfl

theorem true_toList : (Value.text format.text (.bool true)).toList = ['t', 'r', 'u', 'e'] := by
  rw [Value.text]
  rfl

theorem false_toList :
    (Value.text format.text (.bool false)).toList = ['f', 'a', 'l', 's', 'e'] := by
  rw [Value.text]
  rfl

theorem array_toList (items : List Value) :
    (Value.text format.text (.array items)).toList =
      '[' :: ((joined (itemTexts format.text items)).toList ++ [']']) := by
  simp [Value.text]

theorem object_toList (members : List (String × Value)) :
    (Value.text format.text (.object members)).toList =
      '\x7b' :: ((joined (memberTexts format.text members)).toList ++ ['\x7d']) := by
  simp [Value.text]

theorem text_head (value : Value) :
    ∃ c more, (value.text format.text).toList = c :: more ∧ c ≠ ']' := by
  cases value with
  | null => exact ⟨'n', _, null_toList format, by decide⟩
  | bool value =>
      cases value with
      | true => exact ⟨'t', _, true_toList format, by decide⟩
      | false => exact ⟨'f', _, false_toList format, by decide⟩
  | number value =>
      obtain ⟨c, more, htext⟩ := List.exists_cons_of_ne_nil (value.text_ne_nil format)
      refine ⟨c, more, htext, fun hc => ?_⟩
      have hnumeric := value.isNumeric_text format c (htext ▸ List.mem_cons_self)
      rw [hc] at hnumeric
      exact absurd hnumeric (by decide)
  | string text => exact ⟨'"', _, quoted_toList text, by decide⟩
  | array items => exact ⟨'[', _, array_toList format items, by decide⟩
  | object members => exact ⟨'\x7b', _, object_toList format members, by decide⟩

theorem joined_cons_cons (text next : String) (rest : List String) :
    (joined (text :: next :: rest)).toList =
      text.toList ++ ',' :: (joined (next :: rest)).toList := by
  simp [joined]

theorem member_toList (key : String) (value : Value) (rest : List Char) :
    (quoted key ++ ":" ++ value.text format.text).toList ++ rest =
      '"' :: (key.toList.flatMap escapeChar ++ '"' :: ':' ::
        ((value.text format.text).toList ++ rest)) := by
  simp [quoted_toList]

theorem readItems_last {fuel : Nat} {text rest : List Char} {item : Value}
    (h : readValue format.read fuel (text ++ ']' :: rest) = some (item, ']' :: rest)) :
    readItems format.read (fuel + 1) (text ++ ']' :: rest) = some ([item], rest) := by
  simp only [readItems, h]

theorem readItems_next {fuel : Nat} {text more rest : List Char} {item : Value}
    {items : List Value}
    (h : readValue format.read fuel (text ++ ',' :: more) = some (item, ',' :: more))
    (hmore : readItems format.read fuel more = some (items, rest)) :
    readItems format.read (fuel + 1) (text ++ ',' :: more) = some (item :: items, rest) := by
  simp only [readItems, h, hmore, Option.map_some]

theorem readMembers_last {fuel : Nat} {key : String} {text rest : List Char} {value : Value}
    (h : readValue format.read fuel (text ++ '\x7d' :: rest) = some (value, '\x7d' :: rest)) :
    readMembers format.read (fuel + 1) ('"' :: (key.toList.flatMap escapeChar ++ '"' :: ':' ::
      (text ++ '\x7d' :: rest))) = some ([(key, value)], rest) := by
  simp only [readMembers, readString_escaped, h, String.ofList_toList]

theorem readMembers_next {fuel : Nat} {key : String} {text more rest : List Char}
    {value : Value} {members : List (String × Value)}
    (h : readValue format.read fuel (text ++ ',' :: more) = some (value, ',' :: more))
    (hmore : readMembers format.read fuel more = some (members, rest)) :
    readMembers format.read (fuel + 1) ('"' :: (key.toList.flatMap escapeChar ++ '"' :: ':' ::
      (text ++ ',' :: more))) = some ((key, value) :: members, rest) := by
  simp only [readMembers, readString_escaped, h, hmore, Option.map_some, String.ofList_toList]

theorem stops_comma (rest : List Char) : Stops (',' :: rest) := by
  intro c hc
  cases hc
  rfl

theorem stops_bracket (rest : List Char) : Stops (']' :: rest) := by
  intro c hc
  cases hc
  rfl

theorem stops_brace (rest : List Char) : Stops ('\x7d' :: rest) := by
  intro c hc
  cases hc
  rfl

theorem readValue_array {fuel : Nat} {text rest : List Char} {items : List Value}
    (hhead : text.head? ≠ some ']') (h : readItems format.read fuel text = some (items, rest)) :
    readValue format.read (fuel + 1) ('[' :: text) = some (.array items, rest) := by
  rw [readValue.eq_def]
  dsimp only
  split
  case h_5 heq =>
    obtain ⟨-, rfl⟩ := List.cons.inj heq
    exact absurd rfl hhead
  case h_6 heq =>
    obtain ⟨-, rfl⟩ := List.cons.inj heq
    rw [h, Option.map_some]
  case h_9 hother _ _ => exact (hother text rfl).elim
  all_goals
    rename_i heq
    exact absurd (List.cons.inj heq).1 (by decide)

theorem readValue_object {fuel : Nat} {text rest : List Char} {members : List (String × Value)}
    (hhead : text.head? ≠ some '\x7d')
    (h : readMembers format.read fuel text = some (members, rest)) :
    readValue format.read (fuel + 1) ('\x7b' :: text) = some (.object members, rest) := by
  rw [readValue.eq_def]
  dsimp only
  split
  case h_7 heq =>
    obtain ⟨-, rfl⟩ := List.cons.inj heq
    exact absurd rfl hhead
  case h_8 heq =>
    obtain ⟨-, rfl⟩ := List.cons.inj heq
    rw [h, Option.map_some]
  case h_9 hother => exact (hother text rfl).elim
  all_goals
    rename_i heq
    exact absurd (List.cons.inj heq).1 (by decide)

theorem joined_head (text : String) (texts : List String) {c : Char} {more : List Char}
    (h : text.toList = c :: more) (rest : List Char) :
    ((joined (text :: texts)).toList ++ rest).head? = some c := by
  cases texts with
  | nil => rw [joined, h, List.cons_append, List.head?_cons]
  | cons next texts => rw [joined_cons_cons, h, List.cons_append, List.cons_append, List.head?_cons]

theorem items_toList (item next : Value) (items : List Value) :
    (joined (itemTexts format.text (item :: next :: items))).toList =
      (item.text format.text).toList ++
        ',' :: (joined (itemTexts format.text (next :: items))).toList := by
  simp only [itemTexts, joined_cons_cons]

theorem members_toList (member next : String × Value) (members : List (String × Value)) :
    (joined (memberTexts format.text (member :: next :: members))).toList =
      (quoted member.1 ++ ":" ++ member.2.text format.text).toList ++
        ',' :: (joined (memberTexts format.text (next :: members))).toList := by
  simp only [memberTexts, joined_cons_cons]

/-- What is written is read, as far as this fuel goes. -/
structure ReadsBack (fuel : Nat) : Prop where
  value : ∀ value rest, (value.text format.text).toList.length < fuel → Stops rest →
    readValue format.read fuel ((value.text format.text).toList ++ rest) = some (value, rest)
  items : ∀ item items rest,
    (joined (itemTexts format.text (item :: items))).toList.length + 1 < fuel →
    readItems format.read fuel
      ((joined (itemTexts format.text (item :: items))).toList ++ ']' :: rest) =
        some (item :: items, rest)
  members : ∀ member members rest,
    (joined (memberTexts format.text (member :: members))).toList.length + 1 < fuel →
    readMembers format.read fuel
      ((joined (memberTexts format.text (member :: members))).toList ++ '\x7d' :: rest) =
        some (member :: members, rest)

section Step

variable {format} {fuel : Nat} (ih : ReadsBack format fuel)
include ih

theorem ReadsBack.next_value (value : Value) {rest : List Char}
    (hfuel : (value.text format.text).toList.length < fuel + 1) (hrest : Stops rest) :
    readValue format.read (fuel + 1) ((value.text format.text).toList ++ rest) =
      some (value, rest) := by
  cases value with
  | null =>
      rw [null_toList]
      rfl
  | bool value =>
      cases value with
      | true =>
          rw [true_toList]
          rfl
      | false =>
          rw [false_toList]
          rfl
  | number number => exact readValue_number format number hrest fuel
  | string text =>
      rw [Value.text, quoted_toList, List.cons_append, List.append_assoc, List.singleton_append,
        readValue]
      simp only [readString_escaped, Option.map_some, String.ofList_toList]
  | array items =>
      rw [array_toList] at hfuel ⊢
      cases items with
      | nil => rfl
      | cons item items =>
          simp only [List.length_cons, List.length_append, List.length_nil] at hfuel
          obtain ⟨c, more, hitem, hne⟩ := text_head format item
          have hhead := joined_head _ (itemTexts format.text items) hitem (']' :: rest)
          rw [List.cons_append, List.append_assoc, List.singleton_append]
          refine readValue_array format ?_ (ih.items item items rest (by omega))
          rw [itemTexts, hhead]
          exact fun h => hne (Option.some.inj h)
  | object members =>
      rw [object_toList] at hfuel ⊢
      cases members with
      | nil => rfl
      | cons member members =>
          simp only [List.length_cons, List.length_append, List.length_nil] at hfuel
          have hquote : (quoted member.1 ++ ":" ++ member.2.text format.text).toList =
              '"' :: (member.1.toList.flatMap escapeChar ++ '"' :: ':' ::
                (member.2.text format.text).toList) := by
            simp [quoted_toList]
          have hhead := joined_head _ (memberTexts format.text members) hquote ('\x7d' :: rest)
          rw [List.cons_append, List.append_assoc, List.singleton_append]
          refine readValue_object format ?_ (ih.members member members rest (by omega))
          rw [memberTexts, hhead]
          exact fun h => absurd (Option.some.inj h) (by decide)

theorem ReadsBack.next_items (item : Value) (items : List Value) (rest : List Char)
    (hfuel : (joined (itemTexts format.text (item :: items))).toList.length + 1 < fuel + 1) :
    readItems format.read (fuel + 1)
      ((joined (itemTexts format.text (item :: items))).toList ++ ']' :: rest) =
        some (item :: items, rest) := by
  cases items with
  | nil =>
      rw [itemTexts, itemTexts, joined] at hfuel ⊢
      exact readItems_last format (ih.value item _ (by omega) (stops_bracket rest))
  | cons next items =>
      rw [items_toList] at hfuel ⊢
      simp only [List.length_append, List.length_cons] at hfuel
      rw [List.append_assoc, List.cons_append]
      exact readItems_next format (ih.value item _ (by omega) (stops_comma _))
        (ih.items next items rest (by omega))

theorem ReadsBack.next_members (member : String × Value) (members : List (String × Value))
    (rest : List Char)
    (hfuel : (joined (memberTexts format.text (member :: members))).toList.length + 1 < fuel + 1) :
    readMembers format.read (fuel + 1)
      ((joined (memberTexts format.text (member :: members))).toList ++ '\x7d' :: rest) =
        some (member :: members, rest) := by
  obtain ⟨key, value⟩ := member
  have hvalue : (value.text format.text).toList.length ≤
      (quoted key ++ ":" ++ value.text format.text).toList.length := by
    rw [String.toList_append, List.length_append]
    exact Nat.le_add_left _ _
  cases members with
  | nil =>
      rw [memberTexts, memberTexts, joined] at hfuel ⊢
      rw [member_toList]
      exact readMembers_last format (ih.value value _ (by omega) (stops_brace rest))
  | cons next members =>
      rw [members_toList] at hfuel ⊢
      simp only [List.length_append, List.length_cons] at hfuel hvalue
      rw [List.append_assoc, List.cons_append, member_toList]
      exact readMembers_next format (ih.value value _ (by omega) (stops_comma _))
        (ih.members next members rest (by omega))

end Step

theorem readsBack (fuel : Nat) : ReadsBack format fuel := by
  induction fuel with
  | zero =>
      exact ⟨fun _ _ h _ => absurd h (Nat.not_lt_zero _),
        fun _ _ _ h => absurd h (Nat.not_lt_zero _), fun _ _ _ h => absurd h (Nat.not_lt_zero _)⟩
  | succ fuel ih =>
      exact ⟨fun value _ hfuel hrest => ih.next_value value hfuel hrest,
        fun item items rest hfuel => ih.next_items item items rest hfuel,
        fun member members rest hfuel => ih.next_members member members rest hfuel⟩

/-- What a value is written as is read as that value. -/
theorem read_text (value : Value) :
    read format.read (value.text format.text).toList = some value := by
  have hstops : Stops [] := fun c hc => absurd hc (Option.not_mem_none c)
  have h := (readsBack format _).value value [] (Nat.lt_succ_self _) hstops
  rw [List.append_nil] at h
  rw [read, h]

/-- Not a control character. -/
def isPrintable (c : Char) : Bool := decide (32 ≤ c.toNat)

theorem isPrintable_of_numeric {c : Char} (h : isNumeric c = true) : isPrintable c = true := by
  simp only [isNumeric, Bool.or_eq_true, beq_iff_eq] at h
  rcases h with ((((h | rfl) | rfl) | rfl) | rfl) | rfl
  · have hlow : 48 ≤ c.toNat := by
      simp only [Char.isDigit, Bool.and_eq_true, decide_eq_true_eq] at h
      exact h.1
    exact decide_eq_true (Nat.le_trans (by decide) hlow)
  all_goals decide

theorem isPrintable_digitChar : ∀ n < 16, isPrintable (Nat.digitChar n) = true := by decide

theorem all_printable_escapeChar (c : Char) : (escapeChar c).all isPrintable = true := by
  rw [escapeChar]
  iterate 7
    split
    · decide
  split
  · rename_i hlt
    have hhigh := isPrintable_digitChar (c.toNat / 16) (by omega)
    have hlow := isPrintable_digitChar (c.toNat % 16) (by omega)
    simp only [List.all_cons, hhigh, hlow]
    decide
  · rename_i hplain
    simpa [isPrintable] using hplain

theorem all_printable_quoted (text : String) : (quoted text).toList.all isPrintable = true := by
  have hbody : (text.toList.flatMap escapeChar).all isPrintable = true := by
    rw [List.all_flatMap, List.all_eq_true]
    exact fun c _ => all_printable_escapeChar c
  rw [quoted_toList, List.all_cons, List.all_append, hbody]
  decide

mutual

/-- A text is one line. -/
theorem all_printable_text :
    ∀ value : Value, (value.text format.text).toList.all isPrintable = true
  | .null => by
      rw [null_toList]
      decide
  | .bool true => by
      rw [true_toList]
      decide
  | .bool false => by
      rw [false_toList]
      decide
  | .number number => by
      rw [List.all_eq_true]
      exact fun c hc => isPrintable_of_numeric (number.isNumeric_text format c hc)
  | .string text => all_printable_quoted text
  | .array items => by
      rw [array_toList, List.all_cons, List.all_append, all_printable_items items]
      decide
  | .object members => by
      rw [object_toList, List.all_cons, List.all_append, all_printable_members members]
      decide

theorem all_printable_items : ∀ items : List Value,
    (joined (itemTexts format.text items)).toList.all isPrintable = true
  | [] => rfl
  | [item] => by
      rw [itemTexts, itemTexts, joined]
      exact all_printable_text item
  | item :: next :: items => by
      rw [items_toList, List.all_append, all_printable_text item, List.all_cons,
        all_printable_items (next :: items)]
      decide

theorem all_printable_members : ∀ members : List (String × Value),
    (joined (memberTexts format.text members)).toList.all isPrintable = true
  | [] => rfl
  | [(key, value)] => by
      rw [memberTexts, memberTexts, joined, String.toList_append, String.toList_append,
        List.all_append, List.all_append, all_printable_quoted, all_printable_text value]
      decide
  | (key, value) :: next :: members => by
      rw [members_toList, List.all_append, String.toList_append, String.toList_append,
        List.all_append, List.all_append, all_printable_quoted, all_printable_text value,
        List.all_cons, all_printable_members (next :: members)]
      decide

end

end Values

end AiSsh.Library.Json
