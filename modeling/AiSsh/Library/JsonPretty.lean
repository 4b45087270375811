import AiSsh.Library.JsonRead
import Mathlib.Data.List.Forall2

/-!
JSON laid out over several lines, two spaces for each level. Without its layout such a text is
the text without spaces, so it is read as the same value.
-/

namespace AiSsh.Library.Json

section Print

def newLine (depth : Nat) : String := "\n" ++ .ofList (List.replicate (2 * depth) ' ')

/-- The parts of an array or of an object, each on its line. -/
def laidOut (depth : Nat) : List String → String
  | [] => ""
  | parts => joined (parts.map fun part => newLine (depth + 1) ++ part) ++ newLine depth

variable (floatText : Rat → String)

mutual

def Value.pretty (depth : Nat) : Value → String
  | .array items => "[" ++ laidOut depth (prettyItems (depth + 1) items) ++ "]"
  | .object members => "\x7b" ++ laidOut depth (prettyMembers (depth + 1) members) ++ "\x7d"
  | .null => "null"
  | .bool value => toString value
  | .number value => value.text floatText
  | .string value => quoted value

def prettyItems (depth : Nat) : List Value → List String
  | [] => []
  | item :: items => item.pretty depth :: prettyItems depth items

def prettyMembers (depth : Nat) : List (String × Value) → List String
  | [] => []
  | (key, value) :: members =>
      (quoted key ++ ": " ++ value.pretty depth) :: prettyMembers depth members

end

end Print

/-- Where a character of a text stands. -/
inductive Place
  | outside
  | inside
  | escaped
  deriving DecidableEq, Repr

/-- A text without the spaces and line ends outside its strings. -/
def strip : Place → List Char → List Char
  | _, [] => []
  | .outside, c :: text =>
      if c = ' ' ∨ c = '\n' then strip .outside text
      else c :: strip (if c = '"' then .inside else .outside) text
  | .inside, c :: text =>
      c :: strip (if c = '"' then .outside else if c = '\\' then .escaped else .inside) text
  | .escaped, c :: text => c :: strip .inside text

example : strip .outside "[\n  \"a b\",\n  1\n]".toList = "[\"a b\",1]".toList := by decide

/-- Without its layout `pretty` is `plain`, whatever follows. -/
def Strips (pretty plain : String) : Prop :=
  ∀ rest, strip .outside (pretty.toList ++ rest) = plain.toList ++ strip .outside rest

section Strips

variable {pretty plain pretty' plain' : String}

theorem Strips.append (h : Strips pretty plain) (h' : Strips pretty' plain') :
    Strips (pretty ++ pretty') (plain ++ plain') := fun rest => by
  rw [String.toList_append, List.append_assoc, h, h', String.toList_append, List.append_assoc]

/-- A text without strings and layout stays as it is. -/
theorem strips_self {text : String}
    (h : ∀ c ∈ text.toList, c ≠ '"' ∧ c ≠ ' ' ∧ c ≠ '\n') : Strips text text := fun rest => by
  generalize text.toList = text at h ⊢
  induction text with
  | nil => rfl
  | cons c text ih =>
      obtain ⟨hquote, hspace, hline⟩ := h c List.mem_cons_self
      have hlayout : ¬(c = ' ' ∨ c = '\n') := not_or.mpr ⟨hspace, hline⟩
      rw [List.cons_append, strip, if_neg hlayout, if_neg hquote,
        ih fun d hd => h d (List.mem_cons_of_mem _ hd), List.cons_append]

theorem strips_layout {text : String} (h : ∀ c ∈ text.toList, c = ' ' ∨ c = '\n') :
    Strips text "" := fun rest => by
  generalize text.toList = text at h ⊢
  induction text with
  | nil => rfl
  | cons c text ih =>
      rw [List.cons_append, strip, if_pos (h c List.mem_cons_self)]
      exact ih fun d hd => h d (List.mem_cons_of_mem _ hd)

theorem strips_newLine (depth : Nat) : Strips (newLine depth) "" := by
  refine strips_layout fun c hc => ?_
  rw [newLine, String.toList_append] at hc
  cases List.mem_append.mp hc with
  | inl hline => exact .inr (List.mem_singleton.mp hline)
  | inr hspace =>
      rw [String.toList_ofList] at hspace
      exact .inl (List.eq_of_mem_replicate hspace)

/-- A character of a string, however it is written, is kept and stays in the string. -/
theorem strip_escapeChar (c : Char) (rest : List Char) :
    strip .inside (escapeChar c ++ rest) = escapeChar c ++ strip .inside rest := by
  have hpair (e : Char) : strip .inside (['\\', e] ++ rest) = ['\\', e] ++ strip .inside rest := rfl
  rw [escapeChar]
  iterate 7
    split
    · exact hpair _
  split
  · rename_i h
    have hhex (n : Nat) (hn : n < 16) :
        Nat.digitChar n ≠ '"' ∧ Nat.digitChar n ≠ '\\' := by
      revert n
      decide
    have hhigh := hhex (c.toNat / 16) (by omega)
    have hlow := hhex (c.toNat % 16) (by omega)
    simp [strip, hhigh.1, hhigh.2, hlow.1, hlow.2]
  · rename_i hquote hback _ _ _ _ _ _
    rw [List.singleton_append, strip, if_neg hquote, if_neg hback, List.singleton_append]

theorem strips_quoted (text : String) : Strips (quoted text) (quoted text) := fun rest => by
  have hbody : ∀ chars : List Char, strip .inside (chars.flatMap escapeChar ++ '"' :: rest) =
      chars.flatMap escapeChar ++ '"' :: strip .outside rest := by
    intro chars
    induction chars with
    | nil => rfl
    | cons c chars ih =>
        rw [List.flatMap_cons, List.append_assoc, strip_escapeChar, ih, List.append_assoc]
  rw [quoted_toList, List.cons_append, List.append_assoc, List.singleton_append, List.cons_append,
    List.append_assoc, List.singleton_append, ← hbody]
  rfl

end Strips

theorem strips_joined {pretty plain : List String} (h : List.Forall₂ Strips pretty plain) :
    Strips (joined pretty) (joined plain) := by
  induction h with
  | nil => exact fun rest => rfl
  | cons hfirst hrest ih =>
      cases hrest with
      | nil => exact hfirst
      | cons hnext hlater =>
          exact (hfirst.append (strips_self (by simp))).append ih

theorem strips_laidOut (depth : Nat) {pretty plain : List String}
    (h : List.Forall₂ Strips pretty plain) : Strips (laidOut depth pretty) (joined plain) := by
  have hlines : List.Forall₂ Strips (pretty.map fun part => newLine (depth + 1) ++ part) plain :=
    List.forall₂_map_left_iff.mpr (h.imp fun part text hpart => by
      have hline := (strips_newLine (depth + 1)).append hpart
      rwa [String.empty_append] at hline)
  cases h with
  | nil => exact fun rest => rfl
  | cons hfirst hrest =>
      have hall := (strips_joined hlines).append (strips_newLine depth)
      rwa [String.append_empty] at hall

variable (format : FloatFormat)

theorem strips_number (number : Number) :
    Strips (number.text format.text) (number.text format.text) := by
  refine strips_self fun c hc => ?_
  have hnumeric := number.isNumeric_text format c hc
  refine ⟨?_, ?_, ?_⟩ <;> rintro rfl <;> exact absurd hnumeric (by decide)

mutual

theorem strips_pretty : ∀ (value : Value) (depth : Nat),
    Strips (value.pretty format.text depth) (value.text format.text)
  | .null, _ => by
      rw [Value.pretty, Value.text]
      exact strips_self (by simp)
  | .bool true, _ => by
      rw [Value.pretty, Value.text]
      exact strips_self (by simp [toString])
  | .bool false, _ => by
      rw [Value.pretty, Value.text]
      exact strips_self (by simp [toString])
  | .number number, _ => by
      rw [Value.pretty, Value.text]
      exact strips_number format number
  | .string text, _ => by
      rw [Value.pretty, Value.text]
      exact strips_quoted text
  | .array items, depth => by
      rw [Value.pretty, Value.text]
      exact ((strips_self (by simp)).append (strips_laidOut depth
        (strips_items items (depth + 1)))).append (strips_self (by simp))
  | .object members, depth => by
      rw [Value.pretty, Value.text]
      exact ((strips_self (by simp)).append (strips_laidOut depth
        (strips_members members (depth + 1)))).append (strips_self (by simp))

theorem strips_items : ∀ (items : List Value) (depth : Nat),
    List.Forall₂ Strips (prettyItems format.text depth items) (itemTexts format.text items)
  | [], _ => .nil
  | item :: items, depth => .cons (strips_pretty item depth) (strips_items items depth)

theorem strips_members : ∀ (members : List (String × Value)) (depth : Nat),
    List.Forall₂ Strips (prettyMembers format.text depth members)
      (memberTexts format.text members)
  | [], _ => .nil
  | (key, value) :: members, depth => by
      have hcolon : Strips ": " ":" := fun rest => rfl
      exact .cons (((strips_quoted key).append hcolon).append (strips_pretty value depth))
        (strips_members members depth)

end

/-- What is laid out is read as the value that it was. -/
theorem read_pretty (value : Value) :
    read format.read (strip .outside (value.pretty format.text 0).toList) = some value := by
  have h := strips_pretty format value 0 []
  rw [List.append_nil] at h
  rw [h, strip, List.append_nil, read_text]

end AiSsh.Library.Json
