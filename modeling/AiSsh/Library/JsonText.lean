import AiSsh.Library.JsonSchema
import Mathlib.Data.List.Induction
import Mathlib.Data.String.Basic

/-!
JSON as text, without spaces, and objects put together member by member. A later member of
the same name takes the place of the earlier one. How a float is written is a parameter.
-/

namespace AiSsh.Library.Json

def escapeChar (c : Char) : List Char :=
  if c = '"' then ['\\', '"']
  else if c = '\\' then ['\\', '\\']
  else if c.toNat = 8 then ['\\', 'b']
  else if c.toNat = 9 then ['\\', 't']
  else if c.toNat = 10 then ['\\', 'n']
  else if c.toNat = 12 then ['\\', 'f']
  else if c.toNat = 13 then ['\\', 'r']
  else if c.toNat < 32 then
    ['\\', 'u', '0', '0', Nat.digitChar (c.toNat / 16), Nat.digitChar (c.toNat % 16)]
  else [c]

def quoted (text : String) : String :=
  "\"" ++ .ofList (text.toList.flatMap escapeChar) ++ "\""

/-- A text without characters to escape stands between its quotes as it is. -/
theorem quoted_plain {text : String} (h : ∀ c ∈ text.toList, escapeChar c = [c]) :
    quoted text = "\"" ++ text ++ "\"" := by
  have hplain : text.toList.flatMap escapeChar = text.toList := by
    rw [List.flatMap_congr h, List.flatMap_singleton']
  rw [quoted, hplain, String.ofList_toList]

/-- Texts with commas between them. -/
def joined : List String → String
  | [] => ""
  | [text] => text
  | text :: rest => text ++ "," ++ joined rest

theorem joined_split (front back : List String) :
    ∃ before after, ∀ text, joined (front ++ text :: back) = before ++ text ++ after := by
  induction front with
  | nil =>
      cases back with
      | nil => exact ⟨"", "", fun text => by simp [joined]⟩
      | cons next back => exact ⟨"", "," ++ joined (next :: back), fun text => by
          simp [joined, String.append_assoc]⟩
  | cons first front ih =>
      obtain ⟨before, after, hsplit⟩ := ih
      refine ⟨first ++ "," ++ before, after, fun text => ?_⟩
      have hjoined : joined (first :: (front ++ text :: back)) =
          first ++ "," ++ joined (front ++ text :: back) := by
        cases front with
        | nil => rfl
        | cons _ _ => rfl
      rw [List.cons_append, hjoined, hsplit]
      simp only [String.append_assoc]

section Text

variable (floatText : Rat → String)

def Number.text : Number → String
  | posInt value => toString value.toNat
  | negInt value => "-" ++ toString (value + 1)
  | float value => floatText value

mutual

def Value.text : Value → String
  | .null => "null"
  | .bool value => toString value
  | .number value => value.text floatText
  | .string value => quoted value
  | .array items => "[" ++ joined (itemTexts items) ++ "]"
  | .object members => "\x7b" ++ joined (memberTexts members) ++ "\x7d"

def itemTexts : List Value → List String
  | [] => []
  | item :: items => item.text :: itemTexts items

def memberTexts : List (String × Value) → List String
  | [] => []
  | (key, value) :: members => (quoted key ++ ":" ++ value.text) :: memberTexts members

end

theorem memberTexts_append (front back : List (String × Value)) :
    memberTexts floatText (front ++ back) =
      memberTexts floatText front ++ memberTexts floatText back := by
  induction front with
  | nil => rfl
  | cons first front ih =>
      obtain ⟨key, value⟩ := first
      rw [List.cons_append, memberTexts, memberTexts, ih, List.cons_append]

end Text

/-- What a value that is an object has under a key. -/
def Value.get : Value → String → Option Value
  | .object members, key => (members.find? fun member => member.1 == key).map Prod.snd
  | _, _ => none

def Value.asArray : Value → Option (List Value)
  | .array items => some items
  | _ => none

def Value.isNull : Value → Bool
  | .null => true
  | _ => false

section Objects

def insertMember (key : String) (value : Value) :
    List (String × Value) → List (String × Value)
  | [] => [(key, value)]
  | member :: members =>
      if key < member.1 then (key, value) :: member :: members
      else if key = member.1 then (key, value) :: members
      else member :: insertMember key value members

theorem mem_insertMember {key : String} {value : Value} {members : List (String × Value)}
    {member : String × Value} (h : member ∈ insertMember key value members) :
    member = (key, value) ∨ member ∈ members := by
  induction members with
  | nil => simpa [insertMember] using h
  | cons first members ih =>
      rw [insertMember] at h
      split at h
      · simpa using h
      · split at h
        · rcases List.mem_cons.mp h with h | h
          · exact .inl h
          · exact .inr (List.mem_cons_of_mem _ h)
        · rcases List.mem_cons.mp h with h | h
          · exact .inr (h ▸ List.mem_cons_self)
          · exact (ih h).imp_right (List.mem_cons_of_mem _)

namespace Object

def empty : Object where
  members := []
  sorted := .nil

def insert (object : Object) (key : String) (value : Value) : Object where
  members := insertMember key value object.members
  sorted := by
    obtain ⟨members, sorted⟩ := object
    induction members with
    | nil => exact List.pairwise_singleton _ _
    | cons first members ih =>
        obtain ⟨hfirst, hmembers⟩ := List.pairwise_cons.mp sorted
        simp only [insertMember]
        split
        · rename_i hlt
          refine List.pairwise_cons.mpr ⟨fun member hmember => ?_, sorted⟩
          rcases List.mem_cons.mp hmember with rfl | hmember
          · exact hlt
          · exact String.lt_trans hlt (hfirst member hmember)
        · split
          · rename_i heq
            exact List.pairwise_cons.mpr ⟨fun member hmember => heq ▸ hfirst member hmember,
              hmembers⟩
          · rename_i hnlt hne
            refine List.pairwise_cons.mpr ⟨fun member hmember => ?_, ih hmembers⟩
            rcases mem_insertMember hmember with rfl | hmember
            · by_contra hngt
              exact hne (String.lt_antisymm hnlt hngt)
            · exact hfirst member hmember

def remove (object : Object) (key : String) : Object :=
  object.mapMembers fun name value => if name = key then none else some value

/-- An object written out. -/
def of (members : List (String × Value)) : Object :=
  members.foldl (fun object member => object.insert member.1 member.2) empty

def toValue (object : Object) : Value := .object object.members

@[simp] theorem get_empty (key : String) : empty.get key = none := rfl

@[simp] theorem get_insert (object : Object) (key other : String) (value : Value) :
    (object.insert key value).get other = if other = key then some value else object.get other := by
  obtain ⟨members, sorted⟩ := object
  simp only [get, insert]
  clear sorted
  induction members with
  | nil =>
      by_cases hkey : other = key
      · simp [insertMember, hkey]
      · simp [insertMember, hkey, Ne.symm hkey]
  | cons first members ih =>
      rw [insertMember]
      by_cases hkey : other = key
      · subst hkey
        rw [if_pos rfl] at ih ⊢
        split
        · simp
        · split
          · simp
          · rename_i hne
            rw [List.find?_cons_of_neg (by simpa using Ne.symm hne), ih]
      · rw [if_neg hkey] at ih ⊢
        split
        · rw [List.find?_cons_of_neg (by simpa using Ne.symm hkey)]
        · split
          · rename_i heq
            rw [List.find?_cons_of_neg (by simpa using Ne.symm hkey),
              List.find?_cons_of_neg (by simpa [heq] using Ne.symm hkey)]
          · by_cases hfirst : first.1 = other
            · simp [hfirst]
            · rw [List.find?_cons_of_neg (by simpa using hfirst),
                List.find?_cons_of_neg (by simpa using hfirst), ih]

/-- The last member of a name is the one an object has. -/
theorem get_of (members : List (String × Value)) (key : String) :
    (of members).get key = members.reverse.lookup key := by
  induction members using List.reverseRecOn with
  | nil => rfl
  | append_singleton members member ih =>
      have hinsert : of (members ++ [member]) =
          (of members).insert member.1 member.2 := List.foldl_concat ..
      rw [hinsert, get_insert, ih, List.reverse_concat, List.lookup_cons]
      by_cases hkey : key = member.1
      · simp [hkey]
      · simp [hkey, beq_eq_false_iff_ne.mpr hkey]

@[simp] theorem get_toValue (object : Object) (key : String) :
    object.toValue.get key = object.get key := rfl

/-- The objects differ in the value of one member only. -/
def HasSlot (key : String) (object : Value → Object) : Prop :=
  ∃ front back, ∀ value, (object value).members = front ++ (key, value) :: back

theorem hasSlot_insert (object : Object) (key : String) :
    HasSlot key fun value => object.insert key value := by
  obtain ⟨members, sorted⟩ := object
  simp only [HasSlot, insert]
  clear sorted
  induction members with
  | nil => exact ⟨[], [], fun value => rfl⟩
  | cons first members ih =>
      simp only [insertMember]
      split
      · exact ⟨[], first :: members, fun value => rfl⟩
      · split
        · exact ⟨[], members, fun value => rfl⟩
        · obtain ⟨front, back, hslot⟩ := ih
          exact ⟨first :: front, back, fun value => by rw [hslot, List.cons_append]⟩

theorem HasSlot.insert {key other : String} {object : Value → Object} (h : HasSlot key object)
    (hne : other ≠ key) (given : Value) :
    HasSlot key fun value => (object value).insert other given := by
  obtain ⟨front, back, hslot⟩ := h
  simp only [HasSlot, Object.insert, hslot]
  clear hslot
  induction front with
  | nil =>
      simp only [List.nil_append, insertMember, if_neg hne]
      split
      · exact ⟨[(other, given)], back, fun value => rfl⟩
      · exact ⟨[], insertMember other given back, fun value => rfl⟩
  | cons first front ih =>
      simp only [List.cons_append, insertMember]
      split
      · exact ⟨(other, given) :: first :: front, back, fun value => rfl⟩
      · split
        · exact ⟨(other, given) :: front, back, fun value => rfl⟩
        · obtain ⟨front', back', hslot⟩ := ih
          exact ⟨first :: front', back', fun value => by rw [hslot, List.cons_append]⟩

/-- The text of one member stands between texts that do not depend on it. -/
theorem HasSlot.text {key : String} {object : Value → Object} (h : HasSlot key object)
    (floatText : Rat → String) :
    ∃ before after, ∀ value, (object value).toValue.text floatText =
      before ++ value.text floatText ++ after := by
  obtain ⟨front, back, hslot⟩ := h
  obtain ⟨before, after, hsplit⟩ :=
    joined_split (memberTexts floatText front) (memberTexts floatText back)
  refine ⟨"\x7b" ++ before ++ quoted key ++ ":", after ++ "\x7d", fun value => ?_⟩
  rw [toValue, hslot, Value.text, memberTexts_append, memberTexts, hsplit]
  simp only [String.append_assoc]

end Object

end Objects

end AiSsh.Library.Json
