import Mathlib.Data.List.Basic

/-!
JSON values, and the schemas of flat objects: members of a scalar type or objects of strings,
some of them required, no others allowed. An object is a finite map in the order of its keys.
What is wrong with an object is a list of violations, and an object is valid when there is
none.
-/

namespace AiSsh.Library.Json

/-- An integer of 64 bits, or the finite value of a float. `negInt n` is `-(n + 1)`. -/
inductive Number
  | posInt (value : UInt64)
  | negInt (value : Nat)
  | float (value : Rat)
  deriving DecidableEq, Repr

/-- The integer that a number is, also when it is written as a float. -/
def Number.toInt? : Number → Option Int
  | posInt value => some value.toNat
  | negInt value => some (Int.negSucc value)
  | float value => if value.den = 1 then some value.num else none

inductive Value
  | null
  | bool (value : Bool)
  | number (value : Number)
  | string (value : String)
  | array (items : List Value)
  | object (members : List (String × Value))

namespace Value

def asBool : Value → Option Bool
  | bool value => some value
  | _ => none

def asU64 : Value → Option Nat
  | number (.posInt value) => some value.toNat
  | _ => none

def asStr : Value → Option String
  | string value => some value
  | _ => none

theorem asStr_eq_some {value : Value} {text : String} :
    value.asStr = some text ↔ value = .string text := by
  cases value with
  | string value => simp [asStr]
  | _ => simp [asStr]

end Value

structure Object where
  members : List (String × Value)
  sorted : members.Pairwise fun a b => a.1 < b.1

namespace Object

def get (object : Object) (key : String) : Option Value :=
  (object.members.find? fun member => member.1 == key).map Prod.snd

theorem get_eq_some_iff (object : Object) {key : String} {value : Value} :
    object.get key = some value ↔ (key, value) ∈ object.members := by
  obtain ⟨members, sorted⟩ := object
  simp only [get]
  induction members with
  | nil => simp
  | cons member members ih =>
      obtain ⟨name, first⟩ := member
      obtain ⟨hfirst, sorted⟩ := List.pairwise_cons.mp sorted
      by_cases hname : name = key
      · subst hname
        have hrest : (name, value) ∉ members :=
          fun h => String.lt_irrefl name (hfirst (name, value) h)
        simp [hrest, eq_comm]
      · have hne : ¬ key = name := fun h => hname h.symm
        simp [hname, hne, ih sorted]

/-- Every member changed or left out. -/
def mapMembers (object : Object) (change : String → Value → Option Value) : Object where
  members := object.members.filterMap fun member => (change member.1 member.2).map (member.1, ·)
  sorted := by
    rw [List.pairwise_filterMap]
    refine object.sorted.imp fun {a b} hlt c hc d hd => ?_
    obtain ⟨value, -, rfl⟩ := Option.map_eq_some_iff.mp hc
    obtain ⟨value', -, rfl⟩ := Option.map_eq_some_iff.mp hd
    exact hlt

theorem get_mapMembers (object : Object) (change : String → Value → Option Value)
    (key : String) : (object.mapMembers change).get key = (object.get key).bind (change key) := by
  apply Option.ext
  intro value
  rw [get_eq_some_iff, Option.bind_eq_some_iff]
  simp only [mapMembers, List.mem_filterMap, Option.map_eq_some_iff, Prod.mk.injEq,
    get_eq_some_iff]
  constructor
  · intro h
    obtain ⟨⟨name, before⟩, hmem, after, hchange, rfl, rfl⟩ := h
    exact ⟨before, hmem, hchange⟩
  · intro h
    obtain ⟨before, hmem, hchange⟩ := h
    exact ⟨(key, before), hmem, value, hchange, rfl, rfl⟩

end Object

/-- The schema of one member. `strings` is an object whose members are all strings. -/
inductive Property
  | string (among : Option (List String))
  | boolean
  | integer (minimum maximum : Option Int)
  | strings
  deriving DecidableEq, Repr

namespace Property

def accepts : Property → Value → Bool
  | string none, .string _ => true
  | string (some among), .string value => among.contains value
  | boolean, .bool _ => true
  | integer minimum maximum, .number value =>
      value.toInt?.any fun n =>
        minimum.all (fun bound => decide (bound ≤ n)) && maximum.all fun bound => decide (n ≤ bound)
  | strings, .object members => members.all fun member => member.2.asStr.isSome
  | _, _ => false

end Property

/-- The schema of an object without members beyond the properties. -/
structure ObjectSchema where
  properties : List (String × Property)
  required : List String
  deriving DecidableEq, Repr

inductive Violation
  | missing (key : String)
  | invalid (key : String) (property : Property) (value : Value)
  | additional (key : String)

def Violation.key : Violation → String
  | missing key | invalid key _ _ | additional key => key

namespace ObjectSchema

variable (schema : ObjectSchema)

def property? (key : String) : Option Property := schema.properties.lookup key

def memberViolation (key : String) (value : Value) : Option Violation :=
  match schema.property? key with
  | none => some (.additional key)
  | some property => if property.accepts value then none else some (.invalid key property value)

def violations (object : Object) : List Violation :=
  (schema.required.filter fun key => (object.get key).isNone).map Violation.missing ++
    object.members.filterMap fun member => schema.memberViolation member.1 member.2

def Validates (object : Object) : Prop := schema.violations object = []

theorem mem_violations {object : Object} {violation : Violation} :
    violation ∈ schema.violations object ↔
      (∃ key ∈ schema.required, object.get key = none ∧ violation = .missing key) ∨
        ∃ key value, object.get key = some value ∧
          schema.memberViolation key value = some violation := by
  simp only [violations, List.mem_append, List.mem_map, List.mem_filter, List.mem_filterMap,
    Option.isNone_iff_eq_none, Object.get_eq_some_iff, Prod.exists]
  refine or_congr_left ⟨fun h => ?_, fun h => ?_⟩
  · obtain ⟨key, ⟨hrequired, hnone⟩, rfl⟩ := h
    exact ⟨key, hrequired, hnone, rfl⟩
  · obtain ⟨key, hrequired, hnone, rfl⟩ := h
    exact ⟨key, ⟨hrequired, hnone⟩, rfl⟩

end ObjectSchema

end AiSsh.Library.Json
