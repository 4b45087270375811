import AiSsh.ToolRequest

/-!
How far the conversion of a tool call keeps to the schema of the tool. Members that the schema
does not have, nulls in place of a text or of an environment, and a limit or a wait out of its
range change nothing. Without them the arguments are valid, but for members that the conversion
does not check.
-/

namespace AiSsh

open Library.Json

/-- The bounds between which the conversion moves an integer. -/
def clampRange (key : String) : Nat × Option Nat :=
  if key = "limit" then (1, some 500)
  else if key = "wait_seconds" then (0, some maxWaitSeconds)
  else (0, none)

def clampNat (range : Nat × Option Nat) (n : Nat) : Nat :=
  max range.1 (range.2.elim n (min n))

def clamped (key : String) : Value → Value
  | .number (.posInt n) => .number (.posInt (UInt64.ofNat (clampNat (clampRange key) n.toNat)))
  | value => value

/-- A member without what the conversion takes for its absence. -/
def settled (property : Property) (key : String) (value : Value) : Option Value :=
  match property, value with
  | .string _, .null | .strings, .null => none
  | _, value => some (clamped key value)

/-- The arguments as the conversion takes them: the members of the schema, settled. -/
def conform (schema : ObjectSchema) (args : Arguments) : Arguments :=
  args.mapMembers fun key value =>
    (schema.property? key).bind fun property => settled property key value

/-- What the conversion may leave wrong with conforming arguments. -/
def tolerated : Violation → Bool
  | .missing key => key == "cols" || key == "rows"
  | .invalid _ .boolean _ => true
  | .invalid key (.integer _ _) value =>
      value.asU64.isNone || key == "max_bytes" || key == "timeout_seconds"
  | .invalid key _ _ => ["detail", "encoding", "content", "content_base64"].contains key
  | .additional _ => false

theorem clampNat_lt (key : String) (n : UInt64) :
    clampNat (clampRange key) n.toNat < 2 ^ 64 := by
  have hn : n.toNat < 2 ^ 64 := n.toNat_lt
  by_cases hlimit : key = "limit"
  · simp only [clampRange, clampNat, hlimit, if_true, Option.elim]
    omega
  · by_cases hwait : key = "wait_seconds"
    · simp only [clampRange, clampNat, hwait, if_true, Option.elim, maxWaitSeconds,
        String.reduceEq, if_false]
      omega
    · simp only [clampRange, clampNat, hlimit, hwait, if_false, Option.elim]
      omega

theorem asStr_clamped (key : String) (value : Value) : (clamped key value).asStr = value.asStr := by
  cases value with
  | number n => cases n with
    | _ => rfl
  | _ => rfl

theorem asBool_clamped (key : String) (value : Value) :
    (clamped key value).asBool = value.asBool := by
  cases value with
  | number n => cases n with
    | _ => rfl
  | _ => rfl

theorem asU64_clamped (key : String) (value : Value) :
    (clamped key value).asU64 = value.asU64.map (clampNat (clampRange key)) := by
  cases value with
  | number n => cases n with
    | posInt n =>
        simp only [clamped, Value.asU64, Option.map_some]
        rw [UInt64.toNat_ofNat', Nat.mod_eq_of_lt (clampNat_lt key n)]
    | _ => rfl
  | _ => rfl

theorem settled_cases (property : Property) (key : String) (value : Value) :
    settled property key value = some (clamped key value) ∨
      value = .null ∧ settled property key value = none := by
  cases value with
  | null => cases property with
    | string _ => exact .inr ⟨rfl, rfl⟩
    | strings => exact .inr ⟨rfl, rfl⟩
    | _ => exact .inl rfl
  | _ => cases property with
    | _ => exact .inl rfl

section

variable {schema : ObjectSchema} {key : String} {property : Property}

theorem get_conform (h : schema.property? key = some property) (args : Arguments) :
    (conform schema args).get key = (args.get key).bind (settled property key) := by
  rw [conform, Object.get_mapMembers, h]
  rfl

/-- A reader that finds nothing in a null finds in conforming arguments what it found before,
as far as the integers are clamped. -/
theorem read_conform {α : Type} {read : Value → Option α} {change : α → α}
    (h : schema.property? key = some property) (hnull : read .null = none)
    (hread : ∀ value, read (clamped key value) = (read value).map change) (args : Arguments) :
    ((conform schema args).get key).bind read = ((args.get key).bind read).map change := by
  rw [get_conform h, Option.bind_assoc, Option.map_bind]
  refine Option.bind_congr fun value _ => ?_
  cases settled_cases property key value with
  | inl hclamped => rw [hclamped, Option.bind_some, hread, Function.comp_apply]
  | inr hleft =>
      rw [hleft.2, hleft.1, Function.comp_apply, hnull]
      rfl

theorem str_conform (h : schema.property? key = some property) (args : Arguments) :
    ((conform schema args).get key).bind Value.asStr = (args.get key).bind Value.asStr := by
  have hread (value : Value) : (clamped key value).asStr = value.asStr.map id := by
    rw [asStr_clamped, Option.map_id_apply]
  rw [read_conform h rfl hread, Option.map_id_apply]

theorem flag_conform (h : schema.property? key = some property) (args : Arguments)
    (default : Bool) : flag (conform schema args) key default = flag args key default := by
  have hread (value : Value) : (clamped key value).asBool = value.asBool.map id := by
    rw [asBool_clamped, Option.map_id_apply]
  rw [flag, flag, read_conform h rfl hread, Option.map_id_apply]

theorem u64Arg_conform (h : schema.property? key = some property) (args : Arguments) :
    u64Arg (conform schema args) key = (u64Arg args key).map (clampNat (clampRange key)) :=
  read_conform h rfl (asU64_clamped key) args

theorem u64Arg_conform_of_unclamped (h : schema.property? key = some property)
    (hrange : clampRange key = (0, none)) (args : Arguments) :
    u64Arg (conform schema args) key = u64Arg args key := by
  have hid : clampNat (0, none) = id := by
    funext n
    exact Nat.zero_max n
  rw [u64Arg_conform h, hrange, hid, Option.map_id_apply]

theorem u32Arg_conform (h : schema.property? key = some property)
    (hrange : clampRange key = (0, none)) (args : Arguments) (default : UInt32) :
    u32Arg (conform schema args) key default = u32Arg args key default := by
  have hsame := u64Arg_conform_of_unclamped h hrange args
  rw [u64Arg, u64Arg] at hsame
  rw [u32Arg, u32Arg, hsame]

theorem requiredString_conform (h : schema.property? key = some property) (args : Arguments) :
    requiredString (conform schema args) key = requiredString args key := by
  rw [requiredString, requiredString, str_conform h]

theorem get_conform_cases (h : schema.property? key = some property) (args : Arguments) :
    (conform schema args).get key = (args.get key).map (clamped key) ∨
      args.get key = some .null ∧ (conform schema args).get key = none := by
  rw [get_conform h]
  cases args.get key with
  | none => exact .inl rfl
  | some value =>
      cases settled_cases property key value with
      | inl hkept => exact .inl (by rw [Option.bind_some, hkept, Option.map_some])
      | inr hleft => exact .inr ⟨by rw [hleft.1], by rw [Option.bind_some, hleft.2]⟩

theorem optionalString_conform (h : schema.property? key = some property) (args : Arguments) :
    optionalString (conform schema args) key = optionalString args key := by
  rw [optionalString, optionalString]
  cases get_conform_cases h args with
  | inl hkept =>
      rw [hkept]
      cases args.get key with
      | none => rfl
      | some value =>
          cases value with
          | number n => cases n with
            | _ => rfl
          | _ => rfl
  | inr hleft => rw [hleft.1, hleft.2]

end

section

variable {schema : ObjectSchema} {property : Property} {args : Arguments}

theorem envMap_conform (h : schema.property? "env" = some property) (args : Arguments) :
    envMap (conform schema args) = envMap args := by
  rw [envMap, envMap]
  cases get_conform_cases h args with
  | inl hkept =>
      rw [hkept]
      cases args.get "env" with
      | none => rfl
      | some value =>
          cases value with
          | number n => cases n with
            | _ => rfl
          | _ => rfl
  | inr hleft => rw [hleft.1, hleft.2]

theorem modeArg_conform (h : schema.property? "mode" = some property) (args : Arguments) :
    modeArg (conform schema args) = modeArg args := by
  rw [modeArg, modeArg, u64Arg_conform_of_unclamped h (by decide)]

theorem contentBytes_conform {property' : Property} (base64 : String → Option Bytes)
    (h : schema.property? "content" = some property)
    (h' : schema.property? "content_base64" = some property') (args : Arguments) :
    contentBytes base64 (conform schema args) = contentBytes base64 args := by
  rw [contentBytes, contentBytes, str_conform h, str_conform h']

theorem afterSequenceArg_conform (h : schema.property? "after_sequence" = some property)
    (args : Arguments) : afterSequenceArg (conform schema args) = afterSequenceArg args := by
  rw [afterSequenceArg, afterSequenceArg, u64Arg_conform_of_unclamped h (by decide)]

theorem maxBytesArg_conform (h : schema.property? "max_bytes" = some property)
    (args : Arguments) : maxBytesArg (conform schema args) = maxBytesArg args := by
  rw [maxBytesArg, maxBytesArg, u64Arg_conform_of_unclamped h (by decide)]

theorem waitSecondsArg_conform (h : schema.property? "wait_seconds" = some property)
    (args : Arguments) (default : Nat) :
    waitSecondsArg (conform schema args) default = waitSecondsArg args default := by
  have hrange : clampRange "wait_seconds" = (0, some maxWaitSeconds) := by decide
  rw [waitSecondsArg, waitSecondsArg, u64Arg_conform h, hrange]
  cases u64Arg args "wait_seconds" with
  | none => rfl
  | some n =>
      simp only [Option.map_some, Option.getD_some, clampNat, Option.elim]
      omega

theorem commandsLimit_conform (h : schema.property? "limit" = some property)
    (args : Arguments) : commandsLimit (conform schema args) = commandsLimit args := by
  have hrange : clampRange "limit" = (1, some 500) := by decide
  rw [commandsLimit, commandsLimit, u64Arg_conform h, hrange]
  cases u64Arg args "limit" with
  | none => rfl
  | some n =>
      have hsame : max 1 (min (clampNat (1, some 500) n) 500) = max 1 (min n 500) := by
        simp only [clampNat, Option.elim]
        omega
      rw [Option.map_some, Option.getD_some, Option.getD_some, hsame]

end

/-- Whether the range of a schema holds what the conversion makes of an integer. -/
def rangeKept (key : String) (minimum maximum : Option Int) : Bool :=
  minimum.all (fun bound : Int => decide (bound ≤ ((clampRange key).1 : Int))) &&
    maximum.all fun bound : Int => (clampRange key).2.any fun high : Nat =>
      decide ((high : Int) ≤ bound) && decide ((clampRange key).1 ≤ high)

theorem clampNat_inRange {key : String} {minimum maximum : Option Int}
    (h : rangeKept key minimum maximum = true) (n : Nat) :
    (minimum.all (fun bound : Int => decide (bound ≤ (clampNat (clampRange key) n : Int))) &&
      maximum.all fun bound : Int => decide ((clampNat (clampRange key) n : Int) ≤ bound)) =
        true := by
  obtain ⟨hmin, hmax⟩ := Bool.and_eq_true_iff.mp h
  rw [Bool.and_eq_true]
  constructor
  · cases minimum with
    | none => rfl
    | some bound =>
        have hle : (clampRange key).1 ≤ clampNat (clampRange key) n := Nat.le_max_left _ _
        simp only [Option.all_some, decide_eq_true_eq] at hmin ⊢
        omega
  · cases maximum with
    | none => rfl
    | some bound =>
        cases hhigh : (clampRange key).2 with
        | none =>
            rw [hhigh] at hmax
            cases hmax
        | some high =>
            simp only [hhigh, Option.all_some, Option.any_some, Bool.and_eq_true,
              decide_eq_true_eq, clampNat, Option.elim] at hmax ⊢
            omega

theorem accepts_clamped {key : String} {minimum maximum : Option Int} {value : Value}
    (h : rangeKept key minimum maximum = true) (hint : (clamped key value).asU64 ≠ none) :
    (Property.integer minimum maximum).accepts (clamped key value) = true := by
  cases value with
  | number n => cases n with
    | posInt n =>
        have hsame : (UInt64.ofNat (clampNat (clampRange key) n.toNat)).toNat =
            clampNat (clampRange key) n.toNat := by
          rw [UInt64.toNat_ofNat', Nat.mod_eq_of_lt (clampNat_lt key n)]
        simp only [clamped, Property.accepts, Number.toInt?, Option.any_some, hsame]
        exact clampNat_inRange h n.toNat
    | _ => exact absurd rfl hint
  | _ => exact absurd rfl hint

/-- What a schema may have beside the members that are read strictly. -/
def covers (schema : ObjectSchema) (keys : List String) : Bool :=
  schema.properties.all (fun entry =>
    keys.contains entry.1 ||
      match entry.2 with
      | .boolean => true
      | .integer minimum maximum =>
          entry.1 == "max_bytes" || entry.1 == "timeout_seconds" ||
            rangeKept entry.1 minimum maximum
      | _ => ["detail", "encoding", "content", "content_base64"].contains entry.1) &&
    schema.required.all fun key => keys.contains key || tolerated (.missing key)

section

variable {schema : ObjectSchema} {α β : Type}

/-- Nothing is wrong with a member of the conforming arguments. -/
def Clean (schema : ObjectSchema) (args : Arguments) (key : String) : Prop :=
  ∀ violation ∈ schema.violations (conform schema args), violation.key ≠ key

/-- A step of the conversion that does not tell arguments from conforming ones, and that ends
with an error where one of some members is wrong. -/
structure Checks (schema : ObjectSchema) (keys : List String) (read : Arguments → Reading α) :
    Prop where
  conform : ∀ args, read (conform schema args) = read args
  clean : ∀ args a, read args = .ok a → ∀ key ∈ keys, Clean schema args key

namespace Checks

theorem value {result : Arguments → α}
    (h : ∀ args, result (AiSsh.conform schema args) = result args) :
    Checks schema [] fun args => pure (result args) where
  conform args := by rw [h]
  clean _ _ _ key hkey := absurd hkey (List.not_mem_nil)

theorem bind {keys keys' : List String} {read : Arguments → Reading α}
    {next : α → Arguments → Reading β} (hread : Checks schema keys read)
    (hnext : ∀ a, Checks schema keys' (next a)) :
    Checks schema (keys ++ keys') fun args => read args >>= fun a => next a args where
  conform args := by
    rw [hread.conform]
    cases read args with
    | error e => rfl
    | ok a => exact (hnext a).conform args
  clean args b hok key hkey := by
    cases hfirst : read args with
    | error e =>
        rw [hfirst] at hok
        cases hok
    | ok a =>
        rw [hfirst] at hok
        cases List.mem_append.mp hkey with
        | inl hkey => exact hread.clean args a hfirst key hkey
        | inr hkey => exact (hnext a).clean args b hok key hkey

theorem then_key {key : String} {keys : List String} {read : Arguments → Reading α}
    {next : α → Arguments → Reading β} (hread : Checks schema [key] read)
    (hnext : ∀ a, Checks schema keys (next a)) :
    Checks schema (key :: keys) fun args => read args >>= fun a => next a args :=
  hread.bind hnext

theorem then_none {keys : List String} {read : Arguments → Reading α}
    {next : α → Arguments → Reading β} (hread : Checks schema [] read)
    (hnext : ∀ a, Checks schema keys (next a)) :
    Checks schema keys fun args => read args >>= fun a => next a args :=
  hread.bind hnext

theorem keeps {read : Arguments → Reading α}
    (h : ∀ args, read (AiSsh.conform schema args) = read args) : Checks schema [] read where
  conform := h
  clean _ _ _ _ hkey := absurd hkey List.not_mem_nil

end Checks

theorem memberViolation_key {key : String} {value : Value} {violation : Violation}
    (h : schema.memberViolation key value = some violation) : violation.key = key := by
  simp only [ObjectSchema.memberViolation] at h
  split at h
  · cases h
    rfl
  · split at h
    · cases h
    · cases h
      rfl

theorem clean_of {args : Arguments} {key : String}
    (hrequired : key ∈ schema.required → (conform schema args).get key ≠ none)
    (hvalue : ∀ value, (conform schema args).get key = some value →
      schema.memberViolation key value = none) : Clean schema args key := by
  intro violation hmem hkey
  cases (schema.mem_violations).mp hmem with
  | inl hmissing =>
      obtain ⟨name, hname, hnone, rfl⟩ := hmissing
      cases hkey
      exact hrequired hname hnone
  | inr hmember =>
      obtain ⟨name, value, hget, hviolation⟩ := hmember
      have hname := memberViolation_key hviolation
      rw [hkey] at hname
      subst hname
      rw [hvalue value hget] at hviolation
      cases hviolation

theorem memberViolation_accepted {key : String} {property : Property} {value : Value}
    (h : schema.property? key = some property) (haccepts : property.accepts value = true) :
    schema.memberViolation key value = none := by
  simp only [ObjectSchema.memberViolation, h, haccepts, if_true]

theorem requiredString_ok {args : Arguments} {key text : String}
    (h : requiredString args key = .ok text) : args.get key = some (.string text) := by
  simp only [requiredString] at h
  split at h
  · rename_i v hfound
    cases h
    obtain ⟨value, hget, hstr⟩ := Option.bind_eq_some_iff.mp (Option.filter_eq_some_iff.mp hfound).1
    rw [hget, Value.asStr_eq_some.mp hstr]
  · cases h

theorem strings_of_mapM {values : List (String × Value)} {env : List (String × String)}
    (h : values.mapM envEntry = .ok env) :
    values.all (fun member => member.2.asStr.isSome) = true := by
  induction values generalizing env with
  | nil => rfl
  | cons entry values ih =>
      rw [List.mapM_cons] at h
      cases hentry : envEntry entry with
      | error e =>
          rw [hentry] at h
          cases h
      | ok first =>
          cases hrest : values.mapM envEntry with
          | error e =>
              rw [hentry, hrest] at h
              cases h
          | ok rest =>
              have hsome : entry.2.asStr.isSome = true := by
                simp only [envEntry] at hentry
                split at hentry
                · rename_i s hs
                  rw [hs]
                  rfl
                · cases hentry
              rw [List.all_cons, hsome, ih hrest]
              rfl

namespace Checks

theorem required {key : String} (h : schema.property? key = some (.string none)) :
    Checks schema [key] (requiredString · key) where
  conform := requiredString_conform h
  clean args text hok name hname := by
    cases List.mem_singleton.mp hname
    have hget : (AiSsh.conform schema args).get key = some (.string text) := by
      rw [get_conform h, requiredString_ok hok]
      rfl
    refine clean_of (fun _ => by rw [hget]; exact Option.some_ne_none _) fun value hvalue => ?_
    rw [hget] at hvalue
    cases hvalue
    exact memberViolation_accepted h rfl

theorem optional {key : String} (h : schema.property? key = some (.string none))
    (hrequired : key ∉ schema.required) : Checks schema [key] (optionalString · key) where
  conform := optionalString_conform h
  clean args text hok name hname := by
    cases List.mem_singleton.mp hname
    refine clean_of (fun hin => absurd hin hrequired) fun value hvalue => ?_
    refine memberViolation_accepted h ?_
    rw [get_conform h] at hvalue
    simp only [optionalString] at hok
    split at hok
    · rename_i hget
      rw [hget] at hvalue
      cases hvalue
    · rename_i hget
      rw [hget] at hvalue
      cases hvalue
    · rename_i hget
      rw [hget] at hvalue
      cases hvalue
      rfl
    · cases hok

theorem environment (h : schema.property? "env" = some .strings)
    (hrequired : "env" ∉ schema.required) : Checks schema ["env"] envMap where
  conform := envMap_conform h
  clean args env hok name hname := by
    cases List.mem_singleton.mp hname
    refine clean_of (fun hin => absurd hin hrequired) fun value hvalue => ?_
    refine memberViolation_accepted h ?_
    rw [get_conform h] at hvalue
    simp only [envMap] at hok
    split at hok
    · rename_i hget
      rw [hget] at hvalue
      cases hvalue
    · rename_i hget
      rw [hget] at hvalue
      cases hvalue
    · rename_i values hget
      rw [hget] at hvalue
      cases hvalue
      exact strings_of_mapM hok
    · cases hok

end Checks

theorem property_mem {key : String} {property : Property}
    (h : schema.property? key = some property) : (key, property) ∈ schema.properties := by
  obtain ⟨before, after, hlist, -⟩ := List.lookup_eq_some_iff.mp h
  rw [hlist]
  exact List.mem_append_right _ List.mem_cons_self

theorem Checks.tolerated {keys : List String} {read : Arguments → Reading α} {args : Arguments}
    {a : α} (hreads : Checks schema keys read) (hcovers : covers schema keys = true)
    (hok : read args = .ok a) (violation : Violation)
    (hmem : violation ∈ schema.violations (AiSsh.conform schema args)) :
    AiSsh.tolerated violation = true := by
  obtain ⟨hproperties, hrequired⟩ := Bool.and_eq_true_iff.mp hcovers
  have hclean : keys.contains violation.key = false := by
    rw [Bool.eq_false_iff]
    intro hin
    exact hreads.clean args a hok violation.key (List.contains_iff_mem.mp hin) violation hmem rfl
  cases schema.mem_violations.mp hmem with
  | inl hmissing =>
      obtain ⟨key, hkey, -, rfl⟩ := hmissing
      have hcovered := List.all_eq_true.mp hrequired key hkey
      rw [Bool.or_eq_true] at hcovered
      exact hcovered.resolve_left (by rw [show keys.contains key = false from hclean]; simp)
  | inr hmember =>
      obtain ⟨key, value, hget, hviolation⟩ := hmember
      cases hproperty : schema.property? key with
      | none =>
          rw [AiSsh.conform, Object.get_mapMembers, hproperty] at hget
          simp at hget
      | some property =>
          simp only [ObjectSchema.memberViolation, hproperty] at hviolation
          split at hviolation
          · cases hviolation
          · rename_i haccepts
            cases hviolation
            have hcovered := List.all_eq_true.mp hproperties _ (property_mem hproperty)
            rw [show keys.contains key = false from hclean, Bool.false_or] at hcovered
            cases property with
            | boolean => rfl
            | string among => exact hcovered
            | strings => exact hcovered
            | integer minimum maximum =>
                have hclamped : ∃ before, value = clamped key before := by
                  cases get_conform_cases hproperty args with
                  | inl hkept =>
                      rw [hkept] at hget
                      obtain ⟨before, -, hbefore⟩ := Option.map_eq_some_iff.mp hget
                      exact ⟨before, hbefore.symm⟩
                  | inr hleft =>
                      rw [hleft.2] at hget
                      cases hget
                obtain ⟨before, rfl⟩ := hclamped
                cases hint : (clamped key before).asU64 with
                | none => simp [AiSsh.tolerated, hint]
                | some n =>
                    have hrange : rangeKept key minimum maximum ≠ true := fun hrange =>
                      haccepts (accepts_clamped hrange (by rw [hint]; exact Option.some_ne_none n))
                    simpa [AiSsh.tolerated, hint, Bool.eq_false_iff.mpr hrange] using hcovered

end

section

variable (base64 : String → Option Bytes)

/-- The conversion of one tool keeps to its schema. -/
def KeepsTo (name : String) : Prop :=
  ∃ schema keys, schemaOf name = some schema ∧ covers schema keys = true ∧
    Checks schema keys (toolRequest base64 name)

namespace KeepsTo

theorem targetsList : KeepsTo base64 "ssh_targets_list" := by
  refine ⟨_, [], rfl, by decide, ?_⟩
  exact Checks.value fun _ => rfl

theorem sessionsList : KeepsTo base64 "ssh_sessions_list" := by
  refine ⟨_, [], rfl, by decide, ?_⟩
  refine Checks.value fun args => ?_
  rw [flag_conform rfl]

theorem sessionCreate : KeepsTo base64 "ssh_session_create" := by
  refine ⟨_, ["target_id", "purpose"], rfl, by decide, ?_⟩
  refine Checks.then_key (Checks.required (by decide)) fun targetId => ?_
  refine Checks.then_key (Checks.required (by decide)) fun purpose => ?_
  exact Checks.value fun _ => rfl

theorem sessionStatus : KeepsTo base64 "ssh_session_status" := by
  refine ⟨_, ["session_id"], rfl, by decide, ?_⟩
  refine Checks.then_key (Checks.required (by decide)) fun sessionId => ?_
  exact Checks.value fun _ => rfl

theorem sessionClose : KeepsTo base64 "ssh_session_close" := by
  refine ⟨_, ["session_id"], rfl, by decide, ?_⟩
  refine Checks.then_key (Checks.required (by decide)) fun sessionId => ?_
  exact Checks.value fun _ => rfl

/-- The arguments of both ways to start a command. -/
theorem execArguments (request : String → String → Option String → List (String × String) →
    Option Nat → Request) :
    Checks Tool.execSchema ["session_id", "command", "cwd", "env"] (fun args => do
      let sessionId ← requiredString args "session_id"
      let command ← requiredString args "command"
      let cwd ← optionalString args "cwd"
      let env ← envMap args
      pure (request sessionId command cwd env (u64Arg args "timeout_seconds"))) := by
  refine Checks.then_key (Checks.required (by decide)) fun sessionId => ?_
  refine Checks.then_key (Checks.required (by decide)) fun command => ?_
  refine Checks.then_key (Checks.optional (by decide) (by decide)) fun cwd => ?_
  refine Checks.then_key (Checks.environment (by decide) (by decide)) fun env => ?_
  refine Checks.value fun args => ?_
  rw [u64Arg_conform_of_unclamped rfl (by decide)]

theorem execStart : KeepsTo base64 "ssh_exec_start" :=
  ⟨Tool.execSchema, _, rfl, by decide, execArguments Request.execStart⟩

theorem execBackground : KeepsTo base64 "ssh_exec_background" :=
  ⟨Tool.execSchema, _, rfl, by decide, execArguments Request.execBackground⟩

theorem commandPoll : KeepsTo base64 "ssh_command_poll" := by
  refine ⟨_, ["command_id"], rfl, by decide, ?_⟩
  refine Checks.then_key (Checks.required (by decide)) fun commandId => ?_
  refine Checks.value fun args => ?_
  rw [afterSequenceArg_conform rfl, maxBytesArg_conform rfl, waitSecondsArg_conform rfl]

theorem commandCancel : KeepsTo base64 "ssh_command_cancel" := by
  refine ⟨_, ["command_id"], rfl, by decide, ?_⟩
  refine Checks.then_key (Checks.required (by decide)) fun commandId => ?_
  exact Checks.value fun _ => rfl

theorem commandsList : KeepsTo base64 "ssh_commands_list" := by
  refine ⟨_, ["session_id"], rfl, by decide, ?_⟩
  refine Checks.then_key (Checks.optional (by decide) (by decide)) fun sessionId => ?_
  refine Checks.value fun args => ?_
  rw [flag_conform rfl, commandsLimit_conform rfl]

theorem shellOpen : KeepsTo base64 "ssh_shell_open" := by
  refine ⟨_, ["session_id", "term"], rfl, by decide, ?_⟩
  refine Checks.then_key (Checks.required (by decide)) fun sessionId => ?_
  refine Checks.then_key (Checks.optional (by decide) (by decide)) fun term => ?_
  refine Checks.value fun args => ?_
  rw [u32Arg_conform rfl (by decide), u32Arg_conform rfl (by decide)]

theorem shellWrite : KeepsTo base64 "ssh_shell_write" := by
  refine ⟨_, ["session_id", "data_base64"], rfl, by decide, ?_⟩
  refine Checks.then_key (Checks.required (by decide)) fun sessionId => ?_
  refine Checks.then_key (Checks.required (by decide)) fun encoded => ?_
  exact Checks.keeps fun _ => rfl

theorem shellRead : KeepsTo base64 "ssh_shell_read" := by
  refine ⟨_, ["session_id"], rfl, by decide, ?_⟩
  refine Checks.then_key (Checks.required (by decide)) fun sessionId => ?_
  refine Checks.value fun args => ?_
  rw [afterSequenceArg_conform rfl, maxBytesArg_conform rfl, waitSecondsArg_conform rfl]

theorem shellResize : KeepsTo base64 "ssh_shell_resize" := by
  refine ⟨_, ["session_id"], rfl, by decide, ?_⟩
  refine Checks.then_key (Checks.required (by decide)) fun sessionId => ?_
  refine Checks.value fun args => ?_
  rw [u32Arg_conform rfl (by decide), u32Arg_conform rfl (by decide)]

theorem shellClose : KeepsTo base64 "ssh_shell_close" := by
  refine ⟨_, ["session_id"], rfl, by decide, ?_⟩
  refine Checks.then_key (Checks.required (by decide)) fun sessionId => ?_
  exact Checks.value fun _ => rfl

theorem fileStat : KeepsTo base64 "ssh_file_stat" := by
  refine ⟨_, ["session_id", "remote_path"], rfl, by decide, ?_⟩
  refine Checks.then_key (Checks.required (by decide)) fun sessionId => ?_
  refine Checks.then_key (Checks.required (by decide)) fun remotePath => ?_
  refine Checks.value fun args => ?_
  rw [flag_conform rfl]

theorem fileRead : KeepsTo base64 "ssh_file_read" := by
  refine ⟨_, ["session_id", "remote_path"], rfl, by decide, ?_⟩
  refine Checks.then_key (Checks.required (by decide)) fun sessionId => ?_
  refine Checks.then_key (Checks.required (by decide)) fun remotePath => ?_
  refine Checks.value fun args => ?_
  rw [maxBytesArg_conform rfl, flag_conform rfl]

theorem fileWrite : KeepsTo base64 "ssh_file_write" := by
  refine ⟨_, ["session_id", "remote_path"], rfl, by decide, ?_⟩
  refine Checks.then_key (Checks.required (by decide)) fun sessionId => ?_
  refine Checks.then_key (Checks.required (by decide)) fun remotePath => ?_
  refine Checks.then_none (Checks.keeps (contentBytes_conform base64 rfl rfl)) fun data => ?_
  refine Checks.then_none (Checks.keeps (modeArg_conform rfl)) fun mode => ?_
  refine Checks.value fun args => ?_
  rw [flag_conform rfl, flag_conform rfl, flag_conform rfl, flag_conform rfl]

theorem fileUpload : KeepsTo base64 "ssh_file_upload" := by
  refine ⟨_, ["session_id", "local_path", "remote_path"], rfl, by decide, ?_⟩
  refine Checks.then_key (Checks.required (by decide)) fun sessionId => ?_
  refine Checks.then_key (Checks.required (by decide)) fun localPath => ?_
  refine Checks.then_key (Checks.required (by decide)) fun remotePath => ?_
  refine Checks.then_none (Checks.keeps (modeArg_conform rfl)) fun mode => ?_
  refine Checks.value fun args => ?_
  rw [flag_conform rfl, flag_conform rfl]

theorem fileDownload : KeepsTo base64 "ssh_file_download" := by
  refine ⟨_, ["session_id", "remote_path", "local_path"], rfl, by decide, ?_⟩
  refine Checks.then_key (Checks.required (by decide)) fun sessionId => ?_
  refine Checks.then_key (Checks.required (by decide)) fun remotePath => ?_
  refine Checks.then_key (Checks.required (by decide)) fun localPath => ?_
  refine Checks.value fun args => ?_
  rw [flag_conform rfl, flag_conform rfl, flag_conform rfl]

theorem fileMkdir : KeepsTo base64 "ssh_file_mkdir" := by
  refine ⟨_, ["session_id", "remote_path"], rfl, by decide, ?_⟩
  refine Checks.then_key (Checks.required (by decide)) fun sessionId => ?_
  refine Checks.then_key (Checks.required (by decide)) fun remotePath => ?_
  refine Checks.then_none (Checks.keeps (modeArg_conform rfl)) fun mode => ?_
  refine Checks.value fun args => ?_
  rw [flag_conform rfl]

end KeepsTo

theorem keepsTo_of_ok {name : String} {args : Arguments} {request : Request}
    (h : toolRequest base64 name args = .ok request) : KeepsTo base64 name := by
  simp only [toolRequest] at h
  split at h
  · exact KeepsTo.targetsList base64
  · exact KeepsTo.sessionsList base64
  · exact KeepsTo.sessionCreate base64
  · exact KeepsTo.sessionStatus base64
  · exact KeepsTo.sessionClose base64
  · exact KeepsTo.execStart base64
  · exact KeepsTo.execBackground base64
  · exact KeepsTo.commandPoll base64
  · exact KeepsTo.commandCancel base64
  · exact KeepsTo.commandsList base64
  · exact KeepsTo.shellOpen base64
  · exact KeepsTo.shellWrite base64
  · exact KeepsTo.shellRead base64
  · exact KeepsTo.shellResize base64
  · exact KeepsTo.shellClose base64
  · exact KeepsTo.fileStat base64
  · exact KeepsTo.fileRead base64
  · exact KeepsTo.fileWrite base64
  · exact KeepsTo.fileUpload base64
  · exact KeepsTo.fileDownload base64
  · exact KeepsTo.fileMkdir base64
  · cases h

/-- What an accepted tool call asks for is what its conforming arguments ask for, and these are
valid but for members that are left to others. -/
theorem tool_request_keeps_schema {name : String} {args : Arguments} {request : Request}
    (h : toolRequest base64 name args = .ok request) :
    ∃ schema, schemaOf name = some schema ∧
      toolRequest base64 name (conform schema args) = .ok request ∧
      ∀ violation ∈ schema.violations (conform schema args), tolerated violation = true := by
  obtain ⟨schema, keys, hschema, hcovers, hchecks⟩ := keepsTo_of_ok base64 h
  refine ⟨schema, hschema, ?_, hchecks.tolerated hcovers h⟩
  rw [hchecks.conform, h]

end

/-- `{"cwd":null,"command":"ls","extra":1,"session_id":"s","timeout_seconds":0}`. -/
def looseExec : Arguments where
  members := [("command", .string "ls"), ("cwd", .null), ("extra", .number (.posInt 1)),
    ("session_id", .string "s"), ("timeout_seconds", .number (.posInt 0))]
  sorted := by decide

theorem tool_request_keeps_schema_looseExec :
    toolRequest (fun _ => none) "ssh_exec_start" looseExec =
        .ok (.execStart "s" "ls" none [] (some 0)) ∧
      ∃ schema, schemaOf "ssh_exec_start" = some schema ∧
        toolRequest (fun _ => none) "ssh_exec_start" (conform schema looseExec) =
          .ok (.execStart "s" "ls" none [] (some 0)) ∧
        ∀ violation ∈ schema.violations (conform schema looseExec),
          tolerated violation = true :=
  ⟨by decide, tool_request_keeps_schema (fun _ => none) (by decide)⟩

/-- `{"include_finished":true,"limit":9000}`. -/
def wideList : Arguments where
  members := [("include_finished", .bool true), ("limit", .number (.posInt 9000))]
  sorted := by decide

/-- `{"append":"true","content":"x","remote_path":"/a","session_id":"s"}`. -/
def textualAppend : Arguments where
  members := [("append", .string "true"), ("content", .string "x"), ("remote_path", .string "/a"),
    ("session_id", .string "s")]
  sorted := by decide

/-- Arguments that the schema rejects are accepted: with a limit out of its range, with a null
and a member that the schema does not have, and with a text for a flag. -/
theorem accepted_arguments_are_invalid :
    (toolRequest (fun _ => none) "ssh_commands_list" wideList = .ok (.commandsList none true 500) ∧
      ∃ schema, schemaOf "ssh_commands_list" = some schema ∧ ¬ schema.Validates wideList) ∧
    (toolRequest (fun _ => none) "ssh_exec_start" looseExec =
        .ok (.execStart "s" "ls" none [] (some 0)) ∧
      ∃ schema, schemaOf "ssh_exec_start" = some schema ∧ ¬ schema.Validates looseExec) ∧
    (toolRequest (fun _ => none) "ssh_file_write" textualAppend =
        .ok (.fileWrite "s" "/a" [120] false false none false false) ∧
      ∃ schema, schemaOf "ssh_file_write" = some schema ∧ ¬ schema.Validates textualAppend) :=
  ⟨⟨by decide, _, rfl, List.cons_ne_nil _ _⟩, ⟨by decide, _, rfl, List.cons_ne_nil _ _⟩,
    ⟨by decide, _, rfl, List.cons_ne_nil _ _⟩⟩

end AiSsh
