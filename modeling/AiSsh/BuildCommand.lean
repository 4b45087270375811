import Mathlib.Data.List.Forall2
import AiSsh.Library.ShellWords
import AiSsh.Protocol

/-!
The line that `build_command` makes for the remote shell, and what that shell reads in it.
Every value of a user stands between single quotes and is one word, whatever it contains. Of
several variables each comes with an `export` of its own, all in one simple command, so that
from the second one on the word `export` is itself among the names to export.
-/

namespace AiSsh

open Library Shell

/-- A `BTreeMap<String, String>`. -/
structure Environment where
  entries : List (String × String)
  sorted : entries.Pairwise fun a b => a.1 < b.1

def Environment.containsKey (env : Environment) (key : String) : Bool :=
  env.entries.any fun entry => entry.1 == key

def localeTest : String := "if command -v locale >/dev/null 2>&1; then "

def localeFind : String := "_aissh_locale=$(locale -a 2>/dev/null | sed -n "

def localeMatch : String := "'/[Uu][Tt][Ff][-_.]*8$/p' | sed -n '1p'); "

def localeSet : String := "if [ -n \"$_aissh_locale\" ]; then export "

def localeExport : String := "LANG=\"$_aissh_locale\" LC_ALL=\"$_aissh_locale\"; fi; "

def localeUnset : String := "unset _aissh_locale; fi"

def utf8LocalePrelude : String :=
  localeTest ++ localeFind ++ localeMatch ++ localeSet ++ localeExport ++ localeUnset

def isNameByte (i : Nat) (c : Char) : Bool := c == '_' || c.isAlpha || (decide (0 < i) && c.isDigit)

/-- A name that the shell takes for a variable. No byte beyond ASCII passes, so its characters
are tested instead of its bytes. -/
def validName (name : String) : Bool :=
  !name.isEmpty && name.toList.zipIdx.all fun (c, i) => isNameByte i c

def shellQuote (value : String) : String :=
  "'" ++ String.ofList (value.toList.flatMap fun c =>
    if c = '\'' then ['\'', '\\', '\'', '\''] else [c]) ++ "'"

def buildCommand (command : String) (cwd : Option String) (env : Environment) :
    Except String String :=
  match env.entries.find? fun entry => !validName entry.1 with
  | some (name, _) =>
      .error ("INVALID_ARGUMENT: invalid environment variable name " ++ debugText name)
  | none =>
      let cd := cwd.toList.map fun cwd => "cd " ++ shellQuote cwd
      let exports :=
        if env.entries.isEmpty then []
        else
          [" ".intercalate (env.entries.map fun (key, value) =>
            "export " ++ key ++ "=" ++ shellQuote value)]
      let prelude :=
        if !env.containsKey "LANG" && !env.containsKey "LC_ALL" then [utf8LocalePrelude] else []
      let exec := ["exec /bin/sh -c " ++ shellQuote command]
      .ok (" && ".intercalate (cd ++ exports ++ prelude ++ exec))

/-- `[A-Za-z_][A-Za-z0-9_]*`. -/
def IsName (name : String) : Prop :=
  ∃ first rest, name.toList = first :: rest ∧ (first = '_' ∨ first.isAlpha = true) ∧
    ∀ c ∈ rest, c = '_' ∨ c.isAlpha = true ∨ c.isDigit = true

def word (text : String) : Token := .word text.toList

/-- The tokens of the prelude by itself. -/
def localeTokens : List Token := (Shell.Reader.start.read utf8LocalePrelude.toList).close.tokens

/-- The simple commands of the line, by their words, with `exports` for the variables. -/
def commandParts (command : String) (cwd : Option String) (env : Environment)
    (exports : List Token) : List (List Token) :=
  (cwd.toList.map fun cwd => [word "cd", word cwd]) ++
    (if env.entries.isEmpty then [] else [exports]) ++
    (if !env.containsKey "LANG" && !env.containsKey "LC_ALL" then [localeTokens] else []) ++
    [[word "exec", word "/bin/sh", word "-c", word command]]

/-- One simple command after the other, as long as they succeed. -/
def sequence (parts : List (List Token)) : List Token :=
  [Token.operator ['&', '&']].intercalate parts

/-- The word that sets a variable. -/
def assignment (entry : String × String) : Token := word (entry.1 ++ "=" ++ entry.2)

theorem shellQuote_toList (value : String) : (shellQuote value).toList = quote value.toList := by
  simp only [shellQuote, String.toList_append, String.toList_ofList]
  rfl

/-- The characters that mean something to the shell. -/
def special : List Char :=
  ['&', '|', ';', '<', '>', '(', ')', '\n', ' ', '\t', '\\', '\'', '"', '$', '#']

theorem isPlain_of_not_special {c : Char} (h : c ∉ special) : isPlain c = true := by
  simp only [special, List.mem_cons, List.not_mem_nil, not_or] at h
  simp [isPlain, isOperator, operators, h]

theorem isPlain_of_name {c : Char} (h : c = '_' ∨ c.isAlpha = true ∨ c.isDigit = true) :
    isPlain c = true := by
  have hspecial : (special.all fun d => !(d == '_' || d.isAlpha || d.isDigit)) = true := by decide
  refine isPlain_of_not_special fun hc => ?_
  have hplain : ¬(c = '_' ∨ c.isAlpha = true ∨ c.isDigit = true) := by
    simpa [and_assoc] using List.all_eq_true.mp hspecial c hc
  exact hplain h

namespace IsName

variable {name : String}

theorem plain (h : IsName name) : name.toList ≠ [] ∧ ∀ c ∈ name.toList, isPlain c = true := by
  obtain ⟨first, rest, hname, hfirst, hrest⟩ := h
  rw [hname]
  refine ⟨List.cons_ne_nil _ _, fun c hc => ?_⟩
  cases List.mem_cons.mp hc with
  | inl hc => exact isPlain_of_name (hc ▸ hfirst.imp_right .inl)
  | inr hc => exact isPlain_of_name (hrest c hc)

theorem rest_iff (rest : List Char) {i : Nat} (hi : 0 < i) :
    ((rest.zipIdx i).all fun (c, i) => isNameByte i c) = true ↔
      ∀ c ∈ rest, c = '_' ∨ c.isAlpha = true ∨ c.isDigit = true := by
  induction rest generalizing i with
  | nil => simp
  | cons c rest ih =>
      rw [List.zipIdx_cons, List.all_cons, Bool.and_eq_true, ih (Nat.succ_pos i)]
      simp [isNameByte, hi, or_assoc]

theorem valid_iff : validName name = true ↔ IsName name := by
  rw [validName, IsName]
  cases hname : name.toList with
  | nil =>
      have hempty : name = "" := String.toList_eq_nil_iff.mp hname
      subst hempty
      simp
  | cons first rest =>
      have hne : name.isEmpty = false := by
        rw [Bool.eq_false_iff]
        intro hempty
        rw [String.isEmpty_iff.mp hempty] at hname
        cases hname
      rw [hne, List.zipIdx_cons, List.all_cons, Bool.not_false, Bool.true_and, Bool.and_eq_true,
        rest_iff rest Nat.one_pos]
      simp [isNameByte]

end IsName

theorem reads_word {text : String} (hne : text.toList ≠ [])
    (h : text.toList.all isPlain = true) : Reads text.toList [word text] :=
  Reads.plain hne (List.all_eq_true.mp h)

theorem reads_cd (cwd : String) :
    Reads ("cd " ++ shellQuote cwd).toList [word "cd", word cwd] := by
  have hcd : Reads "cd".toList [word "cd"] := reads_word (by decide) (by decide)
  rw [String.toList_append, shellQuote_toList]
  exact hcd.blank (Reads.quote cwd.toList)

theorem reads_exec (command : String) : Reads ("exec /bin/sh -c " ++ shellQuote command).toList
    [word "exec", word "/bin/sh", word "-c", word command] := by
  have hexec : Reads "exec".toList [word "exec"] := reads_word (by decide) (by decide)
  have hshell : Reads "/bin/sh".toList [word "/bin/sh"] := reads_word (by decide) (by decide)
  have hoption : Reads "-c".toList [word "-c"] := reads_word (by decide) (by decide)
  have hline : "exec /bin/sh -c ".toList =
      "exec".toList ++ ' ' :: ("/bin/sh".toList ++ ' ' :: ("-c".toList ++ [' '])) := by decide
  have hall := hexec.blank (hshell.blank (hoption.blank (Reads.quote command.toList)))
  rw [String.toList_append, shellQuote_toList, hline]
  simp only [List.append_assoc, List.cons_append, List.nil_append] at hall ⊢
  exact hall

theorem reads_export {name : String} (h : IsName name) (value : String) :
    Reads ("export " ++ name ++ "=" ++ shellQuote value).toList
      [word "export", assignment (name, value)] := by
  have hexport : Reads "export".toList [word "export"] := reads_word (by decide) (by decide)
  have hname : ∀ c ∈ name.toList ++ ['='], isPlain c = true := by
    intro c hc
    cases List.mem_append.mp hc with
    | inl hc => exact h.plain.2 c hc
    | inr hc =>
        rw [List.mem_singleton.mp hc]
        decide
  have hassign : Reads (name.toList ++ ['='] ++ quote value.toList)
      [assignment (name, value)] := by
    have hread : Shell.Reader.start.read (name.toList ++ ['='] ++ quote value.toList) =
        ⟨[], .word (name.toList ++ ['='] ++ value.toList), []⟩ := by
      rw [Shell.Reader.read_append, show Shell.Reader.start = ⟨[], .blank, []⟩ from rfl,
        Shell.Reader.read_plain []
          (List.append_ne_nil_of_right_ne_nil _ (List.cons_ne_nil _ _)) hname,
        Shell.Reader.read_quote_word]
    have hword := Reads.of_word hread
    simpa [assignment, word, String.toList_append] using hword
  have hall := hexport.blank hassign
  simpa [String.toList_append, shellQuote_toList] using hall

theorem reads_prelude : Reads utf8LocalePrelude.toList localeTokens := by
  have hquoting : (Shell.Reader.start.read utf8LocalePrelude.toList).quoting = [] := by
    simp only [utf8LocalePrelude, String.toList_append]
    -- Each literal is a list of characters as it stands; nothing is decoded.
    rw [show localeTest.toList = _ from String.toList_ofList,
      show localeFind.toList = _ from String.toList_ofList,
      show localeMatch.toList = _ from String.toList_ofList,
      show localeSet.toList = _ from String.toList_ofList,
      show localeExport.toList = _ from String.toList_ofList,
      show localeUnset.toList = _ from String.toList_ofList]
    decide +kernel
  exact ⟨hquoting, by rw [localeTokens]⟩

theorem reads_exports {entries : List (String × String)} (h : ∀ entry ∈ entries, IsName entry.1) :
    Reads (" ".intercalate (entries.map fun (key, value) =>
        "export " ++ key ++ "=" ++ shellQuote value)).toList
      (entries.flatMap fun entry => [word "export", assignment entry]) := by
  rw [String.toList_intercalate, List.flatMap_def]
  refine Reads.intercalate_blank ?_
  rw [List.map_map, List.forall₂_map_left_iff, List.forall₂_map_right_iff, List.forall₂_same]
  exact fun entry hentry => reads_export (h entry hentry) entry.2

/-- Whatever the values contain, the line reads as the commands with these values. -/
theorem reads_buildCommand {command : String} {cwd : Option String} {env : Environment}
    (h : ∀ entry ∈ env.entries, IsName entry.1) :
    ∃ line, buildCommand command cwd env = .ok line ∧
      Reads line.toList (sequence (commandParts command cwd env
        (env.entries.flatMap fun entry => [word "export", assignment entry]))) := by
  have hvalid : (env.entries.find? fun entry => !validName entry.1) = none := by
    rw [List.find?_eq_none]
    intro entry hentry
    simpa using IsName.valid_iff.mpr (h entry hentry)
  rw [buildCommand, hvalid]
  refine ⟨_, rfl, ?_⟩
  rw [String.toList_intercalate]
  refine @Reads.intercalate _ _ ['&', '&'] ⟨rfl, rfl⟩ ?_
  rw [List.map_append, List.map_append, List.map_append]
  refine List.rel_append (List.rel_append (List.rel_append ?_ ?_) ?_) ?_
  · cases cwd with
    | none => exact .nil
    | some cwd => exact .cons (reads_cd cwd) .nil
  · split
    · exact .nil
    · exact .cons (reads_exports h) .nil
  · split
    · exact .cons reads_prelude .nil
    · exact .nil
  · exact .cons (reads_exec command) .nil

/-- An invalid name is the only error. -/
theorem buildCommand_error_iff {command : String} {cwd : Option String} {env : Environment} :
    (∃ error, buildCommand command cwd env = .error error) ↔
      ∃ entry ∈ env.entries, ¬ IsName entry.1 := by
  constructor
  · intro herror
    by_contra hnone
    push Not at hnone
    obtain ⟨error, herror⟩ := herror
    obtain ⟨line, hline, -⟩ := @reads_buildCommand command cwd env hnone
    cases herror.symm.trans hline
  · intro hname
    obtain ⟨entry, hentry, hname⟩ := hname
    have hfound : (env.entries.find? fun entry => !validName entry.1).isSome = true := by
      refine List.find?_isSome.mpr ⟨entry, hentry, ?_⟩
      rw [Bool.not_eq_true', Bool.eq_false_iff]
      exact fun hvalid => hname (IsName.valid_iff.mp hvalid)
    obtain ⟨found, hfound⟩ := Option.isSome_iff_exists.mp hfound
    rw [buildCommand, hfound]
    exact ⟨_, rfl⟩

theorem sequence_length {parts : List (List Token)} (h : parts ≠ []) :
    (sequence parts).length + 1 = parts.flatten.length + parts.length := by
  induction parts with
  | nil => exact absurd rfl h
  | cons part parts ih =>
      cases parts with
      | nil => simp [sequence]
      | cons next rest =>
          have hrest := ih (List.cons_ne_nil next rest)
          rw [sequence] at hrest ⊢
          rw [List.flatten_cons, List.length_append, List.length_cons]
          simp only [List.intercalate_cons_cons, List.length_append, List.length_singleton]
          omega

/-- The number of tokens tells how many an `export` takes. -/
theorem exports_length_eq {command : String} {cwd : Option String} {env : Environment}
    {exports exports' : List Token} (hne : env.entries ≠ [])
    (h : sequence (commandParts command cwd env exports) =
      sequence (commandParts command cwd env exports')) : exports.length = exports'.length := by
  have hparts (exports : List Token) : commandParts command cwd env exports ≠ [] :=
    List.append_ne_nil_of_right_ne_nil _ (List.cons_ne_nil _ _)
  have hlength := sequence_length (hparts exports)
  rw [h, sequence_length (hparts exports')] at hlength
  have hsome : env.entries.isEmpty = false := by simpa using hne
  simp only [commandParts, hsome, Bool.false_eq_true, if_false, List.flatten_append,
    List.flatten_cons, List.flatten_nil, List.length_append, List.length_cons,
    List.length_nil] at hlength
  omega

/-- The line, as the shell reads it, has one `export` for all variables. -/
def ReadsAsParts (command : String) (cwd : Option String) (env : Environment) : Prop :=
  match buildCommand command cwd env with
  | .error _ => ∃ entry ∈ env.entries, ¬ IsName entry.1
  | .ok line => (∀ entry ∈ env.entries, IsName entry.1) ∧
      Shell.tokens line.toList = some (sequence (commandParts command cwd env
        (word "export" :: env.entries.map assignment)))

theorem length_exports (entries : List (String × String)) :
    (entries.flatMap fun entry => [word "export", assignment entry]).length =
      2 * entries.length := by
  induction entries with
  | nil => rfl
  | cons entry entries ih =>
      rw [List.flatMap_cons, List.length_append, ih, List.length_cons]
      simp only [List.length_cons, List.length_nil]
      omega

/-- With valid names, an `export` for each variable is one for all up to one variable. -/
theorem readsAsParts_iff {command : String} {cwd : Option String} {env : Environment}
    (hvalid : ∀ entry ∈ env.entries, IsName entry.1) :
    ReadsAsParts command cwd env ↔ env.entries.length ≤ 1 := by
  obtain ⟨line, hline, hreads⟩ := @reads_buildCommand command cwd env hvalid
  rw [ReadsAsParts]
  rw [hline]
  dsimp only
  rw [and_iff_right hvalid, hreads.tokens, Option.some.injEq]
  cases hentries : env.entries with
  | nil =>
      refine ⟨fun _ => Nat.zero_le 1, fun _ => ?_⟩
      simp [commandParts, hentries]
  | cons entry rest =>
      constructor
      · intro hsame
        have hne : env.entries ≠ [] := hentries ▸ List.cons_ne_nil entry rest
        have hlength := exports_length_eq hne hsame
        rw [length_exports] at hlength
        simp only [List.length_cons, List.length_map] at hlength ⊢
        omega
      · intro hone
        have hrest : rest = [] := by simpa using hone
        subst hrest
        rfl

/-- The line is an error for an invalid name and else reads as intended, exactly when there are
not two variables with valid names. -/
theorem buildCommand_reads_iff (command : String) (cwd : Option String) (env : Environment) :
    ReadsAsParts command cwd env ↔
      env.entries.length ≤ 1 ∨ ∃ entry ∈ env.entries, ¬ IsName entry.1 := by
  by_cases hname : ∃ entry ∈ env.entries, ¬ IsName entry.1
  · obtain ⟨error, herror⟩ := buildCommand_error_iff.mpr hname
    rw [ReadsAsParts]
    rw [herror]
    exact ⟨fun _ => .inr hname, fun _ => hname⟩
  · have hvalid : ∀ entry ∈ env.entries, IsName entry.1 := by simpa using hname
    rw [or_iff_left hname]
    exact readsAsParts_iff hvalid

def twoVariables : Environment := ⟨[("A", "1"), ("B", "2")], by decide⟩

/-- With two variables the word `export` stands among the names. -/
theorem buildCommand_exports_export :
    ¬ ReadsAsParts "true" none twoVariables ∧
      ∃ line, buildCommand "true" none twoVariables = .ok line ∧
        Shell.tokens line.toList = some (sequence (commandParts "true" none twoVariables
          [word "export", word "A=1", word "export", word "B=2"])) := by
  have hvalid : ∀ entry ∈ twoVariables.entries, IsName entry.1 := by
    intro entry hentry
    have hall : ∀ entry ∈ twoVariables.entries, validName entry.1 = true := by decide
    exact IsName.valid_iff.mp (hall entry hentry)
  obtain ⟨line, hline, hreads⟩ := @reads_buildCommand "true" none twoVariables hvalid
  refine ⟨fun h => ?_, line, hline, hreads.tokens⟩
  exact absurd ((readsAsParts_iff hvalid).mp h) (by decide)

end AiSsh
