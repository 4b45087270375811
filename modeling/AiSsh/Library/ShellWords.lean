import Mathlib.Data.List.Basic

/-!
The tokens of a line in the command language of a POSIX shell: operators, and words with their
quotes taken off. Blanks, operators, comments and the quoting by backslash, single and double
quotes are read as the shell reads them. The text of a command substitution is part of its
word. No expansion takes place.
-/

namespace AiSsh.Library.Shell

inductive Token
  | word (text : List Char)
  | operator (text : List Char)
  deriving DecidableEq, Repr

/-- What the reader is inside of. The last four are inside a substitution, which is read
verbatim up to its end. -/
inductive Quoting
  | escape
  | single
  | double
  | doubleEscape
  | dollar
  | comment
  | substitution
  | rawEscape
  | rawSingle
  | rawDouble
  deriving DecidableEq, Repr

/-- The token that is being read. -/
inductive Pending
  | blank
  | word (text : List Char)
  | operator (text : List Char)
  deriving DecidableEq, Repr

structure Reader where
  tokens : List Token
  pending : Pending
  quoting : List Quoting
  deriving DecidableEq, Repr

def operators : List (List Char) :=
  [['&'], ['&', '&'], ['|'], ['|', '|'], [';'], [';', ';'], ['<'], ['<', '<'], ['<', '<', '-'],
    ['<', '&'], ['<', '>'], ['>'], ['>', '>'], ['>', '&'], ['>', '|'], ['('], [')'], ['\n']]

def isOperator (text : List Char) : Bool := operators.contains text

namespace Reader

def start : Reader := ⟨[], .blank, []⟩

/-- The end of the pending token. -/
def close (s : Reader) : Reader :=
  match s.pending with
  | .blank => s
  | .word text => { s with tokens := s.tokens ++ [.word text], pending := .blank }
  | .operator text => { s with tokens := s.tokens ++ [.operator text], pending := .blank }

/-- A word, when none is pending. -/
def openWord (s : Reader) : Reader :=
  match s.pending with
  | .word _ => s
  | _ => { s.close with pending := .word [] }

def append (s : Reader) (c : Char) : Reader :=
  match s.pending with
  | .word text => { s with pending := .word (text ++ [c]) }
  | _ => { s.close with pending := .word [c] }

def within (s : Reader) (quoting : List Quoting) : Reader := { s with quoting := quoting }

/-- A character that no operator before it claims. -/
def begin (s : Reader) (c : Char) : Reader :=
  if isOperator [c] then { s.close with pending := .operator [c] }
  else
    match c with
    | ' ' | '\t' => s.close
    | '\\' => s.within [.escape]
    | '\'' => s.openWord.within [.single]
    | '"' => s.openWord.within [.double]
    | '$' => (s.append c).within [.dollar]
    | '#' => if s.pending = .blank then s.within [.comment] else s.append c
    | _ => s.append c

/-- A character outside of quotes. -/
def plain (s : Reader) (c : Char) : Reader :=
  match s.pending with
  | .operator text =>
      if isOperator (text ++ [c]) then { s with pending := .operator (text ++ [c]) }
      else s.close.begin c
  | _ => s.begin c

def feedIn (s : Reader) (c : Char) : List Quoting → Reader
  | [] => (s.within []).plain c
  | .escape :: rest => if c = '\n' then s.within rest else (s.append c).within rest
  | .single :: rest => if c = '\'' then s.within rest else s.append c
  | .double :: rest =>
      match c with
      | '"' => s.within rest
      | '\\' => s.within (.doubleEscape :: .double :: rest)
      | '$' => (s.append c).within (.dollar :: .double :: rest)
      | _ => s.append c
  | .doubleEscape :: rest =>
      match c with
      | '$' | '`' | '"' | '\\' => (s.append c).within rest
      | '\n' => s.within rest
      | _ => ((s.append '\\').append c).within rest
  | .dollar :: rest =>
      if c = '(' then (s.append c).within (.substitution :: rest) else s.feedIn c rest
  | .comment :: rest => if c = '\n' then s.feedIn c rest else s
  | .substitution :: rest =>
      match c with
      | '(' => (s.append c).within (.substitution :: .substitution :: rest)
      | ')' => (s.append c).within rest
      | '\\' => (s.append c).within (.rawEscape :: .substitution :: rest)
      | '\'' => (s.append c).within (.rawSingle :: .substitution :: rest)
      | '"' => (s.append c).within (.rawDouble :: .substitution :: rest)
      | _ => s.append c
  | .rawEscape :: rest => (s.append c).within rest
  | .rawSingle :: rest => if c = '\'' then (s.append c).within rest else s.append c
  | .rawDouble :: rest =>
      match c with
      | '"' => (s.append c).within rest
      | '\\' => (s.append c).within (.rawEscape :: .rawDouble :: rest)
      | _ => s.append c

def feed (s : Reader) (c : Char) : Reader := s.feedIn c s.quoting

/-- No quote is open at the end of the line. -/
def complete (s : Reader) : Bool :=
  s.quoting.all fun quoting => quoting == .dollar || quoting == .comment

def read (s : Reader) (line : List Char) : Reader := line.foldl feed s

end Reader

/-- The tokens of a line, unless it ends inside a quote. -/
def tokens (line : List Char) : Option (List Token) :=
  let s := Reader.start.read line
  if s.complete then some s.close.tokens else none

/-- A single quote inside single quotes: the quotes are closed around it. -/
def quoteChar (c : Char) : List Char := if c = '\'' then ['\'', '\\', '\'', '\''] else [c]

/-- A value between single quotes. -/
def quote (value : List Char) : List Char := '\'' :: value.flatMap quoteChar ++ ['\'']

namespace Reader

/-- The reader with tokens that were read before. -/
def after (s : Reader) (before : List Token) : Reader := { s with tokens := before ++ s.tokens }

section After

variable (s : Reader) (before : List Token)

@[simp] theorem after_pending : (s.after before).pending = s.pending := rfl

@[simp] theorem within_after (quoting : List Quoting) :
    (s.after before).within quoting = (s.within quoting).after before := rfl

@[simp] theorem close_after : (s.after before).close = s.close.after before := by
  obtain ⟨tokens, pending, quoting⟩ := s
  cases pending with
  | blank => rfl
  | word text | operator text => simp [after, close]

@[simp] theorem openWord_after : (s.after before).openWord = s.openWord.after before := by
  obtain ⟨tokens, pending, quoting⟩ := s
  cases pending with
  | blank | word text => rfl
  | operator text => simp [after, openWord, close]

@[simp] theorem append_after (c : Char) :
    (s.after before).append c = (s.append c).after before := by
  obtain ⟨tokens, pending, quoting⟩ := s
  cases pending with
  | blank | word text => rfl
  | operator text => simp [after, append, close]

@[simp] theorem begin_after (c : Char) : (s.after before).begin c = (s.begin c).after before := by
  simp only [begin]
  split
  · rw [close_after]
    rfl
  · split
    · exact s.close_after before
    · exact s.close_after before
    · rfl
    · rw [openWord_after, within_after]
    · rw [openWord_after, within_after]
    · rw [append_after, within_after]
    · rw [after_pending]
      split
      · rfl
      · exact s.append_after before _
    · exact s.append_after before c

@[simp] theorem plain_after (c : Char) : (s.after before).plain c = (s.plain c).after before := by
  simp only [plain, after_pending]
  split
  · split
    · rfl
    · rw [close_after, begin_after]
  · exact s.begin_after before c

end After

theorem feedIn_after (s : Reader) (before : List Token) (c : Char) (quoting : List Quoting) :
    (s.after before).feedIn c quoting = (s.feedIn c quoting).after before := by
  induction quoting generalizing s with
  | nil => exact (s.within []).plain_after before c
  | cons q rest ih =>
      cases q with
      | escape | single | rawSingle =>
          simp only [feedIn]
          split
          · simp only [append_after, within_after]
          · simp only [append_after, within_after]
      | double | doubleEscape | substitution | rawDouble =>
          simp only [feedIn]
          split
          all_goals simp only [append_after, within_after]
      | rawEscape => simp only [feedIn, append_after, within_after]
      | dollar =>
          simp only [feedIn]
          split
          · simp only [append_after, within_after]
          · exact ih s
      | comment =>
          simp only [feedIn]
          split
          · exact ih s
          · rfl

/-- What was read before does not matter to what is read next. -/
theorem read_after (s : Reader) (before : List Token) (line : List Char) :
    (s.after before).read line = (s.read line).after before := by
  induction line generalizing s with
  | nil => rfl
  | cons c line ih =>
      simp only [read, List.foldl_cons] at ih ⊢
      rw [show (s.after before).feed c = (s.feed c).after before from
        s.feedIn_after before c s.quoting, ih]

theorem read_append (s : Reader) (line line' : List Char) :
    s.read (line ++ line') = (s.read line).read line' := List.foldl_append

/-- A quoted value up to its closing quote. -/
theorem read_quoteChars (before : List Token) (text value : List Char) :
    (⟨before, .word text, [.single]⟩ : Reader).read (value.flatMap quoteChar) =
      ⟨before, .word (text ++ value), [.single]⟩ := by
  induction value generalizing text with
  | nil => rw [List.append_nil]; rfl
  | cons c value ih =>
      rw [List.flatMap_cons, read_append]
      have hc : (⟨before, .word text, [.single]⟩ : Reader).read (quoteChar c) =
          ⟨before, .word (text ++ [c]), [.single]⟩ := by
        by_cases hquote : c = '\''
        · subst hquote
          rfl
        · simp [quoteChar, hquote, read, feed, feedIn, append]
      rw [hc, ih, List.append_assoc]
      rfl

/-- A quoted value is a word, or the rest of one. -/
theorem read_quote (before : List Token) (value : List Char) :
    (⟨before, .blank, []⟩ : Reader).read (quote value) = ⟨before, .word value, []⟩ := by
  have hopen : (⟨before, .blank, []⟩ : Reader).feed '\'' = ⟨before, .word [], [.single]⟩ := rfl
  have hquote : quote value = ['\''] ++ value.flatMap quoteChar ++ ['\''] := rfl
  rw [hquote, read_append, read_append]
  simp only [read, List.foldl_cons, List.foldl_nil, hopen]
  have hvalue := read_quoteChars before [] value
  simp only [read] at hvalue
  rw [hvalue]
  rfl

theorem read_quote_word (before : List Token) (text value : List Char) :
    (⟨before, .word text, []⟩ : Reader).read (quote value) =
      ⟨before, .word (text ++ value), []⟩ := by
  have hopen : (⟨before, .word text, []⟩ : Reader).feed '\'' =
      ⟨before, .word text, [.single]⟩ := rfl
  have hquote : quote value = ['\''] ++ value.flatMap quoteChar ++ ['\''] := rfl
  rw [hquote, read_append, read_append]
  simp only [read, List.foldl_cons, List.foldl_nil, hopen]
  have hvalue := read_quoteChars before text value
  simp only [read] at hvalue
  rw [hvalue]
  rfl

end Reader

/-- A character that stands for itself in a word. -/
def isPlain (c : Char) : Bool :=
  !isOperator [c] && !([' ', '\t', '\\', '\'', '"', '$', '#'].contains c)

namespace Reader

theorem begin_plain (s : Reader) {c : Char} (h : isPlain c = true) : s.begin c = s.append c := by
  obtain ⟨hoperator, hother⟩ := Bool.and_eq_true_iff.mp h
  simp only [begin]
  rw [if_neg (by simpa using hoperator)]
  split
  · cases hother
  · cases hother
  · cases hother
  · cases hother
  · cases hother
  · cases hother
  · cases hother
  · rfl

theorem read_plain_word (before : List Token) (text : List Char) {plain : List Char}
    (h : ∀ c ∈ plain, isPlain c = true) :
    (⟨before, .word text, []⟩ : Reader).read plain = ⟨before, .word (text ++ plain), []⟩ := by
  induction plain generalizing text with
  | nil => rw [List.append_nil]; rfl
  | cons c plain ih =>
      have hfeed : (⟨before, .word text, []⟩ : Reader).feed c =
          ⟨before, .word (text ++ [c]), []⟩ := begin_plain _ (h c List.mem_cons_self)
      have hrest := ih (text ++ [c]) fun d hd => h d (List.mem_cons_of_mem c hd)
      simp only [read, List.foldl_cons, hfeed] at hrest ⊢
      rw [hrest, List.append_assoc]
      rfl

theorem read_plain (before : List Token) {plain : List Char} (hne : plain ≠ [])
    (h : ∀ c ∈ plain, isPlain c = true) :
    (⟨before, .blank, []⟩ : Reader).read plain = ⟨before, .word plain, []⟩ := by
  cases plain with
  | nil => exact absurd rfl hne
  | cons c plain =>
      have hfeed : (⟨before, .blank, []⟩ : Reader).feed c = ⟨before, .word [c], []⟩ :=
        begin_plain _ (h c List.mem_cons_self)
      have hrest := read_plain_word before [c] fun d hd => h d (List.mem_cons_of_mem c hd)
      simp only [read, List.foldl_cons, hfeed] at hrest ⊢
      exact hrest

theorem blank_ends_operator (text : List Char) : isOperator (text ++ [' ']) = false := by
  have hnone : ∀ operator ∈ operators, ' ' ∉ operator := by decide
  by_contra hoperator
  rw [Bool.not_eq_false, isOperator, List.contains_iff_mem] at hoperator
  exact hnone _ hoperator (List.mem_append_right _ (List.mem_singleton_self _))

/-- A blank outside of quotes ends what is pending. -/
theorem feed_blank {s : Reader} (h : s.quoting = []) : s.feed ' ' = start.after s.close.tokens := by
  obtain ⟨tokens, pending, quoting⟩ := s
  subst h
  have hbegin (s : Reader) : s.begin ' ' = s.close := rfl
  cases pending with
  | blank | word text => simp [feed, feedIn, plain, within, hbegin, close, after, start]
  | operator text =>
      simp [feed, feedIn, plain, within, blank_ends_operator, hbegin, close, after, start]

end Reader

/-- The line is read to its end outside of quotes, and these are its tokens. -/
def Reads (line : List Char) (ts : List Token) : Prop :=
  (Reader.start.read line).quoting = [] ∧ (Reader.start.read line).close.tokens = ts

namespace Reads

variable {line line' : List Char} {ts ts' : List Token}

theorem tokens (h : Reads line ts) : Shell.tokens line = some ts := by
  have hcomplete : (Reader.start.read line).complete = true := by
    rw [Reader.complete, h.1]
    rfl
  rw [Shell.tokens, if_pos hcomplete, h.2]

theorem of_word {text : List Char} (h : Reader.start.read line = ⟨ts, .word text, []⟩) :
    Reads line (ts ++ [.word text]) := by
  rw [Reads, h]
  exact ⟨rfl, rfl⟩

theorem quote (value : List Char) : Reads (quote value) [.word value] :=
  of_word (Reader.read_quote [] value)

theorem plain (hne : line ≠ []) (h : ∀ c ∈ line, isPlain c = true) : Reads line [.word line] :=
  of_word (Reader.read_plain [] hne h)

/-- Two lines with a blank between them. -/
theorem blank (h : Reads line ts) (h' : Reads line' ts') :
    Reads (line ++ ' ' :: line') (ts ++ ts') := by
  have hread : Reader.start.read (line ++ ' ' :: line') =
      (Reader.start.read line').after ts := by
    rw [Reader.read_append, ← h.2, ← Reader.read_after, ← Reader.feed_blank h.1]
    rfl
  rw [Reads, hread]
  refine ⟨h'.1, ?_⟩
  rw [Reader.close_after, ← h'.2]
  rfl

/-- Lines with one operator between each two of them. -/
theorem intercalate {lines : List (List Char)} {parts : List (List Token)} {operator : List Char}
    (hoperator : Reads operator [.operator operator]) (h : List.Forall₂ Reads lines parts) :
    Reads ((' ' :: operator ++ [' ']).intercalate lines)
      ([.operator operator].intercalate parts) := by
  induction h with
  | nil => exact ⟨rfl, rfl⟩
  | @cons line part lines parts hline hlines ih =>
      cases hlines with
      | nil =>
          rw [List.intercalate_singleton, List.intercalate_singleton]
          exact hline
      | cons hnext hrest =>
          rw [List.intercalate_cons_cons, List.intercalate_cons_cons]
          have hall := (hline.blank hoperator).blank ih
          simpa [List.append_assoc] using hall

/-- Lines with a blank between each two of them. -/
theorem intercalate_blank {lines : List (List Char)} {parts : List (List Token)}
    (h : List.Forall₂ Reads lines parts) : Reads ([' '].intercalate lines) parts.flatten := by
  induction h with
  | nil => exact ⟨rfl, rfl⟩
  | @cons line part lines parts hline hlines ih =>
      cases hlines with
      | nil =>
          rw [List.intercalate_singleton, List.flatten_singleton]
          exact hline
      | cons hnext hrest =>
          rw [List.intercalate_cons_cons, List.flatten_cons]
          have hall := hline.blank ih
          simpa [List.append_assoc] using hall

end Reads

end AiSsh.Library.Shell
