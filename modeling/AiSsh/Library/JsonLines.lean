import AiSsh.Library.JsonRead

/-!
A stream of JSON values, one on a line. Who reads the stream gets the values in order, and from
any part of it that has arrived the first of them.
-/

namespace AiSsh.Library.Json

section Split

/-- The complete lines of a text, behind the start of a line, which is newest first. -/
def linesBehind : List Char → List Char → List (List Char)
  | _, [] => []
  | line, c :: text =>
      if c = '\n' then line.reverse :: linesBehind [] text else linesBehind (c :: line) text

def completeLines (text : List Char) : List (List Char) := linesBehind [] text

theorem linesBehind_append (line part rest : List Char) :
    linesBehind line part <+: linesBehind line (part ++ rest) := by
  induction part generalizing line with
  | nil => exact List.nil_prefix
  | cons c part ih =>
      rw [List.cons_append, linesBehind, linesBehind]
      split
      · exact List.cons_prefix_cons.mpr ⟨rfl, ih []⟩
      · exact ih (c :: line)

/-- More of a text does not change the lines that are complete. -/
theorem completeLines_mono {part text : List Char} (h : part <+: text) :
    completeLines part <+: completeLines text := by
  obtain ⟨rest, rfl⟩ := h
  exact linesBehind_append [] part rest

theorem linesBehind_line {text : List Char} (h : ∀ c ∈ text, c ≠ '\n')
    (line rest : List Char) :
    linesBehind line (text ++ '\n' :: rest) = (line.reverse ++ text) :: linesBehind [] rest := by
  induction text generalizing line with
  | nil => simp [linesBehind]
  | cons c text ih =>
      rw [List.cons_append, linesBehind, if_neg (h c List.mem_cons_self),
        ih (fun d hd => h d (List.mem_cons_of_mem _ hd)), List.reverse_cons, List.append_assoc]
      rfl

end Split

variable (format : FloatFormat)

/-- Values as lines. -/
def lines (values : List Value) : List Char :=
  values.flatMap fun value => (value.text format.text).toList ++ ['\n']

theorem lines_append (front back : List Value) :
    lines format (front ++ back) = lines format front ++ lines format back :=
  List.flatMap_append

/-- What a reader makes of the lines that are complete. -/
def readLines (text : List Char) : List (Option Value) :=
  (completeLines text).map (read format.read)

theorem text_one_line (value : Value) : ∀ c ∈ (value.text format.text).toList, c ≠ '\n' := by
  intro c hc heq
  have hprintable := List.all_eq_true.mp (all_printable_text format value) c hc
  rw [heq] at hprintable
  exact absurd hprintable (by decide)

theorem completeLines_lines (values : List Value) :
    completeLines (lines format values) =
      values.map fun value => (value.text format.text).toList := by
  induction values with
  | nil => rfl
  | cons value values ih =>
      rw [lines, List.flatMap_cons, List.append_assoc, completeLines, List.singleton_append,
        linesBehind_line (text_one_line format value), List.map_cons]
      exact congrArg _ ih

theorem readLines_lines (values : List Value) :
    readLines format (lines format values) = values.map some := by
  rw [readLines, completeLines_lines, List.map_map]
  exact List.map_congr_left fun value _ => read_text format value

/-- What has arrived of the lines gives the first values. -/
theorem readLines_part {values : List Value} {part : List Char}
    (h : part <+: lines format values) :
    ∃ n, readLines format part = (values.take n).map some := by
  have hprefix : readLines format part <+: values.map some :=
    readLines_lines format values ▸ (completeLines_mono h).map _
  refine ⟨(readLines format part).length, ?_⟩
  rw [List.map_take]
  exact List.prefix_iff_eq_take.mp hprefix

end AiSsh.Library.Json
