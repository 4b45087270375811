import Mathlib.Data.List.Basic

/-!
The groups of a text: what stands between an opening mark and the next closing mark, when
the text is read from left to right. Nested marks are not paired up. After a closing mark
the reader is outside every group, whatever stood before.
-/

namespace AiSsh.Library

universe u

variable {α : Type u} [DecidableEq α] (opening closing : α)

def groups (text : List α) : List (List α) :=
  match _h : text.dropWhile (· ≠ opening) with
  | [] => []
  | _ :: after =>
      match _h' : after.dropWhile (· ≠ closing) with
      | [] => []
      | _ :: rest => after.takeWhile (· ≠ closing) :: groups rest
termination_by text.length
decreasing_by
  have hafter : (text.dropWhile (· ≠ opening)).length ≤ text.length :=
    (List.dropWhile_suffix _).length_le
  have hrest : (after.dropWhile (· ≠ closing)).length ≤ after.length :=
    (List.dropWhile_suffix _).length_le
  rw [_h] at hafter
  rw [_h'] at hrest
  simp only [List.length_cons] at hafter hrest
  omega

/-- The same reader, mark by mark. `inside` is the group it is in. -/
def scan : Option (List α) → List α → List (List α)
  | _, [] => []
  | none, a :: rest => if a = opening then scan (some []) rest else scan none rest
  | some inside, a :: rest =>
      if a = closing then inside :: scan none rest else scan (some (inside ++ [a])) rest

variable {opening closing}

theorem scan_outside (text : List α) :
    scan opening closing none text =
      match text.dropWhile (· ≠ opening) with
      | [] => []
      | _ :: after => scan opening closing (some []) after := by
  induction text with
  | nil => rfl
  | cons a rest ih =>
      by_cases h : a = opening
      · simp [scan, h]
      · simpa [scan, h] using ih

theorem scan_inside (inside text : List α) :
    scan opening closing (some inside) text =
      match text.dropWhile (· ≠ closing) with
      | [] => []
      | _ :: rest =>
          (inside ++ text.takeWhile (· ≠ closing)) :: scan opening closing none rest := by
  induction text generalizing inside with
  | nil => rfl
  | cons a rest ih =>
      by_cases h : a = closing
      · simp [scan, h]
      · simpa [scan, h] using ih (inside ++ [a])

theorem groups_eq_scan (text : List α) :
    groups opening closing text = scan opening closing none text := by
  induction text using groups.induct opening closing with
  | case1 text h =>
      rw [scan_outside, h]
      rw [groups]
      split
      · rfl
      · rename_i heq
        cases h.symm.trans heq
  | case2 text a after h h' =>
      rw [scan_outside, h]
      rw [groups]
      split
      · rename_i heq
        cases h.symm.trans heq
      · rename_i heq
        cases h.symm.trans heq
        simp only [scan_inside, h']
        split
        · rfl
        · rename_i heq
          cases h'.symm.trans heq
  | case3 text a after h b rest h' ih =>
      rw [scan_outside, h]
      rw [groups]
      split
      · rename_i heq
        cases h.symm.trans heq
      · rename_i heq
        cases h.symm.trans heq
        simp only [scan_inside, h', List.nil_append]
        split
        · rename_i heq
          cases h'.symm.trans heq
        · rename_i heq
          cases h'.symm.trans heq
          rw [ih]

/-- Behind a closing mark the reader starts anew. -/
theorem scan_append_closing (inside : Option (List α)) (before rest : List α)
    (h : opening ≠ closing) :
    scan opening closing inside (before ++ closing :: rest) =
      scan opening closing inside (before ++ [closing]) ++ scan opening closing none rest := by
  induction before generalizing inside with
  | nil =>
      cases inside with
      | none => simp [scan, Ne.symm h]
      | some inside => simp [scan]
  | cons a before ih =>
      cases inside with
      | none =>
          simp only [List.cons_append, scan]
          split
          · exact ih _
          · exact ih _
      | some inside =>
          simp only [List.cons_append, scan]
          split
          · rw [ih, List.cons_append]
          · exact ih _

theorem groups_append_closing (before rest : List α) (h : opening ≠ closing) :
    groups opening closing (before ++ closing :: rest) =
      groups opening closing (before ++ [closing]) ++ groups opening closing rest := by
  simp only [groups_eq_scan]
  exact scan_append_closing none before rest h

theorem groups_skip {before : List α} (h : opening ∉ before) (rest : List α) :
    groups opening closing (before ++ rest) = groups opening closing rest := by
  simp only [groups_eq_scan]
  induction before with
  | nil => rfl
  | cons a before ih =>
      rw [List.mem_cons, not_or] at h
      rw [List.cons_append, scan, if_neg (Ne.symm h.1)]
      exact ih h.2

/-- A group without a closing mark in it is the first one, and the rest is read after it. -/
theorem groups_cons {body : List α} (h : closing ∉ body) (rest : List α) :
    groups opening closing (opening :: body ++ closing :: rest) =
      body :: groups opening closing rest := by
  have hall : ∀ a ∈ body, decide (a ≠ closing) = true := fun a ha =>
    decide_eq_true fun hsame => h (hsame ▸ ha)
  simp only [groups_eq_scan, List.cons_append, scan, if_true]
  rw [scan_inside, List.dropWhile_append_of_pos hall, List.takeWhile_append_of_pos hall]
  simp

/-- The rendered groups of a list one after the other. -/
theorem groups_flatMap {β : Type u} (render : β → List α) (items : List β) (h : opening ≠ closing) :
    groups opening closing (items.flatMap fun b => render b ++ [closing]) =
      items.flatMap fun b => groups opening closing (render b ++ [closing]) := by
  induction items with
  | nil => rw [List.flatMap_nil, List.flatMap_nil, groups_eq_scan, scan]
  | cons b items ih =>
      rw [List.flatMap_cons, List.flatMap_cons, List.append_assoc, List.singleton_append,
        groups_append_closing _ _ h, ih]

end AiSsh.Library
