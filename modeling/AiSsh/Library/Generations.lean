import Mathlib.Data.List.Nodup

/-!
A slot that gets one content after the other. The contents are kept with the newest in front,
and a user of the slot has stamped its content with how many there had been.
-/

namespace AiSsh.Library

universe u

variable {α : Type u} {held : List α} {x y : α} {n : Nat}

/-- The `n`-th content of the slot. -/
def stamped (held : List α) (n : Nat) : Option α :=
  if n ≤ held.length then held[held.length - n]? else none

@[simp] theorem stamped_length : stamped held held.length = held.head? := by
  rw [stamped, if_pos (Nat.le_refl _), Nat.sub_self, List.head?_eq_getElem?]

theorem le_length_of_stamped (h : stamped held n = some x) : n ≤ held.length := by
  rw [stamped] at h
  split at h
  · assumption
  · cases h

/-- A stamp is good for good. -/
theorem stamped_cons (h : stamped held n = some x) : stamped (y :: held) n = some x := by
  have hle := le_length_of_stamped h
  rw [stamped, if_pos hle] at h
  rw [stamped, List.length_cons, if_pos (by omega), Nat.succ_sub hle, List.getElem?_cons_succ, h]

/-- Where no content comes twice, a content that is the newest has the newest stamp. -/
theorem eq_length_of_stamped (hdistinct : held.Nodup) (h : stamped held n = some x)
    (hnewest : held.head? = some x) : n = held.length := by
  have hle := le_length_of_stamped h
  rw [stamped, if_pos hle] at h
  rw [List.head?_eq_getElem?] at hnewest
  obtain ⟨hlt, hx⟩ := List.getElem?_eq_some_iff.mp h
  obtain ⟨hpos, hx'⟩ := List.getElem?_eq_some_iff.mp hnewest
  have hsame := (hdistinct.getElem_inj_iff).mp (hx.trans hx'.symm)
  omega

end AiSsh.Library
