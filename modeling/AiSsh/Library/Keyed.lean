import Mathlib.Data.List.Nodup

/-!
Lists of records with a key. Records of a second list are added to the first one unless
their key is there already.
-/

namespace AiSsh.Library

universe u v

variable {α : Type u} {κ : Type v} [DecidableEq κ] (key : α → κ)

def addNew (known items : List α) : List α :=
  items.foldl (fun known a => if known.any fun b => key b == key a then known else known ++ [a])
    known

variable {key} {known items : List α}

theorem any_key {k : κ} : (known.any fun b => key b == k) = true ↔ k ∈ known.map key := by
  simp [List.any_eq_true, List.mem_map]

/-- What one record adds. -/
theorem addNew_cons (a : α) :
    addNew key known (a :: items) =
      if key a ∈ known.map key then addNew key known items
      else addNew key (known ++ [a]) items := by
  rw [addNew, List.foldl_cons]
  split
  · rename_i h
    rw [if_pos (any_key.mp h), addNew]
  · rename_i h
    rw [if_neg (fun hk => h (any_key.mpr hk)), addNew]

theorem nodup_addNew (h : (known.map key).Nodup) : ((addNew key known items).map key).Nodup := by
  induction items generalizing known with
  | nil => exact h
  | cons a items ih =>
      rw [addNew_cons]
      split
      · exact ih h
      · rename_i hnew
        apply ih
        rw [List.map_append, List.map_singleton, ← List.concat_eq_append]
        exact (List.nodup_concat _ _).mpr ⟨hnew, h⟩

theorem mem_keys_addNew {k : κ} :
    k ∈ (addNew key known items).map key ↔ k ∈ known.map key ∨ k ∈ items.map key := by
  induction items generalizing known with
  | nil => simp [addNew]
  | cons a items ih =>
      rw [addNew_cons, List.map_cons, List.mem_cons]
      split
      · rename_i hold
        rw [ih]
        constructor
        · exact fun h => h.imp_right .inr
        · intro h
          cases h with
          | inl h => exact .inl h
          | inr h =>
              cases h with
              | inl h => exact .inl (h ▸ hold)
              | inr h => exact .inr h
      · rw [ih, List.map_append, List.mem_append, List.map_singleton, List.mem_singleton, or_assoc]

/-- The first list is kept, and the rest comes from the second one. -/
theorem mem_addNew {a : α} (h : a ∈ addNew key known items) : a ∈ known ∨ a ∈ items := by
  induction items generalizing known with
  | nil => exact .inl h
  | cons b items ih =>
      rw [addNew_cons] at h
      split at h
      · exact (ih h).imp_right (List.mem_cons_of_mem _)
      · cases ih h with
        | inl h =>
            cases List.mem_append.mp h with
            | inl h => exact .inl h
            | inr h => exact .inr (List.mem_cons.mpr (.inl (List.mem_singleton.mp h)))
        | inr h => exact .inr (List.mem_cons_of_mem _ h)

theorem known_subset_addNew : known ⊆ addNew key known items := by
  induction items generalizing known with
  | nil => exact fun a h => h
  | cons b items ih =>
      rw [addNew_cons]
      split
      · exact ih
      · exact fun a h => ih (List.mem_append_left _ h)

end AiSsh.Library
