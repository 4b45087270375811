import AiSsh.Library.FileTable
import AiSsh.Library.Pool

/-!
Writers that share a staging name. Each creates the staged file, writes it through its own
handle, and renames it over a target or gives it up. What a writer counts on is there as long
as no writer creates the staged file while another one counts on it.
-/

namespace AiSsh.Library

universe u v

variable {P : Type u} {β : Type v}

/-- What a writer counts on: the bytes in the staged file, and the handle it still has. -/
structure Holding (β : Type v) where
  written : List β
  handle : Option Nat

/-- One operation of a writer, next to the holdings of the others, and what it publishes. -/
inductive Holding.Move [DecidableEq P] [Inhabited β] (staged target : P) (t : FileTable P β)
    (others : List (Option (Holding β))) :
    Option (Holding β) → FileTable P β → Option (Holding β) → Option (List β) → Prop
  | leave {x : Option (Holding β)} : Move staged target t others x t none none
  | keep {written : List β} {handle handle' : Option Nat}
      (hhandle : handle' = none ∨ handle' = handle) :
      Move staged target t others (some ⟨written, handle⟩) t (some ⟨written, handle'⟩) none
  | create {x : Option (Holding β)} (halone : ∀ y ∈ others, y = none) :
      Move staged target t others x (t.create staged) (some ⟨[], some (t.created staged)⟩) none
  | write {written : List β} {handle : Nat} (data : List β) :
      Move staged target t others (some ⟨written, some handle⟩)
        (t.writeAt handle written.length data) (some ⟨written ++ data, some handle⟩) none
  | tear {written : List β} {handle : Nat} (data : List β) :
      Move staged target t others (some ⟨written, some handle⟩)
        (t.writeAt handle written.length data) none none
  | remove {x : Option (Holding β)} : Move staged target t others x (t.remove staged) none none
  | publish {written : List β} {handle : Option Nat} (hstaged : (t.names staged).isSome) :
      Move staged target t others (some ⟨written, handle⟩) (t.rename staged target) none
        (some written)

/-- One writer at most counts on the staged file, and finds there what it counts on. -/
structure SoleHolder (staged : P) (t : FileTable P β) (holdings : List (Option (Holding β))) :
    Prop where
  one : holdings.countP Option.isSome ≤ 1
  held : ∀ holding, some holding ∈ holdings →
    ∃ file, t.Held staged file holding.written ∧
      ∀ handle, holding.handle = some handle → handle = file

namespace SoleHolder

variable {staged target : P} {t t' : FileTable P β} {pre post : List (Option (Holding β))}
  {x x' : Option (Holding β)} {published : Option (List β)}

theorem none_of_countP_eq_zero {holdings : List (Option (Holding β))} :
    holdings.countP Option.isSome = 0 ↔ ∀ y ∈ holdings, y = none := by
  simp [List.countP_eq_zero]

/-- The others hold nothing while one writer does. -/
theorem others (h : SoleHolder staged t (pre ++ x :: post)) (hx : x.isSome) :
    ∀ y ∈ pre ++ post, y = none := by
  have hone := h.one
  rw [countP_middle, if_pos hx] at hone
  exact none_of_countP_eq_zero.mp (Nat.le_zero.mp (Nat.le_of_succ_le_succ hone))

/-- A writer that holds nothing, next to writers whose holdings are left alone. -/
theorem release (h : SoleHolder staged t (pre ++ x :: post))
    (hothers : ∀ holding, some holding ∈ pre ++ post → ∀ file,
      t.Held staged file holding.written → t'.Held staged file holding.written) :
    SoleHolder staged t' (pre ++ none :: post) where
  one := by
    have hone := h.one
    rw [countP_middle] at hone ⊢
    exact Nat.le_trans (Nat.le_add_right _ _) hone
  held := by
    intro holding hmem
    cases mem_middle.mp hmem with
    | inl hsame => cases hsame
    | inr hother =>
        obtain ⟨file, hfile, hhandle⟩ := h.held holding (mem_middle.mpr (.inr hother))
        exact ⟨file, hothers holding hother file hfile, hhandle⟩

/-- A writer that is the only one to hold anything. -/
theorem hold {holding : Holding β} {file : Nat} (hothers : ∀ y ∈ pre ++ post, y = none)
    (hfile : t.Held staged file holding.written)
    (hhandle : ∀ handle, holding.handle = some handle → handle = file) :
    SoleHolder staged t (pre ++ some holding :: post) where
  one := by
    rw [countP_middle, none_of_countP_eq_zero.mpr hothers]
    exact Nat.le_refl 1
  held := by
    intro holding' hmem
    cases mem_middle.mp hmem with
    | inl hsame =>
        cases hsame
        exact ⟨file, hfile, hhandle⟩
    | inr hother => cases hothers _ hother

/-- A writer that holds nothing joins. -/
theorem join {holdings : List (Option (Holding β))} (h : SoleHolder staged t holdings) :
    SoleHolder staged t (holdings ++ [none]) where
  one := by
    rw [List.countP_append]
    exact h.one
  held := by
    intro holding hmem
    cases List.mem_append.mp hmem with
    | inl hmem => exact h.held holding hmem
    | inr hmem => cases List.mem_singleton.mp hmem

variable [DecidableEq P] [Inhabited β]

theorem move (h : SoleHolder staged t (pre ++ x :: post))
    (hmove : Holding.Move staged target t (pre ++ post) x t' x' published) :
    SoleHolder staged t' (pre ++ x' :: post) := by
  have hmem : x ∈ pre ++ x :: post := mem_middle.mpr (.inl rfl)
  cases hmove with
  | leave => exact h.release fun _ _ _ hfile => hfile
  | @keep written handle handle' hhandle =>
      obtain ⟨file, hfile, hsame⟩ := h.held _ hmem
      refine hold (h.others rfl) hfile fun handle'' hh => ?_
      cases hhandle with
      | inl hnone => cases hnone.symm.trans hh
      | inr hkept => exact hsame handle'' (hkept.symm.trans hh)
  | create halone =>
      refine hold halone (FileTable.held_create t staged) fun handle hh => ?_
      cases hh
      rfl
  | @write written handle data =>
      obtain ⟨file, hfile, hsame⟩ := h.held _ hmem
      obtain rfl := hsame handle rfl
      refine hold (h.others rfl) (hfile.writeAt data) fun handle' hh => ?_
      cases hh
      rfl
  | tear data =>
      have hothers := h.others rfl
      exact h.release fun holding hholding => absurd (hothers _ hholding) (by simp)
  | remove => exact h.release fun _ _ _ hfile => hfile.remove
  | publish hstaged =>
      have hothers := h.others rfl
      exact h.release fun holding hholding => absurd (hothers _ hholding) (by simp)

/-- The target holds what has just been published, or what it held before. -/
theorem read_target (h : SoleHolder staged t (pre ++ x :: post)) (hne : target ≠ staged)
    (hmove : Holding.Move staged target t (pre ++ post) x t' x' published) :
    t'.read target = (published <|> t.read target) := by
  have hmem : x ∈ pre ++ x :: post := mem_middle.mpr (.inl rfl)
  cases hmove with
  | leave | keep => rfl
  | create => exact FileTable.read_create t hne
  | @write written handle data | @tear written handle data =>
      obtain ⟨file, hfile, hsame⟩ := h.held _ hmem
      obtain rfl := hsame handle rfl
      exact hfile.read_setContents hne _
  | remove => exact FileTable.read_remove t hne
  | publish hstaged =>
      obtain ⟨file, hfile, -⟩ := h.held _ hmem
      rw [FileTable.read_rename_target, hfile.read_eq hstaged]
      rfl

end SoleHolder
end AiSsh.Library
