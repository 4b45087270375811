import Mathlib.Data.List.SplitBy

/-!
The maximal runs of a list in which a key does not change. A list that grows at its end
grows its last run or starts another one.
-/

namespace AiSsh.Library

universe u v

variable {α : Type u} {κ : Type v} [DecidableEq κ] (key : α → κ)

def runs (items : List α) : List (List α) := items.splitBy fun a b => key a == key b

variable {key} {items run : List α} {front : List (List α)} {a b : α}

@[simp] theorem runs_nil : runs key [] = [] := rfl

@[simp] theorem flatten_runs (key : α → κ) (items : List α) : (runs key items).flatten = items :=
  List.flatten_splitBy _ _

theorem ne_nil_of_mem_runs (h : run ∈ runs key items) : run ≠ [] := List.ne_nil_of_mem_splitBy h

/-- The key does not change within a run. -/
theorem key_eq_of_mem_runs (h : run ∈ runs key items) (ha : a ∈ run) (hb : b ∈ run) :
    key a = key b := by
  have hchain := List.isChain_of_mem_splitBy h
  simp only [beq_iff_eq] at hchain
  have htrans : IsTrans α fun a b => key a = key b := ⟨fun _ _ _ => Eq.trans⟩
  have hsymm : Std.Symm fun a b => key a = key b := ⟨fun _ _ => Eq.symm⟩
  have hpairs := List.isChain_iff_pairwise.mp hchain
  exact hpairs.forall_of_forall (R := fun a b => key a = key b) (fun _ _ => rfl) ha hb

/-- The key changes from each run to the next. -/
theorem isChain_runs :
    (runs key items).IsChain fun run next => ∀ a ∈ run, ∀ b ∈ next, key a ≠ key b := by
  have hchain := List.isChain_getLast_head_splitBy (fun a b => key a == key b) items
  refine hchain.imp_of_mem_imp fun run next hrun hnext h a ha b hb hkey => ?_
  obtain ⟨hne, hne', hlast⟩ := h
  have hfirst := key_eq_of_mem_runs hrun (List.getLast_mem hne) ha
  have hsecond := key_eq_of_mem_runs hnext hb (List.head_mem hne')
  simp [hfirst, hkey, hsecond] at hlast

/-- What holds from each item to every later one holds from each run to every later one. -/
theorem pairwise_runs {R : α → α → Prop} (h : items.Pairwise R) :
    (runs key items).Pairwise fun run next => ∀ a ∈ run, ∀ b ∈ next, R a b := by
  rw [← flatten_runs key items, List.pairwise_flatten] at h
  exact h.2

theorem runs_concat_same (h : runs key items = front ++ [run]) (hb : b ∈ run)
    (hkey : key b = key a) : runs key (items ++ [a]) = front ++ [run ++ [a]] := by
  obtain ⟨hitems, hne, hconst, hchange⟩ := List.splitBy_eq_iff.mp h
  have hrun : run ∈ runs key items := by simp [h]
  refine List.splitBy_eq_iff.mpr ⟨by simp [hitems], ?_, ?_, ?_⟩
  · intro hnil
    cases List.mem_append.mp hnil with
    | inl hfront => exact hne (List.mem_append_left _ hfront)
    | inr hlast => simp at hlast
  · intro other hother
    cases List.mem_append.mp hother with
    | inl hfront => exact hconst other (List.mem_append_left _ hfront)
    | inr hlast =>
        rw [List.mem_singleton.mp hlast, List.isChain_append]
        refine ⟨hconst run (by simp), .singleton a, fun x hx y hy => ?_⟩
        obtain rfl : a = y := by simpa using hy
        simpa [hkey] using key_eq_of_mem_runs hrun (List.mem_of_mem_getLast? hx) hb
  · rw [List.isChain_append] at hchange ⊢
    refine ⟨hchange.1, .singleton _, fun other hother last hlast => ?_⟩
    obtain rfl : run ++ [a] = last := by simpa using hlast
    obtain ⟨hother', hrun', hhead⟩ := hchange.2.2 other hother run (by simp)
    exact ⟨hother', by simp, by rwa [List.head_append_of_ne_nil hrun']⟩

theorem runs_concat_other (h : ∀ run ∈ (runs key items).getLast?, ∀ b ∈ run, key b ≠ key a) :
    runs key (items ++ [a]) = runs key items ++ [[a]] := by
  refine (List.splitBy_append_cons [] fun b hb => ?_).trans (by rfl)
  have hne : items ≠ [] := by
    rintro rfl
    cases hb
  have hlast := List.getLast_getLast_splitBy (fun a b => key a == key b) hne
  have hb' : items.getLast hne = b := List.getLast_of_mem_getLast? hb
  have hruns : runs key items ≠ [] := List.splitBy_ne_nil.mpr hne
  refine beq_eq_false_iff_ne.mpr (h _ (List.getLast?_eq_some_getLast hruns) b ?_)
  rw [← hb', ← hlast]
  exact List.getLast_mem _

/-- The runs of some keys hold the items of these keys. -/
theorem flatten_filter_runs (key : α → κ) (p : κ → Bool) (items : List α) :
    ((runs key items).filter fun run => run.head?.any fun a => p (key a)).flatten =
      items.filter fun a => p (key a) := by
  conv_rhs => rw [← flatten_runs key items, List.filter_flatten]
  have hconst : ∀ run ∈ runs key items, ∀ a ∈ run, ∀ b ∈ run, key a = key b :=
    fun _ hrun _ ha _ hb => key_eq_of_mem_runs hrun ha hb
  generalize runs key items = parts at hconst
  induction parts with
  | nil => rfl
  | cons run parts ih =>
      have hrest := ih fun other hother => hconst other (List.mem_cons_of_mem _ hother)
      rw [List.map_cons, List.flatten_cons, ← hrest]
      cases run with
      | nil => rfl
      | cons a run =>
          have hsame : ∀ b ∈ a :: run, p (key b) = p (key a) := fun b hb => by
            rw [hconst _ List.mem_cons_self b hb a List.mem_cons_self]
          cases hp : p (key a) with
          | true =>
              have hall : (a :: run).filter (fun b => p (key b)) = a :: run :=
                List.filter_eq_self.mpr fun b hb => (hsame b hb).trans hp
              rw [hall, List.filter_cons_of_pos (by simpa using hp), List.flatten_cons]
          | false =>
              have hnone : (a :: run).filter (fun b => p (key b)) = [] :=
                List.filter_eq_nil_iff.mpr fun b hb => by simp [hsame b hb, hp]
              rw [hnone, List.filter_cons_of_neg (by simp [hp]), List.nil_append]

end AiSsh.Library
