import AiSsh.Library.Machine
import AiSsh.TextChannel

/-!
Runs of `append_capped` with one budget. A call that has to cut its value takes the characters
that start before the budget ends, so it keeps to the budget only where a character ends there.
-/

namespace AiSsh

open Library

/-- What a call appends to `out` of `value`, and what it returns. -/
structure Caps (out value : String) (budget : Nat) (front : List Char) : Prop where
  appended : (appendCapped out value budget).1 = out ++ .ofList front
  longest : Budget.Longest Char.utf8Size budget value.toList front
  whole : (appendCapped out value budget).2.2 = true ↔ front = value.toList
  charged : (appendCapped out value budget).2.1 + total Char.utf8Size front = budget ∨
    (appendCapped out value budget).2.1 = 0

/-- The value fits, or a character ends where the budget does. -/
def EndsOnBudget (value : String) (budget : Nat) : Prop :=
  value.utf8ByteSize ≤ budget ∨
    ∃ front, front <+: value.toList ∧ total Char.utf8Size front = budget

theorem ofList_append_inj {out : String} {a b : List Char}
    (h : out ++ .ofList a = out ++ .ofList b) : a = b := by
  have hlist := congrArg String.toList h
  simpa using hlist

/-- One call keeps to the budget exactly if its value fits or can be cut there. -/
theorem caps_iff (out value : String) (budget : Nat) :
    (∃ front, Caps out value budget front) ↔ EndsOnBudget value budget := by
  have hpos (c : Char) : 0 < c.utf8Size := Char.utf8Size_pos c
  by_cases hfits : value.utf8ByteSize ≤ budget
  · refine iff_of_true ⟨value.toList, ?_⟩ (.inl hfits)
    have hcall : appendCapped out value budget =
        (out ++ value, budget - value.utf8ByteSize, true) := if_pos hfits
    have htotal : total Char.utf8Size value.toList = value.utf8ByteSize :=
      (Utf8.utf8ByteSize_eq_total value).symm
    refine ⟨?_, Budget.longest_of_le (htotal ▸ hfits), ?_, .inl ?_⟩
    · rw [hcall, String.ofList_toList]
    · rw [hcall]
      exact iff_of_true rfl rfl
    · rw [hcall, htotal]
      exact Nat.sub_add_cancel hfits
  · have hcall : appendCapped out value budget =
        (out ++ .ofList (Budget.startingBefore Char.utf8Size budget 0 value.toList), 0, false) :=
      if_neg hfits
    have hover : budget < total Char.utf8Size value.toList := by
      rw [← Utf8.utf8ByteSize_eq_total]
      omega
    rw [EndsOnBudget, or_iff_right hfits, ← Budget.longest_cut_iff hpos hover]
    constructor
    · intro ⟨front, h⟩
      have happended := h.appended
      rw [hcall] at happended
      rw [ofList_append_inj happended]
      exact h.longest
    · intro hlongest
      refine ⟨_, by rw [hcall], hlongest, ?_, .inr (by rw [hcall])⟩
      rw [hcall]
      refine iff_of_false (by simp) fun hwhole => ?_
      have hwithin := hlongest.within
      rw [hwhole] at hwithin
      omega

/-- The calls of a run append each its value to a text, and share the budget. -/
def cappedCalls : Machine Nat (String × String) where
  step budget call := some (appendCapped call.1 call.2 budget).2.1

/-- The bytes a run of calls appends. -/
def appendedBytes : Nat → List (String × String) → Nat
  | _, [] => 0
  | budget, call :: calls =>
      let result := appendCapped call.1 call.2 budget
      result.1.utf8ByteSize - call.1.utf8ByteSize + appendedBytes result.2.1 calls

theorem Caps.size {out value : String} {budget : Nat} {front : List Char}
    (h : Caps out value budget front) :
    (appendCapped out value budget).1.utf8ByteSize - out.utf8ByteSize =
      total Char.utf8Size front := by
  rw [h.appended, String.utf8ByteSize_append, Utf8.utf8ByteSize_ofList, Nat.add_sub_cancel_left]

theorem appendedBytes_le {budget : Nat} {calls : List (String × String)}
    (h : cappedCalls.Meets (fun budget call => ∃ front, Caps call.1 call.2 budget front)
      budget calls) : appendedBytes budget calls ≤ budget := by
  induction calls generalizing budget with
  | nil => exact Nat.zero_le budget
  | cons call calls ih =>
      obtain ⟨⟨front, hcaps⟩, hrest⟩ := h
      have hlater := ih (hrest _ rfl)
      have hwithin := hcaps.longest.within
      rw [appendedBytes, hcaps.size]
      cases hcaps.charged with
      | inl hcharged => omega
      | inr hspent =>
          rw [hspent] at hlater ⊢
          omega

/-- Every call of a run is as it should be, and the whole run within the budget, exactly if no call
cuts a character. -/
theorem appendCapped_within_iff (budget : Nat) (calls : List (String × String)) :
    cappedCalls.Meets (fun budget call => ∃ front, Caps call.1 call.2 budget front)
        budget calls ∧ appendedBytes budget calls ≤ budget ↔
      cappedCalls.Meets (fun budget call => EndsOnBudget call.2 budget) budget calls := by
  rw [and_iff_left_of_imp appendedBytes_le]
  exact cappedCalls.meets_congr fun budget call => caps_iff call.1 call.2 budget

/-- A character of two bytes goes over a budget of one. -/
theorem appendCapped_overruns :
    appendCapped "" "\u00e9" 1 = ("\u00e9", 0, false) ∧ appendedBytes 1 [("", "\u00e9")] = 2 ∧
      ¬ ∃ front, Caps "" "\u00e9" 1 front := by
  have hcall : appendCapped "" "\u00e9" 1 = ("\u00e9", 0, false) := by decide
  have hbytes : "\u00e9".utf8ByteSize - "".utf8ByteSize = 2 := by decide
  refine ⟨hcall, ?_, fun ⟨front, h⟩ => ?_⟩
  · rw [appendedBytes, hcall, hbytes]
    rfl
  · have hsize := h.size
    have hwithin := h.longest.within
    rw [hcall, hbytes] at hsize
    omega

end AiSsh
