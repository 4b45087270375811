import Mathlib.Algebra.GroupWithZero.Nat
import Mathlib.Data.Nat.Find
import Mathlib.Order.Monotone.Basic

/-!
The Gregorian calendar from the year 0 on, counted in days.
-/

namespace AiSsh.Library.Calendar

def isLeap (year : Nat) : Bool := year % 4 == 0 && (year % 100 != 0 || year % 400 == 0)

def yearLength (leap : Bool) : Nat := if leap then 366 else 365

/-- The days of the years before `year`. -/
def daysBeforeYear (year : Nat) : Nat :=
  365 * year + ((year + 3) / 4 - (year + 99) / 100 + (year + 399) / 400)

def monthLengths (leap : Bool) : List Nat :=
  [31, if leap then 29 else 28, 31, 30, 31, 30, 31, 31, 30, 31, 30, 31]

/-- The days of the months before `month`; January is month 1. -/
def daysBeforeMonth (leap : Bool) (month : Nat) : Nat :=
  ((monthLengths leap).take (month - 1)).sum

/-- The year of a day, by the cycle of 400 years. -/
def yearOf (day : Nat) : Nat :=
  let year := day % 146097 / 365
  400 * (day / 146097) + if daysBeforeYear year ≤ day % 146097 then year else year - 1

/-- The month of a day of the year. -/
def monthOf (leap : Bool) (day : Nat) : Nat :=
  Nat.findGreatest (fun month => daysBeforeMonth leap month ≤ day) 12

theorem multiples_succ (year step : Nat) (hstep : 0 < step) :
    (year + 1 + (step - 1)) / step =
      (year + (step - 1)) / step + if year % step = 0 then 1 else 0 := by
  have hnext : year + 1 + (step - 1) = year + step := by omega
  rw [hnext, Nat.add_div_right _ hstep]
  split
  · rename_i hzero
    obtain ⟨k, rfl⟩ := Nat.dvd_of_mod_eq_zero hzero
    rw [Nat.mul_add_div hstep, Nat.div_eq_of_lt (by omega : step - 1 < step),
      Nat.mul_div_cancel_left _ hstep]
  · rename_i hrest
    have hsplit := Nat.div_add_mod year step
    have hlt := Nat.mod_lt year hstep
    have hup : year + (step - 1) = step * (year / step + 1) + (year % step - 1) := by
      rw [Nat.mul_add]
      omega
    rw [hup, Nat.mul_add_div hstep, Nat.div_eq_of_lt (by omega : year % step - 1 < step)]

theorem multiples_le (year : Nat) : (year + 99) / 100 ≤ (year + 3) / 4 := by omega

theorem daysBeforeYear_succ (year : Nat) :
    daysBeforeYear (year + 1) = daysBeforeYear year + yearLength (isLeap year) := by
  have hfour := multiples_succ year 4 (by omega)
  have hhundred := multiples_succ year 100 (by omega)
  have hfourHundred := multiples_succ year 400 (by omega)
  have hle := multiples_le year
  have hle' := multiples_le (year + 1)
  have hsecular : year % 100 = 0 → year % 4 = 0 := by omega
  have hcycle : year % 400 = 0 → year % 100 = 0 := by omega
  simp only [daysBeforeYear, yearLength, isLeap, Bool.and_eq_true, Bool.or_eq_true, beq_iff_eq,
    bne_iff_ne]
  generalize (year + 1 + 3) / 4 = a at *
  generalize (year + 1 + 99) / 100 = b at *
  generalize (year + 1 + 399) / 400 = c at *
  generalize (year + 3) / 4 = a' at *
  generalize (year + 99) / 100 = b' at *
  generalize (year + 399) / 400 = c' at *
  split at hfour
  · split at hhundred
    · split at hfourHundred
      · rw [if_pos (by omega)]
        omega
      · rw [if_neg (by omega)]
        omega
    · rw [if_neg (fun h => by omega)] at hfourHundred
      rw [if_pos (by omega)]
      omega
  · rw [if_neg (by omega)] at hhundred
    rw [if_neg (by omega)] at hfourHundred
    rw [if_neg (by omega)]
    omega

theorem daysBeforeYear_mono : Monotone daysBeforeYear :=
  monotone_nat_of_le_succ fun year => by
    rw [daysBeforeYear_succ]
    exact Nat.le_add_right _ _

theorem daysBeforeYear_cycle (cycle year : Nat) :
    daysBeforeYear (400 * cycle + year) = 146097 * cycle + daysBeforeYear year := by
  simp only [daysBeforeYear]
  omega

theorem le_daysBeforeYear (year : Nat) : 365 * year ≤ daysBeforeYear year := Nat.le_add_right _ _

theorem daysBeforeYear_le {year : Nat} (h : year ≤ 400) :
    daysBeforeYear year ≤ 365 * year + 102 := by
  simp only [daysBeforeYear]
  omega

theorem yearOf_spec (day : Nat) :
    daysBeforeYear (yearOf day) ≤ day ∧ day < daysBeforeYear (yearOf day + 1) := by
  have hsplit := Nat.div_add_mod day 146097
  have hbelow : day % 146097 < 146097 := Nat.mod_lt _ (by omega)
  rw [yearOf, Nat.add_assoc, daysBeforeYear_cycle, daysBeforeYear_cycle]
  generalize day % 146097 = rest at *
  generalize day / 146097 = cycle at *
  have hnext := le_daysBeforeYear (rest / 365 + 1)
  split
  · omega
  · rename_i hgt
    have hpos : rest / 365 ≠ 0 := by
      intro hzero
      rw [hzero] at hgt
      exact hgt (Nat.zero_le rest)
    have hback := daysBeforeYear_le (by omega : rest / 365 - 1 ≤ 400)
    have hsame : rest / 365 - 1 + 1 = rest / 365 := by omega
    rw [hsame]
    omega

example : daysBeforeYear 1970 = 719528 ∧ yearOf 719527 = 1969 := by decide

theorem daysBeforeMonth_mono (leap : Bool) : Monotone (daysBeforeMonth leap) := by
  intro m n h
  have hprefix : (monthLengths leap).take (m - 1) <+: (monthLengths leap).take (n - 1) :=
    List.take_prefix_take_left (by omega)
  obtain ⟨rest, hrest⟩ := hprefix
  rw [daysBeforeMonth, daysBeforeMonth, ← hrest, List.sum_append]
  exact Nat.le_add_right _ _

theorem monthOf_spec {leap : Bool} {day : Nat} (h : day < yearLength leap) :
    daysBeforeMonth leap (monthOf leap day) ≤ day ∧
      day < daysBeforeMonth leap (monthOf leap day + 1) := by
  refine ⟨Nat.findGreatest_spec (P := fun month => daysBeforeMonth leap month ≤ day)
    (Nat.zero_le 12) (Nat.zero_le day), ?_⟩
  by_cases hlast : monthOf leap day = 12
  · rw [hlast]
    cases leap with
    | false => exact h
    | true => exact h
  · have hle : monthOf leap day ≤ 12 := Nat.findGreatest_le 12
    have hnext : monthOf leap day + 1 ≤ 12 := by omega
    have hover := Nat.findGreatest_is_greatest
      (P := fun month => daysBeforeMonth leap month ≤ day) (Nat.lt_succ_self _) hnext
    exact Nat.lt_of_not_le hover

theorem monthOf_le (leap : Bool) (day : Nat) : monthOf leap day ≤ 12 := Nat.findGreatest_le 12

theorem monthLength_le (leap : Bool) {month : Nat} (h : month < 13) :
    daysBeforeMonth leap (month + 1) - daysBeforeMonth leap month ≤ 31 := by
  have hall : ∀ leap : Bool, ∀ month < 13,
      daysBeforeMonth leap (month + 1) - daysBeforeMonth leap month ≤ 31 := by decide
  exact hall leap month h

end AiSsh.Library.Calendar
