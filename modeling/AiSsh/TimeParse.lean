import AiSsh.StoredTime

/-!
Times read back from their texts. The reader takes any RFC 3339 text; of what the tables hold it
gives the instant that was written, to the nanosecond.
-/

namespace AiSsh

open Library Library.Calendar

namespace Rfc3339

section Reader

/-- A number of this many digits. -/
def readDigits (width : Nat) (text : List Char) : Option (Nat × List Char) :=
  let digits := text.take width
  if digits.length = width ∧ digits.all Char.isDigit then
    some (Nat.ofDigitChars 10 digits 0, text.drop width)
  else none

def expect (accepted : List Char) : List Char → Option (List Char)
  | c :: text => if c ∈ accepted then some text else none
  | [] => none

/-- The nanoseconds of a fraction. Of its digits the first nine count. -/
def nanosOf (digits : List Char) : Nat :=
  Nat.ofDigitChars 10 ((digits ++ List.replicate 9 '0').take 9) 0

def readNanos : List Char → Option (Nat × List Char)
  | '.' :: text =>
      let digits := text.takeWhile Char.isDigit
      if digits = [] then none else some (nanosOf digits, text.dropWhile Char.isDigit)
  | text => some (0, text)

/-- The offset that ends a text, in nanoseconds. -/
def readOffset : List Char → Option Int
  | ['Z'] => some 0
  | ['z'] => some 0
  | sign :: text => do
      let (hours, text) ← readDigits 2 text
      let text ← expect [':'] text
      let (minutes, text) ← readDigits 2 text
      guard (text = [] ∧ hours < 24 ∧ minutes < 60 ∧ sign ∈ ['+', '-'])
      let offset : Int := hours * hour + minutes * minute
      return if sign = '-' then -offset else offset
  | [] => none

/-- The days from the start of the year 0 to a date. -/
def daysOf (year month dayOfMonth : Nat) : Nat :=
  daysBeforeYear year + daysBeforeMonth (isLeap year) month + (dayOfMonth - 1)

def readDate (text : List Char) : Option (Nat × List Char) := do
  let (year, text) ← readDigits 4 text
  let text ← expect ['-'] text
  let (month, text) ← readDigits 2 text
  let text ← expect ['-'] text
  let (dayOfMonth, text) ← readDigits 2 text
  guard (1 ≤ month ∧ month ≤ 12 ∧ 1 ≤ dayOfMonth ∧
    daysBeforeMonth (isLeap year) month + dayOfMonth ≤ daysBeforeMonth (isLeap year) (month + 1))
  return (daysOf year month dayOfMonth, text)

/-- The time of day, in nanoseconds. A leap second is the 60th. -/
def readClock (text : List Char) : Option (Nat × List Char) := do
  let (hours, text) ← readDigits 2 text
  let text ← expect [':'] text
  let (minutes, text) ← readDigits 2 text
  let text ← expect [':'] text
  let (seconds, text) ← readDigits 2 text
  guard (hours < 24 ∧ minutes < 60 ∧ seconds ≤ 60)
  let (nanos, text) ← readNanos text
  return (hours * hour + minutes * minute + seconds * second + nanos, text)

/-- `DateTime::parse_from_rfc3339`, from the start of the year 0. -/
def parse (text : List Char) : Option Int := do
  let (days, text) ← readDate text
  let text ← expect ['T', 't', ' '] text
  let (nanos, text) ← readClock text
  let offset ← readOffset text
  return days * day + nanos - offset

end Reader

section Digits

theorem isDigit_digit (d : Nat) : (digit d).isDigit = true := by
  have hall : ∀ d < 10, (Char.ofNat (48 + d)).isDigit = true := by decide
  exact hall _ (Nat.mod_lt _ (by omega))

theorem all_isDigit_padded (width n : Nat) : (padded width n).all Char.isDigit = true := by
  induction width generalizing n with
  | zero => rfl
  | succ width ih => simp [padded, ih, isDigit_digit]

theorem ofDigitChars_padded (width n : Nat) (h : n < 10 ^ width) :
    Nat.ofDigitChars 10 (padded width n) 0 = n := by
  induction width generalizing n with
  | zero =>
      rw [Nat.pow_zero] at h
      simp [padded, Nat.ofDigitChars]
      omega
  | succ width ih =>
      have hvalue : ∀ d < 10, (Char.ofNat (48 + d)).toNat - '0'.toNat = d := by decide
      have hlast := hvalue (n % 10) (Nat.mod_lt _ (by omega))
      have hfront : n / 10 < 10 ^ width := by
        rw [Nat.div_lt_iff_lt_mul (by omega)]
        rwa [Nat.pow_succ] at h
      rw [padded, Nat.ofDigitChars_append, ih _ hfront, Nat.ofDigitChars_cons, digit, hlast]
      simp
      omega

theorem readDigits_padded {width n : Nat} (h : n < 10 ^ width) (rest : List Char) :
    readDigits width (padded width n ++ rest) = some (n, rest) := by
  have hlength := length_padded width n
  have htake : (padded width n ++ rest).take width = padded width n := List.take_left' hlength
  have hdrop : (padded width n ++ rest).drop width = rest := List.drop_left' hlength
  rw [readDigits, htake, hdrop, if_pos ⟨hlength, all_isDigit_padded width n⟩,
    ofDigitChars_padded width n h]

end Digits

section RoundTrip

/-- What follows a fraction does not go on with it. -/
def EndsFraction (rest : List Char) : Prop := ∀ c ∈ rest.head?, c.isDigit = false ∧ c ≠ '.'

theorem nanosOf_padded {width n : Nat} (h : n < 10 ^ width) (hwidth : width ≤ 9) :
    nanosOf (padded width n) = n * 10 ^ (9 - width) := by
  have htake : (padded width n ++ List.replicate 9 '0').take 9 =
      padded width n ++ List.replicate (9 - width) '0' := by
    rw [List.take_append, length_padded, List.take_of_length_le (by simpa using hwidth),
      List.take_replicate, Nat.min_eq_left (by omega)]
  rw [nanosOf, htake, Nat.ofDigitChars_append, ofDigitChars_padded width n h,
    Nat.ofDigitChars_replicate_zero, Nat.mul_comm]

theorem readNanos_padded {width n : Nat} (h : n < 10 ^ width) (hpos : 0 < width)
    (hwidth : width ≤ 9) {rest : List Char} (hrest : EndsFraction rest) :
    readNanos ('.' :: padded width n ++ rest) = some (n * 10 ^ (9 - width), rest) := by
  have hdigits := List.all_eq_true.mp (all_isDigit_padded width n)
  have htake : (padded width n ++ rest).takeWhile Char.isDigit = padded width n := by
    rw [List.takeWhile_append_of_pos hdigits]
    cases rest with
    | nil => simp
    | cons c rest => simp [(hrest c rfl).1]
  have hdrop : (padded width n ++ rest).dropWhile Char.isDigit = rest := by
    rw [List.dropWhile_append_of_pos hdigits]
    cases rest with
    | nil => rfl
    | cons c rest => simp [(hrest c rfl).1]
  have hne : padded width n ≠ [] := by
    intro hnil
    have hlength := length_padded width n
    rw [hnil, List.length_nil] at hlength
    omega
  rw [List.cons_append, readNanos, htake, hdrop, if_neg hne, nanosOf_padded h hwidth]

theorem readNanos_fraction {nanos : Nat} (h : nanos < second) {rest : List Char}
    (hrest : EndsFraction rest) : readNanos (fraction nanos ++ rest) = some (nanos, rest) := by
  have hsecond : second = 1000000000 := rfl
  rw [fraction]
  split
  · rename_i hzero
    rw [List.nil_append, hzero]
    cases rest with
    | nil => rfl
    | cons c rest =>
        rw [readNanos]
        rintro text heq
        exact (hrest c rfl).2 (List.cons.inj heq).1
  split
  · rw [readNanos_padded (by omega) (by decide) (by decide) hrest]
    congr 2
    omega
  split
  · rw [readNanos_padded (by omega) (by decide) (by decide) hrest]
    congr 2
    omega
  · rw [readNanos_padded (by omega) (by decide) (by decide) hrest]
    simp

theorem expect_head {accepted : List Char} {c : Char} (h : c ∈ accepted) (rest : List Char) :
    expect accepted (c :: rest) = some rest := if_pos h

theorem readOffset_utc : readOffset utc = some 0 := by decide

/-- The time of day is read back. -/
theorem readClock_clock {nanos : Nat} (h : nanos < day) :
    readClock (clock nanos) = some (nanos, utc) := by
  have hday : day = 86400000000000 := rfl
  have hhour : hour = 3600000000000 := rfl
  have hminute : minute = 60000000000 := rfl
  have hsecond : second = 1000000000 := rfl
  have hends : EndsFraction utc := by
    rintro c hc
    rw [← Option.some.inj hc]
    decide
  have hparts : nanos / hour < 24 ∧ nanos % hour / minute < 60 ∧
      nanos % hour % minute / second < 60 := by
    rw [hhour, hminute, hsecond]
    omega
  have hhours : nanos / hour < 10 ^ 2 := by omega
  have hminutes : nanos % hour / minute < 10 ^ 2 := by omega
  have hseconds : nanos % hour % minute / second < 10 ^ 2 := by omega
  have hranges : nanos / hour < 24 ∧ nanos % hour / minute < 60 ∧
      nanos % hour % minute / second ≤ 60 := by omega
  have hfraction : nanos % hour % minute % second < second := Nat.mod_lt _ (by decide)
  have hsum : nanos / hour * hour + nanos % hour / minute * minute +
      nanos % hour % minute / second * second + nanos % hour % minute % second = nanos := by
    rw [hhour, hminute, hsecond]
    omega
  rw [readClock, clock, readDigits_padded hhours]
  simp only [Option.bind_eq_bind, Option.bind_some, expect_head (List.mem_singleton_self ':'),
    minutes, readDigits_padded hminutes, seconds, readDigits_padded hseconds, hranges,
    and_self, guard_true, readNanos_fraction hfraction hends, hsum, Option.pure_def]

theorem monthOf_pos (leap : Bool) (days : Nat) : 1 ≤ monthOf leap days :=
  Nat.le_findGreatest (by decide) (Nat.zero_le days)

theorem yearOf_lt {days year : Nat} (h : days < daysBeforeYear year) : yearOf days < year := by
  by_contra hlate
  have hstart := daysBeforeYear_mono (Nat.le_of_not_lt hlate)
  have hspec := (yearOf_spec days).1
  omega

/-- The date is read back. -/
theorem readDate_date {days : Nat} (h : days < daysBeforeYear 10000) (rest : List Char) :
    readDate (date days ++ rest) = some (days, rest) := by
  have hyear : yearOf days < 10 ^ 4 := yearOf_lt h
  obtain ⟨hstart, hend⟩ := yearOf_spec days
  rw [daysBeforeYear_succ] at hend
  have hinYear : days - daysBeforeYear (yearOf days) < yearLength (isLeap (yearOf days)) := by
    omega
  obtain ⟨hfrom, hto⟩ := monthOf_spec hinYear
  have hpos := monthOf_pos (isLeap (yearOf days)) (days - daysBeforeYear (yearOf days))
  have hle := monthOf_le (isLeap (yearOf days)) (days - daysBeforeYear (yearOf days))
  have hlength := monthLength_le (isLeap (yearOf days)) (Nat.lt_succ_of_le hle)
  rw [readDate, date, monthDay]
  generalize monthOf (isLeap (yearOf days)) (days - daysBeforeYear (yearOf days)) = month at *
  have hmonth : month < 10 ^ 2 := by omega
  have hday : days - daysBeforeYear (yearOf days) -
      daysBeforeMonth (isLeap (yearOf days)) month + 1 < 10 ^ 2 := by omega
  have hvalid : 1 ≤ month ∧ month ≤ 12 ∧
      1 ≤ days - daysBeforeYear (yearOf days) -
        daysBeforeMonth (isLeap (yearOf days)) month + 1 ∧
      daysBeforeMonth (isLeap (yearOf days)) month + (days - daysBeforeYear (yearOf days) -
        daysBeforeMonth (isLeap (yearOf days)) month + 1) ≤
          daysBeforeMonth (isLeap (yearOf days)) (month + 1) := by omega
  have hdays : daysOf (yearOf days) month (days - daysBeforeYear (yearOf days) -
      daysBeforeMonth (isLeap (yearOf days)) month + 1) = days := by
    rw [daysOf]
    omega
  simp only [List.append_assoc, List.cons_append, readDigits_padded hyear, Option.bind_eq_bind,
    Option.bind_some, expect_head (List.mem_singleton_self '-'), readDigits_padded hmonth,
    readDigits_padded hday, hvalid, and_self, guard_true, hdays, Option.pure_def]

/-- An instant of these years is read back. -/
theorem parse_text {nanos : Nat} (h : nanos < end9999) :
    parse (text nanos) = some (nanos : Int) := by
  have hdays : nanos / day < daysBeforeYear 10000 := by
    rw [end9999] at h
    exact Nat.div_lt_of_lt_mul (Nat.mul_comm _ _ ▸ h)
  have hrest : nanos % day < day := Nat.mod_lt _ (by decide)
  have hsum : nanos / day * day + nanos % day = nanos := Nat.div_add_mod' nanos day
  rw [parse, text, readDate_date hdays]
  simp only [Option.bind_eq_bind, Option.bind_some, expect_head List.mem_cons_self,
    readClock_clock hrest, readOffset_utc, Option.pure_def, Int.sub_zero]
  exact congrArg some (congrArg Int.ofNat hsum)

end RoundTrip

end Rfc3339

/-- `parse_time`. Without a value it ends the caller. -/
def parseTime (text : String) : Option DateTime :=
  (Rfc3339.parse text.toList).map fun nanos => nanos - Rfc3339.epoch

example : parseTime "1970-01-01T01:00:01.25+01:00" = some 1250000000 := by decide

/-- A stored time is read back as it was. -/
theorem parseTime_toRfc3339 {time : DateTime} (h : InYears time) :
    parseTime (toRfc3339 time) = some time := by
  have hnanos : (time + Rfc3339.epoch).toNat < Rfc3339.end9999 :=
    (Int.toNat_lt h.1).mpr h.2
  rw [parseTime, toRfc3339, String.toList_ofList, Rfc3339.parse_text hnanos, Option.map_some,
    Int.toNat_of_nonneg h.1, Int.add_sub_cancel]

end AiSsh
