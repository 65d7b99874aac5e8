import Vda5050.Json

/-!
# Timestamps

The test for the format `date-time` in the validators, and the calendar dates
and times of day it admits.
-/

set_option autoImplicit false

namespace Vda5050

/-! ## The form of a timestamp -/

/-- Two digits of an input. -/
abbrev Digits := Nat × Nat

def Digits.value (digits : Digits) : Nat := 10 * digits.1 + digits.2

def digit? (char : Char) : Option Nat :=
  if char.isDigit then some (char.toNat - '0'.toNat) else none

def digits? (tens ones : Char) : Option Digits := do
  return (← digit? tens, ← digit? ones)

/-- The offset to UTC, whose minutes may be missing or follow the hours without a colon. -/
inductive Zone where
  | utc
  | offset (ahead : Bool) (hours : Digits)
  | offsetMinutes (ahead : Bool) (hours minutes : Digits)
  | compactOffset (ahead : Bool) (hours minutes : Digits)
  deriving DecidableEq, Repr

def isAhead? : Char → Option Bool
  | '+' => some true
  | '-' => some false
  | _ => none

def zone? : List Char → Option Zone
  | ['z'] | ['Z'] => some .utc
  | [sign, h, h'] => do return .offset (← isAhead? sign) (← digits? h h')
  | [sign, h, h', m, m'] => do
      return .compactOffset (← isAhead? sign) (← digits? h h') (← digits? m m')
  | [sign, h, h', ':', m, m'] => do
      return .offsetMinutes (← isAhead? sign) (← digits? h h') (← digits? m m')
  | _ => none

/-- `(?:\.\d+)?` -/
def dropFraction? : List Char → Option (List Char)
  | '.' :: chars =>
      match chars.takeWhile Char.isDigit with
      | [] => none
      | _ :: _ => some (chars.dropWhile Char.isDigit)
  | chars => some chars

structure DateTimeParts where
  century : Digits
  yearOfCentury : Digits
  month : Digits
  day : Digits
  hour : Digits
  minute : Digits
  second : Digits
  zone : Zone
  deriving DecidableEq, Repr

def DateTimeParts.year (parts : DateTimeParts) : Nat :=
  100 * parts.century.value + parts.yearOfCentury.value

/-- `\s`, or the letter between date and time in either case. -/
def isDateTimeSeparator (char : Char) : Bool :=
  char = 't' || char = 'T' || isStrWhiteSpaceChar char

/-- The parts of an input of the form `dddd-dd-dd?dd:dd:dd` with a fraction and a zone. -/
def dateTimeParts? : List Char → Option DateTimeParts
  | y :: y' :: y'' :: y''' :: '-' :: mo :: mo' :: '-' :: d :: d' :: separator ::
      h :: h' :: ':' :: mi :: mi' :: ':' :: s :: s' :: rest => do
    guard (isDateTimeSeparator separator)
    let century ← digits? y y'
    let yearOfCentury ← digits? y'' y'''
    let month ← digits? mo mo'
    let day ← digits? d d'
    let hour ← digits? h h'
    let minute ← digits? mi mi'
    let second ← digits? s s'
    let zone ← (dropFraction? rest).bind zone?
    return { century, yearOfCentury, month, day, hour, minute, second, zone }
  | _ => none

/-! ## The checks of its numbers -/

namespace Digits

variable (digits : Digits)

/-- `0[1-9]|1[0-2]` -/
def isMonth : Bool := digits.1 = 0 && 1 ≤ digits.2 || digits.1 = 1 && digits.2 ≤ 2

/-- `[0-2]\d|3[01]` -/
def isDay : Bool := digits.1 ≤ 2 || digits.1 = 3 && digits.2 ≤ 1

/-- `2[0-3]|[0-1]\d` -/
def isHour : Bool := digits.1 = 2 && digits.2 ≤ 3 || digits.1 ≤ 1

/-- `[0-5]\d` -/
def isSixtieth : Bool := digits.1 ≤ 5

/-- `[0-5]\d|60` -/
def isSecond : Bool := digits.1 ≤ 5 || digits.1 = 6 && digits.2 = 0

/-- `[012][1-8]|[12]0|[01]9` -/
def isFebruaryDay : Bool :=
  digits.1 ≤ 2 && 1 ≤ digits.2 && digits.2 ≤ 8 ||
    (digits.1 = 1 || digits.1 = 2) && digits.2 = 0 || digits.1 ≤ 1 && digits.2 = 9

/-- `0[13578]|1[02]` -/
def isLongMonth : Bool :=
  digits.1 = 0 && digits.2 ∈ [1, 3, 5, 7, 8] || digits.1 = 1 && (digits.2 = 0 || digits.2 = 2)

/-- `0[13-9]|1[012]` -/
def isOtherMonth : Bool :=
  digits.1 = 0 && (digits.2 = 1 || 3 ≤ digits.2) || digits.1 = 1 && digits.2 ≤ 2

/-- `[012][1-9]|[123]0` -/
def isOtherDay : Bool :=
  digits.1 ≤ 2 && 1 ≤ digits.2 || 1 ≤ digits.1 && digits.1 ≤ 3 && digits.2 = 0

end Digits

namespace Zone

def hasForm : Zone → Bool
  | .utc => true
  | .offset _ hours => hours.isHour
  | .offsetMinutes _ hours minutes | .compactOffset _ hours minutes =>
      hours.isHour && minutes.isSixtieth

/-- What is added to the minutes of the day. The digits of a compact offset are read as hours. -/
def leapSecondShift : Zone → Int
  | .utc => 0
  | .offset true hours => 24 * 60 - hours.value * 60
  | .offset false hours => hours.value * 60
  | .offsetMinutes true hours minutes => 24 * 60 - hours.value * 60 - minutes.value
  | .offsetMinutes false hours minutes => hours.value * 60 + minutes.value
  | .compactOffset true hours minutes => 24 * 60 - (100 * hours.value + minutes.value) * 60
  | .compactOffset false hours minutes => (100 * hours.value + minutes.value) * 60

end Zone

namespace DateTimeParts

variable (parts : DateTimeParts)

/-- The regular expression `full`. -/
def hasForm : Bool :=
  parts.month.isMonth && parts.day.isDay && parts.hour.isHour && parts.minute.isSixtieth &&
    parts.second.isSecond && parts.zone.hasForm

/-- The check of a leap second, with the remainder of the language. -/
def isLeapSecond : Bool :=
  let hm : Int := parts.hour.value * 60 + parts.minute.value + parts.zone.leapSecondShift
  hm.tmod (24 * 60) = 23 * 60 + 59

def isDayOfMonth : Bool :=
  if parts.month = (0, 2) then
    if parts.day.isFebruaryDay then true
    else if parts.day ≠ (2, 9) then false
    else parts.year % 16 = 0 || parts.year % 4 = 0 && parts.year % 25 ≠ 0
  else if parts.day = (3, 1) then parts.month.isLongMonth
  else parts.month.isOtherMonth && parts.day.isOtherDay

end DateTimeParts

/-- `format0`. An input of the required form has as many code units as characters. -/
def isDateTime (input : String) : Bool :=
  if 10 + 1 + 9 + 12 + 6 < input.length then false
  else
    match dateTimeParts? input.toList with
    | none => false
    | some parts =>
        if parts.month = (0, 2) && parts.day.1 = 3 || !parts.hasForm then false
        else if parts.second.1 = 6 && !parts.isLeapSecond then false
        else parts.isDayOfMonth

/-! ## What the checks admit -/

def isLeapYear (year : Nat) : Prop := 4 ∣ year ∧ (¬100 ∣ year ∨ 400 ∣ year)

instance (year : Nat) : Decidable (isLeapYear year) := inferInstanceAs (Decidable (_ ∧ _))

def daysOfMonth (year month : Nat) : Nat :=
  if month = 2 then if isLeapYear year then 29 else 28
  else if month ∈ [4, 6, 9, 11] then 30
  else 31

namespace Zone

/-- The offset to UTC in minutes. The four digits of an offset without a colon are read as a
number of hours. -/
def minutesAhead : Zone → Int
  | .utc => 0
  | .offset ahead hours => if ahead then hours.value * 60 else -(hours.value * 60)
  | .offsetMinutes ahead hours minutes =>
      if ahead then hours.value * 60 + minutes.value else -(hours.value * 60 + minutes.value)
  | .compactOffset ahead hours minutes =>
      if ahead then (100 * hours.value + minutes.value) * 60
      else -((100 * hours.value + minutes.value) * 60)

def InRange : Zone → Prop
  | .utc => True
  | .offset _ hours => hours.value ≤ 23
  | .offsetMinutes _ hours minutes | .compactOffset _ hours minutes =>
      hours.value ≤ 23 ∧ minutes.value ≤ 59

end Zone

/-- A date of the calendar and a time of day, where a leap second ends a day of UTC, and its
offset is read as at most a day ahead. -/
structure DateTimeParts.IsValid (parts : DateTimeParts) : Prop where
  month : 1 ≤ parts.month.value ∧ parts.month.value ≤ 12
  day : 1 ≤ parts.day.value ∧ parts.day.value ≤ daysOfMonth parts.year parts.month.value
  hour : parts.hour.value ≤ 23
  minute : parts.minute.value ≤ 59
  second : parts.second.value ≤ 60
  zone : parts.zone.InRange
  leapSecond : parts.second.value = 60 →
    (parts.hour.value * 60 + parts.minute.value - parts.zone.minutesAhead) % (24 * 60) =
        23 * 60 + 59 ∧
      parts.zone.minutesAhead ≤ 24 * 60

/-! ### Digits -/

def Digits.AreDigits (digits : Digits) : Prop := digits.1 ≤ 9 ∧ digits.2 ≤ 9

private theorem digit?_le {char : Char} {digit : Nat} (found : digit? char = some digit) :
    digit ≤ 9 := by
  unfold digit? at found
  split at found
  · next isDigit =>
    obtain rfl := Option.some.inj found
    have bounds : 48 ≤ char.toNat ∧ char.toNat ≤ 57 := by
      simp only [Char.isDigit, Bool.and_eq_true, decide_eq_true_eq, ge_iff_le,
        UInt32.le_iff_toNat_le] at isDigit
      exact isDigit
    have zero : '0'.toNat = 48 := rfl
    omega
  · cases found

private theorem digits?_areDigits {tens ones : Char} {digits : Digits}
    (found : digits? tens ones = some digits) : digits.AreDigits := by
  unfold digits? at found
  obtain ⟨first, tens, found⟩ := Option.bind_eq_some_iff.mp found
  obtain ⟨second, ones, found⟩ := Option.bind_eq_some_iff.mp found
  obtain rfl := Option.some.inj found
  exact ⟨digit?_le tens, digit?_le ones⟩

namespace Digits

variable {digits : Digits}

private theorem isMonth_iff (areDigits : digits.AreDigits) :
    digits.isMonth = true ↔ 1 ≤ digits.value ∧ digits.value ≤ 12 := by
  obtain ⟨tens, ones⟩ := areDigits
  simp only [isMonth, value, Bool.or_eq_true, Bool.and_eq_true, decide_eq_true_eq]
  omega

private theorem isHour_iff (areDigits : digits.AreDigits) :
    digits.isHour = true ↔ digits.value ≤ 23 := by
  obtain ⟨tens, ones⟩ := areDigits
  simp only [isHour, value, Bool.or_eq_true, Bool.and_eq_true, decide_eq_true_eq]
  omega

private theorem isSixtieth_iff (areDigits : digits.AreDigits) :
    digits.isSixtieth = true ↔ digits.value ≤ 59 := by
  obtain ⟨tens, ones⟩ := areDigits
  simp only [isSixtieth, value, decide_eq_true_eq]
  omega

private theorem isSecond_iff (areDigits : digits.AreDigits) :
    digits.isSecond = true ↔ digits.value ≤ 60 := by
  obtain ⟨tens, ones⟩ := areDigits
  simp only [isSecond, value, Bool.or_eq_true, Bool.and_eq_true, decide_eq_true_eq]
  omega

private theorem isFebruaryDay_iff (areDigits : digits.AreDigits) :
    digits.isFebruaryDay = true ↔ 1 ≤ digits.value ∧ digits.value ≤ 28 := by
  obtain ⟨tens, ones⟩ := areDigits
  simp only [isFebruaryDay, value, Bool.or_eq_true, Bool.and_eq_true, decide_eq_true_eq]
  omega

private theorem isOtherDay_iff (areDigits : digits.AreDigits) :
    digits.isOtherDay = true ↔ 1 ≤ digits.value ∧ digits.value ≤ 30 := by
  obtain ⟨tens, ones⟩ := areDigits
  simp only [isOtherDay, value, Bool.or_eq_true, Bool.and_eq_true, decide_eq_true_eq]
  omega

private theorem isDay_iff (areDigits : digits.AreDigits) :
    digits.isDay = true ↔ digits.value ≤ 31 := by
  obtain ⟨tens, ones⟩ := areDigits
  simp only [isDay, value, Bool.or_eq_true, Bool.and_eq_true, decide_eq_true_eq]
  omega

private theorem isLongMonth_iff (areDigits : digits.AreDigits) :
    digits.isLongMonth = true ↔ digits.value ∈ [1, 3, 5, 7, 8, 10, 12] := by
  obtain ⟨tens, ones⟩ := areDigits
  simp only [isLongMonth, value, Bool.or_eq_true, Bool.and_eq_true, decide_eq_true_eq,
    List.mem_cons, List.not_mem_nil, or_false]
  omega

private theorem isOtherMonth_iff (areDigits : digits.AreDigits) :
    digits.isOtherMonth = true ↔ 1 ≤ digits.value ∧ digits.value ≤ 12 ∧ digits.value ≠ 2 := by
  obtain ⟨tens, ones⟩ := areDigits
  simp only [isOtherMonth, value, Bool.or_eq_true, Bool.and_eq_true, decide_eq_true_eq]
  omega

theorem eq_iff (areDigits : digits.AreDigits) {tens ones : Nat} (bound : ones ≤ 9) :
    digits = (tens, ones) ↔ digits.value = 10 * tens + ones := by
  obtain ⟨-, small⟩ := areDigits
  rw [Prod.ext_iff]
  unfold value
  omega

end Digits

/-! ### Dates and times -/

private theorem isLeapYear_iff (year : Nat) :
    (year % 16 = 0 ∨ year % 4 = 0 ∧ year % 25 ≠ 0) ↔ isLeapYear year := by
  unfold isLeapYear
  omega

def Zone.AreDigits : Zone → Prop
  | .utc => True
  | .offset _ hours => hours.AreDigits
  | .offsetMinutes _ hours minutes | .compactOffset _ hours minutes =>
      hours.AreDigits ∧ minutes.AreDigits

structure DateTimeParts.AreDigits (parts : DateTimeParts) : Prop where
  month : parts.month.AreDigits
  day : parts.day.AreDigits
  hour : parts.hour.AreDigits
  minute : parts.minute.AreDigits
  second : parts.second.AreDigits
  zone : parts.zone.AreDigits

private theorem zone?_areDigits {chars : List Char} {zone : Zone}
    (found : zone? chars = some zone) :
    zone.AreDigits := by
  unfold zone? at found
  split at found
  · cases found
    trivial
  · cases found
    trivial
  · obtain ⟨ahead, -, found⟩ := Option.bind_eq_some_iff.mp found
    obtain ⟨hours, digits, found⟩ := Option.bind_eq_some_iff.mp found
    cases found
    exact digits?_areDigits digits
  · obtain ⟨ahead, -, found⟩ := Option.bind_eq_some_iff.mp found
    obtain ⟨hours, hourDigits, found⟩ := Option.bind_eq_some_iff.mp found
    obtain ⟨minutes, minuteDigits, found⟩ := Option.bind_eq_some_iff.mp found
    cases found
    exact ⟨digits?_areDigits hourDigits, digits?_areDigits minuteDigits⟩
  · obtain ⟨ahead, -, found⟩ := Option.bind_eq_some_iff.mp found
    obtain ⟨hours, hourDigits, found⟩ := Option.bind_eq_some_iff.mp found
    obtain ⟨minutes, minuteDigits, found⟩ := Option.bind_eq_some_iff.mp found
    cases found
    exact ⟨digits?_areDigits hourDigits, digits?_areDigits minuteDigits⟩
  · cases found

private theorem dateTimeParts?_areDigits {chars : List Char} {parts : DateTimeParts}
    (found : dateTimeParts? chars = some parts) : parts.AreDigits := by
  unfold dateTimeParts? at found
  split at found
  · obtain ⟨-, -, found⟩ := Option.bind_eq_some_iff.mp found
    obtain ⟨century, -, found⟩ := Option.bind_eq_some_iff.mp found
    obtain ⟨yearOfCentury, -, found⟩ := Option.bind_eq_some_iff.mp found
    obtain ⟨month, monthDigits, found⟩ := Option.bind_eq_some_iff.mp found
    obtain ⟨day, dayDigits, found⟩ := Option.bind_eq_some_iff.mp found
    obtain ⟨hour, hourDigits, found⟩ := Option.bind_eq_some_iff.mp found
    obtain ⟨minute, minuteDigits, found⟩ := Option.bind_eq_some_iff.mp found
    obtain ⟨second, secondDigits, found⟩ := Option.bind_eq_some_iff.mp found
    obtain ⟨zone, zoneDigits, found⟩ := Option.bind_eq_some_iff.mp found
    obtain ⟨rest, -, zoneDigits⟩ := Option.bind_eq_some_iff.mp zoneDigits
    cases found
    exact {
      month := digits?_areDigits monthDigits
      day := digits?_areDigits dayDigits
      hour := digits?_areDigits hourDigits
      minute := digits?_areDigits minuteDigits
      second := digits?_areDigits secondDigits
      zone := zone?_areDigits zoneDigits }
  · cases found

namespace Zone

variable {zone : Zone}

private theorem hasForm_iff (areDigits : zone.AreDigits) : zone.hasForm = true ↔ zone.InRange := by
  cases zone with
  | utc => simp [hasForm, InRange]
  | offset ahead hours =>
      rw [hasForm, InRange]
      exact Digits.isHour_iff areDigits
  | offsetMinutes ahead hours minutes =>
      rw [hasForm, InRange, Bool.and_eq_true]
      exact and_congr (Digits.isHour_iff areDigits.1) (Digits.isSixtieth_iff areDigits.2)
  | compactOffset ahead hours minutes =>
      rw [hasForm, InRange, Bool.and_eq_true]
      exact and_congr (Digits.isHour_iff areDigits.1) (Digits.isSixtieth_iff areDigits.2)

/-- The shift is the offset to UTC, up to a whole day where it is ahead. -/
private theorem leapSecondShift_eq (zone : Zone) :
    zone.minutesAhead ≤ 0 ∧ zone.leapSecondShift = -zone.minutesAhead ∨
      zone.leapSecondShift = 24 * 60 - zone.minutesAhead := by
  cases zone with
  | utc => exact .inl ⟨Int.le_refl 0, rfl⟩
  | offset ahead hours =>
      cases ahead with
      | false =>
          left
          simp only [leapSecondShift, minutesAhead, Bool.false_eq_true, if_false]
          omega
      | true => exact .inr rfl
  | offsetMinutes ahead hours minutes =>
      cases ahead with
      | false =>
          left
          simp only [leapSecondShift, minutesAhead, Bool.false_eq_true, if_false]
          omega
      | true =>
          right
          simp only [leapSecondShift, minutesAhead, if_true]
          omega
  | compactOffset ahead hours minutes =>
      cases ahead with
      | false =>
          left
          simp only [leapSecondShift, minutesAhead, Bool.false_eq_true, if_false]
          omega
      | true => exact .inr rfl

end Zone

namespace DateTimeParts

variable {parts : DateTimeParts}

/-- The remainder has the sign of the sum, which is negative for offsets too far ahead. -/
private theorem isLeapSecond_iff (hour : parts.hour.value ≤ 23) (minute : parts.minute.value ≤ 59) :
    parts.isLeapSecond = true ↔
      (parts.hour.value * 60 + parts.minute.value - parts.zone.minutesAhead) % (24 * 60) =
          23 * 60 + 59 ∧
        parts.zone.minutesAhead ≤ 24 * 60 := by
  rw [isLeapSecond, decide_eq_true_eq]
  rcases Zone.leapSecondShift_eq parts.zone with ⟨behind, shift⟩ | shift
  · rw [shift, Int.tmod_eq_emod_of_nonneg (by omega)]
    omega
  · rw [shift]
    by_cases negative : (parts.hour.value * 60 + parts.minute.value : Int) +
        (24 * 60 - parts.zone.minutesAhead) < 0
    · have sign := Int.tmod_nonneg (24 * 60) (Int.neg_nonneg_of_nonpos (Int.le_of_lt negative))
      rw [Int.neg_tmod] at sign
      omega
    · rw [Int.tmod_eq_emod_of_nonneg (by omega)]
      omega

private theorem isDayOfFebruary_iff (areDigits : parts.AreDigits) (month : parts.month = (0, 2))
    (day : parts.day.1 ≠ 3) (bound : parts.day.value ≤ 31) :
    parts.isDayOfMonth = true ↔
      1 ≤ parts.day.value ∧ parts.day.value ≤ if isLeapYear parts.year then 29 else 28 := by
  have days := Digits.isFebruaryDay_iff areDigits.day
  have isLeapDay : parts.day = (2, 9) ↔ _ := Digits.eq_iff areDigits.day (by decide)
  have short : parts.day.value ≤ 29 := by
    have small := areDigits.day.2
    unfold Digits.value at bound ⊢
    omega
  rw [isDayOfMonth, if_pos month]
  by_cases early : parts.day.isFebruaryDay = true
  · rw [if_pos early]
    have bounds := days.mp early
    refine iff_of_true rfl ⟨bounds.1, ?_⟩
    split <;> omega
  · rw [if_neg early]
    rw [days] at early
    by_cases leapDay : parts.day = (2, 9)
    · have dayValue := isLeapDay.mp leapDay
      rw [if_neg (not_not.mpr leapDay)]
      simp only [Bool.or_eq_true, Bool.and_eq_true, decide_eq_true_eq]
      rw [isLeapYear_iff]
      split
      · next isLeap => exact iff_of_true isLeap (by omega)
      · next isLeap => exact iff_of_false isLeap (by omega)
    · rw [if_pos leapDay]
      rw [isLeapDay] at leapDay
      refine iff_of_false (by simp) ?_
      split <;> omega

private theorem isDayOfMonth_iff (areDigits : parts.AreDigits)
    (month : 1 ≤ parts.month.value ∧ parts.month.value ≤ 12) (day : parts.day.value ≤ 31)
    (february : ¬(parts.month = (0, 2) ∧ parts.day.1 = 3)) :
    parts.isDayOfMonth = true ↔
      1 ≤ parts.day.value ∧ parts.day.value ≤ daysOfMonth parts.year parts.month.value := by
  have isFebruary : parts.month = (0, 2) ↔ _ := Digits.eq_iff areDigits.month (by decide)
  have isLast : parts.day = (3, 1) ↔ _ := Digits.eq_iff areDigits.day (by decide)
  by_cases feb : parts.month = (0, 2)
  · rw [isDayOfFebruary_iff areDigits feb (fun three => february ⟨feb, three⟩) day, daysOfMonth,
      if_pos (isFebruary.mp feb)]
  · have notTwo : parts.month.value ≠ 2 := fun two => feb (isFebruary.mpr two)
    rw [isDayOfMonth, if_neg feb, daysOfMonth, if_neg notTwo]
    by_cases last : parts.day = (3, 1)
    · have dayValue := isLast.mp last
      rw [if_pos last, Digits.isLongMonth_iff areDigits.month]
      simp only [List.mem_cons, List.not_mem_nil, or_false]
      split <;> omega
    · have notLast : parts.day.value ≠ 31 := fun same => last (isLast.mpr same)
      rw [if_neg last, Bool.and_eq_true, Digits.isOtherMonth_iff areDigits.month,
        Digits.isOtherDay_iff areDigits.day]
      simp only [List.mem_cons, List.not_mem_nil, or_false]
      split <;> omega

private theorem hasForm_iff (areDigits : parts.AreDigits) :
    parts.hasForm = true ↔ (1 ≤ parts.month.value ∧ parts.month.value ≤ 12) ∧
      parts.day.value ≤ 31 ∧ parts.hour.value ≤ 23 ∧ parts.minute.value ≤ 59 ∧
      parts.second.value ≤ 60 ∧ parts.zone.InRange := by
  simp only [hasForm, Bool.and_eq_true, and_assoc, Digits.isMonth_iff areDigits.month,
    Digits.isDay_iff areDigits.day, Digits.isHour_iff areDigits.hour,
    Digits.isSixtieth_iff areDigits.minute, Digits.isSecond_iff areDigits.second,
    Zone.hasForm_iff areDigits.zone]

private theorem IsValid.day_le (valid : parts.IsValid) : parts.day.value ≤ 31 := by
  refine valid.day.2.trans ?_
  unfold daysOfMonth
  repeat' split
  all_goals omega

private theorem IsValid.february (valid : parts.IsValid) :
    ¬(parts.month = (0, 2) ∧ parts.day.1 = 3) := by
  rintro ⟨month, three⟩
  have bound := valid.day.2
  rw [daysOfMonth, if_pos (by rw [month]; rfl)] at bound
  unfold Digits.value at bound
  split at bound <;> omega

/-- The checks of the parts admit the valid ones. -/
private theorem isAccepted_iff (areDigits : parts.AreDigits) :
    (if parts.month = (0, 2) && parts.day.1 = 3 || !parts.hasForm then false
      else if parts.second.1 = 6 && !parts.isLeapSecond then false
      else parts.isDayOfMonth) = true ↔ parts.IsValid := by
  constructor
  · intro accepted
    split at accepted
    · cases accepted
    next formed =>
    simp only [Bool.or_eq_true, Bool.and_eq_true, decide_eq_true_eq, Bool.not_eq_true',
      not_or, Bool.not_eq_false] at formed
    obtain ⟨month, day, hour, minute, second, zone⟩ := (hasForm_iff areDigits).mp formed.2
    split at accepted
    · cases accepted
    next leap =>
    simp only [Bool.and_eq_true, decide_eq_true_eq, Bool.not_eq_true', not_and,
      Bool.not_eq_false] at leap
    exact {
      month := month
      day := (isDayOfMonth_iff areDigits month day formed.1).mp accepted
      hour := hour
      minute := minute
      second := second
      zone := zone
      leapSecond := fun isSixty => by
        have small := areDigits.second.2
        have six : parts.second.1 = 6 := by
          unfold Digits.value at isSixty
          omega
        exact (isLeapSecond_iff hour minute).mp (leap six) }
  · intro valid
    have formed := (hasForm_iff areDigits).mpr
      ⟨valid.month, valid.day_le, valid.hour, valid.minute, valid.second, valid.zone⟩
    have leap : parts.second.1 = 6 → parts.isLeapSecond = true := by
      intro six
      have isSixty : parts.second.value = 60 := by
        have bound := valid.second
        unfold Digits.value at bound ⊢
        omega
      exact (isLeapSecond_iff valid.hour valid.minute).mpr (valid.leapSecond isSixty)
    rw [if_neg (by simpa [formed] using valid.february), if_neg (by simpa using leap)]
    exact (isDayOfMonth_iff areDigits valid.month valid.day_le valid.february).mpr valid.day

end DateTimeParts

/-- The test admits the dates of the calendar with the times of a day in at most 38 characters. -/
theorem isDateTime_iff (input : String) :
    isDateTime input = true ↔
      input.length ≤ 38 ∧ ∃ parts, dateTimeParts? input.toList = some parts ∧ parts.IsValid := by
  rw [isDateTime]
  split
  · next long => exact iff_of_false (by simp) fun valid => by omega
  · next short =>
    rw [and_iff_right (by omega)]
    cases found : dateTimeParts? input.toList with
    | none => simp
    | some parts =>
        simp only [Option.some.injEq, exists_eq_left']
        exact DateTimeParts.isAccepted_iff (dateTimeParts?_areDigits found)

/-- The last second of a leap year, in a zone behind UTC. -/
example : isDateTime "2016-12-31T18:29:60.5-05:30" = true := by decide

/-- An offset of 24 minutes is read as one of 24 hours. -/
example : isDateTime "2016-12-31T23:59:60-0024" = true := by decide

end Vda5050
