import EntityModel.Text.Scan

/-!
# TOML dates and times

Which words are a date, a time of day, or a date with a time. Dates follow the calendar, leap years
included; a time may leave out its seconds, and its last minute may have a sixty-first. A time
after a date may say how far from universal time it is.

Results:
* `daysIn_le`: no month has more than 31 days.
-/
namespace EntityModel.Toml

open Text (Scan)

/-- The number that is written with exactly so many digits. -/
def fixed (width : Nat) : Scan Nat := fun cs =>
  let found := cs.takeWhile Char.isDigit
  if found.length = width then some (Nat.ofDigitChars 10 found 0, cs.drop width) else none

/-- The text after a character. -/
def skipChar (c : Char) : List Char → Option (List Char)
  | [] => none
  | d :: rest => if d = c then some rest else none

/-- The year has a 29th of February. -/
def isLeapYear (year : Nat) : Bool :=
  year % 4 == 0 && (year % 100 != 0 || year % 400 == 0)

/-- The days of a month. -/
def daysIn (year month : Nat) : Nat :=
  if month = 2 then if isLeapYear year then 29 else 28
  else if [4, 6, 9, 11].contains month then 30
  else 31

/-- The text after a date. -/
def date (cs : List Char) : Option (List Char) := do
  let (year, rest) ← fixed 4 cs
  let (month, rest) ← fixed 2 (← skipChar '-' rest)
  let (day, rest) ← fixed 2 (← skipChar '-' rest)
  if 1 ≤ month ∧ month ≤ 12 ∧ 1 ≤ day ∧ day ≤ daysIn year month then some rest else none

/-- The text after hours and minutes. -/
def hoursMinutes (cs : List Char) : Option (List Char) := do
  let (hour, rest) ← fixed 2 cs
  let (minute, rest) ← fixed 2 (← skipChar ':' rest)
  if hour < 24 ∧ minute < 60 then some rest else none

/-- The text after seconds and a fraction of one. -/
def seconds (cs : List Char) : Option (List Char) := do
  let (second, rest) ← fixed 2 (← skipChar ':' cs)
  if second ≤ 60 then
    some (((skipChar '.' rest).bind fun rest =>
      if (rest.takeWhile Char.isDigit).isEmpty then none
      else some (rest.dropWhile Char.isDigit)).getD rest)
  else none

/-- The text after a time of day. -/
def clock (cs : List Char) : Option (List Char) := do
  let rest ← hoursMinutes cs
  some ((seconds rest).getD rest)

/-- The text after an offset from universal time, if there is one. -/
def skipOffset : List Char → List Char
  | [] => []
  | c :: rest =>
    if c = 'Z' ∨ c = 'z' then rest
    else if c = '+' ∨ c = '-' then (hoursMinutes rest).getD (c :: rest)
    else c :: rest

/-- The text after the time that follows a date, if there is one. -/
def skipTime : List Char → List Char
  | [] => []
  | c :: rest =>
    if c = 'T' ∨ c = 't' ∨ c = ' ' then ((clock rest).map skipOffset).getD (c :: rest)
    else c :: rest

/-- The word is a date, a time, or both. -/
def isMoment (cs : List Char) : Bool :=
  (date cs).map skipTime == some [] || clock cs == some []

theorem daysIn_le (year month : Nat) : daysIn year month ≤ 31 := by
  unfold daysIn
  split
  · split <;> omega
  · split <;> omega

end EntityModel.Toml
