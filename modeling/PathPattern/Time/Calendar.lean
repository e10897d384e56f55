/-!
# The proleptic Gregorian calendar

Days are counted from 1970-01-01. `newYear` is the day number of January 1st of a year and
`yearOf` the year of a day; the day of the year and the month and day follow from the lengths
of the months. `dayNumber?` reads a date back and refuses those that the calendar lacks.
-/

namespace PathPattern.Calendar

/-- Years with a February 29th. -/
def isLeap (year : Int) : Bool := year % 4 = 0 && (year % 100 != 0 || year % 400 = 0)

/-- The lengths of the twelve months. -/
def monthLengths (leap : Bool) : List Nat :=
  [31, if leap then 29 else 28, 31, 30, 31, 30, 31, 31, 30, 31, 30, 31]

/-- The day number of January 1st. -/
def newYear (year : Int) : Int :=
  let past := year - 1
  365 * past + past / 4 - past / 100 + past / 400 - 719162

/-- The year a day falls in: the year by mean length, or a neighbour of it. -/
def yearOf (day : Int) : Int :=
  let guess := day * 400 / 146097 + 1970
  if day < newYear guess then guess - 1
  else if newYear (guess + 1) ≤ day then guess + 1
  else guess

/-- Month and day, both from one, of a day of the year counted from zero. -/
def monthAndDay : List Nat → Nat → Nat × Nat
  | [], rest => (1, rest + 1)
  | length :: lengths, rest =>
    if rest < length then (1, rest + 1)
    else
      let (month, day) := monthAndDay lengths (rest - length)
      (month + 1, day)

/-- The day of the year, from one. -/
def dayOfYear (day : Int) : Nat := (day - newYear (yearOf day)).toNat + 1

/-- The month of a day, from one. -/
def monthOf (day : Int) : Nat :=
  (monthAndDay (monthLengths (isLeap (yearOf day))) (dayOfYear day - 1)).1

/-- The day of the month, from one. -/
def dayOfMonth (day : Int) : Nat :=
  (monthAndDay (monthLengths (isLeap (yearOf day))) (dayOfYear day - 1)).2

/-- The day number of a date, if the calendar has it. -/
def dayNumber? (year : Int) (month day : Nat) : Option Int :=
  let lengths := monthLengths (isLeap year)
  match lengths[month - 1]? with
  | some length =>
    if 1 ≤ month ∧ 1 ≤ day ∧ day ≤ length then
      let before : Nat := (lengths.take (month - 1)).foldl (· + ·) 0
      some (newYear year + before + (day - 1 : Nat))
    else none
  | none => none

end PathPattern.Calendar
