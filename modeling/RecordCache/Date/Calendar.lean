/-!
The Gregorian calendar from year 1 on. Days are counted from 1 January of year 1, which is day 0.
-/

namespace RecordCache.Calendar

def isLeap (year : Nat) : Bool := year % 4 == 0 && (year % 100 != 0 || year % 400 == 0)

def monthLengths (leap : Bool) : List Nat :=
  [31, if leap then 29 else 28, 31, 30, 31, 30, 31, 31, 30, 31, 30, 31]

def daysInMonth (year month : Nat) : Nat := (monthLengths (isLeap year))[month - 1]?.getD 0

def daysBeforeMonth (leap : Bool) (month : Nat) : Nat := ((monthLengths leap).take (month - 1)).foldl (· + ·) 0

def daysBeforeYear (year : Nat) : Nat :=
  let y := year - 1
  365 * y + y / 4 - y / 100 + y / 400

structure Civil where
  year : Nat
  month : Nat
  day : Nat
  deriving DecidableEq

def dayNumber (c : Civil) : Nat :=
  daysBeforeYear c.year + daysBeforeMonth (isLeap c.year) c.month + (c.day - 1)

/-- The year that holds a day: an estimate from the mean year, then at most one step. -/
def yearOf (n : Nat) : Nat :=
  let year := n * 400 / 146097 + 1
  if n < daysBeforeYear year then year - 1
  else if daysBeforeYear (year + 1) ≤ n then year + 1
  else year

def monthDay (month : Nat) : List Nat → Nat → Nat × Nat
  | [], n => (month, n + 1)
  | length :: rest, n => if n < length then (month, n + 1) else monthDay (month + 1) rest (n - length)

def ofDayNumber (n : Nat) : Civil :=
  let year := yearOf n
  let (month, day) := monthDay 1 (monthLengths (isLeap year)) (n - daysBeforeYear year)
  ⟨year, month, day⟩

def isValid (c : Civil) : Bool :=
  1 ≤ c.year && c.year ≤ 9999 && 1 ≤ c.month && c.month ≤ 12 && 1 ≤ c.day &&
    c.day ≤ daysInMonth c.year c.month

end RecordCache.Calendar
