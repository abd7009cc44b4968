import RecordCache.Date.Calendar
import RecordCache.Number
import RecordCache.Number.Decimal

/-!
Points in time: whole milliseconds in UTC, within the years 1 to 9999.
-/

namespace RecordCache

/-- Milliseconds since the start of year 1. -/
structure Date where
  millis : Nat
  deriving DecidableEq, Inhabited

inductive DateFault
  | text
  | notText
  | notNumber
  /-- Outside of the years 1 to 9999. -/
  | calendar
  | shift
  /-- Outside of the years that a clock counts in 32 bits. -/
  | clock
  /-- Outside of the seconds that a clock counts in 64 bits. -/
  | counter
  deriving DecidableEq

/-- A reading of a wall clock, `offset` microseconds ahead of UTC; a clock without a known offset is taken
to show UTC. -/
structure WallTime where
  date : Calendar.Civil
  hour : Int
  minute : Int
  second : Int
  microsecond : Int
  offset : Option Int
  deriving DecidableEq

namespace Date

def millisPerDay : Nat := 86400000

def microsPerMinute : Nat := 60000000

def calendarDays : Nat := 3652059

def limit : Nat := calendarDays * millisPerDay

def epoch : Nat := 719162 * millisPerDay

def ofMillis? (m : Int) : Option Date := if 0 ≤ m && m < limit then some ⟨m.toNat⟩ else none

def dayPart (d : Date) : Calendar.Civil := Calendar.ofDayNumber (d.millis / millisPerDay)

def isPart (bound part : Int) : Bool := 0 ≤ part && part < bound

def isWallTime (t : WallTime) : Bool :=
  Calendar.isValid t.date && isPart 24 t.hour && isPart 60 t.minute && isPart 60 t.second &&
    isPart 1000000 t.microsecond && (t.offset.getD 0).natAbs < millisPerDay * 1000

def micros (t : WallTime) : Int :=
  (Calendar.dayNumber t.date * millisPerDay * 1000 : Nat) + (t.hour * 60 + t.minute) * microsPerMinute +
    t.second * 1000000 + t.microsecond - t.offset.getD 0

def ofWallTime (t : WallTime) : Except DateFault Date :=
  if !isWallTime t then .error .calendar
  else match ofMillis? (micros t / 1000) with
    | some d => .ok d
    | none => .error .shift

def pad (width n : Nat) : String :=
  let digits := Nat.toDigits 10 n
  String.ofList (List.replicate (width - digits.length) '0' ++ digits)

/-- The wire text; a year before 1000 is written without leading zeros. -/
def iso (d : Date) : String :=
  let c := d.dayPart
  let ms := d.millis % millisPerDay
  s!"{c.year}-{pad 2 c.month}-{pad 2 c.day}T{pad 2 (ms / 3600000)}:{pad 2 (ms / 60000 % 60)}:" ++
    s!"{pad 2 (ms / 1000 % 60)}.{pad 3 (ms % 1000)}Z"

def isoWithOffset (d : Date) : String :=
  let c := d.dayPart
  let ms := d.millis % millisPerDay
  s!"{pad 4 c.year}-{pad 2 c.month}-{pad 2 c.day}T{pad 2 (ms / 3600000)}:{pad 2 (ms / 60000 % 60)}:" ++
    s!"{pad 2 (ms / 1000 % 60)}.{pad 3 (ms % 1000)}+00:00"

def timestamp (d : Date) : Float := Float.ofInt ((d.millis : Int) - epoch) / 1000.0

def ofSeconds (seconds : Int) (microseconds : Nat) : Except DateFault Date :=
  if seconds < -9223372036854775808 || 9223372036854775808 ≤ seconds then .error .counter
  else if seconds < -67768040609740800 || 67768036191676799 < seconds then .error .clock
  else match ofMillis? (epoch + seconds * 1000 + (microseconds / 1000 : Nat)) with
    | some d => .ok d
    | none => .error .calendar

/-- The signed magnitude rounded to a whole number, a half to the even one. -/
def roundToInt (x : Float) : Int :=
  let magnitude : Int := Binary.roundHalfEven (Binary.magnitude x) Binary.unitsPerOne
  if Binary.negative x then -magnitude else magnitude

def microsOfMinutes? : Number → Option Int
  | .int minutes => some (minutes * microsPerMinute)
  | .float x =>
    if Binary.notANumber x || Binary.infinite x then none
    else
      let whole := Binary.truncate x
      some (whole * microsPerMinute + roundToInt ((x - Float.ofInt whole) * 60000000.0))

/-- Rounds to microseconds first, then cuts to milliseconds. -/
def ofTimestamp : Number → Except DateFault Date
  | .int seconds => ofSeconds seconds 0
  | .float x =>
    if Binary.notANumber x then .error .calendar
    else if Binary.infinite x then .error .counter
    else
      let whole := Binary.truncate x
      let micros := roundToInt ((x - Float.ofInt whole) * 1000000.0)
      if micros ≥ 1000000 then ofSeconds (whole + 1) (micros - 1000000).toNat
      else if micros < 0 then ofSeconds (whole - 1) (micros + 1000000).toNat
      else ofSeconds whole micros.toNat

end Date

namespace WallTime

/-- The same moment; with and without a known offset, never. -/
def same (a b : WallTime) : Bool := a.offset.isSome == b.offset.isSome && Date.micros a == Date.micros b

/-- Seconds are added to hours and minutes when there are any, and microseconds in turn. -/
def lengthText (micros : Nat) : String :=
  let seconds := micros / 1000000
  s!"{Date.pad 2 (seconds / 3600)}:{Date.pad 2 (seconds / 60 % 60)}" ++
    (if micros % Date.microsPerMinute = 0 then "" else s!":{Date.pad 2 (seconds % 60)}") ++
    (if micros % 1000000 = 0 then "" else s!".{Date.pad 6 (micros % 1000000)}")

def offsetText (t : WallTime) : String :=
  match t.offset with
  | none => ""
  | some micros => (if micros < 0 then "-" else "+") ++ lengthText micros.natAbs

def iso (t : WallTime) : String :=
  s!"{Date.pad 4 t.date.year}-{Date.pad 2 t.date.month}-{Date.pad 2 t.date.day}T" ++
    s!"{Date.pad 2 t.hour.toNat}:{Date.pad 2 t.minute.toNat}:{Date.pad 2 t.second.toNat}." ++
    Date.pad 3 (t.microsecond / 1000).toNat ++ t.offsetText

end WallTime

end RecordCache
