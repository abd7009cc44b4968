import RecordCache.Date
import RecordCache.Text.CharClass

/-!
Reading dates: `year-month-dayThour:minute:second`, an optional fraction of one to six digits, and
`Z`. Fields after the year may have one digit; the second digit of a field, and those of the year,
may be of any numeral system.
-/

namespace RecordCache.Date

/-- A part read from the start of a text, in every way it can be, the preferred one first. -/
structure Part (α : Type) where
  run : List Char → List (α × List Char)

namespace Part

instance : Monad Part where
  pure a := ⟨fun s => [(a, s)]⟩
  bind p f := ⟨fun s => (p.run s).flatMap fun (a, s) => (f a).run s⟩

def either {α : Type} (first second : Part α) : Part α := ⟨fun s => first.run s ++ second.run s⟩

def anyDigit : Part Nat where
  run
    | c :: rest => (Text.digitValue? c).toList.map fun v => (v, rest)
    | [] => []

def digitIn (low high : Char) : Part Nat where
  run
    | c :: rest => if low ≤ c && c ≤ high then [(c.toNat - '0'.toNat, rest)] else []
    | [] => []

def literal (c : Char) : Part Unit where
  run
    | d :: rest => if c = d then [((), rest)] else []
    | [] => []

def pair (tens ones : Part Nat) : Part Nat := do return 10 * (← tens) + (← ones)

def year : Part Nat := pair (pair (pair anyDigit anyDigit) anyDigit) anyDigit

def month : Part Nat :=
  either (pair (digitIn '1' '1') (digitIn '0' '2'))
    (either (pair (digitIn '0' '0') (digitIn '1' '9')) (digitIn '1' '9'))

/-- A blank may stand for the first digit. -/
def day : Part Nat :=
  either (pair (digitIn '3' '3') (digitIn '0' '1'))
    (either (pair (digitIn '1' '2') anyDigit)
      (either (pair (digitIn '0' '0') (digitIn '1' '9'))
        (either (digitIn '1' '9') (do literal ' '; digitIn '1' '9'))))

def hour : Part Nat :=
  either (pair (digitIn '2' '2') (digitIn '0' '3')) (either (pair (digitIn '0' '1') anyDigit) anyDigit)

def minute : Part Nat := either (pair (digitIn '0' '5') anyDigit) anyDigit

/-- Leap seconds have the form of a second; `ofWallTime` refuses them. -/
def second : Part Nat :=
  either (pair (digitIn '6' '6') (digitIn '0' '1')) (either (pair (digitIn '0' '5') anyDigit) anyDigit)

def millionths : Part Nat where
  run s :=
    let digits := (s.take 6).takeWhile Char.isDigit
    (List.range digits.length).reverse.map fun n =>
      ((digits.take (n + 1)).foldl (fun v c => 10 * v + (c.toNat - '0'.toNat)) 0 * Nat.pow 10 (5 - n),
        s.drop (n + 1))

def wallTime (fraction : Part Nat) : Part WallTime := do
  let y ← year
  literal '-'
  let mo ← month
  literal '-'
  let d ← day
  either (literal 'T') (literal 't')
  let h ← hour
  literal ':'
  let mi ← minute
  literal ':'
  let s ← second
  let micros ← fraction
  either (literal 'Z') (literal 'z')
  return ⟨⟨y, mo, d⟩, h, mi, s, micros, some 0⟩

def withFraction : Part WallTime := wallTime (do literal '.'; millionths)

def withoutFraction : Part WallTime := wallTime (pure 0)

/-- The preferred reading, when it takes the whole text and names a day that exists. -/
def date? (p : Part WallTime) (s : List Char) : Option Date :=
  match p.run s with
  | (t, []) :: _ => (ofWallTime t).toOption
  | _ => none

end Part

def read? (text : String) : Option Date :=
  Part.withFraction.date? text.toList <|> Part.withoutFraction.date? text.toList

end RecordCache.Date
