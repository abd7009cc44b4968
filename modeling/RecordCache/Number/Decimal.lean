import RecordCache.Number.Binary

/-!
Decimal text of binary64 numbers. `Decimal.shortest` picks the fewest digits that read back as the
same number, and of those the nearest; the rest of the module writes and reads decimals.
-/

namespace RecordCache

structure Decimal where
  coefficient : Nat
  exponent : Int
  deriving DecidableEq

namespace Decimal

/-- The bounds of the numbers that round to a binary64, in quarter units, and whether they count. -/
structure RoundingInterval where
  low : Nat
  high : Nat
  closed : Bool

def roundingInterval (x : Float) : RoundingInterval where
  low := 4 * Binary.magnitude x -
    (if Binary.atBinadeStart x then Nat.pow 2 (Binary.scale x) else 2 * Nat.pow 2 (Binary.scale x))
  high := 4 * Binary.magnitude x + 2 * Nat.pow 2 (Binary.scale x)
  closed := Binary.significand x % 2 == 0

def numerator (d : Decimal) : Nat := d.coefficient * Nat.pow 10 d.exponent.toNat * (4 * Binary.unitsPerOne)

def denominator (d : Decimal) : Nat := Nat.pow 10 (-d.exponent).toNat

def within (d : Decimal) (r : RoundingInterval) : Bool :=
  let low := r.low * d.denominator
  let high := r.high * d.denominator
  if r.closed then low ≤ d.numerator && d.numerator ≤ high
  else low < d.numerator && d.numerator < high

def distance (d : Decimal) (x : Float) : Nat :=
  let target := 4 * Binary.magnitude x * d.denominator
  if d.numerator ≤ target then target - d.numerator else d.numerator - target

def leadingExponent (x : Float) : Int :=
  let shifted := Binary.magnitude x * Nat.pow 10 324 / Binary.unitsPerOne
  ((Nat.toDigits 10 shifted).length : Int) - 325

def floorOnGrid (x : Float) (exponent : Int) : Decimal :=
  ⟨Binary.magnitude x * Nat.pow 10 (-exponent).toNat / (Binary.unitsPerOne * Nat.pow 10 exponent.toNat), exponent⟩

/-- The nearer of the two grid neighbours that read back; the even one on a tie. -/
def onGrid? (x : Float) (exponent : Int) : Option Decimal :=
  let below := floorOnGrid x exponent
  let above : Decimal := ⟨below.coefficient + 1, exponent⟩
  let interval := roundingInterval x
  match below.within interval, above.within interval with
  | false, false => none
  | true, false => some below
  | false, true => some above
  | true, true =>
    if below.distance x < above.distance x then some below
    else if above.distance x < below.distance x then some above
    else some (if below.coefficient % 2 = 0 then below else above)

/-- The decimal of fewest digits that reads back as the positive number `x`: at most 17. -/
def shortest (x : Float) : Decimal :=
  let lead := leadingExponent x
  ((List.range 17).findSome? fun (n : Nat) => onGrid? x (lead - n)).getD (floorOnGrid x (lead - 16))

def significantDigits (d : Decimal) : List Char :=
  ((Nat.toDigits 10 d.coefficient).reverse.dropWhile (· == '0')).reverse

def pointPosition (d : Decimal) : Int := (Nat.toDigits 10 d.coefficient).length + d.exponent

private def zeros (n : Nat) : List Char := List.replicate n '0'

def plain (digits : List Char) (point : Int) : List Char :=
  if point ≤ 0 then '0' :: '.' :: (zeros (-point).toNat ++ digits)
  else if digits.length ≤ point then digits ++ zeros (point.toNat - digits.length) ++ ['.', '0']
  else digits.take point.toNat ++ '.' :: digits.drop point.toNat

def scientific (digits : List Char) (point : Int) : List Char :=
  let exponent := point - 1
  let shown := Nat.toDigits 10 exponent.natAbs
  digits.take 1 ++ (if digits.length ≤ 1 then [] else '.' :: digits.drop 1) ++
    'e' :: (if exponent < 0 then '-' else '+') :: (zeros (2 - shown.length) ++ shown)

/-- Plain notation from `0.0001` up to, but not including, `10 ^ 16`. -/
def text (d : Decimal) : List Char :=
  let digits := d.significantDigits
  let point := d.pointPosition
  if -4 < point && point ≤ 16 then plain digits point else scientific digits point

/-- The nearest binary64; overflow gives infinity and underflow zero. -/
def toFloat (d : Decimal) : Float :=
  let size : Int := d.pointPosition
  if d.coefficient = 0 || size < -400 then 0.0
  else if size > 400 then 1.0 / 0.0
  else Float.ofScientific d.coefficient (d.exponent < 0) d.exponent.natAbs

end Decimal

namespace Binary

structure SpecialNames where
  nan : String
  infinity : String

def text (names : SpecialNames) (x : Float) : String :=
  if notANumber x then names.nan
  else
    let sign := if negative x then "-" else ""
    if infinite x then sign ++ names.infinity
    else if magnitude x = 0 then sign ++ "0.0"
    else sign ++ String.ofList (Decimal.shortest x).text

def roundHalfEven (numerator denominator : Nat) : Nat :=
  let q := numerator / denominator
  let twice := 2 * (numerator % denominator)
  if twice < denominator then q
  else if denominator < twice then q + 1
  else q + q % 2

def oneDecimal (names : SpecialNames) (x : Float) : String :=
  if notANumber x then names.nan
  else
    let sign := if negative x then "-" else ""
    if infinite x then sign ++ names.infinity
    else
      let tenths := roundHalfEven (magnitude x * 10) unitsPerOne
      sign ++ toString (tenths / 10) ++ "." ++ toString (tenths % 10)

end Binary

end RecordCache
