/-!
Finite binary64 numbers as whole multiples of the smallest positive one.
Every finite number is `± significand · 2 ^ scale` units, a unit being `2 ^ -1074`.
-/

namespace RecordCache.Binary

def negative (x : Float) : Bool := x.toBits >>> 63 == 1

def exponentField (x : Float) : Nat := ((x.toBits >>> 52) &&& 0x7ff).toNat

def fractionField (x : Float) : Nat := (x.toBits &&& 0xfffffffffffff).toNat

def infinite (x : Float) : Bool := exponentField x == 0x7ff && fractionField x == 0

def notANumber (x : Float) : Bool := exponentField x == 0x7ff && fractionField x != 0

def significand (x : Float) : Nat :=
  if exponentField x = 0 then fractionField x else fractionField x + Nat.pow 2 52

def scale (x : Float) : Nat := exponentField x - 1

/-- The magnitude of a finite number, counted in units of `2 ^ -1074`. -/
def magnitude (x : Float) : Nat := significand x * Nat.pow 2 (scale x)

def units (x : Float) : Int :=
  if negative x then - (magnitude x : Int) else magnitude x

def unitsPerOne : Nat := Nat.pow 2 1074

/-- Half the gap to the next number below is smaller at a power of two. -/
def atBinadeStart (x : Float) : Bool := fractionField x == 0 && exponentField x > 1

def truncate (x : Float) : Int :=
  if negative x then - ((magnitude x / unitsPerOne : Nat) : Int)
  else ((magnitude x / unitsPerOne : Nat) : Int)

end RecordCache.Binary
