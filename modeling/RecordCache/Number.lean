import RecordCache.Number.Binary

/-!
Numbers of the data format: whole numbers of any size, and binary64 numbers.
The two kinds are compared exactly, by a measure that orders all of them but NaN.
-/

namespace RecordCache

inductive Number
  | int (value : Int)
  | float (value : Float)
  deriving DecidableEq, Inhabited

/-- A place on the number line: `band` is -1 and 1 at the infinities, 0 between them. -/
structure Measure where
  band : Int
  units : Int
  deriving DecidableEq

namespace Measure

def Before (a b : Measure) : Prop :=
  a.band < b.band ∨ (a.band = b.band ∧ a.units < b.units)

instance : DecidableRel Before := fun a b => by unfold Before; infer_instance

theorem before_irrefl (a : Measure) : ¬ a.Before a := by
  simp [Before]

theorem before_trans {a b c : Measure} (hab : a.Before b) (hbc : b.Before c) : a.Before c := by
  unfold Before at *
  omega

theorem before_or_eq_or_before (a b : Measure) : a.Before b ∨ a = b ∨ b.Before a := by
  cases a
  cases b
  simp only [Before, Measure.mk.injEq]
  omega

end Measure

namespace Number

def measure? : Number → Option Measure
  | .int i => some ⟨0, i * Binary.unitsPerOne⟩
  | .float x =>
    if Binary.notANumber x then none
    else if Binary.infinite x then some ⟨if Binary.negative x then -1 else 1, 0⟩
    else some ⟨0, Binary.units x⟩

def same (a b : Number) : Bool :=
  match a.measure?, b.measure? with
  | some x, some y => x == y
  | _, _ => false

def less (a b : Number) : Bool :=
  match a.measure?, b.measure? with
  | some x, some y => decide (x.Before y)
  | _, _ => false

def isZero (n : Number) : Bool := n.same (.int 0)

/-- The nearest binary64; `none` when the magnitude is out of its range. -/
def toFloat? : Number → Option Float
  | .int i =>
    let x := Float.ofInt i
    if Binary.infinite x then none else some x
  | .float x => some x

/-- Whole numbers add exactly; a sum with a binary64 is a binary64. -/
def add? : Number → Number → Option Number
  | .int i, .int j => some (.int (i + j))
  | a, b => return .float ((← a.toFloat?) + (← b.toFloat?))

theorem same_comm (a b : Number) : a.same b = b.same a := by
  unfold same
  cases a.measure? <;> cases b.measure? <;> simp [Bool.beq_comm]

theorem same_trans {a b c : Number} (hab : a.same b) (hbc : b.same c) : a.same c := by
  unfold same at *
  cases ha : a.measure? <;> cases hb : b.measure? <;> cases hc : c.measure? <;> simp_all

end Number

end RecordCache
