import RecordCache.Value

/-!
The order of all values: by rank (null, numbers, strings, truth values, dates, everything else),
and within a rank by the value, or by what is written when the value has no order of its own.
-/

namespace RecordCache

inductive SortKey
  | null
  | number (value : Float)
  | text (value : String)
  | truth (value : Bool)
  | date (value : Date)
  | other (display : String)

namespace SortKey

def rank : SortKey → Nat
  | .null => 0
  | .number _ => 1
  | .text _ => 2
  | .truth _ => 3
  | .date _ => 4
  | .other _ => 5

def same : SortKey → SortKey → Bool
  | .null, .null => true
  | .number a, .number b => (Json.float a).alike (.float b)
  | .text a, .text b => a == b
  | .truth a, .truth b => a == b
  | .date a, .date b => a == b
  | .other a, .other b => a == b
  | _, _ => false

def before : SortKey → SortKey → Bool
  | .number a, .number b => (Number.float a).less (.float b)
  | .text a, .text b => decide (a < b)
  | .truth a, .truth b => !a && b
  | .date a, .date b => decide (a.millis < b.millis)
  | .other a, .other b => decide (a < b)
  | a, b => decide (a.rank < b.rank)

/-- -1, 0 or 1. A key that equals nothing counts as the lesser one. -/
def compare (a b : SortKey) : Int := if a.same b then 0 else if b.before a then 1 else -1

end SortKey

namespace Scalar

def sortKey : Scalar → Except DataFault SortKey
  | .null => .ok .null
  | .bool b => .ok (.truth b)
  | .number n =>
    match n.toFloat? with
    | some x => .ok (.number x)
    | none => .error .tooLarge
  | .string s => .ok (.text s)

end Scalar

namespace Value

def sortKey : Value → Except DataFault SortKey
  | .scalar s => s.sortKey
  | .date d => .ok (.date d)
  | v => .ok (.other v.json.display)

def compare (a b : Value) : Except DataFault Int := do
  let first ← a.sortKey
  let second ← b.sortKey
  return if first.before second then -1 else if second.before first then 1 else 0

def isInSet (a b : Value) : Except DataFault Bool :=
  if a.isKey && b.isKey then .ok (a.sameKey b) else .error .compositeKey

end Value

/-!
### Sorting

A stable sort by an order that may be undefined between some elements, or contradict itself. Elements
that rise or fall from the start are a run as they stand; each one after them is inserted into the
run by halving. A long list is cut into such runs, which are then merged.
-/

namespace StableSort

variable {α ε : Type} (before : α → α → Except ε Bool)

/-- The elements that go on falling, in rising order, and the rest. -/
def fall (last : α) (seen : List α) : List α → Except ε (List α × List α)
  | [] => .ok (last :: seen, [])
  | x :: rest => do
    if ← before x last then fall x (last :: seen) rest else return (last :: seen, x :: rest)

def rise (last : α) (seen : List α) : List α → Except ε (List α × List α)
  | [] => .ok ((last :: seen).reverse, [])
  | x :: rest => do
    if ← before x last then return ((last :: seen).reverse, x :: rest) else rise x (last :: seen) rest

def firstRun : List α → Except ε (List α × List α)
  | [] => .ok ([], [])
  | [x] => .ok ([x], [])
  | x :: y :: rest => do
    if ← before y x then fall before y [x] rest else rise before y [x] rest

/-- Where an element belongs between two places of a run: behind those that it does not come before. -/
def placeFor (x : α) (run : List α) : Nat → Nat → Nat → Except ε Nat
  | 0, low, _ => .ok low
  | fuel + 1, low, high => do
    if high ≤ low then return low
    let middle := low + (high - low) / 2
    match run[middle]? with
    | none => return low
    | some y => if ← before x y then placeFor x run fuel low middle else placeFor x run fuel (middle + 1) high

def insert (run : List α) (x : α) : Except ε (List α) := do
  let place ← placeFor before x run (run.length + 1) 0 run.length
  return run.take place ++ x :: run.drop place

/-- Elements that belong in front of the others come first; the left ones do so when none does. -/
def merge : Nat → List α → List α → Except ε (List α)
  | 0, left, right => .ok (left ++ right)
  | _, [], right => .ok right
  | _, left, [] => .ok left
  | fuel + 1, x :: left, y :: right => do
    if ← before y x then return y :: (← merge fuel (x :: left) right)
    else return x :: (← merge fuel left (y :: right))

/-- How long the runs of a list should be: the list itself below 64, else between 32 and 64. -/
def runLength : Nat → Nat → Nat → Nat
  | 0, n, odd => n + odd
  | fuel + 1, n, odd => if n < 64 then n + odd else runLength fuel (n / 2) (max odd (n % 2))

def runs (least : Nat) : Nat → List α → Except ε (List (List α))
  | 0, _ => .ok []
  | _, [] => .ok []
  | fuel + 1, xs => do
    let (run, rest) ← firstRun before xs
    let missing := least - run.length
    let run ← (rest.take missing).foldlM (insert before) run
    return run :: (← runs least fuel (rest.drop missing))

end StableSort

def stableSort {α ε : Type} (before : α → α → Except ε Bool) (xs : List α) : Except ε (List α) := do
  let runs ← StableSort.runs before (StableSort.runLength xs.length xs.length 0) xs.length xs
  runs.foldlM (fun left right => StableSort.merge before xs.length left right) []

end RecordCache
