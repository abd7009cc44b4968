import RecordCache.Argument

/-!
Which stretch of the results is wanted. Without a limit a query gives `fallback` records; no
query gives more than `largestPage`.
-/

namespace RecordCache

structure Paging where
  skip : Option Nat := none
  limit : Option Nat := none
  /-- A number above zero, as it was given; only a whole one, or `true`, can cut a list. -/
  fallback : Json := .int 100

namespace Paging

def largestPage : Nat := 1000

def sizeOf (largest : Option Nat) (size : Json) : Except Error Json :=
  match size.numeric? with
  | none => .error (.setting .notNumber)
  | some n =>
    if !(Number.int 0).less n || largest.any fun l => (Number.int l).less n then
      .error (.setting .outOfRange)
    else .ok size

def count (size : Json) : Except DataFault Nat :=
  match size.numeric? with
  | some (.int i) => .ok i.toNat
  | _ => .error .notIndexed

def withFallback (fallback : Json) : Except Error Paging := return { fallback := ← sizeOf none fallback }

def whole? (fault : QueryFault) : Json → Except Error (Option Int)
  | .null => .ok none
  | .number (.int i) => .ok (some i)
  | _ => .error (.query fault)

/-- Takes over what is given and keeps the rest; a skip of zero is no skip. -/
def give (p : Paging) (skip limit : Json) : Except Error Paging := do
  let skip ← whole? .skipShape skip
  let limit ← whole? .limitShape limit
  if skip.any (· < 0) then throw (.query .skipNegative)
  if limit.any fun n => n < 0 || (largestPage : Int) < n then throw (.query (.limitRange largestPage))
  return { p with
    skip := match skip with
      | none => p.skip
      | some n => if n = 0 then none else some n.toNat
    limit := match limit with
      | none => p.limit
      | some n => some n.toNat }

def effectiveLimit (p : Paging) : Json := (p.limit.map fun n => Json.int n).getD p.fallback

def compose (p : Paging) (params : Fields Json) : Fields Json :=
  let params := match p.skip with
    | some n => params.set "skip" (.int n)
    | none => params
  match p.limit with
  | some n => params.set "limit" (.int n)
  | none => params

def slice (p : Paging) (records : List Record) : Except DataFault (List Record) := do
  return (records.drop (p.skip.getD 0)).take (← count p.effectiveLimit)

end Paging

end RecordCache
