import RecordCache.Constraint

/-!
Evaluating constraints on a record. A field that holds a list is compared as a whole and by each of
its elements. Sub-queries and relations cannot be evaluated here.
-/

namespace RecordCache

namespace Record

def candidates (r : Record) (key : String) : Except DataFault (List Value) :=
  match r.rawField key with
  | .array items => do return .raw (.array items) :: (← items.mapM Value.decode)
  | _ => do return [← r.typed key]

end Record

namespace Constraint

def anyCandidate (r : Record) (key : String) (test : Value → Bool) : Except Error Bool :=
  ((r.candidates key).mapError Error.data).map fun values => values.any test

/-- Looks a value up in a set; a pointer is looked up by its id as well. -/
def inSet (values : List Value) (candidate : Value) : Except DataFault Bool :=
  if !candidate.isKey then .error .compositeKey
  else .ok (values.any (fun v => candidate.sameKey v) ||
    match candidate with
    | .pointer p => values.any fun v => (Value.scalar (Scalar.ofJson p.objectId)).sameKey v
    | _ => false)

def anyInSet (values : List Value) : List Value → Except DataFault Bool
  | [] => .ok false
  | c :: rest => do
    if ← inSet values c then return true
    anyInSet values rest

def containsField (r : Record) (key : String) (values : List Value) : Except Error Bool :=
  Except.mapError Error.data do
    if values.any fun v => !v.isKey then throw .compositeKey
    anyInSet values (← r.candidates key)

/-- Searches the texts among the values, up to the first one where the pattern is found. -/
def anyTextFound (p : Pattern) : List Value → Except DataFault Bool
  | [] => .ok false
  | .scalar (.string s) :: rest => do
    if ← p.search s then return true
    anyTextFound p rest
  | _ :: rest => anyTextFound p rest

def isPresent (r : Record) (key : String) : Bool :=
  match r.rawField key with
  | .null => false
  | _ => true

mutual

def holds (r : Record) : Constraint → Except Error Bool
  | .equalTo key value _ => anyCandidate r key (·.same value)
  | .greaterThan key value => anyCandidate r key (value.less ·)
  | .lessThan key value => anyCandidate r key (·.less value)
  | .present key expected => .ok (isPresent r key == expected)
  | .matching key pattern => Except.mapError Error.data do anyTextFound pattern (← r.candidates key)
  | .oneOf key values => containsField r key values
  | .noneOf key values => (containsField r key values).map (!·)
  | .either left right => do
    if ← setHolds r left then return true
    setHolds r right
  | .relatedTo _ _ => .error (.unmatchable .relation)
  | .selected key _ _ => .error (.unmatchable (.subQuery "MatchQuery" key))
  | .notSelected key _ _ => .error (.unmatchable (.subQuery "DoNotMatchQuery" key))

def setHolds (r : Record) : Conjunction Constraint → Except Error Bool
  | ⟨_, constraints⟩ => allHold r constraints

def allHold (r : Record) : List Constraint → Except Error Bool
  | [] => .ok true
  | c :: rest => do
    if ← holds r c then allHold r rest
    else return false

end

end Constraint

namespace ConstraintSet

def holds (s : ConstraintSet) (r : Record) : Except Error Bool := Constraint.setHolds r s

def filter (s : ConstraintSet) (records : List Record) : Except Error (List Record) :=
  records.filterM (s.holds ·)

end ConstraintSet

end RecordCache
