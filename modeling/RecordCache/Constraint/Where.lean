import RecordCache.Constraint.Clauses

/-!
The `where` object of a request. Conditions on one key are merged; when the same operator comes
twice with different values, the second one goes into `$and`. A condition may own the list of clauses
that stands there: see `ClauseLists`.
-/

namespace RecordCache

abbrev Where := Fields Json

/-- Composing on the lists of clauses; what was added to them before a failure stays there. -/
abbrev Composing := ExceptT Error (StateM ClauseLists)

namespace Where

def isOperators : Json → Bool
  | .object fields => !fields.isEmpty && fields.all fun entry => entry.1.startsWith "$"
  | _ => false

/-- A plain value is a condition of equality. -/
def operators (condition : Json) : Fields Json :=
  match condition, isOperators condition with
  | .object fields, true => fields
  | j, _ => [("$eq", j)]

def clash (lists : ClauseLists) (existing added : Fields Json) : Bool :=
  added.any fun (op, value) =>
    match existing.get? op with
    | some old => !(lists.read old).same (lists.read value)
    | none => false

def addClause (w : Where) (clause : Json) : Composing Where :=
  match w.get? Constraint.clauseKey with
  | none => return w.set Constraint.clauseKey (.array [clause])
  | some (.array clauses) => return w.set Constraint.clauseKey (.array (clauses ++ [clause]))
  | some (.other (.clauses n) _) => do
    modifyThe ClauseLists fun lists => lists.add n clause
    return w
  | some _ => throw (.data .notClauses)

def setCondition (w : Where) (key : String) (condition : Json) : Composing Where := do
  match w.get? key with
  | none => return w.set key condition
  | some existing =>
    let old := operators existing
    let new := operators condition
    if clash (← getThe ClauseLists) old new then w.addClause (.object [(key, .object new)])
    else return w.set key (.object (old.merge new))

def setOperator (w : Where) (key op : String) (value : Json) : Composing Where :=
  w.setCondition key (.object [(op, value)])

end Where

namespace Constraint

def subQuery (matchKey className : String) (inner : Where) : Json :=
  .object [("key", .string matchKey),
    ("query", .object [("className", .string className), ("where", .object inner)])]

def ownerJson (owner : Json) : Except Error Json :=
  match owner with
  | .other .scalar _ => owner.encode
  | .other .raw _ => owner.encode
  | .other (.date _) _ => owner.encode
  | .other .file _ => owner.encode
  | .other .pointer _ => owner.encode
  | .other .geoPoint _ => owner.encode
  | .other .acl _ => owner.encode
  | _ => .error (.data .noWireForm)

mutual

def compose : Constraint → Where → Composing Where
  | .equalTo key _ (some n), w => w.setCondition key (.other (.clauses n) [])
  | .equalTo key value none, w => w.setCondition key value.json
  | .greaterThan key value, w => w.setOperator key "$gt" value.json
  | .lessThan key value, w => w.setOperator key "$lt" value.json
  | .present key expected, w => w.setOperator key "$exists" (.bool expected)
  | .matching key p, w =>
    w.setCondition key (.object [("$regex", p.source), ("$options", .string p.optionLetters)])
  | .oneOf key values, w => w.setOperator key "$in" (.array (values.map Value.json))
  | .noneOf key values, w => w.setOperator key "$nin" (.array (values.map Value.json))
  | .either left right, w => do
    let leftWhere ← composeSet left
    let clause := Json.array [.object leftWhere, .object (← composeSet right)]
    if w.contains "$or" then w.addClause (.object [("$or", clause)])
    else return w.set "$or" clause
  | .relatedTo key owner, w => do
    match ownerJson owner with
    | .ok j => return w.set "$relatedTo" (.object [("object", j), ("key", .string key)])
    | .error e => throw e
  | .selected key matchKey inner, w => do
    w.setOperator key "$select" (subQuery matchKey inner.className (← composeSet inner))
  | .notSelected key matchKey inner, w => do
    w.setOperator key "$dontSelect" (subQuery matchKey inner.className (← composeSet inner))

def composeSet : Conjunction Constraint → Composing Where
  | ⟨_, constraints⟩ => composeAll constraints []

def composeAll : List Constraint → Where → Composing Where
  | [], w => return w
  | c :: rest, w => do composeAll rest (← compose c w)

end

end Constraint

namespace ConstraintSet

def composeWith (s : ConstraintSet) (lists : ClauseLists) : Except Error Where × ClauseLists :=
  let (result, lists) := (Constraint.composeSet s).run.run lists
  (result.map fun w => w.map fun (key, j) => (key, lists.read j), lists)

def compose (s : ConstraintSet) : Except Error Where := (s.composeWith []).1

end ConstraintSet

end RecordCache
