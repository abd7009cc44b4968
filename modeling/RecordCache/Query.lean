import RecordCache.Constraint.Clauses
import RecordCache.Constraint.Match
import RecordCache.Constraint.Where
import RecordCache.Query.Order
import RecordCache.Query.Paging
import RecordCache.Query.Selection
import RecordCache.Schema

/-!
A query on one class: conditions, order, paging, the fields to load, the references to expand, and
whether only the number of matches is wanted. `Query.compose` writes the parameters of the request;
`Query.present` applies the options to the records that match.
-/

namespace RecordCache

inductive Freshness
  | asRegistered
  | never
  /-- For a number of seconds; other things are kept as they were given. -/
  | within (window : Json)

namespace Freshness

def ofWindow : Json → Freshness
  | .null => .asRegistered
  | .bool false => .never
  | w => .within w

/-- What a query is told: `true` is the window of the class, too. -/
def ofArgument : Json → Freshness
  | .bool true => .asRegistered
  | w => ofWindow w

def json : Freshness → Json
  | .asRegistered => .null
  | .never => .bool false
  | .within window => window

end Freshness

structure Query where
  className : String
  /-- Results are entities of this schema, if there is one. -/
  schema : Option Schema := none
  conditions : ConstraintSet := ⟨className, []⟩
  order : SortOrder := {}
  paging : Paging := {}
  keys : Selection := {}
  includes : Selection := {}
  counting : Bool := false
  freshness : Freshness := .asRegistered

namespace Query

def start (className : String) (schema : Option Schema) (fallback : Json) : Except Error Query := do
  return { className, schema, paging := ← Paging.withFallback fallback }

/-! ### Conditions -/

def such (q : Query) (c : Constraint) : Query := { q with conditions := q.conditions.add c }

def idComparand (value : Json) : Except Error Value := do
  match value with
  | .string s => return .scalar (.string s)
  | .other .scalar _ => return .scalar (Scalar.ofJson value)
  | _ =>
    match ← Value.ofArgument value with
    | .pointer p => (Value.decode p.objectId).mapError Error.data
    | _ => throw (.query .idComparand)

def equalTo (q : Query) (key : String) (value : Json) : Except Error Query := do
  if key = "objectId" then return q.such (.equalTo key (← idComparand value))
  return q.such (.equalTo key (← Value.ofArgument value))

def greaterThan (q : Query) (key : String) (value : Json) : Except Error Query :=
  q.such <$> Constraint.ofArgument (.greaterThan key) value

def lessThan (q : Query) (key : String) (value : Json) : Except Error Query :=
  q.such <$> Constraint.ofArgument (.lessThan key) value

def containedIn (q : Query) (key : String) (values : Json) : Except Error Query := do
  return q.such (.oneOf key (← Constraint.valuesOf values))

def notContainedIn (q : Query) (key : String) (values : Json) : Except Error Query := do
  return q.such (.noneOf key (← Constraint.valuesOf values))

def whereExists (q : Query) (key : String) (expected : Bool) : Query := q.such (.present key expected)

def matchesPattern (q : Query) (key : String) (pattern : Json) (options : Pattern.Options) :
    Except Error Query :=
  q.such <$> Constraint.ofPattern key pattern options

def matchesKeyIn (q : Query) (key matchKey : String) (other : Query) : Query :=
  q.such (.selected key matchKey other.conditions)

def differsFromKeyIn (q : Query) (key matchKey : String) (other : Query) : Query :=
  q.such (.notSelected key matchKey other.conditions)

def relatedTo (q : Query) (key : String) (owner : Json) : Except Error Query := do
  match ← Value.ofArgument owner with
  | .pointer p => return q.such (.relatedTo key p.toRef.thing)
  | _ => throw (.query .relationOwner)

/-- The records of either query. Options do not carry over, but for the freshness of the first. -/
def either (q other : Query) : Except Error Query :=
  if other.className ≠ q.className then
    .error (.query (.classesDiffer q.className other.className))
  else
    .ok { className := q.className, schema := q.schema,
          conditions := ⟨q.className, [.either q.conditions other.conditions]⟩,
          paging := { fallback := q.paging.fallback }, freshness := q.freshness }

/-! ### Options -/

def orderBy (q : Query) (order : Json) : Except Error Query :=
  (SortOrder.ofArgument order).map ({ q with order := · })

def page (q : Query) (skip limit : Json) : Except Error Query :=
  (q.paging.give skip limit).map ({ q with paging := · })

def load (q : Query) (keys : Json) : Except Error Query :=
  (q.keys.add "keys" keys).map ({ q with keys := · })

def expand (q : Query) (keys : Json) : Except Error Query :=
  (q.includes.add "include" keys).map ({ q with includes := · })

def countFlag : Json → Except Error Bool
  | .bool b => .ok b
  | .number (.int i) => .ok (i ≠ 0)
  | _ => .error (.query .countShape)

def count (q : Query) (flag : Json) : Except Error Query :=
  (countFlag flag).map ({ q with counting := · })

def trust (q : Query) (freshness : Freshness) : Query := { q with freshness }

def one (q : Query) : Query := { q with paging := { q.paging with limit := some 1 } }

/-! ### The request -/

inductive Section
  | conditions
  | order
  | paging
  | keys
  | includes
  | count
  deriving DecidableEq

def sections : List Section := [.conditions, .order, .paging, .keys, .includes, .count]

/-- Adds a section to the parameters of a request. A count asks for a single record. -/
def composeSection (q : Query) (params : Fields Json) : Section → ClauseLists →
    Except Error (Fields Json) × ClauseLists
  | .conditions, lists =>
    let (w, lists) := q.conditions.composeWith lists
    (w.map fun w => if w.isEmpty then params else params.set "where" (.object w), lists)
  | .order, lists => (.ok (q.order.compose params), lists)
  | .paging, lists => (.ok (q.paging.compose params), lists)
  | .keys, lists => (.ok (q.keys.compose "keys" params), lists)
  | .includes, lists => (.ok (q.includes.compose "include" params), lists)
  | .count, lists =>
    (.ok (if q.counting then (params.set "count" (.int 1)).set "limit" (.int 1) else params), lists)

def composeWith (q : Query) (lists : ClauseLists) : Except Error (Fields Json) × ClauseLists :=
  let composing : Composing (Fields Json) :=
    sections.foldlM (fun params part => ExceptT.mk fun lists => q.composeSection params part lists) []
  composing.run.run lists

def compose (q : Query) : Except Error (Fields Json) := (q.composeWith []).1

def own (q : Query) : StateM ClauseLists Query := do return { q with conditions := ← q.conditions.own }

def settled (q : Query) (lists : ClauseLists) : Query :=
  { q with conditions := q.conditions.settled lists }

/-- References cannot be expanded from the cache. -/
def allowsLocal (q : Query) : Bool :=
  match q.freshness with
  | .never => false
  | _ => q.conditions.allowsLocal && q.includes.keys.isEmpty

def display (q : Query) (params : Fields Json) : String :=
  s!"Query({Text.quoted q.className}, " ++ (Json.object params).display ++ ")"

/-! ### The results -/

/-- What a section makes of records; counting and expanding leave them as they are. -/
def applySection (q : Query) (records : List Record) : Section → Except Error (List Record)
  | .conditions => q.conditions.filter records
  | .order => q.order.sort records
  | .paging => (q.paging.slice records).mapError Error.data
  | .keys => .ok (q.keys.project records)
  | .includes => .ok records
  | .count => .ok records

def present (q : Query) (found : List Record) : Except Error (List Record) := do
  let stretch ← (q.paging.slice (← q.order.sort found)).mapError Error.data
  return q.keys.project stretch

end Query

end RecordCache
