import RecordCache.Argument

/-!
The order of a query's results: field names by descending importance, each with a direction.
Values of different kinds are ordered by kind, and records that tie on every key keep their order.
-/

namespace RecordCache

inductive Direction
  | ascending
  | descending
  deriving DecidableEq

structure SortOrder where
  keys : Fields Direction := []

namespace SortOrder

def parseKey (text : String) : Except Error (String × Direction) :=
  let shown := Text.trim text
  let (key, direction) := match shown.toList with
    | '-' :: rest => (String.ofList rest, Direction.descending)
    | _ => (shown, Direction.ascending)
  if key.isEmpty || key.startsWith "-" then .error (.query (.orderField shown))
  else .ok (key, direction)

/-- A key that comes again keeps its place and takes the later direction. -/
def ofArgument (order : Json) : Except Error SortOrder := do
  if !order.truthy then return {}
  match order.texts? with
  | some texts => return ⟨Assoc.ofList (← texts.mapM parseKey)⟩
  | none => throw (.query (.orderShape order.qualifiedTypeName))

def keyText (entry : String × Direction) : String :=
  match entry.2 with
  | .ascending => entry.1
  | .descending => "-" ++ entry.1

def expression (o : SortOrder) : String := Text.join "," (o.keys.map keyText)

def compose (o : SortOrder) (params : Fields Json) : Fields Json :=
  if o.keys.isEmpty then params else params.set "order" (.string o.expression)

def compareOn (a b : Record) (key : String) (direction : Direction) : Except DataFault Int := do
  let first ← (← a.typed key).sortKey
  let second ← (← b.typed key).sortKey
  match direction with
  | .ascending => return first.compare second
  | .descending => return if first.same second then 0 else if second.before first then -1 else 1

/-- The first key that tells two records apart decides; 0 when none does. -/
def compareBy (a b : Record) : Fields Direction → Except DataFault Int
  | [] => .ok 0
  | (key, direction) :: rest => do
    let sign ← compareOn a b key direction
    if sign = 0 then compareBy a b rest else return sign

def compare (o : SortOrder) (a b : Record) : Except DataFault Int := compareBy a b o.keys

def sort (o : SortOrder) (records : List Record) : Except Error (List Record) :=
  (stableSort (fun a b => return (← o.compare a b) < 0) records).mapError Error.data

end SortOrder

end RecordCache
