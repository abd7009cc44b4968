import RecordCache.Schema

/-!
Schemas declared by documents. A declaration names the schema, and may give the schema that it is
based on, a class, a window, and the types of fields by their names.
-/

namespace RecordCache

/-- The type that a declaration means, or the shown form of what is none. A name that is no basic type
means a schema; a literal stands for itself. -/
def FieldType.ofJson (known : Fields Schema) (j : Json) : Except String FieldType :=
  match j with
  | .string name =>
    match FieldType.ofName? name with
    | some type => .ok type
    | none => if known.contains name then .ok (.entity name) else .error ("<class '" ++ name ++ "'>")
  | j => .error ((j.get? "literal").getD .null).display

namespace Schema

def nameOf (j : Json) : String := ((j.get? "name").bind Json.string?).getD ""

def baseOf (known : Fields Schema) (j : Json) : Schema :=
  (((j.get? "base").bind Json.string?).bind known.get?).getD root

def specOf (known : Fields Schema) (j : Json) : SchemaSpec where
  name := nameOf j
  className := j.get? "class_name"
  expireAfter := j.get? "expire_after"
  fields := (((j.get? "fields").bind Json.object?).getD []).map fun entry =>
    (entry.1, FieldType.ofJson known entry.2)

def ofJson (known : Fields Schema) (j : Json) : Except Error Schema :=
  extend (baseOf known j) (specOf known j)

/-- Declares one schema more; one that is refused stays unknown. -/
def declare (known : Fields Schema) (j : Json) : Except Error Schema × Fields Schema :=
  match ofJson known j with
  | .ok s => (.ok s, known.set s.name s)
  | .error e => (.error e, known)

def declareAll (known : Fields Schema) : List Json → List (Except Error Schema) × Fields Schema
  | [] => ([], known)
  | j :: rest =>
    let (declared, known) := declare known j
    let (others, known) := declareAll known rest
    (declared :: others, known)

end Schema

end RecordCache
