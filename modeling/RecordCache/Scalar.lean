import RecordCache.Json

/-!
Scalars: null, truth values, numbers and texts. As a key, a scalar is told from another one by
`Scalar.sameKey`: there 1, 1.0 and `true` are one key.
-/

namespace RecordCache

/-- Truth values are a kind of their own: `true` is no number. -/
inductive Scalar
  | null
  | bool (value : Bool)
  | number (value : Number)
  | string (value : String)
  deriving DecidableEq, Inhabited

instance : Coe String Scalar := ⟨Scalar.string⟩

namespace Scalar

def json : Scalar → Json
  | .null => .null
  | .bool b => .bool b
  | .number n => .number n
  | .string s => .string s

/-- Lists and objects are no scalars: they read as null. A scalar that was handed over as a value is
that scalar. -/
def ofJson : Json → Scalar
  | .bool b => .bool b
  | .number n => .number n
  | .string s => .string s
  | .other .scalar [.bool b] => .bool b
  | .other .scalar [.number n] => .number n
  | .other .scalar [.string s] => .string s
  | _ => .null

def same : Scalar → Scalar → Bool
  | .null, .null => true
  | .bool a, .bool b => a == b
  | .number a, .number b => a.same b
  | .string a, .string b => a == b
  | _, _ => false

def less : Scalar → Scalar → Bool
  | .bool a, .bool b => !a && b
  | .number a, .number b => a.less b
  | .string a, .string b => decide (a < b)
  | _, _ => false

def sameKey (a b : Scalar) : Bool := a.json.alike b.json

def isNull : Scalar → Bool
  | .null => true
  | _ => false

def string? : Scalar → Option String
  | .string s => some s
  | _ => none

def number? : Scalar → Option Number
  | .number n => some n
  | _ => none

def bool? : Scalar → Option Bool
  | .bool b => some b
  | _ => none

end Scalar

abbrev Keyed (α : Type) := Assoc Scalar α

namespace Keyed

variable {α : Type}

def ofFields (fields : Fields α) : Keyed α := fields.map fun (name, value) => (.string name, value)

/-- Replaces the entry of a key like this one, which stays as it is. -/
def put (entries : Keyed α) (key : Scalar) (value : α) : Keyed α :=
  Assoc.set entries ((entries.keys.find? key.sameKey).getD key) value

def ofList (entries : List (Scalar × α)) : Keyed α := entries.foldl (fun acc e => put acc e.1 e.2) []

def fields? (entries : Keyed α) : Option (Fields α) :=
  entries.mapM fun (key, value) => key.string?.map fun name => (name, value)

/-- An object, with names that are scalars when some are no texts. -/
def json (entries : Keyed Json) : Json :=
  match entries.fields? with
  | some fields => .object fields
  | none => .other .keyed (entries.flatMap fun (key, value) => [key.json, value])

def ofParts : List Json → Keyed Json
  | name :: content :: rest => (Scalar.ofJson name, content) :: ofParts rest
  | _ => []

def ofJson? : Json → Option (Keyed Json)
  | .object fields => some (ofFields fields)
  | .other .keyed parts => some (ofParts parts)
  | _ => none

end Keyed

end RecordCache
