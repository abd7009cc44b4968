import RecordCache.Date.Reader
import RecordCache.Text.Base64
import RecordCache.Value.Acl

/-!
Values that travel over the wire: scalars, tagged objects, access control lists, and any other
document. `Value.decode` reads the wire form and `Value.json` writes it; `Value.ofArgument` takes what
an application hands over.
-/

namespace RecordCache

structure Ref where
  className : Json
  objectId : Json
  deriving Inhabited

namespace Ref

def same (a b : Ref) : Bool := a.className.same b.className && a.objectId.same b.objectId

def json (r : Ref) : Json :=
  .object [("__type", .string "Pointer"), ("className", r.className), ("objectId", r.objectId)]

def thing (r : Ref) : Json := .other .pointer [r.className, r.objectId]

def display (r : Ref) : String := s!"*{r.className.plainDisplay}.{r.objectId.plainDisplay}"

def isAtomic (r : Ref) : Bool := r.className.isScalar && r.objectId.isScalar

end Ref

/-- A reference to an object. Its connections are the references that the object holds, by field;
they never go over the wire. -/
structure Pointer extends Ref where
  connections : Keyed Ref := []
  deriving Inhabited

namespace Pointer

def ofNames (className objectId : String) : Pointer :=
  { className := .string className, objectId := .string objectId }

def display (p : Pointer) : String :=
  let shown := p.connections.map fun (key, ref) => s!"{key.json.plainDisplay}:{ref.display}"
  p.toRef.display ++ if shown.isEmpty then "" else " [" ++ Text.join ", " shown ++ "]"

end Pointer

inductive Value
  | scalar (value : Scalar)
  | date (value : Date)
  | bytes (value : List UInt8)
  | file (name url : Json)
  | pointer (value : Pointer)
  | geoPoint (latitude longitude : Json)
  | acl (value : Acl)
  | raw (value : Json)
  deriving Inhabited

namespace Value

/-- The wire form. A file without a url does not mention one. -/
def json : Value → Json
  | .scalar s => s.json
  | .date d => .object [("__type", .string "Date"), ("iso", .string d.iso)]
  | .bytes b => .object [("__type", .string "Bytes"), ("base64", .string (Text.Base64.encode b))]
  | .file name .null => .object [("__type", .string "File"), ("name", name)]
  | .file name url => .object [("__type", .string "File"), ("name", name), ("url", url)]
  | .pointer p => p.toRef.json
  | .geoPoint lat lng =>
    .object [("__type", .string "GeoPoint"), ("latitude", lat), ("longitude", lng)]
  | .acl a => a.json
  | .raw j => j

def kind : Value → String
  | .scalar _ => "Value"
  | .date _ => "Date"
  | .bytes _ => "Bytes"
  | .file _ _ => "File"
  | .pointer _ => "Pointer"
  | .geoPoint _ _ => "GeoPoint"
  | .acl _ => "ACL"
  | .raw _ => "Raw"

def display : Value → String
  | .date d => s!"Date({Text.quoted d.iso})"
  | .pointer p => p.display
  | v => s!"{v.kind}({v.json.display})"

/-! ### Reading -/

def field (fields : Fields Json) (name : String) : Except DataFault Json :=
  match fields.get? name with
  | some j => .ok j
  | none => .error (.missing name)

def dateOfJson : Json → Except DataFault Date
  | .string s =>
    match Date.read? s with
    | some d => .ok d
    | none => .error (.date .text)
  | _ => .error (.date .notText)

def bytesOfJson : Json → Except DataFault (List UInt8)
  | .string s =>
    if s.toList.any fun c => c.toNat ≥ 0x80 then .error .base64NotAscii
    else match Text.Base64.decode? s with
      | some b => .ok b
      | none => .error .base64Form
  | _ => .error .base64NotText

def dateOfFields (fields : Fields Json) : Except DataFault Date := do
  dateOfJson (← field fields "iso")

def bytesOfFields (fields : Fields Json) : Except DataFault (List UInt8) := do
  bytesOfJson (← field fields "base64")

def fileOfFields (fields : Fields Json) : Except DataFault Value := do
  return .file (← field fields "name") ((fields.get? "url").getD .null)

def refOfFields (fields : Fields Json) : Except DataFault Ref := do
  return ⟨← field fields "className", ← field fields "objectId"⟩

def pointerOfFields (fields : Fields Json) : Except DataFault Pointer := do
  return { toRef := ← refOfFields fields }

def geoPointOfFields (fields : Fields Json) : Except DataFault Value := do
  return .geoPoint (← field fields "latitude") (← field fields "longitude")

def decodeObject (fields : Fields Json) : Except DataFault Value :=
  match (Assoc.get? fields "__type").getD .null with
  | .string "Date" => Value.date <$> dateOfFields fields
  | .string "Bytes" => Value.bytes <$> bytesOfFields fields
  | .string "File" => fileOfFields fields
  | .string "Pointer" => Value.pointer <$> pointerOfFields fields
  | .string "GeoPoint" => geoPointOfFields fields
  | .array _ => .error .compositeKey
  | .object _ => .error .compositeKey
  | _ => .ok (.raw (.object fields))

def decode : Json → Except DataFault Value
  | .object fields => decodeObject fields
  | .array items => .ok (.raw (.array items))
  | .other .tuple items => .ok (.raw (.array items))
  | .other .keyed parts => .ok (.raw (.other .keyed parts))
  | j => .ok (.scalar (Scalar.ofJson j))

/-! ### Comparing -/

def same : Value → Value → Bool
  | .scalar a, .scalar b => a.same b
  | .date a, .date b => a == b
  | .pointer a, .pointer b => a.toRef.same b.toRef
  | .bytes a, .bytes b => a == b
  | .file n u, .file n' u' => n.alike n' && u.alike u'
  | .geoPoint a b, .geoPoint c d => a.alike c && b.alike d
  | .acl a, .acl b => a.json.same b.json
  | .raw a, .raw b => a.same b
  | _, _ => false

def less : Value → Value → Bool
  | .scalar a, .scalar b => a.less b
  | .date a, .date b => decide (a.millis < b.millis)
  | _, _ => false

/-- Values that a set tells apart by their contents alone. -/
def keyedByContent : Value → Bool
  | .scalar _ => true
  | .date _ => true
  | .pointer _ => true
  | _ => false

def isKey : Value → Bool
  | .pointer p => p.isAtomic
  | _ => true

/-- Counts as one element of a set: equal, and written the same when only the writing tells. -/
def sameKey (a b : Value) : Bool :=
  a.same b && (a.keyedByContent || a.json.display == b.json.display)

end Value

end RecordCache
