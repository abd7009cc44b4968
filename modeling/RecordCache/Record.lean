import RecordCache.Value.Order

/-!
Records: one object as the server knows it, with the assignments that are staged to be sent.
The fields of the server are never modified in place.
-/

namespace RecordCache

/-- Field names that are no texts come only from records that were made of pairs. -/
structure Record where
  raw : Keyed Json
  pending : Fields Value := []

namespace Json

/-- What walking through a document or a thing gives: items, characters, names, or octets. -/
def iterate : Json → Except DataFault (List Json)
  | .array items => .ok items
  | .string s => .ok (s.toList.map fun c => .string (String.singleton c))
  | .object fields => .ok (fields.map fun entry => .string entry.1)
  | .other .tuple items => .ok items
  | .other .keyed parts => .ok ((Keyed.ofParts parts).keys.map Scalar.json)
  | .other (.octets value _) _ => .ok (value.map fun n => .int n.toNat)
  | .other .pointer _ => .error (.missing "0")
  | _ => .error .notList

def entry? (j : Json) : Except DataFault (Scalar × Json) := do
  match ← j.iterate with
  | [name, value] => if name.isScalar then return (Scalar.ofJson name, value) else .error .compositeKey
  | _ => .error .notPairs

def entries (j : Json) : Except DataFault (Keyed Json) :=
  match Keyed.ofJson? j with
  | some entries => .ok entries
  | none => do
    if !j.truthy then return []
    return Keyed.ofList (← (← j.iterate).mapM entry?)

end Json

namespace Record

def systemFields : List String := ["objectId", "createdAt", "updatedAt", "ACL"]

def dateTextFields : List String := ["createdAt", "updatedAt"]

def ofJson (j : Json) : Except DataFault Record := return { raw := ← j.entries }

def ofFields (fields : Fields Json) : Record := { raw := Keyed.ofFields fields }

def json (r : Record) : Json := Keyed.json r.raw

def get? (r : Record) (key : String) : Option Json := Assoc.get? r.raw (.string key)

def rawField (r : Record) (key : String) : Json := (r.get? key).getD .null

def scalar (r : Record) (key : String) : Scalar := Scalar.ofJson (r.rawField key)

def objectId? (r : Record) : Option String := (r.scalar "objectId").string?

def tagged? (tag : String) : Json → Option (Fields Json)
  | .object fields =>
    match Assoc.get? fields "__type" with
    | some (.string t) => if t = tag then some fields else none
    | _ => none
  | _ => none

def readTagged {α : Type} (tag : String) (read : Fields Json → Except DataFault α) (j : Json) :
    Except DataFault (Option α) :=
  match tagged? tag j with
  | some fields => some <$> read fields
  | none => .ok none

def date? (r : Record) (key : String) : Except DataFault (Option Date) :=
  match dateTextFields.contains key, r.rawField key with
  | true, .string s => some <$> Value.dateOfJson (.string s)
  | _, _ => readTagged "Date" Value.dateOfFields (r.rawField key)

def bytes? (r : Record) (key : String) : Except DataFault (Option (List UInt8)) :=
  readTagged "Bytes" Value.bytesOfFields (r.rawField key)

def file? (r : Record) (key : String) : Except DataFault (Option Value) :=
  readTagged "File" Value.fileOfFields (r.rawField key)

def pointer? (r : Record) (key : String) : Except DataFault (Option Pointer) :=
  readTagged "Pointer" Value.pointerOfFields (r.rawField key)

def geoPoint? (r : Record) (key : String) : Except DataFault (Option Value) :=
  readTagged "GeoPoint" Value.geoPointOfFields (r.rawField key)

def security? (r : Record) : Except DataFault (Option Acl) :=
  match Keyed.ofJson? (r.rawField "ACL") with
  | some _ => some <$> Acl.ofJson (r.rawField "ACL")
  | none => .ok none

/-- The field as a value: a date for a date field, else the decoded document. -/
def typed (r : Record) (key : String) : Except DataFault Value := do
  match ← r.date? key with
  | some d => return .date d
  | none => Value.decode (r.rawField key)

def stage (r : Record) (key : String) (value : Value) : Record :=
  { r with pending := r.pending.set key value }

def merged (r : Record) (fields : Fields Json) : Record := { raw := Assoc.merge r.raw (Keyed.ofFields fields) }

def mergedWith (r : Record) (fields : Json) : Except DataFault Record := do
  if !fields.truthy then discard fields.iterate
  return { raw := (← fields.entries).foldl (fun raw entry => Keyed.put raw entry.1 entry.2) r.raw }

def project (r : Record) (keys : List Scalar) : Record :=
  { raw := r.raw.filter fun entry =>
      systemFields.any (entry.1 == .string ·) || keys.any entry.1.sameKey }

def projectOn (r : Record) (keys : Json) : Except DataFault Record := do
  let keys ← keys.iterate
  if keys.all Json.isScalar then return r.project (keys.map Scalar.ofJson) else .error .compositeKey

/-- Records are told apart by their ids. -/
def same (a b : Record) : Bool := a.objectId? == b.objectId?

def display (r : Record) : String := s!"Record({r.json.display})"

def references (r : Record) : Except DataFault (Keyed Ref) := do
  let found ← r.raw.mapM fun (key, j) => do
    return (← readTagged "Pointer" Value.pointerOfFields j).map fun p => (key, p.toRef)
  return found.filterMap id

end Record

namespace Pointer

def ofRecord (className : Json) (r : Record) : Except DataFault Pointer := do
  let connections ← r.references
  return { className, objectId := (r.objectId?.map Json.string).getD .null, connections }

def ofSaved (className : Option String) (r : Record) : Except Error Pointer :=
  if r.objectId?.isNone then .error (.query (.noObjectId (className.getD "None")))
  else (ofRecord ((className.map Json.string).getD .null) r).mapError Error.data

def connection (p : Pointer) (key : String) : Except DataFault Ref :=
  match Assoc.get? p.connections (.string key) with
  | some ref => .ok ref
  | none => .error (.missing key)

end Pointer

end RecordCache
