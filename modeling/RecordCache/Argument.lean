import RecordCache.Pattern
import RecordCache.Record

/-!
What an application passes in: documents, and things that are none. An argument becomes a value of the
wire where it can; the items of a list stay as they are.
-/

namespace RecordCache

namespace Value

def ofInstant (t : WallTime) : Except Error Value :=
  (Date.ofWallTime t).mapError (Error.data ∘ DataFault.date) |>.map Value.date

def ofParts (thing : Thing) (parts : List Json) : Except Error Value :=
  match thing, parts with
  | .tuple, items => .ok (.raw (.array items))
  | .instant t, _ => ofInstant t
  | .octets b _, _ => .ok (.bytes b)
  | .scalar, [_] => .ok (.scalar (Scalar.ofJson (.other .scalar parts)))
  | .raw, [j] => .ok (.raw j)
  | .date d, _ => .ok (.date d)
  | .file, [name, url] => .ok (.file name url)
  | .pointer, [className, objectId] => .ok (.pointer { className, objectId })
  | .geoPoint, [latitude, longitude] => .ok (.geoPoint latitude longitude)
  | .acl, [j] => do return .acl (← Acl.ofJson j)
  | .entity _ className, [fields] => do
    return .pointer (← Pointer.ofSaved className (← Record.ofJson fields))
  | .record, _ => .error (.data .unnamedClass)
  | thing, parts => .error (.query (.unconvertible (Json.other thing parts).typeName))

/-- The value that goes over the wire. An entity goes as a pointer to it. -/
def ofArgument : Json → Except Error Value
  | .other thing parts => ofParts thing parts
  | j => (decode j).mapError Error.data

end Value

namespace Pointer

def ofArgument (j : Json) : Except Error Pointer := do
  match ← Value.ofArgument j with
  | .pointer p => return p
  | _ => throw (.query (.pointerExpected j.typeName))

end Pointer

namespace Json

def encode (j : Json) : Except Error Json := Value.json <$> Value.ofArgument j

def texts? : Json → Option (List String)
  | .string s => some (Text.split ',' s)
  | .array items => items.mapM string?
  | .other .tuple items => items.mapM string?
  | _ => none

end Json

end RecordCache
