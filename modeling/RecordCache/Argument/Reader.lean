import RecordCache.Argument
import RecordCache.Schema

/-!
Arguments written as documents. A document with a tag stands for a thing, a list for the list of what
its items stand for, any other document for itself.
-/

namespace RecordCache.Argument

structure Reader where
  tag? : Json → Option String
  schemas : Fields Schema := Schema.builtIn

namespace Reader

def field (j : Json) (key : String) : Json := (j.get? key).getD .null

def text (j : Json) (key : String) : String := (field j key).string?.getD ""

def whole (j : Json) : Int :=
  match j.numeric? with
  | some (.int i) => i
  | some (.float x) => Binary.truncate x
  | none => 0

def timePart (j : Json) : Except DataFault Int :=
  match j.numeric? with
  | some (.int i) => if -2147483648 ≤ i && i < 2147483648 then .ok i else .error .tooLarge
  | _ => .error (.date .notNumber)

def mostDays : Nat := 999999999

def offset? (j : Json) : Except DataFault (Option Int) :=
  match j.numeric? with
  | none => if j.isNull then .ok none else .error (.date .notNumber)
  | some n =>
    match Date.microsOfMinutes? n with
    | some micros =>
      if (micros / (Date.millisPerDay * 1000 : Nat)).natAbs ≤ mostDays then .ok (some micros) else .error .tooLarge
    | none => if n.measure?.isNone then .error (.date .calendar) else .error .tooLarge

/-- The parts of a point in time, from the year to the microseconds; those behind the day may be left
out, and are zero then. -/
def wallTime (parts : List Json) (offset : Json) : Except DataFault WallTime := do
  let parts ← parts.mapM timePart
  let part (n : Nat) := parts.getD n 0
  if parts.length < 3 || 7 < parts.length then throw (.date .notNumber)
  return ⟨⟨(part 0).toNat, (part 1).toNat, (part 2).toNat⟩, part 3, part 4, part 5, part 6,
    ← offset? offset⟩

def instant (j : Json) : Except Error Json := do
  let t ← wallTime ((field j "args").array?.getD []) (field j "offset")
  if Date.isWallTime t then return .other (.instant t) [] else throw (.data (.date .calendar))

def schema (r : Reader) (j : Json) : Schema := (r.schemas.get? (text j "model")).getD Schema.root

def pattern (j : Json) : Except Error Json := do
  return (← Pattern.compile (field j "pattern") (Pattern.optionsOfLetters (text j "flags"))).json

def date (j : Json) : Except Error Json := do
  return .other (.date (← Value.dateOfJson (field j "iso"))) []

def ofKind (r : Reader) (kind : String) (j : Json) (read : String → Except Error Json) :
    Except Error Json :=
  match kind with
  | "datetime" => instant j
  | "bytes" => .ok (.other (.octets (Text.Hex.decode (text j "hex")) false) [])
  | "bytearray" => .ok (.other (.octets (Text.Hex.decode (text j "hex")) true) [])
  | "value" => do return .other .scalar [(Scalar.ofJson (← read "v")).json]
  | "raw" => .ok (.other .raw [field j "v"])
  | "date" => date j
  | "pointer" => .ok (.other .pointer [field j "class", field j "id"])
  | "file" => .ok (.other .file [field j "name", field j "url"])
  | "geo" => .ok (.other .geoPoint [field j "lat", field j "lng"])
  | "acl" => do return .other .acl [(← Acl.ofJson (field j "json")).json]
  | "tuple" => do return .other .tuple ((← read "items").array?.getD [])
  | "regex" => pattern j
  | "model" => do return (Entity.mk (r.schema j) (← Record.ofJson (field j "json"))).json
  | "record" => do return .other .record [(← Record.ofJson (field j "json")).json]
  | _ => .ok (.other .unknown [])

mutual

def read (r : Reader) : Json → Except Error Json
  | .array items => do return .array (← readItems r items)
  | .object fields =>
    match r.tag? (.object fields) with
    | some kind => r.ofKind kind (.object fields) (readField r fields)
    | none => .ok (.object fields)
  | j => .ok j

def readItems (r : Reader) : List Json → Except Error (List Json)
  | [] => .ok []
  | j :: rest => do return (← read r j) :: (← readItems r rest)

def readField (r : Reader) : List (String × Json) → String → Except Error Json
  | [], _ => .ok .null
  | (name, j) :: rest, key => if name = key then read r j else readField r rest key

end

end Reader

end RecordCache.Argument
