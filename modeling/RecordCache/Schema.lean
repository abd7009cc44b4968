import RecordCache.Record

/-!
Schemas give the fields of a class their types; an entity is a record seen through a schema.
-/

namespace RecordCache

inductive FieldType
  | text
  | whole
  | real
  | truth
  | instant
  | bytes
  | list
  | object
  | pointer
  | file
  | geoPoint
  | acl
  | entity (schema : String)
  deriving DecidableEq

namespace FieldType

def name : FieldType → String
  | .text => "str"
  | .whole => "int"
  | .real => "float"
  | .truth => "bool"
  | .instant => "datetime"
  | .bytes => "bytes"
  | .list => "list"
  | .object => "dict"
  | .pointer => "Pointer"
  | .file => "File"
  | .geoPoint => "GeoPoint"
  | .acl => "ACL"
  | .entity schema => schema

def basic : List FieldType :=
  [.text, .whole, .real, .truth, .instant, .bytes, .list, .object, .pointer, .file, .geoPoint, .acl]

def ofName? (name : String) : Option FieldType := basic.find? fun t => t.name == name

end FieldType

/-- A class of objects: the server class, the freshness window of its cache, and typed fields.
A schema without a class name only serves as a base. -/
structure Schema where
  name : String
  bases : List String := []
  className : Option String := none
  expireAfter : Option Json := none
  fields : Fields FieldType := []

/-- What a schema declares; what it leaves out comes from its base. -/
structure SchemaSpec where
  name : String
  className : Option Json := none
  expireAfter : Option Json := none
  fields : Fields (Except String FieldType) := []

namespace Schema

def user : Schema where
  name := "User"
  className := some "_User"
  fields := [("username", .text), ("email", .text), ("emailVerified", .truth), ("sessionToken", .text)]

def installation : Schema where
  name := "Installation"
  className := some "_Installation"
  fields := [("deviceType", .text), ("deviceToken", .text), ("channels", .list), ("badge", .whole)]

def builtIn : Fields Schema := [("User", user), ("Installation", installation)]

def classNameOf (model : String) : Json → Except Error (Option String)
  | .null => .ok none
  | .string s => if s.isEmpty then .error (.schema (.className model)) else .ok (some s)
  | _ => .error (.schema (.className model))

def windowOf (model : String) (j : Json) : Except Error (Option Json) :=
  match j, j.numeric? with
  | .null, _ => .ok none
  | _, some n => if n.less (.int 0) then .error (.schema (.expireAfter model)) else .ok (some j)
  | _, none => .error (.data .notOrdered)

def fieldOf (model : String) (entry : String × Except String FieldType) :
    Except Error (String × FieldType) :=
  match entry.2 with
  | .ok type => .ok (entry.1, type)
  | .error shown => .error (.schema (.fieldType model entry.1 shown))

/-- Inherited fields come first; a field declared again changes its type in place. -/
def extend (base : Schema) (spec : SchemaSpec) : Except Error Schema := do
  let className ← match spec.className with
    | some j => classNameOf spec.name j
    | none => pure base.className
  let expireAfter ← match spec.expireAfter with
    | some j => windowOf spec.name j
    | none => pure base.expireAfter
  let inherited : Fields (Except String FieldType) := base.fields.map fun (name, type) => (name, .ok type)
  let fields ← (inherited.merge spec.fields).mapM (fieldOf spec.name)
  return { name := spec.name, bases := base.name :: base.bases, className, expireAfter, fields }

def root : Schema := { name := "" }

def isBasedOn (s : Schema) (name : String) : Bool := s.name == name || s.bases.contains name

def classText (s : Schema) : String := s.className.getD "None"

def path (className : String) (objectId : Json) : String :=
  let base :=
    if className = "_User" then "users"
    else if className = "_Installation" then "installations"
    else "classes/" ++ className
  if objectId.isNull then base else base ++ "/" ++ objectId.plainDisplay

end Schema

structure Entity where
  schema : Schema
  record : Record

inductive FieldValue
  | json (value : Json)
  | instant (value : Date)
  | bytes (value : List UInt8)
  | value (value : Value)

namespace Entity

def objectId? (e : Entity) : Option String := e.record.objectId?

def classText (e : Entity) : String := e.schema.classText

def classJson (e : Entity) : Json := (e.schema.className.map Json.string).getD .null

def pointer (e : Entity) : Except Error Pointer := Pointer.ofSaved e.schema.className e.record

def json (e : Entity) : Json := .other (.entity e.schema.name e.schema.className) [e.record.json]

def optional {α : Type} (wrap : α → FieldValue) : Option α → FieldValue
  | some a => wrap a
  | none => .json .null

def wholeOf : Number → Except DataFault Json
  | .int i => .ok (.int i)
  | .float x =>
    if Binary.notANumber x then .error .notWhole
    else if Binary.infinite x then .error .tooLarge
    else .ok (.int (Binary.truncate x))

def realOf (n : Number) : Except DataFault Json :=
  match n.toFloat? with
  | some x => .ok (.float x)
  | none => .error .tooLarge

def readAs (r : Record) (key : String) : FieldType → Except DataFault FieldValue
  | .text => .ok (optional (.json ∘ Json.string) (r.scalar key).string?)
  | .whole => do return optional .json (← (r.scalar key).number?.mapM wholeOf)
  | .real => do return optional .json (← (r.scalar key).number?.mapM realOf)
  | .truth => .ok (optional (.json ∘ Json.bool) (r.scalar key).bool?)
  | .instant => do return optional .instant (← r.date? key)
  | .bytes => do return optional .bytes (← r.bytes? key)
  | .file => do return optional .value (← r.file? key)
  | .geoPoint => do return optional .value (← r.geoPoint? key)
  | .acl => do
    if key = "ACL" then return optional (.value ∘ Value.acl) (← r.security?)
    return .json .null
  | .pointer => do return optional (.value ∘ Value.pointer) (← r.pointer? key)
  | .entity _ => do return optional (.value ∘ Value.pointer) (← r.pointer? key)
  | .list => .ok (optional (.json ∘ Json.array) (r.rawField key).array?)
  | .object => .ok (optional (.json ∘ Json.object) (r.rawField key).object?)

def read (e : Entity) (key : String) : Except DataFault FieldValue :=
  match e.schema.fields.get? key with
  | some type => readAs e.record key type
  | none => FieldValue.value <$> e.record.typed key

def userField (e : Entity) (key : String) : Except DataFault FieldValue :=
  if e.schema.isBasedOn Schema.user.name then e.read key else .error .notObject

/-- Stages an assignment; a schema with fields takes no other fields. -/
def write (e : Entity) (key : String) (value : Except Error Value) : Except Error Entity := do
  if !e.schema.fields.isEmpty && !e.schema.fields.contains key then
    throw (.noField e.classText key)
  return { e with record := e.record.stage key (← value) }

def same (a b : Entity) : Bool := a.schema.className == b.schema.className && a.record.same b.record

def display (e : Entity) : String := s!"<{e.classText} " ++ e.objectId?.getD "None" ++ ">"

end Entity

end RecordCache
