import RecordCache.Assoc
import RecordCache.Date

/-!
Documents of the data format, with objects in insertion order, and what an application may hand over
besides them: tuples, points in time, octets, values, records. Such things have parts, which are
documents or things again.

`Json.same` is the equality of the program: numbers by value, `true` and `false` as 1 and 0, objects
whatever the order of their fields. No NaN is the same as another one, but inside of lists and objects
all of them are alike.
-/

namespace RecordCache

/-- What the application may hand over besides documents. -/
inductive Thing
  | tuple
  /-- An object whose names are scalars, not all of them texts: names and contents take turns. -/
  | keyed
  | instant (value : WallTime)
  | octets (value : List UInt8) (growable : Bool)
  | scalar
  | raw
  | date (value : Date)
  | file
  | pointer
  | geoPoint
  | acl
  | record
  | entity (schema : String) (className : Option String)
  /-- A pattern that was read: its source, and the letters of its options. -/
  | pattern (letters : String)
  /-- The list of clauses of this number, to which clauses may be added. -/
  | clauses (number : Nat)
  | unknown
  deriving Inhabited

namespace Thing

def isValue : Thing → Bool
  | .scalar => true
  | .raw => true
  | .date _ => true
  | .file => true
  | .pointer => true
  | .geoPoint => true
  | .acl => true
  | _ => false

end Thing

inductive Json
  | null
  | bool (value : Bool)
  | number (value : Number)
  | string (value : String)
  | array (items : List Json)
  | object (fields : List (String × Json))
  | other (thing : Thing) (parts : List Json)
  deriving Inhabited

namespace Json

def int (i : Int) : Json := .number (.int i)

def float (x : Float) : Json := .number (.float x)

def ofFields (entries : List (String × Json)) : Json := .object (Assoc.ofList entries)

def string? : Json → Option String
  | .string s => some s
  | _ => none

def array? : Json → Option (List Json)
  | .array items => some items
  | _ => none

def object? : Json → Option (Fields Json)
  | .object fields => some fields
  | _ => none

/-- A number, or a truth value read as 1 or 0. -/
def numeric? : Json → Option Number
  | .number n => some n
  | .bool b => some (.int (if b then 1 else 0))
  | _ => none

def truthy : Json → Bool
  | .null => false
  | .bool b => b
  | .number n => !n.isZero
  | .string s => !s.isEmpty
  | .array items => !items.isEmpty
  | .object fields => !fields.isEmpty
  | .other .tuple parts => !parts.isEmpty
  | .other .keyed parts => !parts.isEmpty
  | .other (.octets value _) _ => !value.isEmpty
  | .other _ _ => true

def isScalar : Json → Bool
  | .array _ => false
  | .object _ => false
  | .other _ _ => false
  | _ => true

def isNull : Json → Bool
  | .null => true
  | _ => false

def isTruth : Json → Bool
  | .bool _ => true
  | _ => false

/-! ### Equality -/

def sameScalar (a b : Json) : Bool :=
  match a, b with
  | .null, .null => true
  | .string s, .string t => s == t
  | a, b =>
    match a.numeric?, b.numeric? with
    | some m, some n => m.same n
    | _, _ => false

def isNaN : Json → Bool
  | .number (.float x) => Binary.notANumber x
  | _ => false

def bothNaN (a b : Json) : Bool := a.isNaN && b.isNaN

def sameName (a b : Json) : Bool := bothNaN a b || sameScalar a b

def content? : List Json → Json → Option Json
  | name :: content :: rest, key => if sameName name key then some content else content? rest key
  | _, _ => none

def get? (key : String) : Json → Option Json
  | .object fields => Assoc.get? fields key
  | .other .keyed parts => content? parts (.string key)
  | _ => none

def idOf? (fields : Json) : Option String := (fields.get? "objectId").bind string?

mutual

def same : Json → Json → Bool
  | .array xs, .array ys => sameItems xs ys
  | .object fs, .object gs => fs.length == gs.length && sameFields fs gs
  | .other s xs, .other t ys =>
    match s, t with
    | .tuple, .tuple => sameItems xs ys
    | .keyed, .keyed => xs.length == ys.length && sameEntries xs ys
    | .instant a, .instant b => a.same b
    | .octets a _, .octets b _ => a == b
    | .scalar, .scalar => (xs.map isTruth) == (ys.map isTruth) && sameParts xs ys
    | .raw, .raw => sameParts xs ys
    | .date a, .date b => a == b
    | .file, .file => sameItems xs ys
    | .pointer, .pointer => sameParts xs ys
    | .geoPoint, .geoPoint => sameItems xs ys
    | .acl, .acl => sameParts xs ys
    | .record, .record => (xs.map idOf?) == (ys.map idOf?)
    | .entity _ c, .entity _ d => c == d && (xs.map idOf?) == (ys.map idOf?)
    | .pattern a, .pattern b => a == b && sameParts xs ys
    | .clauses m, .clauses n => m == n
    | _, _ => false
  | a, b => sameScalar a b

def sameItems : List Json → List Json → Bool
  | [], [] => true
  | x :: xs, y :: ys => (bothNaN x y || same x y) && sameItems xs ys
  | _, _ => false

def sameParts : List Json → List Json → Bool
  | [], [] => true
  | x :: xs, y :: ys => same x y && sameParts xs ys
  | _, _ => false

def sameFields : List (String × Json) → List (String × Json) → Bool
  | [], _ => true
  | (key, value) :: rest, others =>
    (match Assoc.get? others key with
      | some like => bothNaN value like || same value like
      | none => false) && sameFields rest others

def sameEntries : List Json → List Json → Bool
  | name :: content :: rest, others =>
    (match content? others name with
      | some like => bothNaN content like || same content like
      | none => false) && sameEntries rest others
  | _, _ => true

end

/-- The same, or both NaN. -/
def alike (a b : Json) : Bool := bothNaN a b || a.same b

def among (j : Json) (items : List Json) : Bool := items.any fun item => item.alike j

end Json

end RecordCache
