import RecordCache.Argument

/-!
Lists of field names: the fields to load, and the references to expand.
-/

namespace RecordCache

structure Selection where
  keys : List String := []

namespace Selection

def addKey (keys : List String) (key : String) : List String :=
  if keys.contains key then keys else keys ++ [key]

def add (s : Selection) (section_ : String) (keys : Json) : Except Error Selection := do
  if !keys.truthy then return s
  match keys.texts? with
  | some texts => return ⟨((texts.map Text.trim).filter (· ≠ "")).foldl addKey s.keys⟩
  | none => throw (.query (.keysShape section_ keys.qualifiedTypeName))

def compose (s : Selection) (section_ : String) (params : Fields Json) : Fields Json :=
  if s.keys.isEmpty then params else params.set section_ (.string (Text.join "," s.keys))

/-- Keeps the selected fields and the system fields; everything when nothing is selected. -/
def project (s : Selection) (records : List Record) : List Record :=
  if s.keys.isEmpty then records else records.map (·.project (s.keys.map Scalar.string))

end Selection

end RecordCache
