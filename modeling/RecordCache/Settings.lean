import RecordCache.Error

/-!
Settings by keyword. A component declares the parameters it takes, and gets the settings of those
names, or the defaults.
-/

namespace RecordCache

abbrev Settings := Fields Json

/-- A parameter of a component; only a named one with a default is a setting. -/
structure Parameter where
  name : String
  default : Option Json := none
  named : Bool := true

namespace Settings

def timeout : Json := .int 30

def serverUrl : Json := .string "https://api.parse.com/1"

def defaults : Settings := [
  ("application_id", .null), ("rest_key", .null), ("master_key", .null), ("session_token", .null),
  ("server_url", serverUrl), ("timeout", timeout), ("cache_root", .null), ("cache_url", .null),
  ("fetch_debounce", .float 0.25), ("page_size", .int 1000), ("default_limit", .int 100)]

def ofKeywords (keywords : List String) : Json → Except Error Settings
  | .object given =>
    if given.all fun entry => keywords.contains entry.1 then .ok (defaults.merge given)
    else .error (.setting .unexpectedKeyword)
  | _ => .error (.setting .unexpectedKeyword)

def ofJson (given : Json) : Except Error Settings := ofKeywords defaults.keys given

/-- Other keywords are not looked at; skipped ones take their defaults. -/
def pluck (given : Fields Json) (skip : List String) : Settings :=
  defaults.map fun (name, default) =>
    (name, if skip.contains name then default else (given.get? name).getD default)

def withMore (settings : Settings) : Json → Except Error Settings
  | .object more => ofJson (.object (settings.merge more))
  | _ => .error (.setting .unexpectedKeyword)

def value (settings : Settings) (name : String) : Json := (settings.get? name).getD .null

end Settings

namespace Parameter

def setting? (p : Parameter) : Option (String × Json) :=
  if p.named then p.default.map fun default => (p.name, default) else none

def arguments (parameters : List Parameter) (skip : List String) (given : Fields Json) : Fields Json :=
  (parameters.filterMap setting?).filterMap fun (name, default) =>
    if skip.contains name then none else some (name, (given.get? name).getD default)

end Parameter

end RecordCache
