import RecordCache.Settings

/-!
Hands settings out to components, and finds the settings that no component has taken.
-/

namespace RecordCache

structure SettingsRouter where
  settings : Fields Json
  taken : List String := []

namespace SettingsRouter

def ofJson : Json → Except Error SettingsRouter
  | .object fields => .ok { settings := fields }
  | _ => .error (.setting .notObject)

def take (r : SettingsRouter) (parameters : List Parameter) (skip : List String) :
    Fields Json × SettingsRouter :=
  let arguments := Parameter.arguments parameters skip r.settings
  (arguments, { r with taken := r.taken ++ arguments.keys })

def unknown (r : SettingsRouter) : List String :=
  (r.settings.keys.filter fun name => !r.taken.contains name).mergeSort (decide <| · ≤ ·)

def check (r : SettingsRouter) : Except Error Unit :=
  if r.unknown.isEmpty then .ok () else .error (.setting (.unknown r.unknown))

end SettingsRouter

end RecordCache
