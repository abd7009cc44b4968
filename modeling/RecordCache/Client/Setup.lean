import RecordCache.Query.Paging
import RecordCache.Settings.Router
import RecordCache.Transport

/-!
Making the parts of a client from its settings.
-/

namespace RecordCache

inductive BlobPlace
  | memory
  | directory (root : Json)
  | database (url : Json)

namespace BlobPlace

def ofSettings (s : Settings) : Except Error BlobPlace :=
  let root := s.value "cache_root"
  let url := s.value "cache_url"
  if root.truthy && url.truthy then .error (.setting .twoBlobStores)
  else if root.truthy then .ok (.directory root)
  else if url.truthy then .ok (.database url)
  else .ok .memory

def ofKeywords (given : Json) : Except Error BlobPlace := do
  ofSettings (← Settings.ofKeywords ["cache_root", "cache_url"] given)

def name : BlobPlace → String
  | .memory => "MemoryBlobStore"
  | .directory _ => "FileBlobStore"
  | .database _ => "SqlBlobStore"

def root : BlobPlace → Json
  | .directory root => root
  | _ => .null

end BlobPlace

structure Setup where
  settings : Settings
  pageSize : Json

namespace Setup

/-- The settings that an object or a list of entries gives; their names have to be texts. -/
def entries (given : Json) : Except Error (Fields Json) := do
  match Keyed.fields? (← given.entries) with
  | some fields => return fields
  | none => throw (.setting .unexpectedKeyword)

def known (given : Json) : Except Error Settings := do
  let given ← entries given
  SettingsRouter.check { settings := given, taken := Settings.defaults.keys }
  return Settings.defaults.merge given

def ofSettings (given : Json) : Except Error Setup := do
  let settings ← known given
  return { settings, pageSize := ← Paging.sizeOf (some Paging.largestPage) (settings.value "page_size") }

/-- The limit of a new query; checked when a query is made. -/
def defaultLimit (s : Setup) : Json := s.settings.value "default_limit"

def assemble (given : Json) : Except Error (Setup × Transport × BlobPlace) := do
  let settings ← known given
  let transport ← Transport.ofSettings settings
  let place ← BlobPlace.ofSettings settings
  return (← ofSettings given, transport, place)

end Setup

end RecordCache
