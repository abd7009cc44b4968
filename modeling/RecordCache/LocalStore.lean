import RecordCache.Disk
import RecordCache.Record

/-!
The cached records of one class: one blob per record, and an index of ids in the order of the server.
A blob may be used until it is older than the window. Reads fail with the reason; writes that the
disk refuses are given up.
-/

namespace RecordCache

/-- Only a window that is a number can be told from an age. -/
structure LocalStore where
  className : String
  window : Json

namespace LocalStore

/-- Accesses to the disk that may fail, most of them because the cache cannot serve a blob. -/
abbrev Serving := ExceptT Error (StateM Disk)

def whenServed {α : Type} (work : Serving α) : Serving (Option α) :=
  tryCatch (some <$> work) fun e => if e.isCache then return none else throw e

def indexKey : Json := .string ".list"

def display (s : LocalStore) : String :=
  s!"LocalStore({Text.quoted s.className}, expire_after={s.window.plainDisplay})"

def place (s : LocalStore) (key : Json) : Place := ⟨s.className, key⟩

/-! ### Blobs -/

/-- Still fresh at the very end of the window. No age is greater than a value. -/
def isStale (s : LocalStore) (age : Float) : Except DataFault Bool :=
  match s.window.numeric?, s.window with
  | some seconds, _ => .ok (seconds.less (.float age))
  | none, .other thing _ => if thing.isValue then .ok false else .error .notOrdered
  | none, _ => .error .notOrdered

def access {α : Type} (s : LocalStore) (key : Json) (work : DiskWork α) : Serving α :=
  ExceptT.mk do return (← work.run).mapError fun fault => .cache (.storage s.className key fault)

def load {α : Type} (s : LocalStore) (key : Json) (read : Json → Option α) (expected : String) :
    Serving α := do
  match ← s.access key (Disk.read (s.place key)) with
  | none => throw (.cache (.notFound s.className key))
  | some stored =>
    let age := (← getThe Disk).now - stored.mtime
    if ← s.isStale age then throw (.cache (.expired s.className key age))
    match stored.content.json?.bind read with
    | some value => return value
    | none => throw (.cache (.wrongFormat s.className key expected))

def save (s : LocalStore) (key j : Json) : Serving Unit := do
  if !j.isWritable then throw (.data .notWritable)
  s.access key (Disk.write (s.place key) (.document j))

def discardBlob (s : LocalStore) (key : Json) : Serving Unit :=
  discard (whenServed (s.access key (Disk.remove (s.place key))))

/-! ### Reading -/

def listIds (s : LocalStore) : Serving (List String) :=
  s.load indexKey (fun j => j.array?.bind fun items => items.mapM Json.string?) "a list of ids"

def get (s : LocalStore) (id : Json) : Serving Record :=
  Record.ofFields <$> s.load id Json.object? "an object"

def loadAll (s : LocalStore) : Serving (List Record) := do
  (← s.listIds).mapM fun id => s.get (.string id)

/-! ### Writing -/

def addId (ids : List Json) (id : Json) : List Json := if id.among ids then ids else ids ++ [id]

def saveIndex (s : LocalStore) (ids : List Json) : Serving Unit :=
  discard (whenServed (s.save indexKey (.array ids)))

/-- Lists what is met in walking through `ids` behind the ids that are listed. -/
def extendIndex (s : LocalStore) (listed : List Json) (ids : Json) : Serving Unit := do
  s.saveIndex ((← ids.iterate).foldl addId listed)

def resetIndex (s : LocalStore) (ids : Json) : Serving Unit := s.extendIndex [] ids

/-- Adds ids to the index. An index that cannot be read is left alone, as writing it would make it
look fresh. -/
def enlist (s : LocalStore) (ids : Json) : Serving Unit := do
  if let some listed ← whenServed s.listIds then s.extendIndex (listed.map Json.string) ids

def idJson (r : Record) : Json := (r.objectId?.map Json.string).getD .null

def saveRecord (s : LocalStore) (r : Record) : Serving Unit := s.save (idJson r) r.json

def persist (s : LocalStore) (r : Record) (listed : Bool) : Serving Unit := do
  let written ← whenServed (s.saveRecord r)
  if written.isSome && listed then s.enlist (.array [idJson r])

def remove (s : LocalStore) (id : Json) : Serving Unit := do
  s.discardBlob id
  if let some listed ← whenServed s.listIds then
    if let some id := id.string? then
      if listed.contains id then s.saveIndex ((listed.erase id).map Json.string)

/-- Replaces the snapshot: the records, then the index. A snapshot that is written in part must not be
served, so its index goes. -/
def swap (s : LocalStore) (records : List Record) : Serving Unit := do
  match ← whenServed (records.forM s.saveRecord) with
  | some () => s.resetIndex (.array (records.map idJson))
  | none => s.discardBlob indexKey

end LocalStore

end RecordCache
