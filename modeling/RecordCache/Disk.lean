import RecordCache.Disk.Path
import RecordCache.Error
import RecordCache.Json.Reader

/-!
Blobs by place, each stamped with the time of its last write. `Disk.fails` says which accesses fail:
an access that fails so changes nothing. A blob is a document, or octets that came from elsewhere.
-/

namespace RecordCache

inductive Blob
  | document (value : Json)
  | octets (value : List UInt8)

namespace Blob

def bytes : Blob → List UInt8
  | .document j => Text.Utf8.encode j.write
  | .octets b => b

def text : Blob → String
  | .document j => j.write
  | .octets b => Text.Utf8.decodeLossy b

def json? : Blob → Option Json
  | .document j => some j.readBack
  | .octets b => (Text.Utf8.decode? b).bind Json.read?

end Blob

structure Stored where
  content : Blob
  mtime : Float

inductive Access
  | read
  | write
  | remove
  deriving DecidableEq

namespace Access

def fault : Access → DiskFault
  | .read => .read
  | .write => .write
  | .remove => .remove

end Access

/-- Blobs in memory, in a table whose places need a key, or in files. -/
inductive DiskKind
  | memory
  | table
  | files
  deriving DecidableEq

structure Disk where
  kind : DiskKind := .memory
  blobs : Assoc Spot Stored := []
  folders : List Path.Location := []
  now : Float := 1000.0
  /-- What the clock of the file system shows. It need not agree with the one that ages are told by. -/
  fileNow : Float := 1700000000.0
  fails : Access → Nat → Bool := fun _ _ => false
  /-- How many more writes there is room for. -/
  room : Option Nat := none
  accesses : Nat := 0

/-- Work on a disk; what was changed before a failure stays changed. -/
abbrev DiskWork := ExceptT DiskFault (StateM Disk)

namespace Disk

def stamp (d : Disk) : Float :=
  match d.kind with
  | .files => d.fileNow
  | _ => d.now

def advance (d : Disk) (seconds : Float) : Disk :=
  { d with now := d.now + seconds, fileNow := d.fileNow + seconds }

def switch (d : Disk) (access : Access) (on : Bool) : Disk :=
  { d with fails := fun a n => if a = access then on else d.fails a n }

def label (entry : Spot × Stored) : String :=
  (Json.other .tuple [.string entry.1.space, entry.1.key.json]).display

def listing (d : Disk) : List (Spot × Stored) := d.blobs.mergeSort fun a b => !(label b < label a)

/-! ### Files -/

def isFolder (d : Disk) (location : Path.Location) : Bool :=
  location.all (· == "..") || location = Path.top || d.folders.contains location

def isFile (d : Disk) (location : Path.Location) : Bool := d.blobs.contains (Path.spot location)

/-- Where the way ends, or nothing when a folder on it is missing. -/
def follow (d : Disk) : Path.Location → List String → Except DiskFault (Option Path.Location)
  | here, [] => .ok (some here)
  | here, name :: rest =>
    if d.isFile here then .error .place
    else if !d.isFolder here then .ok none
    else if Path.isLonger name Path.longestName then .error .place
    else d.follow (Path.enter here name) rest

def file? (d : Disk) (space key : String) : Except DiskFault (Option Spot) := do
  if Path.hasNull (space ++ key) then throw (.name true)
  if Path.isLonger (space ++ key) Path.longestWay then throw .place
  match ← d.follow (Path.start space key) (Path.names space key) with
  | some location =>
    if d.isFolder location then throw .place
    return if d.isFile location then some (Path.spot location) else none
  | none => return none

def addFolder (d : Disk) (location : Path.Location) : Disk :=
  if d.isFolder location || d.isFile location then d else { d with folders := d.folders ++ [location] }

def makeWay : Path.Location → List String → DiskWork Path.Location
  | here, [] => do if (← get).isFile here then throw .place else return here
  | here, name :: rest => do
    if Path.hasNull name then throw (.name true)
    if (← get).isFile here || Path.isLonger name Path.longestName then throw .place
    modify (·.addFolder (Path.enter here name))
    makeWay (Path.enter here name) rest

/-- The spot of a file that is to be written. It is written under a longer name first. -/
def fileToWrite (space key : String) : DiskWork Spot := do
  if Path.isLonger (space ++ key) (Path.longestWay - Path.writingSuffix) then throw .place
  let names := Path.names space key
  let folder ← makeWay (Path.start space key) names.dropLast
  let name := names.getLastD ""
  if Path.hasNull name then throw (.name true)
  let location := Path.enter folder name
  if Path.isFolderName name || Path.isLonger name (Path.longestName - Path.writingSuffix) ||
      (← get).isFolder location then
    throw .place
  return Path.spot location

def obstruct (d : Disk) (p : Place) : Disk :=
  let location := (Path.names p.space p.key.plainDisplay).foldl Path.enter []
  (Path.ways location).foldl addFolder { d with blobs := d.blobs.erase (Path.spot location) }

/-! ### Places -/

/-- A table keeps its keys as text, with 1 and 0 for truth values. -/
def tableKey : Scalar → Scalar
  | .bool b => .string (if b then "1" else "0")
  | .number n => .string n.display
  | key => key

/-- In memory, keys that are like one another are one key. -/
def memorySpot (d : Disk) (p : Place) : Except DiskFault Spot :=
  if !p.key.isScalar then .error (.name false)
  else
    let key := Scalar.ofJson p.key
    .ok ((d.blobs.keys.find? fun s => s.space = p.space && s.key.sameKey key).getD ⟨p.space, key⟩)

def locate (d : Disk) (p : Place) : Except DiskFault (Option Spot) :=
  match d.kind, p.key with
  | .memory, _ => some <$> d.memorySpot p
  | .table, key =>
    if key.isScalar then .ok (some ⟨p.space, tableKey (Scalar.ofJson key)⟩) else .error .place
  | .files, .string key => d.file? p.space key
  | .files, _ => .error (.name false)

def prepare (p : Place) : DiskWork Spot := do
  let d ← get
  match d.kind, p.key with
  | .memory, _ => d.memorySpot p
  | .table, .null => throw .place
  | .table, key => if key.isScalar then return ⟨p.space, tableKey (Scalar.ofJson key)⟩ else throw .place
  | .files, .string key => fileToWrite p.space key
  | .files, _ => throw (.name false)

/-! ### Accesses -/

def attempt (a : Access) : StateM Disk Bool := fun d =>
  (d.fails a d.accesses, { d with accesses := d.accesses + 1 })

def read (p : Place) : DiskWork (Option Stored) := do
  if ← attempt .read then throw .read
  let d ← get
  return (← d.locate p).bind d.blobs.get?

def write (p : Place) (content : Blob) : DiskWork Unit := do
  let failed ← attempt .write
  if failed || (← get).room = some 0 then throw .write
  let spot ← prepare p
  modify fun d =>
    { d with blobs := d.blobs.set spot ⟨content, d.stamp⟩, room := d.room.map (· - 1) }

/-- A blob that is missing already is no failure. -/
def remove (p : Place) : DiskWork Unit := do
  if ← attempt .remove then throw .remove
  if let some spot ← (← get).locate p then modify fun d => { d with blobs := d.blobs.erase spot }

end Disk

end RecordCache
