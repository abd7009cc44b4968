import RecordCache.Scalar
import RecordCache.Text.CharClass
import RecordCache.Text.Utf8

/-!
Blobs as files: where a blob of a class is, and which folders are on the way. A way is followed one name
at a time, as every step needs a folder to start from.
-/

namespace RecordCache

structure Place where
  space : String
  key : Json

/-- Where a blob lies: under its class and its id, or in a file of its own. -/
structure Spot where
  space : String
  key : Scalar
  deriving DecidableEq

namespace Path

/-- The names from the folder of all blobs; the first ones may lead out of it. -/
abbrev Location := List String

def top : Location := ["/"]

def enter (folder : Location) (name : String) : Location :=
  if name = "" || name = "." then folder
  else if name = ".." then
    if folder.all (· == "..") then folder ++ [".."] else if folder = top then top else folder.dropLast
  else folder ++ [name]

/-- Where the way to a blob starts: a name with a slash in front leads from the top. -/
def start (space key : String) : Location := if key.startsWith "/" || space.startsWith "/" then top else []

def names (space key : String) : List String :=
  Text.split '/' (if key.startsWith "/" then key else space ++ "/" ++ key)

def longestName : Nat := 255

/-- While a file is written, its name is longer by so many octets. -/
def writingSuffix : Nat := 20

/-- No way is longer than this many octets, the way to the folder of all blobs left out. -/
def longestWay : Nat := 4064

def hasNull (text : String) : Bool := text.toList.contains '\x00'

def isLonger (name : String) (octets : Nat) : Bool := octets < name.utf8ByteSize

def isFolderName (name : String) : Bool := ["", ".", ".."].contains name

def ways (location : Location) : List Location :=
  (List.range location.length).map fun n => location.take (n + 1)

def spot (location : Location) : Spot := ⟨"", .string (Text.join "/" location)⟩

end Path

end RecordCache
