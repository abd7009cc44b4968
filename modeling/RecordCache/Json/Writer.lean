import RecordCache.Json
import RecordCache.Number.Decimal
import RecordCache.Text.Quoted

/-!
Writing documents: `write` gives JSON text in ASCII, `display` the form in which values show in
messages and by which values without an order of their own are sorted.
-/

namespace RecordCache

def jsonNames : Binary.SpecialNames := ⟨"NaN", "Infinity"⟩

def displayNames : Binary.SpecialNames := ⟨"nan", "inf"⟩

namespace Number

def text (names : Binary.SpecialNames) : Number → String
  | .int i => toString i
  | .float x => Binary.text names x

def display (n : Number) : String := n.text displayNames

end Number

namespace Json

def unicodeEscape (unit : Nat) : List Char := '\\' :: 'u' :: Text.hexDigits 4 unit

def escapeChar (c : Char) : List Char :=
  match c with
  | '"' => ['\\', '"']
  | '\\' => ['\\', '\\']
  | '\n' => ['\\', 'n']
  | '\r' => ['\\', 'r']
  | '\t' => ['\\', 't']
  | '\x08' => ['\\', 'b']
  | '\x0c' => ['\\', 'f']
  | c =>
    let n := c.toNat
    if 0x20 ≤ n && n < 0x7f then [c]
    else if n < 0x10000 then unicodeEscape n
    else
      let offset := n - 0x10000
      unicodeEscape (0xd800 + offset / 0x400) ++ unicodeEscape (0xdc00 + offset % 0x400)

def writeString (s : String) : String :=
  "\"" ++ String.ofList (s.toList.flatMap escapeChar) ++ "\""

def boolText (b : Bool) : String := if b then "true" else "false"

def nameText : Json → String
  | .null => "null"
  | .bool b => boolText b
  | .number n => n.text jsonNames
  | .string s => s
  | _ => ""

def pairTexts : List String → List String → List String
  | name :: _ :: names, _ :: content :: contents => (name ++ ": " ++ content) :: pairTexts names contents
  | _, _ => []

mutual

/-- JSON text with `", "` and `": "` between its parts. Tuples are written like lists; of other things
only objects can be written. -/
def write : Json → String
  | .null => "null"
  | .bool b => boolText b
  | .number n => n.text jsonNames
  | .string s => writeString s
  | .array items => "[" ++ Text.join ", " (writeItems items) ++ "]"
  | .object fields => "\x7b" ++ Text.join ", " (writeFields fields) ++ "\x7d"
  | .other .keyed parts =>
    "\x7b" ++ Text.join ", " (pairTexts (parts.map fun p => writeString p.nameText) (writeItems parts)) ++ "\x7d"
  | .other _ parts => "[" ++ Text.join ", " (writeItems parts) ++ "]"

def writeItems : List Json → List String
  | [] => []
  | item :: rest => write item :: writeItems rest

def writeFields : List (String × Json) → List String
  | [] => []
  | (name, value) :: rest => (writeString name ++ ": " ++ write value) :: writeFields rest

end

mutual

/-- The document has a text: there are no things in it but tuples and objects. -/
def isWritable : Json → Bool
  | .array items => allWritable items
  | .object fields => fieldsWritable fields
  | .other .tuple parts => allWritable parts
  | .other .keyed parts => allWritable parts
  | .other _ _ => false
  | _ => true

def allWritable : List Json → Bool
  | [] => true
  | item :: rest => isWritable item && allWritable rest

def fieldsWritable : List (String × Json) → Bool
  | [] => true
  | (_, value) :: rest => isWritable value && fieldsWritable rest

end

def namedParts : List Json → List (String × Json)
  | name :: content :: rest => (name.nameText, content) :: namedParts rest
  | _ => []

mutual

/-- The document that the text of a document reads back as. -/
def readBack : Json → Json
  | .array items => .array (readBackItems items)
  | .object fields => .object (readBackFields fields)
  | .other .keyed parts => ofFields (namedParts (readBackItems parts))
  | .other _ parts => .array (readBackItems parts)
  | j => j

def readBackItems : List Json → List Json
  | [] => []
  | item :: rest => readBack item :: readBackItems rest

def readBackFields : List (String × Json) → List (String × Json)
  | [] => []
  | (name, value) :: rest => (name, readBack value) :: readBackFields rest

end

end Json

/-! ### Things in messages -/

namespace WallTime

/-- An offset is shown as whole days, which are less than none when it is negative, and what is left. -/
def zoneDisplay (micros : Int) : String :=
  if micros = 0 then "datetime.timezone.utc"
  else
    let part (name : String) (n : Int) : List String := if n = 0 then [] else [name ++ "=" ++ toString n]
    let left := micros % (Date.millisPerDay * 1000 : Nat)
    let parts := part "days" (if micros < 0 then -1 else 0) ++ part "seconds" (left / 1000000) ++
      part "microseconds" (left % 1000000)
    "datetime.timezone(datetime.timedelta(" ++ Text.join ", " parts ++ "))"

def display (t : WallTime) : String :=
  let finer : List Int :=
    if t.microsecond ≠ 0 then [t.second, t.microsecond] else if t.second ≠ 0 then [t.second] else []
  let parts : List Int := [(t.date.year : Int), t.date.month, t.date.day, t.hour, t.minute] ++ finer
  let zone := t.offset.toList.map fun micros => "tzinfo=" ++ zoneDisplay micros
  "datetime.datetime(" ++ Text.join ", " (parts.map toString ++ zone) ++ ")"

end WallTime

namespace Thing

def optionName : Char → String
  | 'i' => "re.IGNORECASE"
  | 'm' => "re.MULTILINE"
  | 's' => "re.DOTALL"
  | 'x' => "re.VERBOSE"
  | _ => "re.ASCII"

def patternDisplay (letters source : String) : String :=
  let flags := if letters.isEmpty then "" else ", " ++ Text.join "|" (letters.toList.map optionName)
  "re.compile(" ++ String.ofList (source.toList.take 200) ++ flags ++ ")"

def call (kind : String) (arguments : List String) : String := kind ++ "(" ++ Text.join ", " arguments ++ ")"

def tagged (tag : String) (fields : List (String × String)) : String :=
  let shown := (("__type", Text.quoted tag) :: fields).map fun (name, text) => Text.quoted name ++ ": " ++ text
  call tag ["\x7b" ++ Text.join ", " shown ++ "\x7d"]

def plain (parts : List Json) (texts : List String) : List String :=
  (parts.zip texts).map fun (part, text) => part.string?.getD text

def display (thing : Thing) (parts : List Json) (texts : List String) : String :=
  match thing, texts with
  | .tuple, [text] => "(" ++ text ++ ",)"
  | .tuple, _ => "(" ++ Text.join ", " texts ++ ")"
  | .keyed, _ => "\x7b" ++ Text.join ", " (Json.pairTexts texts texts) ++ "\x7d"
  | .instant t, _ => t.display
  | .octets b growable, _ => if growable then call "bytearray" [Text.quotedOctets b] else Text.quotedOctets b
  | .scalar, _ => call "Value" texts
  | .raw, _ => call "Raw" texts
  | .date d, _ => call "Date" [Text.quoted d.iso]
  | .file, [name, url] =>
    tagged "File" (("name", name) :: if url = "None" then [] else [("url", url)])
  | .pointer, _ => "*" ++ Text.join "." (plain parts texts)
  | .geoPoint, [lat, lng] => tagged "GeoPoint" [("latitude", lat), ("longitude", lng)]
  | .acl, _ => call "ACL" texts
  | .record, _ => call "Record" texts
  | .entity _ className, _ =>
    "<" ++ className.getD "None" ++ " " ++ ((parts.head?.bind Json.idOf?).getD "None") ++ ">"
  | .pattern letters, [source] => patternDisplay letters source
  | .clauses _, _ => "[" ++ Text.join ", " texts ++ "]"
  | _, _ => "<object object>"

end Thing

namespace Json

mutual

def display : Json → String
  | .null => "None"
  | .bool b => if b then "True" else "False"
  | .number n => n.display
  | .string s => Text.quoted s
  | .array items => "[" ++ Text.join ", " (displayItems items) ++ "]"
  | .object fields => "\x7b" ++ Text.join ", " (displayFields fields) ++ "\x7d"
  | .other thing parts => thing.display parts (displayItems parts)

def displayItems : List Json → List String
  | [] => []
  | item :: rest => display item :: displayItems rest

def displayFields : List (String × Json) → List String
  | [] => []
  | (name, value) :: rest => (Text.quoted name ++ ": " ++ display value) :: displayFields rest

end

def plainDisplay : Json → String
  | .string s => s
  | j => j.display

/-! ### Kinds in messages -/

def kindName : Json → String × String
  | .null => ("", "NoneType")
  | .bool _ => ("", "bool")
  | .number (.int _) => ("", "int")
  | .number (.float _) => ("", "float")
  | .string _ => ("", "str")
  | .array _ => ("", "list")
  | .object _ => ("", "dict")
  | .other thing _ =>
    match thing with
    | .tuple => ("", "tuple")
    | .keyed => ("", "dict")
    | .instant _ => ("datetime.", "datetime")
    | .octets _ growable => ("", if growable then "bytearray" else "bytes")
    | .scalar => ("parselocal.values.", "Value")
    | .raw => ("parselocal.values.", "Raw")
    | .date _ => ("parselocal.values.", "Date")
    | .file => ("parselocal.values.", "File")
    | .pointer => ("parselocal.values.", "Pointer")
    | .geoPoint => ("parselocal.values.", "GeoPoint")
    | .acl => ("parselocal.values.", "ACL")
    | .record => ("parselocal.record.", "Record")
    | .entity schema _ => ("", schema)
    | .pattern _ => ("re.", "Pattern")
    | .clauses _ => ("", "list")
    | .unknown => ("", "object")

def typeName (j : Json) : String := j.kindName.2

def qualifiedTypeName (j : Json) : String := j.kindName.1 ++ j.kindName.2

end Json

end RecordCache
