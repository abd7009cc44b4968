import RecordCache.Date
import RecordCache.Json.Writer

/-!
Everything that can go wrong, by cause. `Error.message?` gives the words for the causes that have
some of their own.
-/

namespace RecordCache

inductive DataFault
  | date (fault : DateFault)
  | missing (field : String)
  /-- A type tag, or a part of a pointer, that is a list or an object. -/
  | compositeKey
  | base64NotText
  | base64NotAscii
  | base64Form
  | notPermissions
  | tooLarge
  | notWhole
  | notList
  | notObject
  /-- Clauses are to be added to something that is no list of clauses. -/
  | notClauses
  | noWireForm
  | notIndexed
  | notPairs
  | unnamedClass
  | notOrdered
  | notWritable
  | octetsInText
  deriving DecidableEq

inductive PatternFault
  | form
  /-- A repetition without bounds that can be counted to. -/
  | bound
  /-- Options that cannot be in force together, or for a pattern that was read before. -/
  | options
  | source
  deriving DecidableEq

inductive QueryFault
  | unconvertible (typeName : String)
  | countShape
  | patternShape
  | skipShape
  | limitShape
  | skipNegative
  | limitRange (largest : Nat)
  | keysShape (section_ : String) (typeName : String)
  | orderShape (typeName : String)
  | orderField (text : String)
  | idComparand
  | relationOwner
  | classesDiffer (left right : String)
  | unbound
  | amountShape
  | alreadySaved (className : String) (objectId : Json)
  | unsaved (action className : String)
  | pointerExpected (typeName : String)
  | noObjectId (className : String)
  deriving Inhabited

inductive MatchFault
  | relation
  | subQuery (kind key : String)
  deriving DecidableEq

inductive DiskFault
  | read
  | write
  | remove
  /-- The place holds no blob that could be read, or cannot hold one. -/
  | place
  /-- The place is no text, or its text has a character that no place has. -/
  | name (isText : Bool)
  deriving DecidableEq

inductive CacheFault
  | expired (space : String) (key : Json) (age : Float)
  | notFound (space : String) (key : Json)
  | wrongFormat (space : String) (key : Json) (expected : String)
  | storage (space : String) (key : Json) (fault : DiskFault)

inductive TransportFault
  | network (text : String)
  | request (method path text : String)
  | notJson (method path : String) (status : Int)
  | refused (method path : String) (status : Int)
  | notObject (method path : String)
  deriving DecidableEq

/-- An error reported by the server; its code is a known one, or as it came. -/
structure ServerError where
  code : Json
  text : Json

inductive SchemaFault
  | className (model : String)
  | expireAfter (model : String)
  | fieldType (model field shown : String)
  deriving DecidableEq

inductive SettingFault
  | unknown (names : List String)
  | twoBlobStores
  | noApplicationId
  | outOfRange
  | notNumber
  | urlNotText
  | notObject
  /-- A keyword that names nothing, or comes twice. -/
  | unexpectedKeyword
  deriving DecidableEq

inductive Error
  | data (fault : DataFault)
  | query (fault : QueryFault)
  | unmatchable (fault : MatchFault)
  | cache (fault : CacheFault)
  | noSession
  | transport (fault : TransportFault)
  | server (error : ServerError)
  | pattern (fault : PatternFault)
  | schema (fault : SchemaFault)
  | noField (className key : String)
  | notCached (className : String)
  | setting (fault : SettingFault)
  | disk (fault : DiskFault)
  | application (text : String)

instance : Inhabited Error := ⟨.noSession⟩

instance : MonadLift (Except DataFault) (Except Error) := ⟨fun r => r.mapError Error.data⟩

namespace QueryFault

def message : QueryFault → String
  | .unconvertible t => s!"Cannot convert {t} into a wire value"
  | .countShape => "Count must be either true or false. Or at least a 1, or a 0"
  | .patternShape => "MatchRegex: pattern must be a string or a compiled regular expression"
  | .skipShape => "Skip must be either an integer, or null"
  | .limitShape => "Limit must be either an integer, or null"
  | .skipNegative => "Skip must be a non-negative integer"
  | .limitRange largest => s!"Limit must be between 0 and {largest}"
  | .keysShape name t => s!"{name} must be either a string or a list of strings; <class '{t}'> provided."
  | .orderShape t => s!"order must be either a string or a list of strings; <class '{t}'> provided."
  | .orderField text => "order: invalid field name in " ++ Text.quoted text
  | .idComparand => "objectId can only be compared with a string, an object or a pointer"
  | .relationOwner => "related_to() expects an object or a pointer"
  | .classesDiffer l r => s!"Cannot OR queries on different classes: {l} and {r}"
  | .unbound => "This query is not bound to a client"
  | .amountShape => "Increment: amount must be a number"
  | .alreadySaved c id => s!"{c}/{id.plainDisplay} already exists: use update()"
  | .unsaved action c => s!"Cannot {action} a {c} without an objectId"
  | .pointerExpected t => s!"Expected an object or a pointer, got {t}"
  | .noObjectId c => s!"{c} has no objectId yet: save it first"

end QueryFault

namespace MatchFault

def message : MatchFault → String
  | .relation => "RelatedTo can only be evaluated by the server"
  | .subQuery kind key =>
    s!"{kind} on `{key}` has to be rewritten with replace_sub_queries() before matching"

end MatchFault

namespace DiskFault

def text? : DiskFault → Option String
  | .read => some "OSError(5, 'Input/output error')"
  | .write => some "OSError(28, 'No space left on device')"
  | .remove => some "OSError(30, 'Read-only file system')"
  | .place => none
  | .name _ => none

end DiskFault

namespace CacheFault

def place (space : String) (key : Json) : String := space ++ "/" ++ key.plainDisplay

def message? : CacheFault → Option String
  | .expired s k age =>
    some s!"Cached \"{place s k}\" has expired: {Binary.oneDecimal displayNames age} secs old"
  | .notFound s k => some s!"Cached \"{place s k}\" not found"
  | .wrongFormat s k expected => some s!"Cached \"{place s k}\" is not {expected}"
  | .storage s k fault => fault.text?.map fun t => s!"Cache storage failed on \"{place s k}\": {t}"

end CacheFault

namespace TransportFault

def message : TransportFault → String
  | .network text => text
  | .request m p text => s!"{m} {p} failed: {text}"
  | .notJson m p status => s!"{m} {p}: HTTP {status}, not a JSON response"
  | .refused m p status => s!"{m} {p}: HTTP {status}"
  | .notObject m p => s!"{m} {p}: the response is not a JSON object"

end TransportFault

namespace SchemaFault

def message : SchemaFault → String
  | .className m => s!"{m}.class_name must be a non-empty string"
  | .expireAfter m => s!"{m}.expire_after must be a positive number of seconds"
  | .fieldType m field shown => s!"{m}.fields[{Text.quoted field}]: unsupported type {shown}"

end SchemaFault

namespace SettingFault

def message? : SettingFault → Option String
  | .unknown names =>
    some ("Invalid settings were provided for the client: " ++ Text.join ", " names)
  | .twoBlobStores => some "Provide either `cache_root`, or `cache_url`, but not both"
  | .noApplicationId => some "application_id is required"
  | .outOfRange => some ""
  | .notObject => some ""
  | .notNumber => none
  | .urlNotText => none
  | .unexpectedKeyword => none

end SettingFault

namespace ServerError

def message (e : ServerError) : String := s!"{e.text.plainDisplay} (code {e.code.plainDisplay})"

end ServerError

namespace Error

def message? : Error → Option String
  | .data (.missing field) => some field
  | .data _ => none
  | .query fault => some ("Query error: " ++ fault.message)
  | .unmatchable fault => some fault.message
  | .cache fault => fault.message?
  | .noSession => some "The server did not give us a session token"
  | .transport fault => some fault.message
  | .server e => some e.message
  | .pattern _ => none
  | .schema fault => some fault.message
  | .noField c key => some (s!"{c} has no field " ++ Text.quoted key)
  | .notCached c => some s!"{c} is not cached: it has no expire_after"
  | .setting fault => fault.message?
  | .disk _ => none
  | .application text => some text

/-- Failures of the local cache: callers go to the server instead. -/
def isCache : Error → Bool
  | .cache _ => true
  | _ => false

end Error

end RecordCache
