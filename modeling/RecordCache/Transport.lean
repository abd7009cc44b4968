import RecordCache.Json.Reader
import RecordCache.Server.ErrorCode
import RecordCache.Settings
import RecordCache.Text.Capital
import RecordCache.Text.Encoding

/-!
The HTTP side: where requests go, what they carry, and how answers are read. Reads and deletions
carry their parameters in the query string, writes in a JSON body.
-/

namespace RecordCache

structure Transport where
  serverUrl : String
  timeout : Json
  headers : Fields Json

inductive Payload
  | query (params : Fields Json)
  | body (value : Json)
  | upload (mimeType : String) (content : List UInt8)

structure Request where
  method : String
  url : String
  payload : Payload

inductive Reply
  | answer (status : Int) (body : String)
  | failure (text : String)

namespace Transport

def sessionHeader : String := "X-Parse-Session-Token"

/-- Requests carry the session from now on; none, when the token is empty. -/
def withSession (t : Transport) (token : Json) : Transport :=
  { t with headers :=
      if token.truthy then t.headers.set sessionHeader token else t.headers.erase sessionHeader }

def dropLeadingSlashes (s : String) : String := String.ofList (s.toList.dropWhile (· == '/'))

def dropTrailingSlashes (s : String) : String :=
  String.ofList (s.toList.reverse.dropWhile (· == '/')).reverse

def optionalHeader (name : String) (value : Json) (headers : Fields Json) : Fields Json :=
  if value.truthy then headers.set name value else headers

def ofSettings (s : Settings) : Except Error Transport :=
  let id := s.value "application_id"
  if !id.truthy then .error (.setting .noApplicationId)
  else match s.value "server_url" with
    | .string url =>
      let headers := optionalHeader "X-Parse-REST-API-Key" (s.value "rest_key")
        [("X-Parse-Application-Id", id)]
      let headers := optionalHeader "X-Parse-Master-Key" (s.value "master_key") headers
      .ok (withSession ⟨dropTrailingSlashes url, s.value "timeout", headers⟩ (s.value "session_token"))
    | _ => .error (.setting .urlNotText)

def keywords : List String :=
  ["application_id", "rest_key", "master_key", "session_token", "server_url", "timeout"]

def ofKeywords (given : Json) : Except Error Transport := do
  ofSettings (← Settings.ofKeywords keywords given)

def url (t : Transport) (path : String) : String := t.serverUrl ++ "/" ++ dropLeadingSlashes path

/-- Lists and objects go into the query string as JSON text. -/
def queryArgument : Json → Json
  | .array items => .string (Json.array items).write
  | .object fields => .string (Json.object fields).write
  | j => j

def carriesBody (method : String) : Bool := method = "POST" || method = "PUT"

/-- Parameters that are empty are no parameters. A query string takes those of an object only. -/
def payload (method : String) (params : Json) : Except Error Payload :=
  let params := if params.truthy then params else .object []
  if carriesBody method then .ok (.body params)
  else match params with
    | .object fields => .ok (.query (fields.map fun (key, value) => (key, queryArgument value)))
    | _ => .error (.data .notObject)

def request (t : Transport) (method path : String) (params : Json) : Except Error Request := do
  let method := Text.upper method
  return { method, url := t.url path, payload := ← payload method params }

def upload (t : Transport) (path mimeType : String) (content : List UInt8) : Request where
  method := "POST"
  url := t.url path
  payload := .upload mimeType content

/-! ### Answers -/

/-- An error that the server reports, whatever the status. -/
def reported? : Json → Option ServerError
  | .object fields =>
    if Assoc.contains fields "code" && Assoc.contains fields "error" then some (ServerError.ofPayload fields)
    else none
  | _ => none

def receive (method path : String) : Reply → Except Error (Fields Json)
  | .failure text => .error (.transport (.request method path text))
  | .answer status body =>
    match (Text.Encoding.decode? (Text.Utf8.encode body)).bind Json.read? with
    | none => .error (.transport (.notJson method path status))
    | some j =>
      match reported? j with
      | some e => .error (.server e)
      | none =>
        if status ≥ 400 then .error (.transport (.refused method path status))
        else match j with
          | .object fields => .ok fields
          | _ => .error (.transport (.notObject method path))

end Transport

end RecordCache
