import RecordCache.Client.Writing
import RecordCache.Constraint.Where

/-!
Users and their sessions, and the other things that a server offers: functions, files, settings of the
application, push notifications.
-/

namespace RecordCache

namespace Session

variable {κ α : Type}

/-! ### Sessions -/

def welcome (answer : Json) : Work κ α Entity := do
  let token := (← field? answer "sessionToken").getD .null
  if !token.truthy then throw .noSession
  useSession token
  let user : Entity := ⟨Schema.user, ← ofData (Record.ofJson answer)⟩
  modify fun s => { s with user := some user }
  return user

def logIn (username password : Json) : Work κ α Entity := do
  useSession .null
  welcome (← request "GET" "login" (some [("username", username), ("password", password)]))

def setting (className : String) (fields : Fields Json) : Work κ α Batch := do
  return { className, operations := ← fields.mapM fun (key, value) => ofExcept (Operation.setArgument key value) }

def checkNames (parameters : List String) (fields : Fields Json) : Work κ α Unit := do
  if parameters.any fields.contains then throw (.setting .unexpectedKeyword)

def signUp (username password : Json) (fields : Fields Json) : Work κ α Entity := do
  checkNames ["self", "username", "password"] fields
  useSession .null
  discard (create (← setting "_User" ([("username", username), ("password", password)] ++ fields)))
  logIn username password

def become (token : Json) : Work κ α Entity := do
  useSession token
  match ← request "GET" "users/me" none with
  | .object fields =>
    welcome (.object (if Assoc.contains fields "sessionToken" then fields else Assoc.set fields "sessionToken" token))
  | _ => throw (.data .notObject)

/-- The session ends here even when the server does not hear of it. -/
def logOut : Work κ α Unit := do
  if (← get).user.isNone then return ()
  let outcome ← attempt (request "POST" "logout" none)
  useSession .null
  modify fun s => { s with user := none }
  discard (ofExcept outcome)

/-! ### Services -/

def callFunction (name params : Json) : Work κ α Json :=
  send (.request "POST" ("functions/" ++ name.plainDisplay) (some (if params.truthy then params else .object [])))

def config : Work κ α Json := do
  return (← field? (← request "GET" "config" none) "params").getD (.object [])

def uploadFile (name : Json) (content : List UInt8) (mimeType : Option String) : Work κ α Value := do
  let answer ← send (.upload ("files/" ++ name.plainDisplay) (mimeType.getD "application/octet-stream") content)
  let stored ← requireField answer "name"
  return .file stored ((← field? answer "url").getD .null)

def deviceParameters : List String := ["device_type", "channels"]

/-- Registers a device for push notifications, by default of one kind and without channels. The
`parameters` that are left out may stand among the fields. -/
def registerInstallation (token : Json) (parameters fields : Fields Json) : Work κ α Record := do
  checkNames (["self", "device_token"] ++ parameters.keys) fields
  let given := parameters ++ fields
  let deviceType := (given.get? "device_type").getD (.string "ios")
  let device ← setting "_Installation" [("deviceType", deviceType), ("deviceToken", token)]
  let channels ← ofData ((given.get? "channels").getD (.array [])).iterate
  let others := fields.filter fun entry => !deviceParameters.contains entry.1
  let rest ← setting "_Installation" (("channels", .array channels) :: others)
  create { device with operations := device.operations ++ rest.operations }

def push (data : Json) (conditions : Option ConstraintSet) : Work κ α Json := do
  let w ← match conditions with
    | some c => ofExcept c.compose
    | none => pure []
  request "POST" "push" (some [("where", .object w), ("data", data)])

end Session

end RecordCache
