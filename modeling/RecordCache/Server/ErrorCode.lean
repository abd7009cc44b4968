import RecordCache.Error

/-!
The error codes of the server, and errors read from its answers.
-/

namespace RecordCache

namespace ErrorCode

def objectNotFound : Int := 101

def known : List (Int × String) := [
  (-1, "OTHER_CAUSE"), (1, "INTERNAL_SERVER_ERROR"), (100, "CONNECTION_FAILED"),
  (101, "OBJECT_NOT_FOUND"), (102, "INVALID_QUERY"), (103, "INVALID_CLASS_NAME"),
  (104, "MISSING_OBJECT_ID"), (105, "INVALID_KEY_NAME"), (106, "INVALID_POINTER"),
  (107, "INVALID_JSON"), (108, "COMMAND_UNAVAILABLE"), (109, "NOT_INITIALIZED"),
  (111, "INCORRECT_TYPE"), (112, "INVALID_CHANNEL_NAME"), (115, "PUSH_MISCONFIGURED"),
  (116, "OBJECT_TOO_LARGE"), (119, "OPERATION_FORBIDDEN"), (120, "CACHE_MISS"),
  (121, "INVALID_NESTED_KEY"), (122, "INVALID_FILE_NAME"), (123, "INVALID_ACL"), (124, "TIMEOUT"),
  (125, "INVALID_EMAIL_ADDRESS"), (137, "DUPLICATE_VALUE"), (139, "INVALID_ROLE_NAME"),
  (140, "EXCEEDED_QUOTA"), (141, "SCRIPT_FAILED"), (142, "VALIDATION_ERROR"),
  (153, "FILE_DELETE_FAILURE"), (155, "REQUEST_LIMIT_EXCEEDED"), (160, "INVALID_EVENT_NAME"),
  (200, "USERNAME_MISSING"), (201, "PASSWORD_MISSING"), (202, "USERNAME_TAKEN"),
  (203, "EMAIL_TAKEN"), (204, "EMAIL_MISSING"), (205, "EMAIL_NOT_FOUND"), (206, "SESSION_MISSING"),
  (207, "MUST_CREATE_USER_THROUGH_SIGNUP"), (208, "ACCOUNT_ALREADY_LINKED"),
  (209, "INVALID_SESSION_TOKEN")]

def find? (code : Json) : Option (Int × String) :=
  code.numeric?.bind fun n => known.find? fun entry => n.same (.int entry.1)

end ErrorCode

namespace ServerError

def ofPayload (payload : Fields Json) : ServerError where
  code :=
    let code := (payload.get? "code").getD .null
    match ErrorCode.find? code with
    | some (known, _) => .int known
    | none => code
  text := (payload.get? "error").getD (.string "")

def objectNotFound (text : String) : ServerError := ⟨.int ErrorCode.objectNotFound, .string text⟩

def codeName? (e : ServerError) : Option String := (ErrorCode.find? e.code).map Prod.snd

end ServerError

end RecordCache
