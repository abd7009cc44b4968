import RecordCache.Client.Account
import RecordCache.Client.Fetching
import RecordCache.Client.Setup
import RecordCache.Constraint.Display
import RecordCache.Constraint.Reader
import RecordCache.Schema.Reader

/-!
A client as its settings say. What it can do is work on its session.
-/

namespace RecordCache.Session

variable {κ α : Type}

def ofSettings (given : Json) (app : α) : Except Error (Session κ α) := do
  let setup ← Setup.ofSettings given
  let registry : Registry := { debounce := setup.settings.value "fetch_debounce" }
  return { registry, pageSize := setup.pageSize, defaultLimit := setup.defaultLimit, app }

/-- Declares the class of a schema, which is cached when the schema has a window. -/
def registerSchema (s : Schema) : Work κ α Unit := register s.classText (s.expireAfter.getD .null)

end RecordCache.Session
