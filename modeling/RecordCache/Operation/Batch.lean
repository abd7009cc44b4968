import RecordCache.Operation

/-!
Operations that are sent as one request, on a new object or on an existing one.
-/

namespace RecordCache

structure Batch where
  className : String
  /-- Null for a new object. -/
  objectId : Json := .null
  operations : List Operation := []

namespace Batch

def push (b : Batch) (o : Operation) : Batch := { b with operations := b.operations ++ [o] }

def ofRecord (className : String) (r : Record) : Batch where
  className
  objectId := (r.objectId?.map Json.string).getD .null
  operations := r.pending.map fun (key, value) => .set key value

/-- The body of the request: the last operation on a field is the one that is sent. -/
def compose (b : Batch) : Except DataFault (Fields Json) :=
  b.operations.foldlM (fun body o => o.compose body) []

def apply (b : Batch) (raw : Keyed Json) : Except DataFault (Keyed Json) :=
  b.operations.foldlM Operation.apply raw

def existing (b : Batch) (action : String) : Except Error Json :=
  if b.objectId.isNull then .error (.query (.unsaved action b.className)) else .ok b.objectId

def requireNew (b : Batch) : Except Error Unit :=
  if b.objectId.isNull then .ok () else .error (.query (.alreadySaved b.className b.objectId))

end Batch

end RecordCache
