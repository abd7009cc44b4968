import RecordCache.Fetch.Timer
import RecordCache.LocalStore
import RecordCache.Server.ErrorCode

/-!
Requests for single records of a class that wait to go out together. Each new request puts the
departure off; a batch asks for every id once, and every request gets the outcome for its id.
-/

namespace RecordCache

structure FetchQueue (κ : Type) where
  className : String
  store : Option LocalStore
  pending : List (Json × κ) := []
  /-- The number of the timer that flushes the queue. -/
  timer : Option Nat := none

namespace FetchQueue

open LocalStore (Serving)

variable {κ : Type}

def lookUp (q : FetchQueue κ) (id : Json) : Serving (Option Record) :=
  match q.store with
  | none => return none
  | some s => LocalStore.whenServed (s.get id)

def enqueue (q : FetchQueue κ) (id : Json) (caller : κ) (timer : Nat) : FetchQueue κ :=
  { q with pending := q.pending ++ [(id, caller)], timer := some timer }

def drained (q : FetchQueue κ) : FetchQueue κ := { q with pending := [], timer := none }

/-- The distinct ids, in the order in which they were first asked for; no id is a list or an object. -/
def batchIds (pending : List (Json × κ)) : Except DataFault (List Json) :=
  if pending.all fun request => request.1.isScalar then
    .ok (pending.foldl (fun ids request => LocalStore.addId ids request.1) [])
  else .error .compositeKey

def keep (q : FetchQueue κ) (records : List Record) : Serving Unit :=
  match q.store with
  | none => return ()
  | some s => records.forM fun r => s.persist r false

/-- What a request for an id gets: the last record with that id. -/
def outcome (q : FetchQueue κ) (fetched : Except Error (List Record)) (id : Json) : Except Error Record := do
  match (← fetched).reverse.find? fun r => (LocalStore.idJson r).same id with
  | some r => return r
  | none => throw (.server (.objectNotFound (q.className ++ "/" ++ id.plainDisplay ++ " not found")))

end FetchQueue

end RecordCache
