import RecordCache.Fetch.Queue
import RecordCache.Operation.Batch
import RecordCache.Query
import RecordCache.Registry
import RecordCache.Relation.Memo

/-!
The state that a client works on: the cache, the answers that the server will give, the requests
made so far, and the state of the application, which callbacks may change.
-/

namespace RecordCache

inductive Call
  | request (method path : String) (params : Option Json)
  | upload (path mimeType : String) (content : List UInt8)
  | session (token : Json)

structure Session (κ α : Type) where
  disk : Disk := {}
  registry : Registry := {}
  queues : List (FetchQueue κ) := []
  timers : Timers := []
  /-- The populations in flight, by the number of the store. -/
  populations : Assoc Nat (List κ) := []
  relations : RelationMemo κ := {}
  /-- What the server says to the calls to come; after that it cannot be reached. -/
  server : List (Call → Except Error Json) := []
  calls : List Call := []
  /-- A number above zero, as it was given. -/
  pageSize : Json := .int Paging.largestPage
  /-- How many records a query without a limit gives; it has to be a number. -/
  defaultLimit : Json := .int 100
  user : Option Entity := none
  app : α

inductive Delivery
  | record (outcome : Except Error Record)
  | records (outcome : Except Error (List Record))
  /-- The number of a load of the relation memo. -/
  | relation (outcome : Except Error Nat)

/-- Work on a session; what was changed before a failure stays changed. -/
abbrev Work (κ α : Type) := ExceptT Error (StateM (Session κ α))

abbrev Notify (κ α : Type) := κ → Delivery → Work κ α Unit

namespace Session

variable {κ α β : Type}

def ofExcept (r : Except Error β) : Work κ α β := ExceptT.mk (pure r)

def ofData (r : Except DataFault β) : Work κ α β := ofExcept (r.mapError Error.data)

def attempt (work : Work κ α β) : Work κ α (Except Error β) := ExceptT.lift work.run

def onDisk (access : StateM Disk β) : Work κ α β := fun s =>
  let (result, disk) := access.run s.disk
  (.ok result, { s with disk })

def serve (serving : LocalStore.Serving β) : Work κ α β := do ofExcept (← onDisk serving.run)

def accessing (access : DiskWork β) : Work κ α β := do
  ofExcept ((← onDisk access.run).mapError Error.disk)

/-! ### Blobs -/

def readBlob (p : Place) : Work κ α Stored := do
  match ← accessing (Disk.read p) with
  | none => throw (.cache (.notFound p.space p.key))
  | some stored => return stored

def writeBlob (p : Place) (content : Blob) : Work κ α Unit := accessing (Disk.write p content)

def removeBlob (p : Place) : Work κ α Unit := accessing (Disk.remove p)

/-! ### Stores -/

/-- The store of a class with a window; null is the window that the class is registered for. -/
def store (className : String) (window : Json) : Work κ α (Option StoreRef) :=
  modifyGet fun s =>
    let (ref, registry) := s.registry.store className window
    (ref, { s with registry })

def ownStore (className : String) : Work κ α (Option StoreRef) := store className .null

def storeFor (className : String) : Freshness → Work κ α (Option StoreRef)
  | .never => return none
  | freshness => store className freshness.json

/-- Declares a class, cached with a window or, with null, not at all. -/
def register (className : String) (window : Json) : Work κ α Unit := do
  let s ← get
  set { s with registry := ← ofExcept (s.registry.register className window) }

/-! ### The server -/

def unreachable : Error := .transport (.network "no response queued")

def send (call : Call) : Work κ α Json := do
  let s ← get
  set { s with calls := s.calls ++ [call], server := s.server.tail }
  match s.server.head? with
  | some answer => ofExcept (answer call)
  | none => throw unreachable

def request (method path : String) (params : Option (Fields Json)) : Work κ α Json :=
  send (.request method path (params.map .object))

def useSession (token : Json) : Work κ α Unit :=
  modify fun s => { s with calls := s.calls ++ [.session token] }

def field? (answer : Json) (key : String) : Work κ α (Option Json) :=
  match answer with
  | .object fields => return Assoc.get? fields key
  | _ => throw (.data .notObject)

def requireField (answer : Json) (key : String) : Work κ α Json :=
  match answer with
  | .object fields =>
    match Assoc.get? fields key with
    | some value => return value
    | none => throw (.data (.missing key))
  | _ => throw (.data .notIndexed)

end Session

end RecordCache
