import RecordCache.Client.Session
import RecordCache.Constraint.Resolve

/-!
Running queries. A query is answered from the snapshot of its class when every part of it can be
evaluated there and the snapshot is fresh; else it goes to the server. Sub-queries are resolved first,
by the same rule.
-/

namespace RecordCache

namespace Session

variable {κ α : Type}

/-! ### From the server -/

def recordsOf (answer : Json) : Work κ α (List Record) := do
  match ← field? answer "results" with
  | none => return []
  | some results => ofData do (← results.iterate).mapM Record.ofJson

def findRecords (className : String) (params : Fields Json) : Work κ α (List Record) := do
  recordsOf (← request "GET" (Schema.path className .null) (some params))

/-- The pages from a position on. The next one is requested when the visit of a full page is over; a page
that is not full is the last one. -/
def pagesFrom (className : String) (params : Fields Json) (size : Json) (visit : List Record → Work κ α Unit) :
    Nat → Number → Work κ α (List Record)
  | 0, _ => return []
  | limit + 1, skip => do
    let page ← findRecords className ((params.set "limit" size).set "skip" (.number skip))
    visit page
    match size.numeric? with
    | none => throw (.data .notOrdered)
    | some n =>
      if (Number.int page.length).less n then return page
      match skip.add? n with
      | none => throw (.data .tooLarge)
      | some skip => return page ++ (← pagesFrom className params size visit limit skip)

/-- Walks all pages. There are no more of them than answers to come: visits may take answers, and bring none. -/
def walkPages (className : String) (params : Fields Json) (visit : List Record → Work κ α Unit) :
    Work κ α (List Record) := do
  let s ← get
  pagesFrom className params s.pageSize visit (s.server.length + 1) (.int 0)

def fetchPages (className : String) (params : Fields Json) : Work κ α (List Record) :=
  walkPages className params fun _ => return ()

def fetchAll (conditions : ConstraintSet) : Work κ α (List Record) := do
  let w ← ofExcept conditions.compose
  fetchPages conditions.className (if w.isEmpty then [] else [("where", .object w)])

def chunks {β : Type} (size : Nat) (xs : List β) : List (List β) :=
  (List.range ((xs.length + size - 1) / size)).map fun n => (xs.drop (n * size)).take size

def fetchChunk (className : String) (ids : List Json) : Work κ α (List Record) := do
  let wanted := Constraint.oneOf "objectId" (ids.map fun id => .scalar (Scalar.ofJson id))
  let w ← ofExcept (ConstraintSet.compose ⟨className, [wanted]⟩)
  findRecords className [("where", .object w), ("limit", .int ids.length)]

def fetchMany (className : String) (ids : List Json) : Work κ α (List Record) := do
  let size ← ofData (Paging.count (← get).pageSize)
  return (← (chunks size ids).mapM (fetchChunk className)).flatten

/-! ### From the cache -/

/-- Failures of the cache give nothing; other failures stay. -/
def orNothing {β : Type} (work : Work κ α (Option β)) : Work κ α (Option β) := do
  match ← attempt work with
  | .error e => if e.isCache then return none else throw e
  | .ok found => return found

def searchable (store : Option StoreRef) (conditions : ConstraintSet) (resolving : Work κ α ConstraintSet) :
    Work κ α (Option (List Record × ConstraintSet)) :=
  match store with
  | none => return none
  | some ref =>
    if conditions.allowsLocal then orNothing do
      let records ← serve ref.store.loadAll
      return some (records, ← resolving)
    else return none

/-- The records of the snapshot that satisfy the conditions, or nothing when the cache cannot tell. -/
def matchLocalBy (conditions : ConstraintSet) (freshness : Freshness) (resolving : Work κ α ConstraintSet) :
    Work κ α (Option (List Record)) := do
  match ← searchable (← storeFor conditions.className freshness) conditions resolving with
  | none => return none
  | some (records, resolved) => return some (← ofExcept (resolved.filter records))

def addValue (values : List Value) (v : Value) : List Value :=
  match v with
  | .scalar .null => values
  | v => if values.any v.same then values else values ++ [v]

def valuesOf (key : String) (records : List Record) : Except DataFault (List Value) := do
  return (← records.mapM fun r => r.typed key).foldl addValue []

def selectedValues : Constraint.Resolver (Work κ α) := fun key inner resolving => do
  let found ← match ← matchLocalBy inner .asRegistered resolving with
    | some records => pure records
    | none => fetchAll inner
  ofData (valuesOf key found)

def matchLocal (conditions : ConstraintSet) (freshness : Freshness) : Work κ α (Option (List Record)) :=
  matchLocalBy conditions freshness (conditions.resolveWith selectedValues)

/-! ### Queries -/

/-- What running a query gives: a query that counts gives a number when the cache answers. -/
inductive Answer
  | counted (n : Nat)
  | found (records : List Record)

def runLocal (q : Query) : Work κ α (Option Answer) := do
  if !q.allowsLocal then return none
  match ← matchLocal q.conditions q.freshness with
  | none => return none
  | some records =>
    if q.counting then return some (.counted records.length)
    return some (.found (← ofExcept (q.present records)))

def data (q : Query) : Work κ α Answer := do
  match ← runLocal q with
  | some answer => return answer
  | none => return .found (← findRecords q.className (← ofExcept q.compose))

/-- The objects that a query gives. A count is no list of objects, and stays as it is only where
records are asked for. -/
def list (q : Query) : Work κ α Answer := do
  match ← data q, q.schema with
  | .counted _, some _ => throw (.data .notList)
  | answer, _ => return answer

def first (q : Query) : Work κ α (Option Record) := do
  match ← list { q with paging := { q.paging with limit := some 1 } } with
  | .found records => return records.head?
  | .counted n => if n = 0 then return none else throw (.data .notIndexed)

def count (q : Query) : Work κ α Json := do
  let q := { q with counting := true }
  match ← runLocal q with
  | some (.counted n) => return .int n
  | some (.found records) => return .int records.length
  | none =>
    let answer ← request "GET" (Schema.path q.className .null) (some (← ofExcept q.compose))
    return (← field? answer "count").getD (.int 0)

/-- Gives the callback every record that matches, page by page, from the server, whatever stretch the query
asks for. -/
def each (q : Query) (callback : Record → Work κ α Unit := fun _ => return ()) : Work κ α (List Record) := do
  let params ← ofExcept q.compose
  walkPages q.className ((params.erase "skip").erase "limit") fun page => page.forM callback

def query (className : String) (schema : Option Schema) : Work κ α Query := do
  ofExcept (Query.start className schema (← get).defaultLimit)

end Session

end RecordCache
