import RecordCache.Client.Session
import RecordCache.Schema

/-!
Sending operations to the server, and keeping the cache in step with what was written.
-/

namespace RecordCache

namespace Session

variable {κ α : Type}

def sendNew (b : Batch) : Work κ α Record := do
  ofExcept b.requireNew
  let answer ← request "POST" (Schema.path b.className .null) (some (← ofData b.compose))
  let raw ← ofData (b.apply [])
  let id ← requireField answer "objectId"
  let created := (← field? answer "createdAt").getD .null
  let updated := (← field? answer "updatedAt").getD created
  return Record.merged { raw } [("objectId", id), ("createdAt", created), ("updatedAt", updated)]

def keepNew (className : String) (r : Record) : Work κ α Unit := do
  if let some ref ← ownStore className then serve (ref.store.persist r true)

def create (b : Batch) : Work κ α Record := do
  let record ← sendNew b
  keepNew b.className record
  return record

def updateTime? : Json → Except DataFault (Option Json)
  | .object fields => .ok (Assoc.get? fields "updatedAt")
  | .array items => if (Json.string "updatedAt").among items then .error .notIndexed else .ok none
  | .string s => if Text.hasPiece "updatedAt".toList s.toList then .error .notIndexed else .ok none
  | _ => .error .notList

/-- Makes the same changes to the record in the cache, if it can be served. -/
def updateCached (b : Batch) (id : Json) (answer : Json) : Work κ α (Option Record) := do
  match ← ownStore b.className with
  | none => return none
  | some ref =>
    match ← serve (LocalStore.whenServed (ref.store.get id)) with
    | none => return none
    | some cached =>
      let raw ← ofData (b.apply cached.raw)
      let time ← ofData (updateTime? answer)
      let record := Record.merged { raw } (time.toList.map fun t => ("updatedAt", t))
      serve (ref.store.persist record false)
      return some record

def updateRelation (owner : Ref) (memo : RelationMemo κ) : Operation → RelationMemo κ
  | .addRelation key member => memo.addMember key owner member
  | .removeRelation key member => memo.removeMember key owner member
  | _ => memo

def refOf (b : Batch) (id : Json) : Ref := ⟨.string b.className, id⟩

def update (b : Batch) : Work κ α (Option Record) := do
  let id ← ofExcept (b.existing "update")
  let answer ← request "PUT" (Schema.path b.className id) (some (← ofData b.compose))
  let record ← updateCached b id answer
  modify fun s => { s with relations := b.operations.foldl (updateRelation (refOf b id)) s.relations }
  return record

def delete (b : Batch) : Work κ α Unit := do
  let id ← ofExcept (b.existing "delete")
  discard (request "DELETE" (Schema.path b.className id) none)
  if let some ref ← ownStore b.className then serve (ref.store.remove id)
  modify fun s => { s with relations := s.relations.forget (refOf b id) }

/-- Sends what is staged in an entity; its record is then the one that is known of the object. -/
def saveEntity (e : Entity) : Work κ α Entity := do
  let b := Batch.ofRecord e.classText e.record
  let record ← if e.objectId?.isNone then create b
    else match ← update b with
      | some record => pure record
      | none => pure (e.record.merged (← ofData b.compose))
  return { e with record }

/-! ### What the application holds -/

/-- Work on a session for something that the application holds, a batch or an entity, which may change with it. -/
abbrev Holding (σ κ α : Type) := ExceptT Error (StateM (σ × Session κ α))

def onSession {σ β : Type} (work : Work κ α β) : Holding σ κ α β := fun (held, s) =>
  let (result, s) := work.run s
  (result, held, s)

def holding {σ β : Type} (held : σ) (work : Holding σ κ α β) : Work κ α (Except Error β × σ) := fun s =>
  let (result, held, s) := work.run (held, s)
  (.ok (result, held), s)

/-- Creates an object. Once the server has taken it, the batch is one on that object. -/
def saveBatch : Holding Batch κ α Record := do
  let (b, _) ← get
  let record ← onSession (sendNew b)
  modify fun (b, s) => ({ b with objectId := LocalStore.idJson record }, s)
  onSession (keepNew b.className record)
  return record

def saveHeld : Holding Entity κ α Record := do
  let (e, _) ← get
  let e ← onSession (saveEntity e)
  modify fun (_, s) => (e, s)
  return e.record

end Session

end RecordCache
