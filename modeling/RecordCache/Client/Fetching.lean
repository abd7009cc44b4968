import RecordCache.Client.Search
import RecordCache.LocalStore.Population

/-!
Single records through the queues, and whole classes through populations.
-/

namespace RecordCache

namespace Session

variable {κ α : Type}

abbrev Fetch (κ α : Type) := FetchQueue κ → List Json → Work κ α (List Record)

def queueFor (className : String) : Work κ α Nat := do
  let store ← ownStore className
  let s ← get
  match s.registry.queues.get? className with
  | some n => return n
  | none =>
    let n := s.queues.length
    let q : FetchQueue κ := { className, store := store.map (·.store) }
    set { s with
      queues := s.queues ++ [q]
      registry := { s.registry with queues := s.registry.queues.set className n } }
    return n

def cancelTimer (timer : Option Nat) (timers : Timers) : Timers :=
  match timer with
  | some n => timers.cancel n
  | none => timers

def enqueue (n : Nat) (id : Json) (caller : κ) (s : Session κ α) : Session κ α :=
  let timers := cancelTimer ((s.queues[n]?).bind (·.timer)) s.timers
  { s with
    queues := s.queues.modify n (·.enqueue id caller timers.length)
    timers := timers.arm s.registry.debounce n }

def drain (n : Nat) (s : Session κ α) : Session κ α :=
  { s with
    queues := s.queues.modify n (·.drained)
    timers := cancelTimer ((s.queues[n]?).bind (·.timer)) s.timers }

/-- Gives a fresh cached record at once; any other request waits for the batch. -/
def fetchOne (notify : Notify κ α) (n : Nat) (id : Json) (caller : κ) : Work κ α Unit := do
  match (← get).queues[n]? with
  | none => return ()
  | some q =>
    match ← serve (q.lookUp id) with
    | some r => notify caller (.record (.ok r))
    | none => modify (enqueue n id caller)

def flush (notify : Notify κ α) (fetch : Fetch κ α) (n : Nat) : Work κ α Unit := do
  match (← get).queues[n]? with
  | none => return ()
  | some q =>
    modify (drain n)
    if q.pending.isEmpty then return ()
    let ids ← ofData (FetchQueue.batchIds q.pending)
    let fetched ← attempt (fetch q ids)
    if let .ok records := fetched then serve (q.keep records)
    q.pending.forM fun (id, caller) => notify caller (.record (q.outcome fetched id))

def fetchByIds : Fetch κ α := fun q ids => fetchMany q.className ids

def fireTimer (notify : Notify κ α) (fetch : Fetch κ α) (n : Nat) : Work κ α Unit := do
  let timers := (← get).timers
  modify fun s => { s with timers := timers.fire n }
  match timers[n]? with
  | some t => flush notify fetch t.queue
  | none => return ()

/-- Fires the timers that are live now, even those that a callback cancels meanwhile. -/
def runTimers (notify : Notify κ α) (fetch : Fetch κ α) : Work κ α Unit := do
  (← get).timers.live.forM (fireTimer notify fetch)

/-! ### Populations -/

/-- Runs a population, or joins the one in flight: then there is no answer yet. -/
def populateBy (notify : Notify κ α) (ref : StoreRef) (callback : Option κ)
    (fetch : Work κ α (List Record)) : Work κ α (Option (List Record)) := do
  let s ← get
  let (first, population) := Population.arrive (s.populations.get? ref.number) callback
  set { s with populations := s.populations.set ref.number (population.getD []) }
  if !first then return none
  let fetched ← attempt do
    let records ← fetch
    serve (ref.store.swap records)
    return records
  let s ← get
  let (waiting, _) := Population.complete (s.populations.get? ref.number)
  set { s with populations := s.populations.erase ref.number }
  waiting.forM fun caller => notify caller (.records fetched)
  some <$> ofExcept fetched

def populate (notify : Notify κ α) (className : String) (callback : Option κ) :
    Work κ α (List Record) := do
  match ← ownStore className with
  | none => throw (.notCached className)
  | some ref =>
    return (← populateBy notify ref callback (fetchAll ⟨className, []⟩)).getD []

/-! ### Relations -/

/-- Gives the members of a memoized relation; the first caller loads them. -/
def relate (notify : Notify κ α) (key : String) (caller : κ) (fetch : Work κ α (List Pointer)) :
    Work κ α Unit := do
  let s ← get
  let (answer, relations) := s.relations.request key caller
  set { s with relations }
  match answer with
  | .waiting => return ()
  | .ready load => notify caller (.relation (.ok load))
  | .start load =>
    let fetched ← attempt fetch
    let s ← get
    let (waiting, relations) := s.relations.complete key load fetched
    set { s with relations }
    waiting.forM fun caller => notify caller (.relation (fetched.map fun _ => load))

def pointersTo (className : String) (q : Query) : Work κ α (List Pointer) := do
  ofData ((← fetchAll q.conditions).mapM (Pointer.ofRecord (.string className)))

def pointerOf (j : Json) : Work κ α Pointer := do
  match ← ofExcept (Value.ofArgument j) with
  | .pointer p => return p
  | _ => throw (.data .notObject)

def members (notify : Notify κ α) (owner : Json) (key targetClass : String) (caller : κ) :
    Work κ α Unit := do
  let owner ← pointerOf owner
  relate notify (RelationMemo.keyFor key owner.toRef targetClass) caller do
    let q ← query targetClass none
    pointersTo targetClass (q.such (.relatedTo key owner.toRef.thing))

def owners (notify : Notify κ α) (ownerClass key : String) (target : Json) (caller : κ) :
    Work κ α Unit := do
  let target ← pointerOf target
  relate notify (RelationMemo.inverseKeyFor key ownerClass target.toRef) caller do
    let q ← query ownerClass none
    pointersTo ownerClass (← ofExcept (q.equalTo key target.toRef.thing))

end Session

end RecordCache
