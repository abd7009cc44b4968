import Mathlib.Data.List.Flatten
import Mathlib.Data.List.Perm.Basic
import Mathlib.Logic.Relation
import RecordCache.Proofs.Client.Debounce
import RecordCache.Proofs.Fetch.Batch

/-!
# Requests for single records under any schedule

The calls on one queue may overlap in any order: gets, flushes, timers that fire in time or late, and what
callbacks call in turn. A state keeps, beside the session, how far each call has come; a step takes one of
them as far as it goes without letting the others in. Every step is made of the operations that the calls
run. `Accounted` is what holds of every state that is reached.
-/

namespace RecordCache

/-- A get: the id, whom to tell, and the record that the cache had when it looked. -/
structure Inquiry (κ : Type) where
  id : Json
  caller : κ
  found : Option Record
  /-- The caller was told, or the request was put into the queue. -/
  closed : Bool := false

/-- Requests that went out together. -/
structure Departure (κ : Type) where
  asked : List Json
  /-- What the fetch came to; none while it runs. -/
  fetched : Option (Except Error (List Record)) := none
  told : List (Json × κ) := []
  rest : List (Json × κ)

structure Traffic (κ α : Type) where
  session : Session κ α
  inquiries : List (Inquiry κ) := []
  /-- How many flushes have not taken the requests out of the queue yet. -/
  flushes : Nat := 0
  departures : List (Departure κ) := []

variable {κ α : Type}

namespace Inquiry

/-- What the caller was told at once. -/
def given? (i : Inquiry κ) : Option (κ × Except Error Record) :=
  if i.closed then i.found.map fun r => (i.caller, .ok r) else none

/-- The request that was put into the queue. -/
def queued? (i : Inquiry κ) : Option (Json × κ) :=
  if i.closed && i.found.isNone then some (i.id, i.caller) else none

/-- The caller, while the get runs. -/
def open? (i : Inquiry κ) : Option κ := if i.closed then none else some i.caller

theorem callers_perm (inquiries : List (Inquiry κ)) :
    (inquiries.map (·.caller)).Perm
      ((inquiries.filterMap given?).map Prod.fst ++
        ((inquiries.filterMap queued?).map Prod.snd ++ inquiries.filterMap open?)) := by
  induction inquiries with
  | nil => exact .nil
  | cons i rest ih =>
    obtain ⟨id, caller, found, closed⟩ := i
    cases closed with
    | false =>
      refine (ih.cons caller).trans ?_
      simp [given?, queued?, open?, ← List.append_assoc, List.perm_middle.symm]
    | true =>
      cases found with
      | none =>
        refine (ih.cons caller).trans ?_
        simp [given?, queued?, open?, List.perm_middle.symm]
      | some r => exact ih.cons caller

end Inquiry

namespace Departure

def requests (b : Departure κ) : List (Json × κ) := b.told ++ b.rest

/-- What callers were given so far. -/
def given (q : FetchQueue κ) (b : Departure κ) : List (κ × Except Error Record) :=
  match b.fetched with
  | none => []
  | some result => b.told.map fun request => (request.2, q.outcome result request.1)

/-- The batch of what is pending, when everyone was told. -/
def delivered (q : FetchQueue κ) (result : Except Error (List Record)) : Departure κ :=
  { asked := FetchQueue.distinctIds q.pending, fetched := some result, told := q.pending, rest := [] }

/-- The flush that sent the batch is done. -/
def Done (b : Departure κ) : Prop := b.fetched.isSome ∧ b.rest = []

end Departure

namespace Traffic

/-- Before any call. -/
def start (s : Session κ α) : Traffic κ α := { session := s }

/-- No call is running. -/
def Idle (t : Traffic κ α) : Prop :=
  (∀ i ∈ t.inquiries, i.closed = true) ∧ t.flushes = 0 ∧ ∀ b ∈ t.departures, b.Done

/-- The callers that are yet to be called: their gets run, their requests are pending, or their batch is
being fetched or delivered. -/
def waiting (t : Traffic κ α) (q : FetchQueue κ) : List κ :=
  t.inquiries.filterMap Inquiry.open? ++ q.pending.map Prod.snd ++
    t.departures.flatMap fun b => b.rest.map Prod.snd

/-- What was fetched goes into the cache, before callers are told. -/
def Keeps (q : FetchQueue κ) (result : Except Error (List Record)) (d d' : Disk) : Prop :=
  match result with
  | .ok records => Runs (q.keep records) d (.ok ()) d'
  | .error _ => d' = d

/-- What one call does next. The last two steps of a get, and the steps of a flush after the first, may come
long after the ones before. -/
inductive Step (n : Nat) (log : α → List (κ × Except Error Record)) : Traffic κ α → Traffic κ α → Prop
  | lookUp {t q id caller found disk} (hQueue : t.session.queues[n]? = some q) (hId : id.isScalar = true)
      (hFound : Runs (q.lookUp id) t.session.disk (.ok found) disk) :
      Step n log t { t with
        session := { t.session with disk }, inquiries := t.inquiries ++ [{ id, caller, found }] }
  | giveAtOnce {t i before after r s} (hInquiries : t.inquiries = before ++ i :: after)
      (hOpen : i.closed = false) (hFound : i.found = some r)
      (hTold : Session.Passes n log [(i.caller, .ok r)] t.session s) :
      Step n log t { t with session := s, inquiries := before ++ { i with closed := true } :: after }
  | enqueue {t i before after} (hInquiries : t.inquiries = before ++ i :: after) (hOpen : i.closed = false)
      (hFound : i.found = none) :
      Step n log t { t with
        session := t.session.enqueue n i.id i.caller
        inquiries := before ++ { i with closed := true } :: after }
  | flush {t} : Step n log t { t with flushes := t.flushes + 1 }
  | fire {t m timer} (hTimer : t.session.timers[m]? = some timer) (hQueue : timer.queue = n) :
      Step n log t { t with
        session := { t.session with timers := t.session.timers.fire m }, flushes := t.flushes + 1 }
  | drainNothing {t q flushes} (hFlushes : t.flushes = flushes + 1) (hQueue : t.session.queues[n]? = some q)
      (hPending : q.pending = []) : Step n log t { t with session := t.session.drain n, flushes }
  | drain {t q flushes asked} (hFlushes : t.flushes = flushes + 1) (hQueue : t.session.queues[n]? = some q)
      (hPending : q.pending ≠ []) (hAsked : FetchQueue.batchIds q.pending = .ok asked) :
      Step n log t { t with
        session := t.session.drain n, flushes
        departures := t.departures ++ [{ asked, rest := q.pending }] }
  | fetch {t q b before after result disk} (hDepartures : t.departures = before ++ b :: after)
      (hFetched : b.fetched = none) (hQueue : t.session.queues[n]? = some q)
      (hKeeps : Keeps q result t.session.disk disk) :
      Step n log t { t with
        session := { t.session with disk }
        departures := before ++ { b with fetched := some result } :: after }
  | deliver {t q b before after result request rest s} (hDepartures : t.departures = before ++ b :: after)
      (hFetched : b.fetched = some result) (hRest : b.rest = request :: rest)
      (hQueue : t.session.queues[n]? = some q)
      (hTold : Session.Passes n log [(request.2, q.outcome result request.1)] t.session s) :
      Step n log t { t with
        session := s
        departures := before ++ { b with told := b.told ++ [request], rest } :: after }
  /-- Anything else that goes on. -/
  | other {t s} (hPasses : Session.Passes n log [] t.session s) : Step n log t { t with session := s }

abbrev Run (n : Nat) (log : α → List (κ × Except Error Record)) : Traffic κ α → Traffic κ α → Prop :=
  Relation.ReflTransGen (Step n log)

/-- What holds between any two steps. -/
structure Accounted (n : Nat) (log : α → List (κ × Except Error Record)) (t : Traffic κ α)
    (q : FetchQueue κ) : Prop where
  queue : t.session.queues[n]? = some q
  /-- Each get calls its caller once; those that wait were not called for it. -/
  once : (t.inquiries.map (·.caller)).Perm ((log t.session.app).map Prod.fst ++ t.waiting q)
  /-- What callers were given: records that the cache had, and outcomes of batches. -/
  given : (log t.session.app).Perm
    (t.inquiries.filterMap Inquiry.given? ++ t.departures.flatMap (Departure.given q))
  /-- Just the gets that found nothing were queued, and each of their requests went into one batch. -/
  queued : (t.inquiries.filterMap Inquiry.queued?).Perm
    (t.departures.flatMap Departure.requests ++ q.pending)
  settled : ∀ b ∈ t.departures, ∀ result, b.fetched = some result → ∀ request ∈ b.requests,
    FetchQueue.Settles q.className request.1 result (q.outcome result request.1)
  /-- Nobody is told while a batch is being fetched. -/
  untold : ∀ b ∈ t.departures, b.fetched = none → b.told = []
  asked : ∀ b ∈ t.departures, b.asked ≠ [] ∧ b.asked = FetchQueue.distinctIds b.requests
  waits : q.pending ≠ [] ↔ q.timer.isSome
  armed : t.Idle → ∀ m, q.timer = some m →
    ∃ timer, t.session.timers[m]? = some timer ∧ timer.queue = n ∧ Timers.isLive timer = true
  /-- All other timers of the queue have fired or were cancelled. -/
  others : ∀ (m : Nat) (timer : Timer), t.session.timers[m]? = some timer → timer.queue = n →
    Timers.isLive timer = true → q.timer = some m

end Traffic

end RecordCache
