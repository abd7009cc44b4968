import Mathlib.Data.List.Forall2
import Mathlib.Data.List.Perm.Basic
import Mathlib.Logic.Relation
import RecordCache.Client.Fetching

/-!
# Relation lookups under any schedule

Lookups of many keys may overlap, with loads that end in any order, changes of members, owners that are
forgotten, and what callbacks and fetches call in turn. Calls and loads are numbered as they come. A step is
what happens without letting others in: between a lookup and its answer, or between two answers of one load,
anything else may happen. `Accounted` is what holds of every state that is reached, `SingleFlight` what holds
as long as the whole memo is not cleared.
-/

namespace RecordCache

structure Lookup (κ : Type) where
  key : String
  caller : κ
  /-- The load that answers it. -/
  load : Nat
  /-- The load was complete by then. -/
  late : Bool

/-- A load, also when the memo does not know it any more. -/
structure Loading where
  key : String
  /-- What the fetch came to; none while it runs. -/
  fetched : Option (Except Error (List Pointer)) := none
  /-- The calls that it has not answered yet. -/
  waiting : List Nat
  dropped : Bool := false

structure Lookups (κ α : Type) where
  session : Session κ α
  calls : List (Lookup κ) := []
  loads : List Loading := []
  /-- The calls that found a complete load and are about to be answered. -/
  answering : List Nat := []
  /-- The calls that were answered, in that order. -/
  told : List Nat := []
  cleared : Bool := false

variable {κ α : Type}

namespace Loading

def loaded (l : Loading) : Bool :=
  match l.fetched with
  | some (.ok _) => true
  | _ => false

def failed (l : Loading) : Bool :=
  match l.fetched with
  | some (.error _) => true
  | _ => false

/-- Nobody is answered by it any more who does not wait already. -/
def spent (l : Loading) : Bool := l.dropped || l.failed

theorem fetched_eq_none {l : Loading} (hLive : l.spent = false) (hLoaded : l.loaded = false) :
    l.fetched = none := by
  obtain ⟨-, hFailed⟩ := Bool.or_eq_false_iff.mp hLive
  rcases hFetched : l.fetched with _ | (e | pointers)
  · rfl
  · simp [failed, hFetched] at hFailed
  · simp [loaded, hFetched] at hLoaded

/-- Once it is complete, it goes with its owner. -/
def forget (owner : Ref) (l : Loading) : Loading :=
  { l with
    dropped := l.dropped ||
      (l.loaded && Text.hasPiece (RelationMemo.ownerPiece owner).toList l.key.toList) }

def drop (l : Loading) : Loading := { l with dropped := true }

/-- It has answered everybody. -/
def Done (l : Loading) : Prop := l.fetched.isSome ∧ l.waiting = []

end Loading

/-- What goes on while the relations are left alone. Of the application only the outcomes that callbacks were
given matter, as it logs them. -/
structure Session.Relays (log : α → List (κ × Except Error Nat)) (given : List (κ × Except Error Nat))
    (s s' : Session κ α) : Prop where
  relations : s'.relations = s.relations
  given : log s'.app = log s.app ++ given

namespace Lookups

def start (s : Session κ α) : Lookups κ α := { session := s }

def withMemo (t : Lookups κ α) (memo : RelationMemo κ) : Session κ α := { t.session with relations := memo }

inductive Step (log : α → List (κ × Except Error Nat)) : Lookups κ α → Lookups κ α → Prop
  | find {t key caller load memo} (hRequest : t.session.relations.request key caller = (.ready load, memo)) :
      Step log t { t with
        session := t.withMemo memo
        calls := t.calls ++ [{ key, caller, load, late := true }]
        answering := t.answering ++ [t.calls.length] }
  | answer {t before i after call s} (hAnswering : t.answering = before ++ i :: after)
      (hCall : t.calls[i]? = some call)
      (hTold : Session.Relays log [(call.caller, .ok call.load)] t.session s) :
      Step log t { t with session := s, answering := before ++ after, told := t.told ++ [i] }
  | join {t key caller load memo l} (hRequest : t.session.relations.request key caller = (.waiting, memo))
      (hIndex : t.session.relations.index.get? key = some load) (hLoad : t.loads[load]? = some l) :
      Step log t { t with
        session := t.withMemo memo
        calls := t.calls ++ [{ key, caller, load, late := false }]
        loads := t.loads.set load { l with waiting := l.waiting ++ [t.calls.length] } }
  | start {t key caller load memo} (hRequest : t.session.relations.request key caller = (.start load, memo)) :
      Step log t { t with
        session := t.withMemo memo
        calls := t.calls ++ [{ key, caller, load, late := false }]
        loads := t.loads ++ [{ key, waiting := [t.calls.length] }] }
  | finish {t load l result callers memo} (hLoad : t.loads[load]? = some l) (hFetched : l.fetched = none)
      (hComplete : t.session.relations.complete l.key load result = (callers, memo)) :
      Step log t { t with
        session := t.withMemo memo, loads := t.loads.set load { l with fetched := some result } }
  | deliver {t load l result i rest call s} (hLoad : t.loads[load]? = some l)
      (hFetched : l.fetched = some result) (hWaiting : l.waiting = i :: rest) (hCall : t.calls[i]? = some call)
      (hTold : Session.Relays log [(call.caller, result.map fun _ => load)] t.session s) :
      Step log t { t with
        session := s, loads := t.loads.set load { l with waiting := rest }, told := t.told ++ [i] }
  /-- Members may change in a relation that the memo has forgotten since it was looked up. -/
  | change {t} (load : Nat) (f : Relation → Relation) :
      Step log t { t with
        session := t.withMemo (t.session.relations.update load fun e => { e with relation := e.relation.map f }) }
  | forget {t} (owner : Ref) :
      Step log t { t with
        session := t.withMemo (t.session.relations.forget owner), loads := t.loads.map (Loading.forget owner) }
  | clear {t} :
      Step log t { t with
        session := t.withMemo t.session.relations.clear, loads := t.loads.map Loading.drop, cleared := true }
  /-- Anything else that goes on. -/
  | other {t s} (hRelays : Session.Relays log [] t.session s) : Step log t { t with session := s }

abbrev Run (log : α → List (κ × Except Error Nat)) : Lookups κ α → Lookups κ α → Prop :=
  Relation.ReflTransGen (Step log)

/-! ### What holds between any two steps -/

/-- The call has waited for the load, or does. -/
def waitsFor (calls : List (Lookup κ)) (load i : Nat) : Bool :=
  (calls[i]?).any fun call => call.load == load && !call.late

/-- The calls that a load answers, in the order they came. -/
def waiters (calls : List (Lookup κ)) (load : Nat) : List Nat :=
  (List.range calls.length).filter (waitsFor calls load)

/-- The caller was given what its load came to. -/
def Gives (calls : List (Lookup κ)) (loads : List Loading) (i : Nat) (given : κ × Except Error Nat) : Prop :=
  ∃ call l result, calls[i]? = some call ∧ loads[call.load]? = some l ∧ l.fetched = some result ∧
    given = (call.caller, result.map fun _ => call.load)

structure Accounted (log : α → List (κ × Except Error Nat)) (t : Lookups κ α) : Prop where
  /-- Each call was answered once, is being answered, or waits for a load that runs or is being delivered;
  never two of these. -/
  once : (t.told ++ t.answering ++ t.loads.flatMap (·.waiting)).Perm (List.range t.calls.length)
  given : List.Forall₂ (Gives t.calls t.loads) t.told (log t.session.app)
  /-- A load answers the calls that wait for it in their order. -/
  order : ∀ (load : Nat) (l : Loading), t.loads[load]? = some l →
    t.told.filter (waitsFor t.calls load) ++ l.waiting = waiters t.calls load
  /-- It answers none of them before its fetch has come to its end. -/
  untold : ∀ (load : Nat) (l : Loading), t.loads[load]? = some l → l.fetched = none →
    t.told.filter (waitsFor t.calls load) = []
  /-- Only calls that found a complete load are answered at once. -/
  atOnce : ∀ i ∈ t.answering, ∃ call, t.calls[i]? = some call ∧ call.late = true
  keyed : ∀ call ∈ t.calls, ∃ l, t.loads[call.load]? = some l ∧ l.key = call.key ∧
    (call.late = true → l.loaded = true)
  memoized : ∀ (load : Nat) (l : Loading), t.loads[load]? = some l →
    (t.session.relations.relation? load).isSome = l.loaded

structure SingleFlight (t : Lookups κ α) : Prop where
  one : ∀ (load load' : Nat) (l l' : Loading), t.loads[load]? = some l → t.loads[load']? = some l' →
    l.fetched = none → l'.fetched = none → l.key = l'.key → load = load'
  /-- A key is loaded again only after its load has failed or was dropped. -/
  again : ∀ (load load' : Nat) (l l' : Loading), t.loads[load]? = some l → t.loads[load']? = some l' →
    load < load' → l.key = l'.key → l.spent = true
  /-- Nothing drops a load that runs. -/
  kept : ∀ l ∈ t.loads, l.fetched = none → l.dropped = false
  starts : ∀ (key : String) (caller : κ),
    (∃ load, (t.session.relations.request key caller).1 = .start load) ↔
      ∀ l ∈ t.loads, l.key = key → l.spent = true
  /-- After the last load of a key has failed, the next caller starts one. -/
  retried : ∀ (load : Nat) (l : Loading), t.loads[load]? = some l → l.failed = true →
    (∀ (load' : Nat) (l' : Loading), t.loads[load']? = some l' → l'.key = l.key → load' ≤ load) →
    ∀ caller, ∃ load', (t.session.relations.request l.key caller).1 = .start load'

end Lookups

end RecordCache
