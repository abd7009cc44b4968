import RecordCache.Error
import RecordCache.Relation

/-!
Memoized relations. The first caller of a relation starts its load; callers that come while it runs
wait for it, and later ones get the members at once. Loads are numbered: the index tells which load a
key stands for now, and a load that the index no longer knows still answers those who wait for it.
-/

namespace RecordCache

structure RelationLoad (κ : Type) where
  relation : Option Relation := none
  waiting : List κ := []

structure RelationMemo (κ : Type) where
  index : Fields Nat := []
  loads : List (RelationLoad κ) := []

inductive RelationAnswer
  | ready (load : Nat)
  | waiting
  | start (load : Nat)
  deriving DecidableEq

namespace RelationMemo

variable {κ : Type}

def keyFor (key : String) (owner : Ref) (targetClass : String) : String :=
  s!"{key}-{owner.className.plainDisplay}/{owner.objectId.plainDisplay}-{targetClass}"

def inverseKeyFor (key ownerClass : String) (target : Ref) : String :=
  s!"{key}-{ownerClass}-{target.className.plainDisplay}/{target.objectId.plainDisplay}"

def relation? (m : RelationMemo κ) (load : Nat) : Option Relation := (m.loads[load]?).bind (·.relation)

/-- The load that a key stands for, once it is complete. -/
def loaded? (m : RelationMemo κ) (key : String) : Option Nat :=
  (m.index.get? key).filter fun load => (m.relation? load).isSome

def update (m : RelationMemo κ) (load : Nat) (f : RelationLoad κ → RelationLoad κ) : RelationMemo κ :=
  { m with loads := m.loads.modify load f }

/-! ### Loads -/

def request (m : RelationMemo κ) (key : String) (caller : κ) : RelationAnswer × RelationMemo κ :=
  match m.index.get? key with
  | some load =>
    if (m.relation? load).isSome then (.ready load, m)
    else (.waiting, m.update load fun l => { l with waiting := l.waiting ++ [caller] })
  | none =>
    (.start m.loads.length,
      { index := m.index.set key m.loads.length, loads := m.loads ++ [{ waiting := [caller] }] })

/-- Ends a load; gives those who have waited for it. After a failure the next caller starts anew. -/
def complete (m : RelationMemo κ) (key : String) (load : Nat) (result : Except Error (List Pointer)) :
    List κ × RelationMemo κ :=
  let waiting := ((m.loads[load]?).map (·.waiting)).getD []
  match result with
  | .ok pointers => (waiting, m.update load fun _ => { relation := some (Relation.ofList pointers) })
  | .error _ =>
    (waiting, { m.update load (fun l => { l with waiting := [] }) with index := m.index.erase key })

/-! ### Changes -/

def change (m : RelationMemo κ) (key : String) (f : Relation → Relation) : RelationMemo κ :=
  match m.loaded? key with
  | some load => m.update load fun l => { l with relation := l.relation.map f }
  | none => m

def addMember (m : RelationMemo κ) (key : String) (owner : Ref) (member : Pointer) : RelationMemo κ :=
  (m.change (keyFor key owner member.className.plainDisplay) (·.add member)).change
    (inverseKeyFor key owner.className.plainDisplay member.toRef) (·.add { toRef := owner })

def removeMember (m : RelationMemo κ) (key : String) (owner : Ref) (member : Pointer) : RelationMemo κ :=
  (m.change (keyFor key owner member.className.plainDisplay) (·.remove member.objectId)).change
    (inverseKeyFor key owner.className.plainDisplay member.toRef) (·.remove owner.objectId)

/-- How an owner shows inside the keys of its relations. -/
def ownerPiece (owner : Ref) : String :=
  s!"-{owner.className.plainDisplay}/{owner.objectId.plainDisplay}-"

/-- Forgets every relation, loads that run included. -/
def clear (m : RelationMemo κ) : RelationMemo κ := { m with index := [] }

/-- Forgets the loaded relations whose key mentions the owner. -/
def forget (m : RelationMemo κ) (owner : Ref) : RelationMemo κ :=
  { m with index := m.index.filter fun entry =>
      !(Text.hasPiece (ownerPiece owner).toList entry.1.toList && (m.relation? entry.2).isSome) }

end RelationMemo

end RecordCache
