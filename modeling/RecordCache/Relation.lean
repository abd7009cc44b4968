import RecordCache.Value

/-!
The members of a relation: an ordered set of pointers, told apart by their ids.
-/

namespace RecordCache

structure Relation where
  pointers : List Pointer := []

namespace Relation

def contains (r : Relation) (id : Json) : Bool := r.pointers.any fun p => p.objectId.same id

def remove (r : Relation) (id : Json) : Relation := ⟨r.pointers.filter fun p => !p.objectId.same id⟩

/-- A member that is there already moves to the end. -/
def add (r : Relation) (p : Pointer) : Relation := ⟨(r.remove p.objectId).pointers ++ [p]⟩

def ofList (pointers : List Pointer) : Relation := pointers.foldl add {}

def size (r : Relation) : Nat := r.pointers.length

def display (r : Relation) : String := "Relation([" ++ Text.join ", " (r.pointers.map Pointer.display) ++ "])"

end Relation

end RecordCache
