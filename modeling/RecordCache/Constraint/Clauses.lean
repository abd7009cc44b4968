import RecordCache.Constraint

/-!
Lists of clauses. A condition that gives the clauses of a request, as a list, keeps that list: clauses
which composing adds to it stay there, in every set that has the condition. `ClauseLists` holds the
lists by number, `own` numbers the conditions that have none, and `settled` is a set with its lists as
they are now.
-/

namespace RecordCache

abbrev ClauseLists := List (List Json)

namespace Constraint

def clauseKey : String := "$and"

end Constraint

namespace Json

mutual

def expand (content : Nat → Json) : Json → Json
  | .array items => .array (expandItems content items)
  | .object fields => .object (expandFields content fields)
  | .other (.clauses n) _ => content n
  | .other thing parts => .other thing (expandItems content parts)
  | j => j

def expandItems (content : Nat → Json) : List Json → List Json
  | [] => []
  | item :: rest => expand content item :: expandItems content rest

def expandFields (content : Nat → Json) : List (String × Json) → List (String × Json)
  | [] => []
  | (name, value) :: rest => (name, expand content value) :: expandFields content rest

end

end Json

namespace ClauseLists

/-- Lists may hold one another, so many levels deep. -/
def resolve (lists : ClauseLists) : Nat → Json → Json
  | 0, j => j
  | depth + 1, j => j.expand fun n => lists.resolve depth (.array (lists.getD n []))

def read (lists : ClauseLists) (j : Json) : Json := lists.resolve (lists.length + 1) j

def add (lists : ClauseLists) (n : Nat) (clause : Json) : ClauseLists :=
  lists.modify n fun clauses => clauses ++ [clause]

end ClauseLists

namespace Constraint

mutual

def own : Constraint → StateM ClauseLists Constraint
  | .equalTo key (.raw (.array items)) none => do
    if key ≠ clauseKey then return .equalTo key (.raw (.array items))
    let lists ← get
    set (lists ++ [items])
    return .equalTo key (.raw (.array items)) (some lists.length)
  | .either left right => do
    let left ← ownSet left
    return .either left (← ownSet right)
  | .selected key matchKey inner => do return .selected key matchKey (← ownSet inner)
  | .notSelected key matchKey inner => do return .notSelected key matchKey (← ownSet inner)
  | c => return c

def ownSet : Conjunction Constraint → StateM ClauseLists (Conjunction Constraint)
  | ⟨className, constraints⟩ => do return ⟨className, ← ownAll constraints⟩

def ownAll : List Constraint → StateM ClauseLists (List Constraint)
  | [] => return []
  | c :: rest => do
    let c ← own c
    return c :: (← ownAll rest)

end

mutual

def settled (lists : ClauseLists) : Constraint → Constraint
  | .equalTo key _ (some n) => .equalTo key (.raw (lists.read (.other (.clauses n) []))) (some n)
  | .either left right => .either (settledSet lists left) (settledSet lists right)
  | .selected key matchKey inner => .selected key matchKey (settledSet lists inner)
  | .notSelected key matchKey inner => .notSelected key matchKey (settledSet lists inner)
  | c => c

def settledSet (lists : ClauseLists) : Conjunction Constraint → Conjunction Constraint
  | ⟨className, constraints⟩ => ⟨className, settledAll lists constraints⟩

def settledAll (lists : ClauseLists) : List Constraint → List Constraint
  | [] => []
  | c :: rest => settled lists c :: settledAll lists rest

end

end Constraint

namespace ConstraintSet

def own (s : ConstraintSet) : StateM ClauseLists ConstraintSet := Constraint.ownSet s

def settled (s : ConstraintSet) (lists : ClauseLists) : ConstraintSet := Constraint.settledSet lists s

end ConstraintSet

end RecordCache
