import RecordCache.Argument

/-!
Constraints on records, and sets of them that hold together and are scoped to one class. A
constraint may hold such sets in turn: the sides of a disjunction, or the inner set of a sub-query.
-/

namespace RecordCache

structure Conjunction (α : Type) where
  className : String
  constraints : List α

inductive Constraint
  /-- A condition that sets the clauses of a request owns the list of this number: see `ClauseLists`. -/
  | equalTo (key : String) (value : Value) (own : Option Nat := none)
  | greaterThan (key : String) (value : Value)
  | lessThan (key : String) (value : Value)
  | present (key : String) (expected : Bool)
  | matching (key : String) (pattern : Pattern)
  | oneOf (key : String) (values : List Value)
  | noneOf (key : String) (values : List Value)
  | either (left right : Conjunction Constraint)
  /-- Only an owner that is a value has a form on the wire. -/
  | relatedTo (key : String) (owner : Json)
  | selected (key matchKey : String) (inner : Conjunction Constraint)
  | notSelected (key matchKey : String) (inner : Conjunction Constraint)

abbrev ConstraintSet := Conjunction Constraint

namespace Constraint

def kind : Constraint → String
  | .equalTo _ _ _ => "EqualTo"
  | .greaterThan _ _ => "GreaterThan"
  | .lessThan _ _ => "LessThan"
  | .present _ _ => "Exists"
  | .matching _ _ => "MatchRegex"
  | .oneOf _ _ => "In"
  | .noneOf _ _ => "NotIn"
  | .either _ _ => "Or"
  | .relatedTo _ _ => "RelatedTo"
  | .selected _ _ _ => "MatchQuery"
  | .notSelected _ _ _ => "DoNotMatchQuery"

mutual

/-- Whether cached records can decide the constraint, sub-queries aside. Equality to a pointer rests
on data that only the server has. -/
def allowsLocal : Constraint → Bool
  | .equalTo _ (.pointer _) _ => false
  | .relatedTo _ _ => false
  | .either left right => setAllowsLocal left && setAllowsLocal right
  | _ => true

def setAllowsLocal : Conjunction Constraint → Bool
  | ⟨_, constraints⟩ => allAllowLocal constraints

def allAllowLocal : List Constraint → Bool
  | [] => true
  | c :: rest => allowsLocal c && allAllowLocal rest

end

mutual

def hasSubQueries : Constraint → Bool
  | .selected _ _ _ => true
  | .notSelected _ _ _ => true
  | .either left right => setHasSubQueries left || setHasSubQueries right
  | _ => false

def setHasSubQueries : Conjunction Constraint → Bool
  | ⟨_, constraints⟩ => anyHasSubQueries constraints

def anyHasSubQueries : List Constraint → Bool
  | [] => false
  | c :: rest => hasSubQueries c || anyHasSubQueries rest

end

def sameValues : List Value → List Value → Bool
  | [], [] => true
  | a :: as, b :: bs => a.same b && sameValues as bs
  | _, _ => false

mutual

def same : Constraint → Constraint → Bool
  | .equalTo k v _, .equalTo k' v' _ => k == k' && v.same v'
  | .greaterThan k v, .greaterThan k' v' => k == k' && v.same v'
  | .lessThan k v, .lessThan k' v' => k == k' && v.same v'
  | .present k b, .present k' b' => k == k' && b == b'
  | .matching k p, .matching k' p' => k == k' && p.same p'
  | .oneOf k vs, .oneOf k' vs' => k == k' && sameValues vs vs'
  | .noneOf k vs, .noneOf k' vs' => k == k' && sameValues vs vs'
  | .either l r, .either l' r' => sameSet l l' && sameSet r r'
  | .relatedTo k o, .relatedTo k' o' => k == k' && o.alike o'
  | .selected k m i, .selected k' m' i' => k == k' && m == m' && sameSet i i'
  | .notSelected k m i, .notSelected k' m' i' => k == k' && m == m' && sameSet i i'
  | _, _ => false

def sameSet : Conjunction Constraint → Conjunction Constraint → Bool
  | ⟨c, constraints⟩, other => c == other.className && sameAll constraints other.constraints

def sameAll : List Constraint → List Constraint → Bool
  | [], [] => true
  | a :: as, b :: bs => same a b && sameAll as bs
  | _, _ => false

end

def ofArgument (make : Value → Constraint) (value : Json) : Except Error Constraint :=
  make <$> Value.ofArgument value

def ofPattern (key : String) (pattern : Json) (options : Pattern.Options) : Except Error Constraint :=
  match pattern with
  | .string _ => Constraint.matching key <$> Pattern.compile pattern options
  | .other (.pattern _) _ => Constraint.matching key <$> Pattern.compile pattern {}
  | _ => .error (.query .patternShape)

def valuesOf (values : Json) : Except Error (List Value) := do (← values.iterate).mapM Value.ofArgument

end Constraint

namespace Conjunction

def isEmpty {α : Type} (s : Conjunction α) : Bool := s.constraints.isEmpty

def add {α : Type} (s : Conjunction α) (c : α) : Conjunction α :=
  { s with constraints := s.constraints ++ [c] }

end Conjunction

namespace ConstraintSet

def allowsLocal (s : ConstraintSet) : Bool := Constraint.setAllowsLocal s

def hasSubQueries (s : ConstraintSet) : Bool := Constraint.setHasSubQueries s

def same (a b : ConstraintSet) : Bool := Constraint.sameSet a b

end ConstraintSet

end RecordCache
