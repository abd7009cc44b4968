import RecordCache.Constraint

/-!
Resolving sub-queries into plain membership: `selected` becomes `oneOf`, `notSelected` becomes
`noneOf`, over the values that a resolver finds. The resolver gets the key to collect, the inner set,
and the action that resolves the inner set in turn, which it runs only if it needs the result.
-/

namespace RecordCache

namespace Constraint

variable {m : Type → Type} [Monad m]

abbrev Resolver (m : Type → Type) :=
  String → Conjunction Constraint → m (Conjunction Constraint) → m (List Value)

mutual

def resolveWith (find : Resolver m) : Constraint → m Constraint
  | .either left right => do
    let left ← resolveSetWith find left
    return .either left (← resolveSetWith find right)
  | .selected key matchKey inner => do
    return .oneOf key (← find matchKey inner (resolveSetWith find inner))
  | .notSelected key matchKey inner => do
    return .noneOf key (← find matchKey inner (resolveSetWith find inner))
  | c => return c

def resolveSetWith (find : Resolver m) : Conjunction Constraint → m (Conjunction Constraint)
  | ⟨className, constraints⟩ => do return ⟨className, ← resolveAllWith find constraints⟩

def resolveAllWith (find : Resolver m) : List Constraint → m (List Constraint)
  | [] => return []
  | c :: rest => do
    let c ← resolveWith find c
    return c :: (← resolveAllWith find rest)

end

end Constraint

namespace ConstraintSet

def resolveWith {m : Type → Type} [Monad m] (s : ConstraintSet) (find : Constraint.Resolver m) :
    m ConstraintSet :=
  Constraint.resolveSetWith find s

end ConstraintSet

end RecordCache
