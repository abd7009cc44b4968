import RecordCache.Argument.Reader
import RecordCache.Constraint

/-!
Constraints written as documents. A document names the kind of its constraint, its key, and what that
kind needs besides: a value, a list of values, or the documents of a set of constraints.
-/

namespace RecordCache.Constraint.Reader

open Argument.Reader (field text)

def flag (j : Json) (key : String) : Bool := ((j.get? key).map Json.truthy).getD true

def pattern (j pattern : Json) : Except Error Json :=
  match j.get? "flags" with
  | none => .ok pattern
  | some _ => Pattern.json <$> Pattern.compile pattern (Pattern.optionsOfLetters (text j "flags"))

/-- A constraint of a set on a class. `arg` reads arguments, and `set` gives the set of a class that a
field holds. -/
def ofKind (className : String) (j : Json) (arg : Json → Except Error Json)
    (set : String → String → Except Error ConstraintSet) : Except Error Constraint := do
  let key := text j "key"
  let comparing (make : Value → Constraint) := do Constraint.ofArgument make (← arg (field j "value"))
  let values (make : List Value → Constraint) := do
    return make (← Constraint.valuesOf (← arg (field j "values")))
  let side (name : String) := set (((j.get? (name ++ "_class")).bind Json.string?).getD className) name
  let inner (make : String → ConstraintSet → Constraint) := make (text j "match_key") <$> set (text j "class") "inner"
  match text j "c" with
  | "EqualTo" => comparing (.equalTo key)
  | "GreaterThan" => comparing (.greaterThan key)
  | "LessThan" => comparing (.lessThan key)
  | "In" => values (.oneOf key)
  | "NotIn" => values (.noneOf key)
  | "Exists" => return .present key (flag j "exists")
  | "MatchRegex" => Constraint.ofPattern key (← pattern j (← arg (field j "pattern"))) {}
  | "RelatedTo" => return .relatedTo key (← arg (field j "pointer"))
  | "Or" => return .either (← side "left") (← side "right")
  | "MatchQuery" => inner (.selected key)
  | _ => inner (.notSelected key)

mutual

def read (arg : Json → Except Error Json) : Json → String → Except Error Constraint
  | .object fields, className =>
    ofKind className (.object fields) arg fun inner name => do
      return ⟨inner, ← readField arg fields inner name⟩
  | j, className => ofKind className j arg fun inner _ => .ok ⟨inner, []⟩

def readItems (arg : Json → Except Error Json) : List Json → String → Except Error (List Constraint)
  | [], _ => .ok []
  | j :: rest, className => do return (← read arg j className) :: (← readItems arg rest className)

def readList (arg : Json → Except Error Json) : Json → String → Except Error (List Constraint)
  | .array items, className => readItems arg items className
  | _, _ => .ok []

def readField (arg : Json → Except Error Json) :
    List (String × Json) → String → String → Except Error (List Constraint)
  | [], _, _ => .ok []
  | (name, j) :: rest, className, key =>
    if name = key then readList arg j className else readField arg rest className key

end

def readSet (arg : Json → Except Error Json) (className : String) (items : List Json) :
    Except Error ConstraintSet := return ⟨className, ← readItems arg items className⟩

end RecordCache.Constraint.Reader
