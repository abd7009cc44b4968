import RecordCache.Constraint

/-!
How constraints show in messages.
-/

namespace RecordCache

namespace Constraint

open Thing (call)

def bracketed (items : List String) : String := "[" ++ Text.join ", " items ++ "]"

mutual

def display : Constraint → String
  | .equalTo key value _ => call "EqualTo" [Text.quoted key, value.display]
  | .greaterThan key value => call "GreaterThan" [Text.quoted key, value.display]
  | .lessThan key value => call "LessThan" [Text.quoted key, value.display]
  | .present key expected => call "Exists" [Text.quoted key, (Json.bool expected).display]
  | .matching key p =>
    call "MatchRegex" [Text.quoted key, p.source.display, Text.quoted p.optionLetters]
  | .oneOf key values => call "In" [Text.quoted key, bracketed (values.map Value.display)]
  | .noneOf key values => call "NotIn" [Text.quoted key, bracketed (values.map Value.display)]
  | .either left right => call "Or" [displaySet left, displaySet right]
  | .relatedTo key owner => call "RelatedTo" [Text.quoted key, owner.display]
  | .selected key matchKey inner =>
    call "MatchQuery" [Text.quoted key, Text.quoted matchKey, displaySet inner]
  | .notSelected key matchKey inner =>
    call "DoNotMatchQuery" [Text.quoted key, Text.quoted matchKey, displaySet inner]

def displaySet : Conjunction Constraint → String
  | ⟨className, constraints⟩ =>
    call "ConstraintSet" [Text.quoted className, bracketed (displayAll constraints)]

def displayAll : List Constraint → List String
  | [] => []
  | c :: rest => display c :: displayAll rest

end

end Constraint

namespace ConstraintSet

def display (s : ConstraintSet) : String := Constraint.displaySet s

end ConstraintSet

end RecordCache
