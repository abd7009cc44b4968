import RecordCache.Proofs.Constraint.Reading
import RecordCache.Proofs.Value.Equality

/-!
# What a constraint with sub-queries says

A database gives each class its records, and the relations that only the server knows. `satisfies` is the
meaning of a constraint there: a sub-query is met when one of the values that its records offer is the
field. Looking a field up among the distinct values of many records comes to the same.
-/

namespace RecordCache

namespace Value

def isNull : Value → Bool
  | .scalar .null => true
  | _ => false

/-- A scalar, a date, or a pointer whose parts are texts. -/
def isPlain : Value → Bool
  | .scalar _ => true
  | .date _ => true
  | .pointer p => p.className.string?.isSome && p.objectId.string?.isSome
  | _ => false

theorem isPlain_pointer {p : Pointer} (h : (Value.pointer p).isPlain = true) :
    ∃ c i, p.className = .string c ∧ p.objectId = .string i := by
  have hString {j : Json} (hj : j.string?.isSome = true) : ∃ s, j = .string s := by
    cases j <;> simp_all [Json.string?]
  rw [isPlain, Bool.and_eq_true] at h
  obtain ⟨c, hClass⟩ := hString h.1
  obtain ⟨i, hId⟩ := hString h.2
  exact ⟨c, i, hClass, hId⟩

theorem isKey_of_isPlain {v : Value} (h : v.isPlain = true) : v.isKey = true := by
  cases v with
  | pointer p =>
    obtain ⟨c, i, hClass, hId⟩ := isPlain_pointer h
    rw [isKey, Ref.isAtomic, hClass, hId]
    rfl
  | _ => rfl

theorem hasDocuments_of_isPlain {v : Value} (h : v.isPlain = true) : v.hasDocuments = true := by
  cases v with
  | pointer p =>
    obtain ⟨c, i, hClass, hId⟩ := isPlain_pointer h
    rw [hasDocuments, hClass, hId]
    rfl
  | scalar => rfl
  | date => rfl
  | _ => cases h

theorem sameKey_of_same {a b : Value} (hb : b.isPlain = true) (h : a.same b = true) :
    a.sameKey b = true := by
  have hKeyed : b.keyedByContent = true := by
    cases b <;> first | rfl | cases hb
  rw [sameKey, h, keyedByContent_of_same h, hKeyed]
  rfl

end Value

/-- What a server knows: the records of each class, and which of them are in a relation. -/
structure Database where
  records : String → List Record
  related : String → Json → Record → Bool

namespace Constraint

/-- The field has a value that passes. -/
def offers (r : Record) (key : String) (test : Value → Bool) : Bool :=
  match r.typed key with
  | .ok v => !v.isNull && test v
  | .error _ => false

/-- The field of a record is the value that another record has. -/
def meets (r : Record) (key : String) (other : Record) (matchKey : String) : Bool :=
  offers other matchKey fun v => isMet r (.oneOf key [v])

mutual

def satisfies (db : Database) (r : Record) : Constraint → Bool
  | .either left right => setSatisfies db r left || setSatisfies db r right
  | .relatedTo key owner => db.related key owner r
  | .selected key matchKey inner =>
    (db.records inner.className).any fun other => setSatisfies db other inner && meets r key other matchKey
  | .notSelected key matchKey inner =>
    !(db.records inner.className).any fun other => setSatisfies db other inner && meets r key other matchKey
  | c => isMet r c

def setSatisfies (db : Database) (r : Record) : Conjunction Constraint → Bool
  | ⟨_, constraints⟩ => allSatisfied db r constraints

def allSatisfied (db : Database) (r : Record) : List Constraint → Bool
  | [] => true
  | c :: rest => satisfies db r c && allSatisfied db r rest

end

mutual

/-- Evaluating the parts of the constraint on these records does not fail, and what its sub-queries offer is
plain. -/
def Evaluates (db : Database) (records : List Record) : Constraint → Prop
  | .either left right => SetEvaluates db records left ∧ SetEvaluates db records right
  | .relatedTo _ _ => True
  | .selected key matchKey inner =>
    (∀ r ∈ records, canBeLookedUp r key = true) ∧
      (∀ other ∈ db.records inner.className, ∃ v, other.typed matchKey = .ok v ∧ v.isPlain = true) ∧
      SetEvaluates db (db.records inner.className) inner
  | .notSelected key matchKey inner =>
    (∀ r ∈ records, canBeLookedUp r key = true) ∧
      (∀ other ∈ db.records inner.className, ∃ v, other.typed matchKey = .ok v ∧ v.isPlain = true) ∧
      SetEvaluates db (db.records inner.className) inner
  | c => ∀ r ∈ records, ∃ b, holds r c = .ok b

def SetEvaluates (db : Database) (records : List Record) : Conjunction Constraint → Prop
  | ⟨_, constraints⟩ => AllEvaluate db records constraints

def AllEvaluate (db : Database) (records : List Record) : List Constraint → Prop
  | [] => True
  | c :: rest => Evaluates db records c ∧ AllEvaluate db records rest

end

mutual

/-- The inner sets of sub-queries, at any depth. -/
def innerSets : Constraint → List ConstraintSet
  | .either left right => setInnerSets left ++ setInnerSets right
  | .selected _ _ inner => inner :: setInnerSets inner
  | .notSelected _ _ inner => inner :: setInnerSets inner
  | _ => []

def setInnerSets : Conjunction Constraint → List ConstraintSet
  | ⟨_, constraints⟩ => allInnerSets constraints

def allInnerSets : List Constraint → List ConstraintSet
  | [] => []
  | c :: rest => innerSets c ++ allInnerSets rest

end

/-! ### Looking up in a set -/

/-- An element of a set that counts as the candidate, or as the id that it points to. -/
def matchesElement (candidate v : Value) : Bool :=
  candidate.sameKey v ||
    match candidate with
    | .pointer p => (Value.scalar (Scalar.ofJson p.objectId)).sameKey v
    | _ => false

theorem inSet_eq (values : List Value) {candidate : Value} (h : candidate.isKey = true) :
    inSet values candidate = .ok (values.any (matchesElement candidate)) := by
  unfold inSet
  rw [h]
  refine congrArg Except.ok (Bool.eq_iff_iff.mpr ?_)
  cases candidate <;> simp [matchesElement, and_or_left, exists_or]

theorem anyInSet_eq (values : List Value) {candidates : List Value} (h : ∀ v ∈ candidates, v.isKey = true) :
    anyInSet values candidates = .ok (candidates.any fun c => values.any (matchesElement c)) := by
  induction candidates with
  | nil => rfl
  | cons c rest ih =>
    obtain ⟨hc, hRest⟩ := List.forall_mem_cons.mp h
    rw [anyInSet, inSet_eq values hc, ih hRest, List.any_cons]
    cases values.any (matchesElement c) <;> rfl

theorem containsField_eq {r : Record} {key : String} {candidates values : List Value}
    (hCandidates : r.candidates key = .ok candidates) (hKeys : ∀ v ∈ candidates, v.isKey = true)
    (hValues : ∀ v ∈ values, v.isKey = true) :
    containsField r key values = .ok (values.any fun v => candidates.any fun c => matchesElement c v) := by
  have hNone : (values.any fun v => !v.isKey) = false := by
    rw [List.any_eq_false]
    intro v hv
    simpa using hValues v hv
  have hSwap : (candidates.any fun c => values.any (matchesElement c)) =
      values.any fun v => candidates.any fun c => matchesElement c v := by
    rw [Bool.eq_iff_iff]
    simp only [List.any_eq_true]
    exact ⟨fun ⟨c, hc, v, hv, h⟩ => ⟨v, hv, c, hc, h⟩, fun ⟨v, hv, c, hc, h⟩ => ⟨c, hc, v, hv, h⟩⟩
  rw [containsField, hNone, hCandidates, ← hSwap]
  exact congrArg (Except.mapError Error.data) (anyInSet_eq values hKeys)

theorem matchesElement_congr {v w : Value} (hv : v.isPlain = true) (hw : w.isPlain = true)
    (h : v.same w = true) (candidate : Value) :
    matchesElement candidate v = matchesElement candidate w := by
  have hSame (c : Value) : c.sameKey v = c.sameKey w :=
    Value.sameKey_congr (Value.hasDocuments_of_isPlain hv) (Value.hasDocuments_of_isPlain hw)
      (Value.sameKey_of_same hw h) c
  cases candidate <;> simp only [matchesElement, hSame]

end Constraint

end RecordCache
