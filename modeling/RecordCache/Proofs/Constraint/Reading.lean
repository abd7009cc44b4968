import RecordCache.Constraint.Match
import RecordCache.Constraint.Where
import RecordCache.Proofs.Except

/-!
# What a `where` object says

`Where.reads` takes a `where` object as a predicate on records: every operator of a condition holds, every
clause of `$and`, and at least one clause of `$or`. An operator stands for the constraint on the decoded
argument. `Constraint.fits` is the outcome of evaluating a constraint, and `answers` tells the records on
which evaluating it does not fail.
-/

namespace RecordCache

namespace Constraint

/-- The outcome of evaluating a constraint on a record; one that cannot be evaluated does not fit. -/
def isMet (r : Record) (c : Constraint) : Bool :=
  match holds r c with
  | .ok b => b
  | .error _ => false

mutual

/-- The outcome, side by side for the sides of a disjunction. -/
def fits (r : Record) : Constraint → Bool
  | .either left right => setFits r left || setFits r right
  | c => isMet r c

def setFits (r : Record) : Conjunction Constraint → Bool
  | ⟨_, constraints⟩ => allFit r constraints

def allFit (r : Record) : List Constraint → Bool
  | [] => true
  | c :: rest => fits r c && allFit r rest

end

/-- Whether the values of a field can be read and looked up in a set. -/
def canBeLookedUp (r : Record) (key : String) : Bool :=
  match r.candidates key with
  | .ok values => values.all Value.isKey
  | .error _ => false

/-- Whether the values of a field can be read. -/
def canBeRead (r : Record) (key : String) : Bool :=
  match r.candidates key with
  | .ok _ => true
  | .error _ => false

mutual

/-- The fields that the constraint names can be read. What is looked up in a set, or stands in one, has
plain parts. -/
def answers (r : Record) : Constraint → Bool
  | .equalTo key _ _ => canBeRead r key
  | .greaterThan key _ => canBeRead r key
  | .lessThan key _ => canBeRead r key
  | .present _ _ => true
  | .matching key p => canBeRead r key && !p.isOctets
  | .oneOf key values => canBeLookedUp r key && values.all Value.isKey
  | .noneOf key values => canBeLookedUp r key && values.all Value.isKey
  | .either left right => setAnswers r left && setAnswers r right
  | .relatedTo _ _ => false
  | .selected _ _ _ => false
  | .notSelected _ _ _ => false

def setAnswers (r : Record) : Conjunction Constraint → Bool
  | ⟨_, constraints⟩ => allAnswer r constraints

def allAnswer (r : Record) : List Constraint → Bool
  | [] => true
  | c :: rest => answers r c && allAnswer r rest

end

end Constraint

namespace Where

/-- Keys of fields, as against those of clauses. -/
def isFieldKey (key : String) : Bool := !key.startsWith "$"

/-- The constraint that an operator stands for. The letters are those that come with a pattern. -/
def operation? (key letters : String) : String → Json → Option Constraint
  | "$eq", j => (Value.decode j).toOption.map (Constraint.equalTo key ·)
  | "$gt", j => (Value.decode j).toOption.map (Constraint.greaterThan key)
  | "$lt", j => (Value.decode j).toOption.map (Constraint.lessThan key)
  | "$exists", .bool expected => some (.present key expected)
  | "$in", .array items => (items.mapM Value.decode).toOption.map (Constraint.oneOf key)
  | "$nin", .array items => (items.mapM Value.decode).toOption.map (Constraint.noneOf key)
  | "$regex", j =>
      (Pattern.compile j (Pattern.optionsOfLetters letters)).toOption.map (Constraint.matching key)
  | _, _ => none

/-- The letters that come with the pattern of a condition. -/
def letters (operators : Fields Json) : String := ((operators.get? "$options").bind Json.string?).getD ""

/-- Options say nothing by themselves. -/
def operatorHolds (r : Record) (key letters op : String) (argument : Json) : Bool :=
  op == "$options" || (operation? key letters op argument).any (Constraint.isMet r)

/-- Every operator holds. -/
def conditionHolds (r : Record) (key : String) (condition : Json) : Bool :=
  (operators condition).all fun (op, argument) =>
    operatorHolds r key (letters (operators condition)) op argument

mutual

/-- Every entry of a clause holds. -/
def clauseReads (r : Record) : Json → Bool
  | .object entries => entriesRead r entries
  | _ => false

def entriesRead (r : Record) : List (String × Json) → Bool
  | [] => true
  | (key, j) :: rest => entryReads r key j && entriesRead r rest

def entryReads (r : Record) (key : String) : Json → Bool
  | .array clauses =>
    if key = "$and" then allRead r clauses
    else if key = "$or" then anyReads r clauses
    else isFieldKey key && conditionHolds r key (.array clauses)
  | j => isFieldKey key && conditionHolds r key j

def allRead (r : Record) : List Json → Bool
  | [] => true
  | clause :: rest => clauseReads r clause && allRead r rest

def anyReads (r : Record) : List Json → Bool
  | [] => false
  | clause :: rest => clauseReads r clause || anyReads r rest

end

/-- The reading of a `where` object on a record. -/
def reads (w : Where) (r : Record) : Bool := entriesRead r w

theorem entriesRead_iff (r : Record) (entries : List (String × Json)) :
    entriesRead r entries = true ↔ ∀ e ∈ entries, entryReads r e.1 e.2 = true := by
  induction entries with
  | nil => simp [entriesRead]
  | cons e rest ih => simp [entriesRead, ih]

theorem entryReads_clauses (r : Record) (clauses : List Json) :
    entryReads r "$and" (.array clauses) = allRead r clauses := by
  rw [entryReads, if_pos rfl]

theorem entryReads_alternatives (r : Record) (clauses : List Json) :
    entryReads r "$or" (.array clauses) = anyReads r clauses := by
  rw [entryReads, if_neg (by decide), if_pos rfl]

theorem ne_of_isFieldKey {key : String} (h : isFieldKey key = true) : key ≠ "$and" ∧ key ≠ "$or" := by
  constructor <;> rintro rfl <;> revert h <;> decide +kernel

theorem entryReads_condition (r : Record) {key : String} (h : isFieldKey key = true) (j : Json) :
    entryReads r key j = conditionHolds r key j := by
  obtain ⟨hAnd, hOr⟩ := ne_of_isFieldKey h
  cases j <;> simp [entryReads, h, hAnd, hOr]

end Where

namespace Constraint

theorem allFit_iff (r : Record) (constraints : List Constraint) :
    allFit r constraints = true ↔ ∀ c ∈ constraints, fits r c = true := by
  induction constraints with
  | nil => simp [allFit]
  | cons c rest ih => simp [allFit, ih]

/-! ### Evaluating does not fail -/

theorem exists_of_canBeRead {r : Record} {key : String} (h : canBeRead r key = true) :
    ∃ values, r.candidates key = .ok values := by
  rw [canBeRead] at h
  split at h
  · next values hValues => exact ⟨values, hValues⟩
  · cases h

theorem exists_of_canBeLookedUp {r : Record} {key : String} (h : canBeLookedUp r key = true) :
    ∃ values, r.candidates key = .ok values ∧ ∀ v ∈ values, v.isKey = true := by
  rw [canBeLookedUp] at h
  split at h
  · next values hValues => exact ⟨values, hValues, List.all_eq_true.mp h⟩
  · cases h

theorem anyCandidate_returns {r : Record} {key : String} (h : canBeRead r key = true)
    (test : Value → Bool) :
    ∃ b, anyCandidate r key test = .ok b := by
  obtain ⟨values, hValues⟩ := exists_of_canBeRead h
  refine ⟨values.any test, ?_⟩
  rw [anyCandidate, hValues]
  rfl

theorem inSet_returns (values : List Value) {candidate : Value} (h : candidate.isKey = true) :
    ∃ b, inSet values candidate = .ok b := by
  unfold inSet
  rw [h]
  exact ⟨_, rfl⟩

theorem anyInSet_returns (values : List Value) {candidates : List Value}
    (h : ∀ v ∈ candidates, v.isKey = true) :
    ∃ b, anyInSet values candidates = .ok b := by
  induction candidates with
  | nil => exact ⟨false, rfl⟩
  | cons c rest ih =>
    obtain ⟨b, hRest⟩ := ih fun v hv => h v (List.mem_cons_of_mem _ hv)
    obtain ⟨found, hFound⟩ := inSet_returns values (h c List.mem_cons_self)
    rw [anyInSet, hFound, hRest]
    cases found
    · exact ⟨b, rfl⟩
    · exact ⟨true, rfl⟩

theorem containsField_returns {r : Record} {key : String} {values : List Value}
    (h : canBeLookedUp r key = true)
    (hValues : values.all Value.isKey = true) : ∃ b, containsField r key values = .ok b := by
  obtain ⟨candidates, hCandidates, hKeys⟩ := exists_of_canBeLookedUp h
  obtain ⟨b, hFound⟩ := anyInSet_returns values hKeys
  have hNone : (values.any fun v => !v.isKey) = false := by
    rw [List.any_eq_false]
    intro v hv
    simpa using List.all_eq_true.mp hValues v hv
  refine ⟨b, ?_⟩
  rw [containsField, hNone, hCandidates]
  exact congrArg (Except.mapError Error.data) hFound

theorem anyTextFound_returns {p : Pattern} (hp : p.isOctets = false) (values : List Value) :
    ∃ b, anyTextFound p values = .ok b := by
  fun_induction anyTextFound p values with
  | case1 => exact ⟨false, rfl⟩
  | case2 s rest ih =>
    obtain ⟨b, hRest⟩ := ih
    rw [Pattern.search, hp, hRest]
    cases p.program.foundIn s
    · exact ⟨b, rfl⟩
    · exact ⟨true, rfl⟩
  | case3 v rest _ ih => exact ih

theorem holds_eq_isMet {r : Record} {c : Constraint}
    (h : ∃ b, holds r c = .ok b) : holds r c = .ok (isMet r c) := by
  obtain ⟨b, hHolds⟩ := h
  rw [isMet, hHolds]

mutual

theorem holds_eq_fits {r : Record} : ∀ {c : Constraint}, answers r c = true → holds r c = .ok (fits r c)
  | .equalTo _ _ _, h => holds_eq_isMet (anyCandidate_returns h _)
  | .greaterThan _ _, h => holds_eq_isMet (anyCandidate_returns h _)
  | .lessThan _ _, h => holds_eq_isMet (anyCandidate_returns h _)
  | .present _ _, _ => holds_eq_isMet ⟨_, rfl⟩
  | .matching key p, h => by
    rw [answers, Bool.and_eq_true, Bool.not_eq_true'] at h
    obtain ⟨values, hValues⟩ := exists_of_canBeRead h.1
    obtain ⟨b, hFound⟩ := anyTextFound_returns h.2 values
    refine holds_eq_isMet ⟨b, ?_⟩
    rw [holds, hValues]
    exact congrArg (Except.mapError Error.data) hFound
  | .oneOf key values, h => by
    rw [answers, Bool.and_eq_true] at h
    exact holds_eq_isMet (containsField_returns h.1 h.2)
  | .noneOf key values, h => by
    rw [answers, Bool.and_eq_true] at h
    obtain ⟨b, hFound⟩ := containsField_returns h.1 h.2
    refine holds_eq_isMet ⟨!b, ?_⟩
    rw [holds, hFound]
    rfl
  | .either left right, h => by
    rw [answers, Bool.and_eq_true] at h
    rw [holds, fits, setHolds_eq_setFits h.1, setHolds_eq_setFits h.2]
    cases setFits r left <;> rfl
  | .relatedTo _ _, h => by cases h
  | .selected _ _ _, h => by cases h
  | .notSelected _ _ _, h => by cases h

theorem setHolds_eq_setFits {r : Record} :
    ∀ {s : Conjunction Constraint}, setAnswers r s = true → setHolds r s = .ok (setFits r s)
  | ⟨_, constraints⟩, h => by
    rw [setHolds, setFits]
    exact allHold_eq_allFit h

theorem allHold_eq_allFit {r : Record} :
    ∀ {constraints : List Constraint}, allAnswer r constraints = true →
      allHold r constraints = .ok (allFit r constraints)
  | [], _ => rfl
  | c :: rest, h => by
    rw [allAnswer, Bool.and_eq_true] at h
    rw [allHold, allFit, holds_eq_fits h.1, allHold_eq_allFit h.2]
    cases fits r c <;> rfl

end

end Constraint

end RecordCache
