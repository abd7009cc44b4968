import RecordCache.Constraint

/-!
# What only the server can decide

A set may be evaluated on cached records just where no constraint of it, nor of the sides of its disjunctions
at any depth, needs the server. The inner sets of sub-queries do not count.
-/

namespace RecordCache.Constraint

variable {c c' : Constraint} {s : ConstraintSet}

/-- The constraint stands in the set, or in a side of a disjunction that does. -/
inductive Within (c : Constraint) : ConstraintSet → Prop
  | here {s : ConstraintSet} (h : c ∈ s.constraints) : Within c s
  | left {s left right : ConstraintSet} (h : .either left right ∈ s.constraints) (hIn : Within c left) : Within c s
  | right {s left right : ConstraintSet} (h : .either left right ∈ s.constraints) (hIn : Within c right) : Within c s

/-- A relation, or the equality to a pointer. -/
def ServerOnly : Constraint → Prop
  | .relatedTo _ _ => True
  | .equalTo _ (.pointer _) _ => True
  | _ => False

theorem Within.mono {s' : ConstraintSet} (h : Within c s) (hSubset : s.constraints ⊆ s'.constraints) : Within c s' := by
  cases h with
  | here h => exact .here (hSubset h)
  | left h hIn => exact .left (hSubset h) hIn
  | right h hIn => exact .right (hSubset h) hIn

theorem allAllowLocal_iff (constraints : List Constraint) :
    allAllowLocal constraints = true ↔ ∀ c ∈ constraints, allowsLocal c = true := by
  induction constraints with
  | nil => simp [allAllowLocal]
  | cons c rest ih => simp [allAllowLocal, ih]

theorem allowsLocal_of_mem (h : setAllowsLocal s = true) (hc : c ∈ s.constraints) : allowsLocal c = true := by
  obtain ⟨className, constraints⟩ := s
  exact (allAllowLocal_iff constraints).mp h c hc

theorem not_serverOnly_of_allowsLocal (h : allowsLocal c = true) : ¬ ServerOnly c := by
  cases c with
  | equalTo key value own => cases value <;> first | exact id | cases h
  | relatedTo key owner => cases h
  | _ => exact id

theorem not_serverOnly_of_within (hIn : Within c s) (h : setAllowsLocal s = true) : ¬ ServerOnly c := by
  induction hIn with
  | here hMem => exact not_serverOnly_of_allowsLocal (allowsLocal_of_mem h hMem)
  | left hMem _ ih =>
    have hSides := allowsLocal_of_mem h hMem
    rw [allowsLocal, Bool.and_eq_true] at hSides
    exact ih hSides.1
  | right hMem _ ih =>
    have hSides := allowsLocal_of_mem h hMem
    rw [allowsLocal, Bool.and_eq_true] at hSides
    exact ih hSides.2

mutual

theorem allowsLocal_of_within (className : String) : ∀ {c : Constraint},
    (∀ c', Within c' ⟨className, [c]⟩ → ¬ ServerOnly c') → allowsLocal c = true
  | .equalTo _ value _, h => by
    cases value with
    | pointer p => exact absurd trivial (h _ (.here List.mem_cons_self))
    | _ => rfl
  | .relatedTo _ _, h => absurd trivial (h _ (.here List.mem_cons_self))
  | .either left right, h => by
    rw [allowsLocal, Bool.and_eq_true]
    exact ⟨setAllowsLocal_of_within fun c' hIn => h c' (.left List.mem_cons_self hIn),
      setAllowsLocal_of_within fun c' hIn => h c' (.right List.mem_cons_self hIn)⟩
  | .greaterThan _ _, _ => rfl
  | .lessThan _ _, _ => rfl
  | .present _ _, _ => rfl
  | .matching _ _, _ => rfl
  | .oneOf _ _, _ => rfl
  | .noneOf _ _, _ => rfl
  | .selected _ _ _, _ => rfl
  | .notSelected _ _ _, _ => rfl

theorem setAllowsLocal_of_within : ∀ {s : Conjunction Constraint},
    (∀ c', Within c' s → ¬ ServerOnly c') → setAllowsLocal s = true
  | ⟨className, _⟩, h => by
    rw [setAllowsLocal]
    exact allAllowLocal_of_within className h

theorem allAllowLocal_of_within (className : String) : ∀ {constraints : List Constraint},
    (∀ c', Within c' ⟨className, constraints⟩ → ¬ ServerOnly c') → allAllowLocal constraints = true
  | [], _ => rfl
  | c :: rest, h => by
    rw [allAllowLocal, Bool.and_eq_true]
    exact ⟨allowsLocal_of_within className fun c' hIn => h c' (hIn.mono (by simp)),
      allAllowLocal_of_within className fun c' hIn => h c' (hIn.mono (by simp))⟩

end

theorem setAllowsLocal_iff (s : ConstraintSet) : setAllowsLocal s = true ↔ ∀ c, Within c s → ¬ ServerOnly c := by
  constructor
  · intro h c hIn
    exact not_serverOnly_of_within hIn h
  · exact setAllowsLocal_of_within

end RecordCache.Constraint
